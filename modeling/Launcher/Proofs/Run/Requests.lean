import Launcher.Proofs.Host.WatchedHost
import Launcher.Proofs.Run.Errors
import Launcher.Rehearsal

/-!
# Requests to end a run

Hosted code can ask for the end of the run with a status: it raises a request to terminate, or it
leaves the process with a whole number (`Cause.requested?`). If it is the first code to fail, then
the request is **granted** (`Run.Granted`): no command is executed behind the one that the code
belongs to, the hooks are called with the status, the process is halted with it, and nothing is
reported but failures of hooks.

There is one exception. The start function of an application that raises a request to terminate is
taken for one with an error. The request is **refused** (`Run.Refused`): its command has an error
line, the commands behind it are executed, and the status is that of any error. So a request is
granted if and only if it is not one to terminate from a start function
(`main_grants_request_iff`).
-/

namespace Launcher

variable {σ : Type}

/-- The status that a failure asks for. -/
def Cause.requested? : Cause → Option Int
  | .terminate status => some status
  | .exit (.whole status) => some status
  | _ => none

/-- The error line of a start function that asks for the end of the run. -/
def Dispatch.refusal (name : String) (status : Int) : String :=
  notStarted name ((Cause.terminate status).name ++ ": " ++ (Cause.terminate status).message)

section Requested

variable {failure : Failure} {status : Int}

/-- A request is owed a closing with its status and without a report. -/
theorem Exit.closingOf_of_requested (announcing : Bool)
    (h : failure.cause.requested? = some status) :
    Exit.closingOf announcing failure = { status } := by
  obtain ⟨cause, frames⟩ := failure
  cases cause with
  | terminate other =>
    cases h
    rfl
  | exit code =>
    cases code <;> cases h
    rfl
  | _ => cases h

theorem Cause.escapes_of_requested (h : failure.cause.requested? = some status) :
    failure.cause.escapes = false := by
  obtain ⟨cause, frames⟩ := failure
  cases cause <;> first | rfl | cases h

/-- A request decides how its command ends, unless it is an error in a start function. -/
theorem Deed.ending?_of_requested {deed : Deed σ} (hcode : ∀ name, deed.code ≠ .body name)
    (hfailure : deed.failure? = some failure) (h : failure.cause.requested? = some status)
    (hpasses : ∀ name, deed.code = .start name → failure.cause ≠ .terminate status) :
    deed.ending? = some (.error failure) := by
  obtain ⟨code, before, failure?⟩ := deed
  obtain rfl : failure? = some failure := hfailure
  cases code with
  | body name => exact absurd rfl (hcode name)
  | start name =>
    obtain ⟨cause, frames⟩ := failure
    cases cause with
    | terminate other =>
      cases h
      exact absurd rfl (hpasses name rfl)
    | exit code => rfl
    | _ => cases h
  | _ => rfl

/-- A request to terminate in a start function makes an error line. -/
theorem Deed.ending?_of_refused {deed : Deed σ} {name : String} (hcode : deed.code = .start name)
    (hfailure : deed.failure? = some failure) (h : failure.cause = .terminate status) :
    deed.ending? = some (.ok (some (Dispatch.refusal name status))) := by
  rw [Deed.ending?, hcode, hfailure]
  show some (if failure.cause.isError then _ else _) = _
  rw [h]
  rfl

end Requested

namespace Run

variable {c : Collaborators σ} {exit : Exit σ} {arguments rest : List String} {p : Argv.Progress}
  {w : World σ}

/-- What a run tells that publishes `rest` and then executes commands. -/
def commandStory (queue : QueueId) (rest : List String)
    (executions : List (Dispatch.Execution σ)) : List Event :=
  .published rest ::
    Effect.storyOf (some queue) (executions.flatMap Dispatch.Execution.effects)

theorem result_of_silent (hsilent : ∀ rest, c.publish rest = pure ()) (rest : List String)
    (bound : Bool) (s : σ) : (c.publish rest bound s).result = .ok () := by
  rw [hsilent]
  rfl

/-- A plain run with a silent publication and a bound queue. -/
theorem plain_of_silent (hsilent : ∀ rest, c.publish rest = pure ())
    (hparse : Argv.parse (c.surroundings w.host) arguments {} w.path = (.finished rest, p))
    (queue : QueueId) :
    ∃ v, (w.rebound (some queue)).Proceeds (commandStory queue rest
          (Dispatch.executed c p.plan true p.plan.commands w.host) ++
        (errorLines (Dispatch.plan c p.plan true w.host).result).map .errorShown) v ∧
      plain c arguments (w.rebound (some queue)) =
        some (plainEnding p.plan (Dispatch.plan c p.plan true w.host).result, v) := by
  have hparse' : Argv.parse (c.surroundings (w.rebound (some queue)).host) arguments {}
      (w.rebound (some queue)).path = (.finished rest, p) := hparse
  obtain ⟨published, _, v, hpublished, rfl, hproceeds, hv⟩ :=
    plain_finished (result_of_silent hsilent) hparse'
  obtain rfl : published = ⟨.ok (), w.host, []⟩ := by
    rw [hpublished, hsilent]
    rfl
  refine ⟨v, ?_, hv⟩
  have hbound : (w.rebound (some queue)).hooks.bound = some queue := rfl
  rw [hbound] at hproceeds
  rw [commandStory, ← Dispatch.plan_effects]
  exact hproceeds

/-! ### Requests that are granted and refused -/

/-- A run from `w` has granted a request: when the commands in `front` had returned, `command` has
failed with `failure`, and the run has ended with `status`. -/
structure Granted (c : Collaborators σ) (exit : Exit σ) (arguments : List String) (w : World σ)
    (plan : Plan) (rest : List String) (front : List Command) (command : Command)
    (failure : Failure) (status : Int) (value : Except Failure (Option Plan)) (w' : World σ) :
    Prop where
  /-- The request leaves its command as it is. -/
  fails : (Dispatch.command c plan command true
    (Dispatch.commands c plan front true w.host).state).result = .error failure
  /-- No later command is executed. -/
  executed : Dispatch.executed c plan true plan.commands w.host =
    Dispatch.executed c plan true (front ++ [command]) w.host
  /-- Behind what the commands have told the hooks are called, and the process is halted. Only
  failures of hooks are reported. -/
  halted : ∃ (told : List Event) (calls : List (Exit.Call σ)),
    told = commandStory exit.queue rest
      (Dispatch.executed c plan true (front ++ [command]) w.host) ∧
    Halted c exit arguments w told (Exit.Closing.story { status } (some exit.queue) calls) status
      value w' ∧
    (told ++ Exit.Closing.story { status } (some exit.queue) calls).filterMap Event.reported? =
      calls.filterMap Exit.Call.failure?
  /-- No error line is shown. -/
  shows : w.Shows [] w'

/-- A run from `w` has taken a request for an error: when the commands in `front` had returned,
`command` has returned with the error line `line`. -/
structure Refused (c : Collaborators σ) (exit : Exit σ) (arguments : List String) (w : World σ)
    (plan : Plan) (rest : List String) (front : List Command) (command : Command)
    (later : List Command) (line : String) : Prop where
  returns : (Dispatch.command c plan command true
    (Dispatch.commands c plan front true w.host).state).result = .ok (some line)
  /-- The later commands are executed. -/
  executed : Dispatch.executed c plan true plan.commands w.host =
    Dispatch.executed c plan true (front ++ [command]) w.host ++
      Dispatch.executed c plan true later (Dispatch.command c plan command true
        (Dispatch.commands c plan front true w.host).state).state
  /-- Unless one of them fails, the run shows the error line and ends as after any error. -/
  halted : interruption? c plan rest w.host = none → ∃ N, ∀ n, N ≤ n → ∃ told ending w',
    main c (exit.within n) arguments w = some (.ok none, w') ∧
      Halted c exit arguments w told ending Status.generalError (.ok none) w' ∧
      w.Shows (recorded c plan rest w.host) w' ∧ line ∈ recorded c plan rest w.host

section Settling

variable {c' : Collaborators (σ × List (Deed σ))} {front later : List Command} {command : Command}
  {deed : Deed σ} {failure : Failure} {status : Int} {line : String}

/-- A request that is the failure of its command is granted. -/
theorem exists_granted (hsilent : ∀ rest, c.publish rest = pure ())
    (hrecording : exit.halting = .recording)
    (hparse : Argv.parse (c.surroundings w.host) arguments {} w.path = (.finished rest, p))
    (hcommands : p.plan.commands = front ++ command :: later)
    (hraises : Dispatch.Raises c' c p.plan true w.host front command deed (.error failure))
    (hrequest : failure.cause.requested? = some status)
    (hdrain : ∀ result v closing,
      plain c arguments (w.rebound (some exit.queue)) = some (result, v) →
      Exit.closing? (halting result) true result = some closing →
      exit.DrainEnds closing.status v) :
    ∃ N, ∀ n, N ≤ n → ∃ value w', main c (exit.within n) arguments w = some (value, w') ∧
      Granted c exit arguments w p.plan rest front command failure status value w' := by
  have hexecuted := hraises.executed_of_error later
  rw [← hcommands] at hexecuted
  have hresult := hraises.plan_of_error hcommands
  obtain ⟨v, hproceeds, hplain⟩ := plain_of_silent hsilent hparse exit.queue
  have hlines : (errorLines (.error failure)).map Event.errorShown = [] := rfl
  rw [hexecuted, hresult, hlines, List.append_nil] at hproceeds
  rw [hresult] at hplain
  have hclosing : Exit.closing? (halting (plainEnding p.plan (.error failure))) true
      (plainEnding p.plan (.error failure)) = some { status } :=
    congrArg some (Exit.closingOf_of_requested true hrequest)
  obtain ⟨N, hN⟩ := exists_halted (result_of_silent hsilent) hrecording hproceeds hplain
    (fun _ h ↦ by cases h; exact Cause.escapes_of_requested hrequest) hclosing
    (hdrain _ v _ hplain hclosing)
  refine ⟨N, fun n hn ↦ ?_⟩
  obtain ⟨calls, w', hmain, hhalted⟩ := hN n hn
  refine ⟨_, w', hmain, hraises.result, hexecuted, ⟨_, calls, rfl, hhalted, ?_⟩, ?_⟩
  · have hcommand := hproceeds.filterMap_eq_nil (f := Event.reported?)
      fun e he ↦ by cases e <;> first | rfl | cases he
    rw [List.filterMap_append, hcommand, Exit.Closing.filterMap_reported?_story]
    exact List.append_nil _
  · have hshows := shows_main (exit.within n) hparse _ w' hmain
    rw [shown_of_publish_ok (result_of_silent hsilent rest true w.host), hsilent] at hshows
    rwa [show (pure () : Hosted σ Unit) true w.host = ⟨.ok (), w.host, []⟩ from rfl, hresult]
      at hshows

/-- What a run executes that publishes silently. -/
theorem executed_of_silent (hsilent : ∀ rest, c.publish rest = pure ()) (plan : Plan)
    (rest : List String) (s : σ) :
    executed c plan rest s = Dispatch.executed c plan true plan.commands s := by
  rw [executed, hsilent]
  rfl

/-- If nothing interrupts a run, its plan hands back what the run records. -/
theorem plan_of_uninterrupted (hsilent : ∀ rest, c.publish rest = pure ()) {plan : Plan}
    {rest : List String} {s : σ} (h : interruption? c plan rest s = none) :
    (Dispatch.plan c plan true s).result = .ok (recorded c plan rest s) := by
  rw [interruption?, result_of_silent hsilent, executed_of_silent hsilent] at h
  have hnone : (Dispatch.executed c plan true plan.commands s).findSome?
      Dispatch.Execution.failure? = none := h
  rw [Dispatch.plan_result, Dispatch.conclusion, hnone, recorded, executed_of_silent hsilent]
  rfl

/-- A request that has become an error line is refused. -/
theorem refused_of_raises (hsilent : ∀ rest, c.publish rest = pure ())
    (hrecording : exit.halting = .recording)
    (hparse : Argv.parse (c.surroundings w.host) arguments {} w.path = (.finished rest, p))
    (hcommands : p.plan.commands = front ++ command :: later)
    (hraises : Dispatch.Raises c' c p.plan true w.host front command deed (.ok (some line)))
    (hdrain : ∀ result v closing,
      plain c arguments (w.rebound (some exit.queue)) = some (result, v) →
      Exit.closing? (halting result) true result = some closing →
      exit.DrainEnds closing.status v) :
    Refused c exit arguments w p.plan rest front command later line := by
  have hexecuted := hraises.executed_of_ok later
  rw [← hcommands] at hexecuted
  refine ⟨hraises.result, hexecuted, fun hgoes ↦ ?_⟩
  have hresult := plan_of_uninterrupted hsilent hgoes
  -- the error line is among those of the executed commands
  have hline : line ∈ recorded c p.plan rest w.host := by
    rw [recorded, executed_of_silent hsilent, hexecuted]
    refine List.mem_append_right _ (List.mem_filterMap.2
      ⟨_, List.mem_append_left _ hraises.mem_executed, ?_⟩)
    rw [Dispatch.Execution.line?, hraises.result]
  have hending : plainEnding p.plan (.ok (recorded c p.plan rest w.host)) =
      .error (termination Status.generalError) := by
    rw [plainEnding, if_neg]
    intro hempty
    rw [List.isEmpty_iff.1 hempty] at hline
    cases hline
  obtain ⟨v, hproceeds, hplain⟩ := plain_of_silent hsilent hparse exit.queue
  rw [hresult, hending] at hplain
  obtain ⟨N, hN⟩ := exists_halted (result_of_silent hsilent) hrecording hproceeds hplain
    (fun _ h ↦ by cases h; rfl) rfl (hdrain _ v _ hplain rfl)
  refine ⟨N, fun n hn ↦ ?_⟩
  obtain ⟨calls, w', hmain, hhalted⟩ := hN n hn
  have hshows := shows_main (exit.within n) hparse _ w' hmain
  rw [shown, if_neg (by simp [hgoes])] at hshows
  exact ⟨_, _, w', hmain, hhalted, hshows, hline⟩

end Settling

/-- **A request is granted if and only if it is not one to terminate from a start function.** Let
hosted code that the default host runs be the first to fail, bodies of modules aside, and let it ask
for the end of the run with `status`. A record of the code changes nothing in the run, so the command
that the code belongs to can be told. If the code is a start function that raises a request to
terminate, then the command has an error line, the later commands are executed, and the run ends with
the status of an error unless one of them fails. Otherwise the request is granted. -/
theorem main_grants_request_iff (language : Host.Language σ) (memory : Host.Memory σ)
    (files : FileSystem σ) (place : Place) (hrecording : exit.halting = .recording)
    (hparse : Argv.parse ((language.host memory files place).surroundings w.host) arguments {}
      w.path = (.finished rest, p))
    {before after : List (Deed σ)} {deed : Deed σ}
    (hdeeds : (Dispatch.plan (language.watchedHost memory files place) p.plan).deeds true w.host =
      before ++ deed :: after)
    (hfirst : ∀ other ∈ before, other.failure? = none ∨ ∃ name, other.code = .body name)
    (hcode : ∀ name, deed.code ≠ .body name) {failure : Failure}
    (hfailure : deed.failure? = some failure) {status : Int}
    (hrequest : failure.cause.requested? = some status)
    (hdrain : ∀ result v closing,
      plain (language.host memory files place) arguments (w.rebound (some exit.queue)) =
        some (result, v) →
      Exit.closing? (halting result) true result = some closing →
      exit.DrainEnds closing.status v) :
    (∀ record, Dispatch.plan (language.watchedHost memory files place) p.plan true (w.host, record) =
      (Dispatch.plan (language.host memory files place) p.plan true w.host).beside
        (record ++ (before ++ deed :: after))) ∧
    ∃ front command later, p.plan.commands = front ++ command :: later ∧
      deed ∈ (Dispatch.command (language.watchedHost memory files place) p.plan command).deeds true
        (Dispatch.commands (language.host memory files place) p.plan front true w.host).state ∧
      ((∃ N, ∀ n, N ≤ n → ∃ value w',
          main (language.host memory files place) (exit.within n) arguments w = some (value, w') ∧
          Granted (language.host memory files place) exit arguments w p.plan rest front command
            failure status value w') ↔
        ∀ name, deed.code = .start name → failure.cause ≠ .terminate status) ∧
      ∀ name, deed.code = .start name → failure.cause = .terminate status →
        Refused (language.host memory files place) exit arguments w p.plan rest front command later
          (Dispatch.refusal name status) := by
  have hobeys := language.obeys_watchedHost memory files place
  have hsilent : ∀ rest, (language.host memory files place).publish rest = pure () := fun _ ↦ rfl
  have hbefore : ∀ other ∈ before, other.ending? = none :=
    fun other hother ↦ Deed.ending?_eq_none (hfirst other hother)
  refine ⟨fun record ↦ by rw [Dispatch.records_plan hobeys, hdeeds], ?_⟩
  rw [Dispatch.deeds_plan] at hdeeds
  by_cases hpasses : ∀ name, deed.code = .start name → failure.cause ≠ .terminate status
  · have hending := Deed.ending?_of_requested hcode hfailure hrequest hpasses
    obtain ⟨front, command, later, hcommands, hraises⟩ :=
      Dispatch.exists_raises hobeys hdeeds hbefore hending
    refine ⟨front, command, later, hcommands, hraises.mem, ⟨fun _ ↦ hpasses, fun _ ↦ ?_⟩,
      fun name hname hterminate ↦ absurd hterminate (hpasses name hname)⟩
    exact exists_granted hsilent hrecording hparse hcommands hraises hrequest hdrain
  · push Not at hpasses
    obtain ⟨name, hname, hterminate⟩ := hpasses
    have hending := Deed.ending?_of_refused hname hfailure hterminate
    obtain ⟨front, command, later, hcommands, hraises⟩ :=
      Dispatch.exists_raises hobeys hdeeds hbefore hending
    refine ⟨front, command, later, hcommands, hraises.mem, ⟨?_, fun h ↦ ?_⟩, fun other hother _ ↦ ?_⟩
    · rintro ⟨N, hN⟩
      obtain ⟨_, _, -, hgranted⟩ := hN N (Nat.le_refl N)
      have hfails := hgranted.fails
      rw [hraises.result] at hfails
      cases hfails
    · exact absurd hterminate (h name hname)
    · obtain rfl : name = other := by
        rw [hname] at hother
        cases hother
        rfl
      exact refused_of_raises hsilent hrecording hparse hcommands hraises hdrain

/-! ### A store that asks for the end -/

/-- Two applications, one of which depends on the other. The other one fails when it is started. -/
def failingStore (cause : Cause) : Rehearsal.Script where
  modules := [("web", { dependencies := ["store"] }),
    ("store", { start := some { failure := some { cause } } })]

/-- The language of the two applications. -/
def storeLanguage (cause : Cause) : Host.Language Rehearsal.Stage :=
  (failingStore cause).language "1.0"

/-- The default host of the two applications, without files. -/
def storeHost (cause : Cause) : Collaborators Rehearsal.Stage :=
  (storeLanguage cause).host Rehearsal.Stage.memory (Rehearsal.Table.fileSystem {}) relayHost.place

/-- What starting the web and then evaluating an expression does, by code and failure. -/
def storeDeeds (cause : Cause) : List (Code × Option Failure) :=
  ((Dispatch.plan ((storeLanguage cause).watchedHost Rehearsal.Stage.memory
    (Rehearsal.Table.fileSystem {}) relayHost.place)
      { commands := [.app "web", .eval "later"] }).deeds true {}).map
        fun deed ↦ (deed.code, deed.failure?)

/-- The end of a run without hooks. -/
def idle : Exit Rehearsal.Stage where
  call _ _ := pure ()
  passes := 1

theorem drainEnds_idle (status : Int) (w : World Rehearsal.Stage) : idle.DrainEnds status w := by
  have hrank : ∀ hook s, ∀ new ∈ (idle.callOf status w.hooks.bound hook s).queued idle.queue
      w.hooks.bound, 0 < 0 :=
    fun _ _ _ h ↦ absurd h List.not_mem_nil
  exact (Exit.drainEnds_iff idle status w).2 (Exit.exists_serves_of_rank hrank _ _)

/-- A store that leaves the process ends the run with its status. -/
theorem main_grants_store :
    let w : World Rehearsal.Stage := { host := {} }
    ∃ (plan : Plan) (front : List Command) (command : Command),
      plan = { commands := [.app "web", .eval "later"] } ∧ ∃ N, ∀ n, N ≤ n → ∃ value w',
      main (storeHost (.exit (.whole 3))) (idle.within n) ["--app", "web", "-e", "later"] w =
        some (value, w') ∧
      Granted (storeHost (.exit (.whole 3))) idle ["--app", "web", "-e", "later"] w plan [] front
        command { cause := .exit (.whole 3) } 3 value w' := by
  intro w
  obtain ⟨p, hparse, hplan⟩ : ∃ p, Argv.parse ((storeHost (.exit (.whole 3))).surroundings w.host)
      ["--app", "web", "-e", "later"] {} w.path = (.finished [], p) ∧
      p.plan = { commands := [.app "web", .eval "later"] } :=
    ⟨_, Prod.ext (by decide +kernel) rfl, by decide +kernel⟩
  have hstore : storeDeeds (.exit (.whole 3)) = [(.body "web", none), (.body "store", none),
      (.start "store", some { cause := .exit (.whole 3) })] := by decide +kernel
  rw [storeDeeds, ← hplan] at hstore
  -- the deeds themselves, with the states that the code has found
  obtain ⟨web, _, hdeeds, hweb, hstore⟩ := List.map_eq_cons_iff.1 hstore
  obtain ⟨store, _, rfl, hbody, hstore⟩ := List.map_eq_cons_iff.1 hstore
  obtain ⟨start, _, rfl, hstart, hstore⟩ := List.map_eq_cons_iff.1 hstore
  obtain rfl := List.map_eq_nil_iff.1 hstore
  obtain ⟨hcode, hfailure⟩ := Prod.mk.inj hstart
  have hrecording : idle.halting = .recording := rfl
  have hfirst : ∀ other ∈ [web, store], other.failure? = none ∨ ∃ name, other.code = .body name := by
    intro other hother
    rcases List.mem_pair.1 hother with rfl | rfl
    · exact .inl (Prod.mk.inj hweb).2
    · exact .inl (Prod.mk.inj hbody).2
  obtain ⟨-, front, command, later, -, -, hgranted, -⟩ :=
    main_grants_request_iff (storeLanguage (.exit (.whole 3))) Rehearsal.Stage.memory
      (Rehearsal.Table.fileSystem {}) relayHost.place hrecording hparse
      (show _ = [web, store] ++ start :: [] from hdeeds) hfirst
      (fun name hbody ↦ nomatch hcode.symm.trans hbody) hfailure rfl
      fun _ v closing _ _ ↦ drainEnds_idle closing.status v
  exact ⟨p.plan, front, command, hplan, hgranted.2 fun _ _ ↦ nofun⟩

/-- **A store that raises a request to terminate does not.** It is the only code that fails, and still
the expression behind it is evaluated, and the process is halted with another status. -/
theorem main_refuses_store :
    let w : World Rehearsal.Stage := { host := {} }
    (Argv.parse ((storeHost (.terminate 3)).surroundings {}) ["--app", "web", "-e", "later"] {}
      w.path).2.plan = { commands := [.app "web", .eval "later"] } ∧
    storeDeeds (.terminate 3) = [(.body "web", none), (.body "store", none),
      (.start "store", some { cause := .terminate 3 }), (.expression "later", none)] ∧
    (main (storeHost (.terminate 3)) idle ["--app", "web", "-e", "later"] w).map
      (fun r ↦ (r.1, r.2.trace.filterMap Event.halted?, Console.stderr {} r.2.trace)) =
        some (.ok none, [1], "--app : Could not start application store: " ++
          "TerminationRequested: termination requested with status 3\n") :=
  ⟨by decide +kernel, by decide +kernel, by decide +kernel⟩

end Run

end Launcher
