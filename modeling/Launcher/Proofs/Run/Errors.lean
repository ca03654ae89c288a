import Launcher.Proofs.Alike
import Launcher.Proofs.Dispatch.Executed
import Launcher.Proofs.ErrorLines
import Launcher.Proofs.Run.Ending

/-!
# The errors of a run

A run **records** the errors met while reading its command line and the error lines of the commands
that it executes (`Run.recorded`). It keeps them until the plan has come to its end and shows them
then, all at once. So they are lost if the run is interrupted before, by a failure of publishing or
of a command (`Run.interruption?`), even where that failure ends the process with success: the
errors are shown if and only if nothing interrupts the run or there are none
(`main_shows_recorded_iff`).
-/

namespace Launcher

variable {σ α : Type}

/-! ### The boundary shows no error line -/

namespace Exit

/-- What the launcher does by itself at the boundary shows no error line. -/
theorem course_shows_nil (exit : Exit σ) : Course exit fun w w' ↦ w.Shows [] w' where
  refl := World.Shows.refl
  trans h h' := h.trans h'
  record w e he := by
    have hnone : e.errorShown? = none := by
      cases e with
      | errorShown line => cases he
      | _ => rfl
    simpa [hnone] using w.shows_record e
  emptied w := Session.silent_flush exit.queue w _ _ rfl
  setPath _ _ := World.shows_of_log_eq rfl
  setArguments _ _ := World.shows_of_log_eq rfl

theorem silent_finish (exit : Exit σ) (status : Int) : (exit.finish status).Silent :=
  passes_finish (course_shows_nil exit) (fun _ _ w ↦ w.shows_after _) status

theorem silent_settle (exit : Exit σ) (announcing : Bool) (failure : Failure) :
    (exit.settle announcing failure).Silent :=
  passes_settle (course_shows_nil exit) (fun _ _ w ↦ w.shows_after _)
    (fun w ↦ w.shows_record .aborted) announcing failure

/-- Inside the boundary an action shows what it shows outside. -/
theorem shows_guarded (exit : Exit σ) (halt announcing : Bool) {action : Session σ α} {w : World σ}
    {lines : List String} (h : action.Shows w lines) :
    (exit.guarded halt announcing action).Shows w lines := by
  refine h.attempt.bind_silent fun result ↦ ?_
  cases result with
  | error failure =>
    exact (silent_settle exit announcing failure).bind fun _ ↦ Session.silent_pure none
  | ok a =>
    dsimp only
    split
    · exact (silent_finish exit _).bind fun _ ↦ Session.silent_pure none
    · exact Session.silent_pure (some a)

end Exit

namespace Run

/-! ### What a run records -/

/-- The commands that a run executes from the state `s` on, if publishing `rest` does not fail. -/
def executed (c : Collaborators σ) (plan : Plan) (rest : List String) (s : σ) :
    List (Dispatch.Execution σ) :=
  match (c.publish rest true s).result with
  | .ok _ => Dispatch.executed c plan true plan.commands (c.publish rest true s).state
  | .error _ => []

/-- The errors of a run: those met while reading, then those of its commands, in order. -/
def recorded (c : Collaborators σ) (plan : Plan) (rest : List String) (s : σ) : List String :=
  plan.errors ++ (executed c plan rest s).filterMap Dispatch.Execution.line?

/-- The failure, of publishing or of a command, that keeps a run from the end of its plan. -/
def interruption? (c : Collaborators σ) (plan : Plan) (rest : List String) (s : σ) :
    Option Failure :=
  match (c.publish rest true s).result with
  | .ok _ => (executed c plan rest s).findSome? Dispatch.Execution.failure?
  | .error failure => some failure

/-- The errors that a run shows. -/
def shown (c : Collaborators σ) (plan : Plan) (rest : List String) (s : σ) : List String :=
  if (interruption? c plan rest s).isSome then [] else recorded c plan rest s

variable {c : Collaborators σ}

theorem shown_eq_recorded_iff (plan : Plan) (rest : List String) (s : σ) :
    shown c plan rest s = recorded c plan rest s ↔
      interruption? c plan rest s = none ∨ recorded c plan rest s = [] := by
  rw [shown]
  cases interruption? c plan rest s with
  | none => simp
  | some failure => exact ⟨fun h ↦ Or.inr h.symm, fun h ↦ (h.resolve_left nofun).symm⟩

theorem shown_of_publish_error {plan : Plan} {rest : List String} {s : σ} {failure : Failure}
    (h : (c.publish rest true s).result = .error failure) : shown c plan rest s = [] := by
  rw [shown, interruption?, h]
  rfl

/-- If publishing returns, the errors shown are those that running the plan hands back. -/
theorem shown_of_publish_ok {plan : Plan} {rest : List String} {s : σ}
    (h : (c.publish rest true s).result = .ok ()) :
    shown c plan rest s =
      ((Dispatch.plan c plan true (c.publish rest true s).state).result.toOption).getD [] := by
  rw [Dispatch.plan_result, Dispatch.conclusion, shown, recorded, interruption?, executed, h]
  generalize Dispatch.executed c plan true plan.commands (c.publish rest true s).state = executions
  cases executions.findSome? Dispatch.Execution.failure? <;> rfl

/-! ### What the steps of a run show -/

section Steps

variable {exit : Exit σ} {arguments rest : List String} {p : Argv.Progress} {w : World σ}

/-- Reading shows nothing, and leaves the programs and the queues alone. -/
theorem exists_read (hparse : Argv.parse (c.surroundings w.host) arguments {} w.path =
      (.finished rest, p)) :
    ∃ v, read c arguments w = some (.ok (p.plan, rest), v) ∧ v.host = w.host ∧
      v.hooks = w.hooks ∧ w.Shows [] v := by
  obtain ⟨v, hv, hhost, hhooks, hshows⟩ :=
    Session.exists_each_record (f := .noted) p.notes { w with path := p.path }
  have htake : takeOver p w = some (.ok (), v) := hv
  refine ⟨v, ?_, hhost, hhooks, ?_⟩
  · refine (Session.bind_of_ok (show Session.world w = some (.ok w, w) from rfl)).trans ?_
    rw [hparse]
    exact (Session.bind_of_ok htake).trans (Session.bind_of_ok rfl)
  · have hnil : (p.notes.filterMap fun note ↦ (Event.noted note).errorShown?) = [] :=
      List.filterMap_eq_nil_iff.2 fun _ _ ↦ rfl
    rw [hnil] at hshows
    exact (World.shows_of_log_eq rfl).trans hshows

/-- Publishing ends as the host's program does. -/
theorem exists_publish (c : Collaborators σ) (rest : List String) (w : World σ) :
    ∃ v, publish c rest w = some ((c.publish rest w.hooks.bound.isSome w.host).result, v) ∧
      v.host = (c.publish rest w.hooks.bound.isSome w.host).state ∧
      v.hooks.bound = w.hooks.bound ∧ w.Shows [] v := by
  let u : World σ := { w.record (.published rest) with arguments := rest }
  have hhost : u.host = w.host := w.host_record _
  have hhooks : u.hooks = w.hooks := w.hooks_record _
  have hu : w.Shows [] u := (w.shows_record (.published rest)).trans (World.shows_of_log_eq rfl)
  refine ⟨u.after (c.publish rest u.hooks.bound.isSome u.host), ?_, ?_, ?_, ?_⟩
  · refine (Session.bind_of_ok rfl).trans ((Session.bind_of_ok rfl).trans ?_)
    rw [Session.perform_apply, ← hhost, ← hhooks]
  · rw [World.host_after, hhost, hhooks]
  · rw [(u.extends_after _).bound, hhooks]
  · exact hu.trans (u.shows_after _)

/-- Running a plan shows the errors that it hands back. -/
theorem shows_execute (c : Collaborators σ) (plan : Plan) (w : World σ) :
    (execute c plan).Shows w
      (((Dispatch.plan c plan w.hooks.bound.isSome w.host).result.toOption).getD []) := by
  have hperform := Session.perform_apply (Dispatch.plan c plan) w
  rcases hresult : (Dispatch.plan c plan w.hooks.bound.isSome w.host).result with failure | errors
  · rw [hresult] at hperform
    exact Session.shows_of_eq_some (Session.bind_of_error hperform) (w.shows_after _)
  · rw [hresult] at hperform
    refine Session.shows_bind_of_ok hperform (w.shows_after _) ?_
    split
    · next hempty =>
      obtain rfl := List.isEmpty_iff.1 hempty
      exact Session.silent_pure plan _
    · obtain ⟨v, hv, -, -, hshows⟩ := Session.exists_each_record (f := .errorShown) errors
        (w.after (Dispatch.plan c plan w.hooks.bound.isSome w.host))
      have hlines : (errors.filterMap fun line ↦ (Event.errorShown line).errorShown?) = errors :=
        List.filterMap_some
      rw [hlines] at hshows
      exact (Session.shows_of_eq_some hv hshows).bind_silent fun _ ↦ Session.silent_raise _

/-- Between its boundaries a run shows its errors once its plan has come to its end. -/
theorem shows_body (exit : Exit σ) (hbound : w.hooks.bound.isSome = true)
    (hparse : Argv.parse (c.surroundings w.host) arguments {} w.path = (.finished rest, p)) :
    (body c exit arguments).Shows w (shown c p.plan rest w.host) := by
  obtain ⟨u, hu, huhost, huhooks, hushows⟩ := exists_read hparse
  have hread : exit.guarded false true (read c arguments) w = some (.ok (some (p.plan, rest)), u) :=
    Exit.guarded_of_stay hu rfl
  obtain ⟨v, hv, hvhost, hvbound, hvshows⟩ := exists_publish c rest u
  rw [huhost, huhooks, hbound] at hv hvhost
  rw [huhooks] at hvbound
  refine Session.shows_bind_of_ok hread hushows ?_
  rcases hpublish : (c.publish rest true w.host).result with failure | ⟨⟩
  · rw [hpublish] at hv
    rw [shown_of_publish_error hpublish]
    exact Session.shows_of_eq_some (Session.bind_of_error hv) hvshows
  · rw [hpublish] at hv
    refine Session.shows_bind_of_ok hv hvshows (Exit.shows_guarded exit _ true ?_)
    have hexecute := shows_execute c p.plan v
    rwa [hvbound, hbound, hvhost, ← shown_of_publish_ok hpublish] at hexecute

/-- A run shows its errors once its plan has come to its end. -/
theorem shows_main (exit : Exit σ)
    (hparse : Argv.parse (c.surroundings w.host) arguments {} w.path = (.finished rest, p)) :
    (main c exit arguments).Shows w (shown c p.plan rest w.host) := by
  have hbody : (body c exit arguments).Shows (w.rebound (some exit.queue)) _ :=
    shows_body exit rfl hparse
  have hbind : w.Shows [] (w.rebound (some exit.queue)) := World.shows_of_log_eq rfl
  refine Session.shows_bind_of_ok rfl hbind (hbody.attempt.bind_silent fun result ↦ ?_)
  match result with
  | .ok (some plan) =>
    refine Session.Silent.bind (Session.silent_update fun _ ↦ World.shows_of_log_eq rfl) fun _ ↦ ?_
    exact Session.Silent.bind (Session.silent_record rfl) fun _ ↦ Session.silent_pure _
  | .ok none => exact (Session.silent_bindQueue _).bind fun _ ↦ Session.silent_pure _
  | .error failure => exact (Session.silent_bindQueue _).bind fun _ ↦ Session.silent_raise failure

end Steps

/-- **The errors of a run are shown if and only if nothing interrupts it or there are none.** They
are shown in the order in which they were recorded, each as a line of its own on standard error. A
run that is interrupted shows no error at all. -/
theorem main_shows_recorded_iff (c : Collaborators σ) (exit : Exit σ) (arguments : List String)
    {w w' : World σ} {rest : List String} {p : Argv.Progress} {value : Except Failure (Option Plan)}
    (hparse : Argv.parse (c.surroundings w.host) arguments {} w.path = (.finished rest, p))
    (hmain : main c exit arguments w = some (value, w')) :
    (w.Shows (recorded c p.plan rest w.host) w' ↔
      interruption? c p.plan rest w.host = none ∨ recorded c p.plan rest w.host = []) ∧
    (interruption? c p.plan rest w.host ≠ none → w.Shows [] w') ∧
    ∀ (console : Console) (lines : List String), w.Shows lines w' →
      Console.Continues lines (console.stderr w.trace) (console.stderr w'.trace) := by
  have hshows := shows_main exit hparse value w' hmain
  refine ⟨?_, fun hinterrupted ↦ ?_, fun console lines h ↦ console.continues_of_shows h⟩
  · rw [← shown_eq_recorded_iff]
    exact ⟨fun h ↦ hshows.unique h, fun h ↦ h ▸ hshows⟩
  · rwa [shown, if_pos (Option.isSome_iff_ne_none.2 hinterrupted)] at hshows

/-- The errors of an unknown option and of a pattern without files are shown, in this order. -/
theorem main_relay_shows_recorded : ∃ value w',
    main relayHost Exit.relay ["-x", "-r", "none", "-e", "baton"] Exit.relayStart =
      some (value, w') ∧
    Exit.relayStart.Shows ["-x : Unknown option", "-r : No files matched pattern none"] w' := by
  obtain ⟨p, hparse, hplan⟩ : ∃ p,
      Argv.parse (relayHost.surroundings ()) ["-x", "-r", "none", "-e", "baton"] {} {} =
        (.finished [], p) ∧
      p.plan = { commands := [.require "none", .eval "baton"], errors := ["-x : Unknown option"] } :=
    ⟨_, Prod.ext (by decide +kernel) rfl, by decide +kernel⟩
  have hrecorded : recorded relayHost p.plan [] () =
      ["-x : Unknown option", "-r : No files matched pattern none"] := by
    rw [hplan]
    decide
  have huninterrupted : interruption? relayHost p.plan [] () = none := by
    rw [hplan]
    decide
  have hsome : (main relayHost Exit.relay ["-x", "-r", "none", "-e", "baton"]
      Exit.relayStart).isSome = true := by decide +kernel
  obtain ⟨⟨value, w'⟩, hmain⟩ := Option.isSome_iff_exists.1 hsome
  obtain ⟨hiff, -, -⟩ := main_shows_recorded_iff relayHost Exit.relay _ hparse hmain
  have hshows := hiff.2 (Or.inl huninterrupted)
  rw [show Exit.relayStart.host = () from rfl, hrecorded] at hshows
  exact ⟨value, w', hmain, hshows⟩

/-- Collaborators whose evaluator leaves the process with success. -/
def leavingHost : Collaborators Unit :=
  { relayHost with eval := fun _ ↦ Hosted.raise { cause := .exit (.whole 0) } }

/-- **An error is lost** if a later command leaves the process: the run ends with success, and
standard error stays empty. -/
theorem main_leaving_loses_error :
    let w : World Unit := { host := () }
    ∃ rest p w',
      Argv.parse (leavingHost.surroundings w.host) ["-x", "-e", "leave"] {} w.path =
        (.finished rest, p) ∧
      p.plan.errors = ["-x : Unknown option"] ∧
      main leavingHost Exit.relay ["-x", "-e", "leave"] w = some (.ok none, w') ∧
      w'.trace.filterMap Event.halted? = [Status.success] ∧
      Console.stderr {} w'.trace = "" ∧
      ¬w.Shows (recorded leavingHost p.plan rest w.host) w' := by
  intro w
  obtain ⟨p, hparse, hplan⟩ : ∃ p,
      Argv.parse (leavingHost.surroundings w.host) ["-x", "-e", "leave"] {} w.path =
        (.finished [], p) ∧
      p.plan = { commands := [.eval "leave"], errors := ["-x : Unknown option"] } :=
    ⟨_, Prod.ext (by decide +kernel) rfl, by decide +kernel⟩
  have hrun : (main leavingHost Exit.relay ["-x", "-e", "leave"] w).map (fun r ↦
      (r.1, r.2.trace.filterMap Event.halted?, r.2.trace.filterMap Event.errorShown?,
        Console.stderr {} r.2.trace)) = some (.ok none, [0], [], "") := by decide +kernel
  obtain ⟨⟨value, w'⟩, hmain, heq⟩ := Option.map_eq_some_iff.1 hrun
  simp only [Prod.mk.injEq] at heq
  obtain ⟨rfl, hhalted, hshown, hstderr⟩ := heq
  refine ⟨[], p, w', hparse, by rw [hplan], hmain, hhalted, hstderr, ?_⟩
  rintro ⟨told, htold, hlines⟩
  have hrecorded : recorded leavingHost p.plan [] () = ["-x : Unknown option"] := by
    rw [hplan]
    decide
  have htrace : w'.trace = told := htold
  rw [hrecorded, ← htrace, hshown] at hlines
  cases hlines

end Run

end Launcher
