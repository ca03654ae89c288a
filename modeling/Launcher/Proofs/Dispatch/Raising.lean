import Launcher.Proofs.Dispatch.Executed
import Launcher.Proofs.Host.Watched

/-!
# The code that ends a command

The commands of a plan are run over collaborators that keep a record of the hosted code
(`Collaborators.Obeys`). The first piece of code that fails decides how its command ends, module
bodies aside (`Deed.ending?`). Its failure is the command's, unless it is an error in the start
function of an application: then the command has an error line. So the command that runs this code
can be told, the commands before it have returned, and the commands behind it are executed only if
there is an error line (`exists_raises`).
-/

namespace Launcher

variable {σ : Type}

/-- The error line of an application that could not be started. -/
def Dispatch.notStarted (application reason : String) : String :=
  "--app : Could not start application " ++ application ++ ": " ++ reason

/-- How a command ends if this is the first code to fail in it. The body of a module decides
nothing here. -/
def Deed.ending? (deed : Deed σ) : Option (Except Failure (Option String)) :=
  match deed.code with
  | .body _ => none
  | .start name => deed.failure?.map fun failure ↦
    if failure.cause.isError then
      .ok (some (Dispatch.notStarted name (failure.cause.name ++ ": " ++ failure.cause.message)))
    else .error failure
  | _ => deed.failure?.map .error

/-- Code that returns decides nothing, and neither does the body of a module. -/
theorem Deed.ending?_eq_none {deed : Deed σ}
    (h : deed.failure? = none ∨ ∃ name, deed.code = .body name) : deed.ending? = none := by
  rw [Deed.ending?]
  rcases h with hnone | ⟨name, hbody⟩
  · rw [hnone]
    split <;> rfl
  · rw [hbody]

/-- The first code that failed has failed everything. -/
def FailsFirst (deeds : List (Deed σ)) (failure? : Option Failure) : Prop :=
  ∀ ending, deeds.findSome? Deed.ending? = some ending →
    ∃ failure, failure? = some failure ∧ ending = .error failure

theorem lawful_failsFirst : Lawful (FailsFirst (σ := σ)) where
  nil _ _ h := nomatch h
  append {deeds deeds' failure?} h h' ending hending := by
    rw [List.findSome?_append] at hending
    rcases hdeeds : deeds.findSome? Deed.ending? with - | other
    · rw [hdeeds] at hending
      exact h' ending hending
    · obtain ⟨_, hnone, -⟩ := h other hdeeds
      cases hnone

/-- Collaborators `c'` keep a record of what the code of `c` does, and obey a law. What starting an
application does is reported. Files and node are those of `c`. -/
structure Collaborators.Obeys (law : List (Deed σ) → Option Failure → Prop)
    (c' : Collaborators (σ × List (Deed σ))) (c : Collaborators σ) : Prop where
  wildcard : ∀ s record, c'.files.wildcard (s, record) = c.files.wildcard s
  isRegular : ∀ s record, c'.files.isRegular (s, record) = c.files.isRegular s
  findExecutable : ∀ s record, c'.files.findExecutable (s, record) = c.files.findExecutable s
  isBatchPlatform : ∀ s record, c'.files.isBatchPlatform (s, record) = c.files.isBatchPlatform s
  nodeIsAlive : ∀ s record, c'.nodeIsAlive (s, record) = c.nodeIsAlive s
  ensureDirectory : ∀ path, (c'.files.ensureDirectory path).Obeys law (c.files.ensureDirectory path)
  eval : ∀ expression, (c'.eval expression).Obeys law (c.eval expression)
  requireFile : ∀ path, (c'.requireFile path).Obeys law (c.requireFile path)
  loadFiles : ∀ files, (c'.loadFiles files).Obeys law (c.loadFiles files)
  startApplication : ∀ name, (c'.startApplication name).Obeys Reported
    (c.startApplication name)
  /-- Whatever is announced, compiling calls back in the same way. -/
  compileFiles : ∀ files output options (announce : String → HostedEvent) (announcing : Bool),
    (c'.compileFiles files output options
      (if announcing then some fun file ↦ Hosted.emit (announce file) else none)).Obeys law
      (c.compileFiles files output options
        (if announcing then some fun file ↦ Hosted.emit (announce file) else none))
  setCookie : ∀ value, (c'.setCookie value).Obeys law (c.setCookie value)

namespace Dispatch

section Obeys

variable {law : List (Deed σ) → Option Failure → Prop} {c' : Collaborators (σ × List (Deed σ))}
  {c : Collaborators σ}

theorem regularFiles_eq (hc : c'.Obeys law c) (s : σ) (record : List (Deed σ)) :
    regularFiles c' (s, record) = regularFiles c s := by
  funext pattern
  rw [regularFiles, regularFiles, hc.wildcard, hc.isRegular]

theorem findScript_eq (hc : c'.Obeys law c) (s : σ) (record : List (Deed σ)) :
    findScript c' (s, record) = findScript c s := by
  funext name
  rw [findScript, findScript, hc.findExecutable, hc.isBatchPlatform, hc.isRegular]

theorem missing_eq (hc : c'.Obeys law c) (s : σ) (record : List (Deed σ)) (patterns : List String) :
    missing c' (s, record) patterns = missing c s patterns := by
  rw [missing, missing, regularFiles_eq hc]

theorem matched_eq (hc : c'.Obeys law c) (s : σ) (record : List (Deed σ)) (patterns : List String) :
    matched c' (s, record) patterns = matched c s patterns := by
  rw [matched, matched, regularFiles_eq hc]

variable (hlaw : Lawful law)
include hlaw

theorem obeys_ask (request : Request) {p' : Hosted (σ × List (Deed σ)) Unit} {p : Hosted σ Unit}
    (h : p'.Obeys law p) : (ask request p').Obeys law (ask request p) :=
  .andThen hlaw (.emit hlaw (.asked request)) fun _ ↦ h

theorem obeys_invoke (request : Request) {p' : Hosted (σ × List (Deed σ)) Unit} {p : Hosted σ Unit}
    (h : p'.Obeys law p) : (invoke request p').Obeys law (invoke request p) :=
  .bind hlaw (obeys_ask hlaw request h) fun _ ↦ .pure hlaw none

theorem obeys_require (hc : c'.Obeys law c) (path : String) :
    (require c' path).Obeys law (require c path) :=
  obeys_ask hlaw _ (hc.requireFile path)

theorem obeys_cookie (hc : c'.Obeys law c) (value : String) :
    (cookie c' value).Obeys law (cookie c value) := by
  refine .get_bind fun s ↦ ⟨_, fun record ↦ by rw [hc.nodeIsAlive], ?_⟩
  split
  · exact obeys_invoke hlaw _ (hc.setCookie value)
  · exact .pure hlaw _

theorem obeys_script (hc : c'.Obeys law c) (name : String) :
    (script c' name).Obeys law (script c name) := by
  refine .get_bind fun s ↦ ⟨_, fun record ↦ by rw [findScript_eq hc], ?_⟩
  split
  · exact .pure hlaw _
  · exact .bind hlaw (obeys_require hlaw hc _) fun _ ↦ .pure hlaw none

theorem obeys_file (hc : c'.Obeys law c) (path : String) :
    (file c' path).Obeys law (file c path) := by
  refine .get_bind fun s ↦ ⟨_, fun record ↦ by rw [hc.isRegular], ?_⟩
  split
  · exact .bind hlaw (obeys_require hlaw hc path) fun _ ↦ .pure hlaw none
  · exact .pure hlaw _

theorem obeys_requireAll (hc : c'.Obeys law c) (pattern : String) :
    (requireAll c' pattern).Obeys law (requireAll c pattern) := by
  refine .get_bind fun s ↦ ⟨_, fun record ↦ by rw [regularFiles_eq hc], ?_⟩
  dsimp only
  split
  · exact .pure hlaw _
  · exact .bind hlaw (.each hlaw (obeys_require hlaw hc) _) fun _ ↦ .pure hlaw none

theorem obeys_loadAll (hc : c'.Obeys law c) (pattern : String) :
    (loadAll c' pattern).Obeys law (loadAll c pattern) := by
  refine .get_bind fun s ↦ ⟨_, fun record ↦ by rw [regularFiles_eq hc], ?_⟩
  dsimp only
  split
  · exact .pure hlaw _
  · exact obeys_invoke hlaw _ (hc.loadFiles _)

theorem obeys_compile (hc : c'.Obeys law c) (plan : Plan) (patterns : List String) :
    (compile c' plan patterns).Obeys law (compile c plan patterns) := by
  refine .bind hlaw (obeys_ask hlaw _ (hc.ensureDirectory _)) fun _ ↦ .get_bind fun s ↦
    ⟨_, fun record ↦ by rw [missing_eq hc, matched_eq hc], ?_⟩
  split
  · exact .pure hlaw _
  split
  · exact .pure hlaw _
  exact obeys_invoke hlaw _ (hc.compileFiles _ _ _ _ _)

end Obeys

/-! ### One command -/

/-- `p'` runs as `p` does, and the first code to fail decides how `p` ends. -/
structure Decides (p' : Hosted (σ × List (Deed σ)) (Option String)) (p : Hosted σ (Option String)) :
    Prop where
  records : p'.Records p
  ending : ∀ bound s ending, (p'.deeds bound s).findSome? Deed.ending? = some ending →
    (p bound s).result = ending

theorem Decides.of_obeys {p' : Hosted (σ × List (Deed σ)) (Option String)}
    {p : Hosted σ (Option String)} (h : p'.Obeys FailsFirst p) : Decides p' p where
  records := h.records
  ending bound s ending hending := by
    obtain ⟨failure, hfailure, rfl⟩ := h.law bound s ending hending
    exact Outcome.result_of_failure? hfailure

/-- What a failure to start an application comes to. -/
def settleStart : Except Failure Unit → Except Failure (Option String)
  | .ok _ => .ok none
  | .error failure => match failure.cause with
    | .applicationStart application reason => .ok (some (notStarted application reason))
    | _ => .error failure

/-- What follows an attempt to start an application. -/
def behindStart : Except Failure Unit → Hosted σ (Option String)
  | .ok _ => pure none
  | .error failure => match failure.cause with
    | .applicationStart application reason => pure (some (notStarted application reason))
    | _ => Hosted.raise failure

theorem behindStart_apply (result : Except Failure Unit) (bound : Bool) (s : σ) :
    behindStart result bound s = ⟨settleStart result, s, []⟩ := by
  rcases result with ⟨cause, frames⟩ | ⟨⟩
  · cases cause <;> rfl
  · rfl

theorem app_apply (c : Collaborators σ) (name : String) (bound : Bool) (s : σ) :
    app c name bound s =
      ⟨settleStart (c.startApplication name bound s).result, (c.startApplication name bound s).state,
        .event (.asked (.start name)) :: (c.startApplication name bound s).effects⟩ := by
  have happ : app c name =
      (Hosted.attempt (ask (.start name) (c.startApplication name))).andThen behindStart := rfl
  rw [happ, Hosted.attempt_andThen_apply]
  simp only [behindStart_apply, List.append_nil]
  rfl

/-- An error in a start function has become a failure to start. -/
theorem settleStart_of_reported {deeds : List (Deed σ)} {o : Outcome σ Unit}
    (h : Reported deeds o.failure?) {ending : Except Failure (Option String)}
    (hending : deeds.findSome? Deed.ending? = some ending) : settleStart o.result = ending := by
  obtain ⟨⟨code, before, raised⟩, hdeed, hending⟩ := List.exists_of_findSome?_eq_some hending
  obtain ⟨⟨name, rfl | rfl⟩, hreported⟩ := h _ hdeed
  · cases hending
  · obtain ⟨failure, rfl, hfailure⟩ := Option.map_eq_some_iff.1 hending
    rw [Outcome.result_of_failure? (hreported failure rfl), ← hfailure]
    obtain ⟨cause, frames⟩ := failure
    cases cause <;> rfl

theorem decides_app {law : List (Deed σ) → Option Failure → Prop}
    {c' : Collaborators (σ × List (Deed σ))} {c : Collaborators σ} (hc : c'.Obeys law c)
    (name : String) : Decides (app c' name) (app c name) := by
  have hstart := hc.startApplication name
  have happly : ∀ bound s record, app c' name bound (s, record) = (app c name bound s).beside
      (record ++ (c'.startApplication name).deeds bound s) := by
    intro bound s record
    rw [app_apply, app_apply, hstart.records]
    rfl
  have hdeeds : ∀ bound s, (app c' name).deeds bound s =
      (c'.startApplication name).deeds bound s :=
    fun bound s ↦ Hosted.deeds_eq_of_beside (happly bound s)
  refine ⟨fun bound s record ↦ by rw [hdeeds, happly], fun bound s ending hending ↦ ?_⟩
  rw [hdeeds] at hending
  rw [app_apply]
  exact settleStart_of_reported (hstart.law bound s) hending

variable {c' : Collaborators (σ × List (Deed σ))} {c : Collaborators σ}

/-- **The first code to fail in a command decides how it ends.** -/
theorem decides_command (hc : c'.Obeys FailsFirst c) (plan : Plan) (command : Command) :
    Decides (Dispatch.command c' plan command) (Dispatch.command c plan command) := by
  have hlaw := lawful_failsFirst (σ := σ)
  cases command with
  | cookie value => exact .of_obeys (obeys_cookie hlaw hc value)
  | eval expression => exact .of_obeys (obeys_invoke hlaw _ (hc.eval expression))
  | app name => exact decides_app hc name
  | script name => exact .of_obeys (obeys_script hlaw hc name)
  | file path => exact .of_obeys (obeys_file hlaw hc path)
  | require pattern => exact .of_obeys (obeys_requireAll hlaw hc pattern)
  | parallelRequire pattern => exact .of_obeys (obeys_loadAll hlaw hc pattern)
  | compile patterns => exact .of_obeys (obeys_compile hlaw hc plan patterns)
  | unknown value => exact .of_obeys (.raise hlaw _)

/-! ### All commands -/

theorem records_commands (hc : c'.Obeys FailsFirst c) (plan : Plan) (list : List Command) :
    (commands c' plan list).Records (commands c plan list) := by
  induction list with
  | nil => exact .pure []
  | cons first rest ih =>
    have hnote := Hosted.Obeys.emit (σ := σ) lawful_failsFirst (.noted (.runningCommand first))
    rw [commands, commands]
    refine hnote.records.andThen fun _ ↦ ?_
    refine (decides_command hc plan first).records.andThen fun line? ↦ ?_
    exact ih.andThen fun lines ↦ .pure _

/-- A record of the code changes nothing in the run of a plan. -/
theorem records_plan (hc : c'.Obeys FailsFirst c) (plan : Plan) :
    (Dispatch.plan c' plan).Records (Dispatch.plan c plan) :=
  (records_commands hc plan plan.commands).andThen fun _ ↦ .pure _

theorem deeds_plan (c' : Collaborators (σ × List (Deed σ))) (plan : Plan) (bound : Bool) (s : σ) :
    (Dispatch.plan c' plan).deeds bound s = (commands c' plan plan.commands).deeds bound s :=
  Hosted.deeds_andThen_pure _ _ bound s

section Deeds

variable {plan : Plan} {bound : Bool} {s : σ} {first : Command}

/-- What is done by a command that returns is followed by what is done by the others. -/
theorem deeds_commands_of_ok (hc : c'.Obeys FailsFirst c) {line? : Option String}
    (h : (command c plan first bound s).result = .ok line?) (rest : List Command) :
    (commands c' plan (first :: rest)).deeds bound s =
      (command c' plan first).deeds bound s ++
        (commands c' plan rest).deeds bound (command c plan first bound s).state := by
  have hrest : ∀ line? : Option String,
      ((commands c' plan rest).andThen fun lines ↦ pure (line?.toList ++ lines)).Records
        ((commands c plan rest).andThen fun lines ↦ pure (line?.toList ++ lines)) :=
    fun line? ↦ (records_commands hc plan rest).andThen fun lines ↦ .pure _
  have hdeeds := (decides_command hc plan first).records.deeds_andThen_of_ok hrest h
  rw [Hosted.deeds_andThen_pure] at hdeeds
  exact hdeeds

/-- Behind a command that fails nothing is done. -/
theorem deeds_commands_of_error (hc : c'.Obeys FailsFirst c) {failure : Failure}
    (h : (command c plan first bound s).result = .error failure) (rest : List Command) :
    (commands c' plan (first :: rest)).deeds bound s = (command c' plan first).deeds bound s :=
  (decides_command hc plan first).records.deeds_andThen_of_error h

end Deeds

/-- The first code to fail behind `before` decides. -/
theorem findSome?_ending {before after : List (Deed σ)} {deed : Deed σ}
    {ending : Except Failure (Option String)}
    (hbefore : ∀ other ∈ before, other.ending? = none) (hdeed : deed.ending? = some ending) :
    (before ++ deed :: after).findSome? Deed.ending? = some ending := by
  rw [List.findSome?_append, List.findSome?_eq_none_iff.2 hbefore, List.findSome?_cons, hdeed]
  rfl

/-- When the commands in `front` have been run from the state `s` and have returned, `command` runs
the code of `deed` and ends with `ending`. -/
structure Raises (c' : Collaborators (σ × List (Deed σ))) (c : Collaborators σ) (plan : Plan)
    (bound : Bool) (s : σ) (front : List Command) (command : Command) (deed : Deed σ)
    (ending : Except Failure (Option String)) : Prop where
  returns : ∃ lines, (commands c plan front bound s).result = .ok lines
  mem : deed ∈ (Dispatch.command c' plan command).deeds bound (commands c plan front bound s).state
  result : (Dispatch.command c plan command bound (commands c plan front bound s).state).result =
    ending

section Raises

variable {plan : Plan} {bound : Bool} {s : σ} {first : Command} {deed : Deed σ}
  {ending : Except Failure (Option String)}

/-- The first command is the one. -/
theorem Raises.of_first (hc : c'.Obeys FailsFirst c) {before tail : List (Deed σ)}
    (hdeeds : (command c' plan first).deeds bound s = before ++ deed :: tail)
    (hbefore : ∀ other ∈ before, other.ending? = none) (hdeed : deed.ending? = some ending) :
    Raises c' c plan bound s [] first deed ending where
  returns := ⟨[], rfl⟩
  mem := by
    show deed ∈ (command c' plan first).deeds bound s
    rw [hdeeds]
    exact List.mem_append_right _ List.mem_cons_self
  result := (decides_command hc plan first).ending bound s ending
    (hdeeds ▸ findSome?_ending hbefore hdeed)

/-- The one is behind the first command. -/
theorem Raises.behind {line? : Option String}
    (h : (Dispatch.command c plan first bound s).result = .ok line?) {front : List Command}
    {command : Command} (hraises : Raises c' c plan bound
      (Dispatch.command c plan first bound s).state front command deed ending) :
    Raises c' c plan bound s (first :: front) command deed ending := by
  obtain ⟨lines, hlines⟩ := hraises.returns
  have hfront := commands_cons_of_ok h front
  refine ⟨⟨line?.toList ++ lines, ?_⟩, ?_, ?_⟩
  · rw [hfront, hlines]
    rfl
  · rw [hfront]
    exact hraises.mem
  · rw [hfront]
    exact hraises.result

/-- **The command that runs the first code to fail can be told**, and it ends as the code decides. -/
theorem exists_raises (hc : c'.Obeys FailsFirst c) {list : List Command}
    {before after : List (Deed σ)}
    (hdeeds : (commands c' plan list).deeds bound s = before ++ deed :: after)
    (hbefore : ∀ other ∈ before, other.ending? = none) (hdeed : deed.ending? = some ending) :
    ∃ front command later, list = front ++ command :: later ∧
      Raises c' c plan bound s front command deed ending := by
  induction list generalizing s before with
  | nil => exact absurd hdeeds (by simp [commands, Hosted.deeds])
  | cons first rest ih =>
    rcases h : (command c plan first bound s).result with failure | line?
    · rw [deeds_commands_of_error hc h] at hdeeds
      exact ⟨[], first, rest, rfl, .of_first hc hdeeds hbefore hdeed⟩
    · rw [deeds_commands_of_ok hc h] at hdeeds
      have hlater : ∀ more, (∀ other ∈ more, other.ending? = none) →
          (commands c' plan rest).deeds bound (command c plan first bound s).state =
            more ++ deed :: after →
          ∃ front command later, first :: rest = front ++ command :: later ∧
            Raises c' c plan bound s front command deed ending := by
        intro more hmore hrest
        obtain ⟨front, command, later, rfl, hraises⟩ := ih hrest hmore
        exact ⟨first :: front, command, later, rfl, hraises.behind h⟩
      -- the deed belongs to the first command or to a later one
      obtain ⟨own, hown, hrest⟩ | ⟨more, rfl, hrest⟩ := List.append_eq_append_iff.1 hdeeds.symm
      · cases own with
        | nil => exact hlater [] (List.forall_mem_nil _) hrest.symm
        | cons other own =>
          obtain ⟨rfl, -⟩ := List.cons.inj hrest
          exact ⟨[], first, rest, rfl, .of_first hc hown hbefore hdeed⟩
      · exact hlater more (fun other hother ↦ hbefore other (List.mem_append_right _ hother)) hrest

theorem Raises.mem_executed {front : List Command} {command : Command}
    (h : Raises c' c plan bound s front command deed ending) :
    ⟨command, Dispatch.command c plan command bound (commands c plan front bound s).state⟩ ∈
      executed c plan bound (front ++ [command]) s := by
  obtain ⟨lines, hlines⟩ := h.returns
  rw [executed_append hlines]
  exact List.mem_append_right _ List.mem_cons_self

/-- Behind a command that fails none is executed. -/
theorem Raises.executed_of_error {front : List Command} {command : Command} {failure : Failure}
    (h : Raises c' c plan bound s front command deed (.error failure)) (later : List Command) :
    executed c plan bound (front ++ command :: later) s =
      executed c plan bound (front ++ [command]) s := by
  obtain ⟨lines, hlines⟩ := h.returns
  rw [executed_append hlines, executed_append hlines, executed_cons_of_error h.result,
    executed_cons_of_error h.result]

/-- Behind a command that returns the others are executed. -/
theorem Raises.executed_of_ok {front : List Command} {command : Command} {line? : Option String}
    (h : Raises c' c plan bound s front command deed (.ok line?)) (later : List Command) :
    executed c plan bound (front ++ command :: later) s =
      executed c plan bound (front ++ [command]) s ++ executed c plan bound later
        (Dispatch.command c plan command bound (commands c plan front bound s).state).state := by
  obtain ⟨lines, hlines⟩ := h.returns
  rw [executed_append hlines, executed_append hlines, executed_cons_of_ok h.result,
    executed_cons_of_ok h.result, List.append_assoc]
  rfl

/-- The failure of the command is that of the plan. -/
theorem Raises.plan_of_error {front later : List Command} {command : Command} {failure : Failure}
    (h : Raises c' c plan bound s front command deed (.error failure))
    (hcommands : plan.commands = front ++ command :: later) :
    (Dispatch.plan c plan bound s).result = .error failure := by
  obtain ⟨lines, hlines⟩ := h.returns
  have hlast : (executed c plan bound (front ++ command :: later) s).findSome?
      Execution.failure? = some failure := by
    rw [executed_append hlines, executed_cons_of_error h.result, List.findSome?_append,
      findSome?_failure?_of_ok hlines, List.findSome?_singleton, Execution.failure?, h.result]
    rfl
  rw [plan_result, hcommands, conclusion, hlast]
  rfl

end Raises

end Dispatch

end Launcher
