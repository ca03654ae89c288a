import Launcher.Proofs.Dispatch.Raising

/-!
# The calls behind a command

A command turns to its collaborators by calls, each from the state that the one before has left, and
what comes of the command is decided by what comes of the calls (`command_eq_answer`). The first
failure of a call is raised, and nothing is called behind it. There is one exception: that an
application could not be started is an error line if the application controller says so. Everything
else that makes an error line is found by dispatch itself, and then no call is made for it
(`objection?`).

So what a plan executes is told by the calls of its commands.
-/

namespace Launcher.Dispatch

variable {σ : Type}

/-- A call of a collaborator, and what came of it. -/
structure Call (σ : Type) where
  request : Request
  outcome : Outcome σ Unit

namespace Call

/-- The effects of a call, behind the event that the collaborator was asked. -/
def effects (call : Call σ) : List Effect := .event (.asked call.request) :: call.outcome.effects

/-- The error line of the request to start an application, if the answer is that an application
could not be started. -/
def refusal? (call : Call σ) : Option String :=
  match call.request, call.outcome.failure? with
  | .start _, some ⟨.applicationStart application reason, _⟩ =>
    some (notStarted application reason)
  | _, _ => none

/-- The failure that a call raises: any failure but the one that makes an error line. -/
def raised? (call : Call σ) : Option Failure :=
  if call.refusal?.isSome then none else call.outcome.failure?

theorem refusal?_of_ok {call : Call σ} (h : call.outcome.result = .ok ()) :
    call.refusal? = none := by
  rw [refusal?, Outcome.failure?_of_ok h]
  split <;> first | rfl | contradiction

theorem raised?_of_ok {call : Call σ} (h : call.outcome.result = .ok ()) : call.raised? = none := by
  rw [raised?, refusal?_of_ok h, Outcome.failure?_of_ok h]
  rfl

/-- Of anything but the start of an application every failure is raised. -/
theorem raised?_of_ne {call : Call σ} (h : ∀ name, call.request ≠ .start name) :
    call.raised? = call.outcome.failure? := by
  have hnone : call.refusal? = none := by
    rw [refusal?]
    split
    · exact absurd ‹_› (h _)
    · rfl
  rw [raised?, hnone]
  rfl

end Call

/-- The state that calls from the state `s` on have left. -/
def stateAfter (s : σ) (calls : List (Call σ)) : σ :=
  calls.foldl (fun _ call ↦ call.outcome.state) s

/-! ### What a command calls -/

/-- The calls for files that are run one after another, up to the first that fails. -/
def requiresInTurn (c : Collaborators σ) (bound : Bool) : List String → σ → List (Call σ)
  | [], _ => []
  | path :: paths, s =>
    ⟨.require path, c.requireFile path bound s⟩ ::
      match (c.requireFile path bound s).result with
      | .ok _ => requiresInTurn c bound paths (c.requireFile path bound s).state
      | .error _ => []

/-- The call for compiling, from the state that is left when the output directory is there. -/
def compileCalls (c : Collaborators σ) (plan : Plan) (bound : Bool) (patterns : List String)
    (s : σ) : List (Call σ) :=
  if (missing c s patterns).isEmpty ∧ ¬(matched c s patterns).isEmpty then
    [⟨.compile (matched c s patterns) plan.output (settings plan.compilerOptions) plan.verbose,
      c.compileFiles (matched c s patterns) plan.output (settings plan.compilerOptions)
        (if plan.verbose then some fun file ↦ Hosted.emit (.announced file) else none) bound s⟩]
  else []

/-- The calls that a command makes from the state `s` on. -/
def calls (c : Collaborators σ) (plan : Plan) (bound : Bool) : Command → σ → List (Call σ)
  | .cookie value, s =>
    if c.nodeIsAlive s then [⟨.cookie value, c.setCookie value bound s⟩] else []
  | .eval expression, s => [⟨.eval expression, c.eval expression bound s⟩]
  | .app name, s => [⟨.start name, c.startApplication name bound s⟩]
  | .script name, s => requiresInTurn c bound (findScript c s name).toList s
  | .file path, s => if c.files.isRegular s path then requiresInTurn c bound [path] s else []
  | .require pattern, s => requiresInTurn c bound (regularFiles c s pattern) s
  | .parallelRequire pattern, s =>
    if (regularFiles c s pattern).isEmpty then []
    else [⟨.load (regularFiles c s pattern), c.loadFiles (regularFiles c s pattern) bound s⟩]
  | .compile patterns, s =>
    ⟨.ensureDirectory plan.output, c.files.ensureDirectory plan.output bound s⟩ ::
      match (c.files.ensureDirectory plan.output bound s).result with
      | .ok _ =>
        compileCalls c plan bound patterns (c.files.ensureDirectory plan.output bound s).state
      | .error _ => []
  | .unknown _, _ => []

/-- The error line for what a pattern list does not match. -/
def unmatched? (c : Collaborators σ) (s : σ) (patterns : List String) : Option String :=
  if !(missing c s patterns).isEmpty then
    some ("No files matched pattern(s) " ++ ",".intercalate (missing c s patterns))
  else if (matched c s patterns).isEmpty then some "No files matched provided patterns"
  else none

/-- What dispatch itself finds wrong with a command in the state `s`, as an error line. -/
def objection? (c : Collaborators σ) (plan : Plan) (bound : Bool) : Command → σ → Option String
  | .cookie _, s =>
    if c.nodeIsAlive s then none
    else some "--cookie : Cannot set cookie if the node is not alive (set --name or --sname)"
  | .script name, s =>
    if (findScript c s name).isNone then some ("-S : Could not find executable " ++ name) else none
  | .file path, s => if c.files.isRegular s path then none else some ("No file named " ++ path)
  | .require pattern, s =>
    if (regularFiles c s pattern).isEmpty then some ("-r : No files matched pattern " ++ pattern)
    else none
  | .parallelRequire pattern, s =>
    if (regularFiles c s pattern).isEmpty then some ("-pr : No files matched pattern " ++ pattern)
    else none
  | .compile patterns, s =>
    unmatched? c (c.files.ensureDirectory plan.output bound s).state patterns
  | _, _ => none

/-- How calls end: with the first failure that one of them raises, or else with the error line, if
there is one. -/
def ending (objection? : Option String) (calls : List (Call σ)) : Except Failure (Option String) :=
  match calls.findSome? Call.raised? with
  | some failure => .error failure
  | none => .ok ((calls.findSome? Call.refusal?).or objection?)

/-- How a command ends: as its calls do. A value that is no command fails. -/
def verdict (c : Collaborators σ) (plan : Plan) (bound : Bool) (command : Command) (s : σ) :
    Except Failure (Option String) :=
  match command with
  | .unknown value => .error (notACommand value)
  | command => ending (objection? c plan bound command s) (calls c plan bound command s)

/-- What a command comes to, told by its calls. -/
def answer (c : Collaborators σ) (plan : Plan) (bound : Bool) (command : Command) (s : σ) :
    Outcome σ (Option String) where
  result := verdict c plan bound command s
  state := stateAfter s (calls c plan bound command s)
  effects := (calls c plan bound command s).flatMap Call.effects

section Ending

variable {call : Call σ} {objection? : Option String}

theorem ending_cons_of_ok (h : call.outcome.result = .ok ()) (calls : List (Call σ)) :
    ending objection? (call :: calls) = ending objection? calls := by
  rw [ending, ending, List.findSome?_cons, Call.raised?_of_ok h, List.findSome?_cons,
    Call.refusal?_of_ok h]

theorem ending_cons_of_error {failure : Failure} (hne : ∀ name, call.request ≠ .start name)
    (h : call.outcome.result = .error failure) (calls : List (Call σ)) :
    ending objection? (call :: calls) = .error failure := by
  rw [ending, List.findSome?_cons, Call.raised?_of_ne hne, Outcome.failure?_of_error h]

theorem ending_singleton (hne : ∀ name, call.request ≠ .start name) :
    ending none [call] = call.outcome.result.map fun _ ↦ none := by
  rcases h : call.outcome.result with failure | ⟨⟩
  · exact ending_cons_of_error hne h []
  · exact ending_cons_of_ok h []

end Ending

/-! ### Every command is told by its calls -/

section Commands

variable (c : Collaborators σ) (plan : Plan) (bound : Bool)

theorem invoke_apply (request : Request) (p : Hosted σ Unit) (s : σ) :
    invoke request p bound s = ⟨(p bound s).result.map fun _ ↦ none, (p bound s).state,
      .event (.asked request) :: (p bound s).effects⟩ :=
  Hosted.andThen_pure_apply (ask request p) (fun _ ↦ none) bound s

theorem invoke_eq_ending (request : Request) (hne : ∀ name, request ≠ .start name)
    (p : Hosted σ Unit) (s : σ) : invoke request p bound s =
      ⟨ending none [⟨request, p bound s⟩], stateAfter s [⟨request, p bound s⟩],
        [⟨request, p bound s⟩].flatMap Call.effects⟩ := by
  rw [invoke_apply, ending_singleton hne, List.flatMap_singleton]
  rfl

/-- What a value comes to that is a command. -/
theorem answer_of_ne (command : Command) (h : ∀ value, command ≠ .unknown value) (s : σ) :
    answer c plan bound command s =
      ⟨ending (objection? c plan bound command s) (calls c plan bound command s),
        stateAfter s (calls c plan bound command s),
        (calls c plan bound command s).flatMap Call.effects⟩ := by
  cases command <;> first | rfl | exact absurd rfl (h _)

/-- A command that makes one call and does nothing else. -/
theorem invoke_eq_answer {request : Request} {p : Hosted σ Unit} {command : Command} {s : σ}
    (hne : ∀ name, request ≠ .start name) (hknown : ∀ value, command ≠ .unknown value)
    (hobjection : objection? c plan bound command s = none)
    (hcalls : calls c plan bound command s = [⟨request, p bound s⟩]) :
    invoke request p bound s = answer c plan bound command s := by
  rw [answer_of_ne c plan bound command hknown, hobjection, hcalls]
  exact invoke_eq_ending bound request hne p s

theorem ask_apply (request : Request) (p : Hosted σ Unit) (s : σ) :
    ask request p bound s =
      ⟨(p bound s).result, (p bound s).state, .event (.asked request) :: (p bound s).effects⟩ :=
  rfl

/-- Files are run one after another by the calls for them. -/
theorem each_require_apply (paths : List String) (s : σ) :
    (Hosted.each (require c) paths >>= fun _ ↦ pure none) bound s =
      ⟨ending none (requiresInTurn c bound paths s), stateAfter s (requiresInTurn c bound paths s),
        (requiresInTurn c bound paths s).flatMap Call.effects⟩ := by
  induction paths generalizing s with
  | nil => rfl
  | cons path paths ih =>
    have hcons : Hosted.each (require c) (path :: paths) =
        (require c path).andThen fun _ ↦ Hosted.each (require c) paths := rfl
    have hfirst : require c path bound s = _ := ask_apply bound _ _ s
    have hne : ∀ name, Request.require path ≠ .start name := fun _ ↦ nofun
    have hrest := ih (c.requireFile path bound s).state
    rw [Hosted.bind_eq_andThen, Hosted.andThen_pure_apply] at hrest ⊢
    rw [requiresInTurn, hcons]
    rcases h : (c.requireFile path bound s).result with failure | ⟨⟩
    · have hresult : (require c path bound s).result = .error failure := by rw [hfirst, h]
      rw [Hosted.andThen_apply_of_error hresult, hfirst, ending_cons_of_error hne h]
      simp [stateAfter, Call.effects, Except.map]
    · have hresult : (require c path bound s).result = .ok () := by rw [hfirst, h]
      obtain ⟨hending, hstate, heffects⟩ := Outcome.mk.inj hrest
      rw [Hosted.andThen_apply_of_ok hresult, hfirst, ending_cons_of_ok h]
      simp only [hending, hstate, heffects]
      rfl

theorem require_apply (path : String) (s : σ) :
    (require c path >>= fun _ ↦ pure none) bound s =
      ⟨ending none (requiresInTurn c bound [path] s),
        stateAfter s (requiresInTurn c bound [path] s),
        (requiresInTurn c bound [path] s).flatMap Call.effects⟩ := by
  have hcalls : requiresInTurn c bound [path] s =
      [⟨.require path, c.requireFile path bound s⟩] := by
    rw [requiresInTurn]
    cases (c.requireFile path bound s).result <;> rfl
  rw [hcalls]
  exact invoke_eq_ending bound (.require path) (fun _ ↦ nofun) (c.requireFile path) s

theorem script_eq_answer (name : String) (s : σ) :
    script c name bound s = answer c plan bound (.script name) s := by
  rw [script, Hosted.bind_eq_andThen, Hosted.get_andThen_apply,
    answer_of_ne c plan bound (.script name) (fun _ ↦ nofun), objection?, calls]
  rcases findScript c s name with - | path
  · rfl
  · exact require_apply c bound path s

theorem file_eq_answer (path : String) (s : σ) :
    file c path bound s = answer c plan bound (.file path) s := by
  rw [file, Hosted.bind_eq_andThen, Hosted.get_andThen_apply,
    answer_of_ne c plan bound (.file path) (fun _ ↦ nofun), objection?, calls]
  split_ifs
  · exact require_apply c bound path s
  · rfl

theorem requireAll_eq_answer (pattern : String) (s : σ) :
    requireAll c pattern bound s = answer c plan bound (.require pattern) s := by
  rw [requireAll, Hosted.bind_eq_andThen, Hosted.get_andThen_apply,
    answer_of_ne c plan bound (.require pattern) (fun _ ↦ nofun), objection?, calls]
  split_ifs with hempty
  · rw [List.isEmpty_iff.1 hempty]
    rfl
  · exact each_require_apply c bound _ s

theorem loadAll_eq_answer (pattern : String) (s : σ) :
    loadAll c pattern bound s = answer c plan bound (.parallelRequire pattern) s := by
  rw [loadAll, Hosted.bind_eq_andThen, Hosted.get_andThen_apply]
  split_ifs with hempty
  · rw [answer_of_ne c plan bound (.parallelRequire pattern) (fun _ ↦ nofun), objection?, calls,
      if_pos hempty, if_pos hempty]
    rfl
  · refine invoke_eq_answer c plan bound (fun _ ↦ nofun) (fun _ ↦ nofun) ?_ ?_
    · rw [objection?, if_neg hempty]
    · rw [calls, if_neg hempty]

theorem cookie_eq_answer (value : String) (s : σ) :
    cookie c value bound s = answer c plan bound (.cookie value) s := by
  rw [cookie, Hosted.bind_eq_andThen, Hosted.get_andThen_apply]
  split_ifs with halive
  · refine invoke_eq_answer c plan bound (fun _ ↦ nofun) (fun _ ↦ nofun) ?_ ?_
    · rw [objection?, if_pos halive]
    · rw [calls, if_pos halive]
  · rw [answer_of_ne c plan bound (.cookie value) (fun _ ↦ nofun), objection?, calls, if_neg halive,
      if_neg halive]
    rfl

theorem app_eq_answer (name : String) (s : σ) :
    app c name bound s = answer c plan bound (.app name) s := by
  have hsettle : ∀ o : Outcome σ Unit,
      settleStart o.result = ending none [⟨.start name, o⟩] := by
    rintro ⟨⟨cause, frames⟩ | ⟨⟩, state, effects⟩
    · cases cause <;> rfl
    · rfl
  rw [app_apply, hsettle, answer_of_ne c plan bound (.app name) (fun _ ↦ nofun), calls,
    List.flatMap_singleton]
  rfl

/-- What compiling does behind the call for the output directory. -/
def compileRest (patterns : List String) (s : σ) : Hosted σ (Option String) :=
  if !(missing c s patterns).isEmpty then
    pure (some ("No files matched pattern(s) " ++ ",".intercalate (missing c s patterns)))
  else if (matched c s patterns).isEmpty then pure (some "No files matched provided patterns")
  else invoke (.compile (matched c s patterns) plan.output (settings plan.compilerOptions)
    plan.verbose) (c.compileFiles (matched c s patterns) plan.output
      (settings plan.compilerOptions)
      (if plan.verbose then some fun file ↦ Hosted.emit (.announced file) else none))

theorem compileRest_apply (patterns : List String) (s : σ) :
    compileRest c plan patterns s bound s =
      ⟨ending (unmatched? c s patterns) (compileCalls c plan bound patterns s),
        stateAfter s (compileCalls c plan bound patterns s),
        (compileCalls c plan bound patterns s).flatMap Call.effects⟩ := by
  rw [compileRest, unmatched?, compileCalls]
  rcases hmissing : (missing c s patterns).isEmpty with - | -
  · rfl
  · rcases hmatched : (matched c s patterns).isEmpty with - | -
    · exact invoke_eq_ending bound (.compile ..) (fun _ ↦ nofun) _ s
    · rfl

/-- If the output directory cannot be created, this fails and nothing else happens. -/
theorem compile_apply_of_error {patterns : List String} {s : σ} {failure : Failure}
    (h : (c.files.ensureDirectory plan.output bound s).result = .error failure) :
    compile c plan patterns bound s =
      ⟨.error failure, (c.files.ensureDirectory plan.output bound s).state,
        .event (.asked (.ensureDirectory plan.output)) ::
          (c.files.ensureDirectory plan.output bound s).effects⟩ :=
  Hosted.andThen_apply_of_error (p := ask _ _) h

/-- Behind the output directory there comes the rest. -/
theorem compile_apply_of_ok {patterns : List String} {s : σ}
    (h : (c.files.ensureDirectory plan.output bound s).result = .ok ()) :
    let ensured := c.files.ensureDirectory plan.output bound s
    let rest := compileRest c plan patterns ensured.state bound ensured.state
    compile c plan patterns bound s =
      ⟨rest.result, rest.state,
        .event (.asked (.ensureDirectory plan.output)) :: ensured.effects ++ rest.effects⟩ :=
  Hosted.andThen_apply_of_ok (p := ask _ _) h

theorem compile_eq_answer (patterns : List String) (s : σ) :
    compile c plan patterns bound s = answer c plan bound (.compile patterns) s := by
  have hne : ∀ name, Request.ensureDirectory plan.output ≠ .start name := fun _ ↦ nofun
  rw [answer_of_ne c plan bound (.compile patterns) (fun _ ↦ nofun), objection?, calls]
  rcases h : (c.files.ensureDirectory plan.output bound s).result with failure | ⟨⟩
  · rw [compile_apply_of_error c plan bound h, ending_cons_of_error hne h, List.flatMap_singleton]
    rfl
  · rw [compile_apply_of_ok c plan bound h, compileRest_apply, ending_cons_of_ok h]
    rfl

/-- **Every command comes to what its calls say.** -/
theorem command_eq_answer (command : Command) (s : σ) :
    Dispatch.command c plan command bound s = answer c plan bound command s := by
  cases command with
  | cookie value => exact cookie_eq_answer c plan bound value s
  | eval expression =>
    exact invoke_eq_answer c plan bound (fun _ ↦ nofun) (fun _ ↦ nofun) rfl rfl
  | app name => exact app_eq_answer c plan bound name s
  | script name => exact script_eq_answer c plan bound name s
  | file path => exact file_eq_answer c plan bound path s
  | require pattern => exact requireAll_eq_answer c plan bound pattern s
  | parallelRequire pattern => exact loadAll_eq_answer c plan bound pattern s
  | compile patterns => exact compile_eq_answer c plan bound patterns s
  | unknown value => rfl

end Commands

end Launcher.Dispatch
