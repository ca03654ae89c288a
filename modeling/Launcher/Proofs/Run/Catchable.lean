import Launcher.Proofs.Exit.Boundary
import Launcher.Dispatch

/-!
# Failures that the boundary catches

A hosted program is **catchable** if it fails only in ways that do not escape the boundary: with an
error, an exit of the process, or an interrupt. If all that dispatch turns to is catchable, then so is
running a plan, since the failures of dispatch itself are errors.
-/

namespace Launcher

variable {σ α β : Type}

/-- Every failure of the program is caught by the boundary. -/
def Hosted.Catchable (p : Hosted σ α) : Prop :=
  ∀ bound s failure, (p bound s).result = .error failure → failure.cause.escapes = false

namespace Hosted

/-- A program that always returns is catchable. -/
theorem catchable_of_ok {p : Hosted σ α} (h : ∀ bound s, ∃ a, (p bound s).result = .ok a) :
    p.Catchable := by
  intro bound s failure hfailure
  obtain ⟨a, ha⟩ := h bound s
  rw [ha] at hfailure
  cases hfailure

theorem catchable_pure (a : α) : (pure a : Hosted σ α).Catchable :=
  catchable_of_ok fun _ _ ↦ ⟨a, rfl⟩

theorem catchable_emit (event : HostedEvent) : (emit event : Hosted σ Unit).Catchable :=
  catchable_of_ok fun _ _ ↦ ⟨(), rfl⟩

theorem catchable_get : (get : Hosted σ σ).Catchable :=
  catchable_of_ok fun _ s ↦ ⟨s, rfl⟩

theorem catchable_raise {failure : Failure} (h : failure.cause.escapes = false) :
    (raise failure : Hosted σ α).Catchable := by
  intro _ _ failure' hfailure
  cases hfailure
  exact h

theorem Catchable.bind {p : Hosted σ α} {f : α → Hosted σ β} (hp : p.Catchable)
    (hf : ∀ a, (f a).Catchable) : (p >>= f).Catchable := by
  intro bound s failure h
  rw [bind_eq_andThen] at h
  rcases hresult : (p bound s).result with failure' | a
  · rw [andThen_apply_of_error hresult] at h
    cases h
    exact hp bound s failure hresult
  · rw [andThen_apply_of_ok hresult] at h
    exact hf a bound _ failure h

/-- A program behind an attempt may assume that the failure it is given is caught. -/
theorem Catchable.attempt_bind {p : Hosted σ α} {f : Except Failure α → Hosted σ β}
    (hp : p.Catchable) (hok : ∀ a, (f (.ok a)).Catchable)
    (herror : ∀ failure, failure.cause.escapes = false → (f (.error failure)).Catchable) :
    (attempt p >>= f).Catchable := by
  intro bound s failure h
  rw [bind_eq_andThen, andThen_apply_of_ok rfl] at h
  rcases hresult : (p bound s).result with failure' | a
  · rw [hresult] at h
    exact herror failure' (hp bound s failure' hresult) bound _ failure h
  · rw [hresult] at h
    exact hok a bound _ failure h

theorem catchable_each {f : α → Hosted σ Unit} (h : ∀ a, (f a).Catchable) (as : List α) :
    (each f as).Catchable := by
  induction as with
  | nil => exact catchable_pure ()
  | cons a as ih => exact (h a).bind fun _ ↦ ih

end Hosted

/-- Whatever dispatch turns to is catchable. A compiler may also fail as the callback does that it is
given. -/
structure Collaborators.Catchable (c : Collaborators σ) : Prop where
  ensureDirectory : ∀ path, (c.files.ensureDirectory path).Catchable
  eval : ∀ expression, (c.eval expression).Catchable
  requireFile : ∀ path, (c.requireFile path).Catchable
  loadFiles : ∀ files, (c.loadFiles files).Catchable
  startApplication : ∀ name, (c.startApplication name).Catchable
  compileFiles : ∀ files output options callback?,
    (∀ callback, callback? = some callback → ∀ file, (callback file).Catchable) →
      (c.compileFiles files output options callback?).Catchable
  setCookie : ∀ value, (c.setCookie value).Catchable

namespace Dispatch

variable {c : Collaborators σ}

theorem catchable_ask (request : Request) {p : Hosted σ Unit} (h : p.Catchable) :
    (ask request p).Catchable :=
  (Hosted.catchable_emit _).bind fun _ ↦ h

theorem catchable_invoke (request : Request) {p : Hosted σ Unit} (h : p.Catchable) :
    (invoke request p).Catchable :=
  (catchable_ask request h).bind fun _ ↦ Hosted.catchable_pure none

theorem catchable_require (hc : c.Catchable) (path : String) : (require c path).Catchable :=
  catchable_ask _ (hc.requireFile path)

theorem catchable_cookie (hc : c.Catchable) (value : String) : (cookie c value).Catchable := by
  refine Hosted.catchable_get.bind fun s ↦ ?_
  split
  · exact catchable_invoke _ (hc.setCookie value)
  · exact Hosted.catchable_pure _

theorem catchable_app (hc : c.Catchable) (name : String) : (app c name).Catchable := by
  refine (catchable_ask _ (hc.startApplication name)).attempt_bind
    (fun _ ↦ Hosted.catchable_pure none) fun failure hfailure ↦ ?_
  dsimp only
  split
  · exact Hosted.catchable_pure _
  · exact Hosted.catchable_raise hfailure

theorem catchable_script (hc : c.Catchable) (name : String) : (script c name).Catchable := by
  refine Hosted.catchable_get.bind fun s ↦ ?_
  split
  · exact Hosted.catchable_pure _
  · exact (catchable_require hc _).bind fun _ ↦ Hosted.catchable_pure none

theorem catchable_file (hc : c.Catchable) (path : String) : (file c path).Catchable := by
  refine Hosted.catchable_get.bind fun s ↦ ?_
  split
  · exact (catchable_require hc path).bind fun _ ↦ Hosted.catchable_pure none
  · exact Hosted.catchable_pure _

theorem catchable_requireAll (hc : c.Catchable) (pattern : String) :
    (requireAll c pattern).Catchable := by
  refine Hosted.catchable_get.bind fun s ↦ ?_
  dsimp only
  split
  · exact Hosted.catchable_pure _
  · exact (Hosted.catchable_each (catchable_require hc) _).bind fun _ ↦ Hosted.catchable_pure none

theorem catchable_loadAll (hc : c.Catchable) (pattern : String) :
    (loadAll c pattern).Catchable := by
  refine Hosted.catchable_get.bind fun s ↦ ?_
  dsimp only
  split
  · exact Hosted.catchable_pure _
  · exact catchable_invoke _ (hc.loadFiles _)

theorem catchable_compile (hc : c.Catchable) (plan : Plan) (patterns : List String) :
    (compile c plan patterns).Catchable := by
  refine (catchable_ask _ (hc.ensureDirectory _)).bind fun _ ↦ Hosted.catchable_get.bind fun s ↦ ?_
  split
  · exact Hosted.catchable_pure _
  split
  · exact Hosted.catchable_pure _
  refine catchable_invoke _ (hc.compileFiles _ _ _ _ fun callback hcallback file ↦ ?_)
  -- the only callback is the one that announces a file
  split at hcallback
  · cases hcallback
    exact Hosted.catchable_emit _
  · cases hcallback

theorem catchable_command (hc : c.Catchable) (plan : Plan) (command : Command) :
    (Dispatch.command c plan command).Catchable := by
  cases command with
  | cookie value => exact catchable_cookie hc value
  | eval expression => exact catchable_invoke _ (hc.eval expression)
  | app name => exact catchable_app hc name
  | script name => exact catchable_script hc name
  | file path => exact catchable_file hc path
  | require pattern => exact catchable_requireAll hc pattern
  | parallelRequire pattern => exact catchable_loadAll hc pattern
  | compile patterns => exact catchable_compile hc plan patterns
  | unknown value => exact Hosted.catchable_raise rfl

theorem catchable_commands (hc : c.Catchable) (plan : Plan) (commands : List Command) :
    (Dispatch.commands c plan commands).Catchable := by
  induction commands with
  | nil => exact Hosted.catchable_pure []
  | cons first rest ih =>
    refine (Hosted.catchable_emit _).bind fun _ ↦ ?_
    refine (catchable_command hc plan first).bind fun error ↦ ?_
    exact ih.bind fun errors ↦ Hosted.catchable_pure _

/-- **Running a plan fails only in ways that the boundary catches**, if all that it turns to does. -/
theorem catchable_plan (hc : c.Catchable) (plan : Plan) : (Dispatch.plan c plan).Catchable :=
  (catchable_commands hc plan plan.commands).bind fun _ ↦ Hosted.catchable_pure _

end Dispatch

end Launcher
