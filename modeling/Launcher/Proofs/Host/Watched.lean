import Launcher.Proofs.Deeds
import Launcher.Proofs.Host.Starting

/-!
# Applications under watch

The code behind the applications is the bodies of their modules, which run when the modules are
loaded, and their start functions. Both may fail in any way. Applications that keep a record of this
code start like those that do not (`obeys_start`), and if some of the code fails, then the start
comes to its end with this failure, or with the one that the code's application makes of it
(`Code.answer`, `Reported`).
-/

namespace Launcher

open Host (Application Applications)

variable {σ α β : Type}

/-- Whether a failure of the code comes out as it is. The launcher makes an error of its own of a
module that cannot be found or loaded, and of an error in a start function. -/
def Code.passes : Code → Failure → Bool
  | .body _, failure => !failure.cause.isImportError
  | .start _, failure => !failure.cause.isError
  | _, _ => true

/-- What comes out when the code has failed. -/
def Code.answer (code : Code) (failure : Failure) : Failure :=
  if code.passes failure then failure
  else match code with
    | .body name => Applications.failed name ("not found (" ++ failure.cause.message ++ ")")
    | .start name =>
      Applications.failed name (failure.cause.name ++ ": " ++ failure.cause.message)
    | _ => failure

theorem Code.answer_of_passes {code : Code} {failure : Failure} (h : code.passes failure) :
    code.answer failure = failure :=
  if_pos h

/-- Otherwise the failure is one of the code's application. -/
theorem Code.exists_answer_eq {code : Code} {name : String} {failure : Failure}
    (hcode : code = .body name ∨ code = .start name) (h : ¬code.passes failure) :
    ∃ reason, code.answer failure = Applications.failed name reason := by
  rcases hcode with rfl | rfl
  · exact ⟨_, if_neg h⟩
  · exact ⟨_, if_neg h⟩

/-- The deeds are those of applications, and every failure among them has come out. -/
def Reported (deeds : List (Deed σ)) (failure? : Option Failure) : Prop :=
  ∀ deed ∈ deeds, (∃ name, deed.code = .body name ∨ deed.code = .start name) ∧
    ∀ failure, deed.failure? = some failure → failure? = some (deed.code.answer failure)

theorem lawful_reported : Lawful (Reported (σ := σ)) where
  nil _ _ h := nomatch h
  append h h' deed hdeed := by
    rcases List.mem_append.1 hdeed with hdeed | hdeed
    · exact ⟨(h deed hdeed).1, fun failure hfailure ↦ nomatch (h deed hdeed).2 failure hfailure⟩
    · exact h' deed hdeed

theorem reported_singleton {code : Code} {name : String} {s : σ} {o : Outcome σ α}
    {failure? : Option Failure} (hcode : code = .body name ∨ code = .start name)
    (h : failure? = o.failure?.map code.answer) : Reported [⟨code, s, o.failure?⟩] failure? := by
  intro deed hdeed
  obtain rfl := List.mem_singleton.1 hdeed
  refine ⟨⟨name, hcode⟩, fun failure hfailure ↦ ?_⟩
  rw [h]
  exact congrArg (Option.map code.answer) hfailure

/-- A program whose value is changed before it is used. -/
theorem Hosted.andThen_pure_andThen {γ : Type} (p : Hosted σ α) (g : α → β) (f : β → Hosted σ γ) :
    (p.andThen fun a ↦ pure (g a)).andThen f = p.andThen fun a ↦ f (g a) := by
  funext bound s
  rcases h : (p bound s).result with failure | a
  · have h' : (p.andThen (fun a ↦ pure (g a)) bound s).result = .error failure := by
      rw [andThen_pure_apply, h]
      rfl
    rw [andThen_apply_of_error h, andThen_apply_of_error h', andThen_pure_apply]
  · have h' : (p.andThen (fun a ↦ pure (g a)) bound s).result = .ok (g a) := by
      rw [andThen_pure_apply, h]
      rfl
    rw [andThen_apply_of_ok h, andThen_apply_of_ok h', andThen_pure_apply]

namespace Host

/-- An application whose start function is watched. -/
def Application.watched (name : String) (app : Application σ) : Application (σ × List (Deed σ)) where
  dependencies := app.dependencies
  start := app.start.map (Hosted.watch (.start name))

namespace Applications

variable {apps : Applications σ}

/-- Applications whose code is watched. -/
def watched (apps : Applications σ) : Applications (σ × List (Deed σ)) where
  started := apps.started.beside
  catalogue := apps.catalogue
  load name := (Hosted.watch (.body name) (apps.load name)).andThen fun app ↦
    pure (app.watched name)

/-! ### Loading a module -/

theorem loadOrFail_apply (apps : Applications σ) (name : String) (bound : Bool) (s : σ) :
    apps.loadOrFail name bound s =
      ⟨(apps.loadAny name bound s).result.mapError (Code.body name).answer,
        (apps.loadAny name bound s).state, (apps.loadAny name bound s).effects⟩ := by
  rw [loadOrFail, Hosted.bind_eq_andThen, Hosted.attempt_andThen_apply]
  rcases (apps.loadAny name bound s).result with failure | app
  · cases himport : failure.cause.isImportError <;>
      simp [himport, Hosted.raise, Except.mapError, Code.answer, Code.passes]
  · simp [Except.mapError]

/-- A module that could be loaded is in the catalogue. -/
theorem load_of_loadOrFail {name : String} {bound : Bool} {s : σ} {app : Application σ}
    (h : (apps.loadOrFail name bound s).result = .ok app) :
    name ∈ apps.catalogue ∧ (apps.load name bound s).result = .ok app := by
  rw [loadOrFail_apply, loadAny] at h
  split_ifs at h with hmem
  · refine ⟨hmem, ?_⟩
    rcases hload : (apps.load name bound s).result with failure | app'
    · rw [hload] at h
      cases h
    · rwa [hload] at h
  · cases h

/-- What is done when a module is asked for: its body runs, if it is there. -/
def bodies (apps : Applications σ) (name : String) (bound : Bool) (s : σ) : List (Deed σ) :=
  if name ∈ apps.catalogue then [⟨.body name, s, (apps.load name bound s).failure?⟩] else []

/-- The module of an application is loaded, under watch. The application itself is not yet. -/
def loading (apps : Applications σ) (name : String) :
    Hosted (σ × List (Deed σ)) (Application σ) := fun bound s ↦
  (apps.loadOrFail name bound s.1).beside (s.2 ++ apps.bodies name bound s.1)

theorem watched_loadAny_apply (apps : Applications σ) (name : String) (bound : Bool) (s : σ)
    (record : List (Deed σ)) : apps.watched.loadAny name bound (s, record) =
      ⟨(apps.loadAny name bound s).result.map (·.watched name),
        ((apps.loadAny name bound s).state, record ++ apps.bodies name bound s),
        (apps.loadAny name bound s).effects⟩ := by
  rw [loadAny, loadAny, bodies]
  by_cases hmem : name ∈ apps.catalogue
  · rw [if_pos hmem, if_pos hmem, if_pos (show name ∈ apps.watched.catalogue from hmem)]
    exact Hosted.andThen_pure_apply _ _ _ _
  · rw [if_neg hmem, if_neg hmem, if_neg (show name ∉ apps.watched.catalogue from hmem),
      List.append_nil]
    rfl

theorem watched_loadOrFail (apps : Applications σ) (name : String) :
    apps.watched.loadOrFail name = (apps.loading name).andThen fun app ↦ pure (app.watched name) := by
  funext bound ⟨s, record⟩
  rw [loadOrFail_apply, watched_loadAny_apply, Hosted.andThen_pure_apply, loading,
    loadOrFail_apply]
  show Outcome.mk (Except.mapError _ (Except.map _ _)) _ _ =
    Outcome.mk (Except.map _ (Except.mapError _ _)) _ _
  rcases (apps.loadAny name bound s).result <;> rfl

theorem records_loading (apps : Applications σ) (name : String) :
    (apps.loading name).Records (apps.loadOrFail name) :=
  fun _ _ _ ↦ rfl

theorem deeds_loading (apps : Applications σ) (name : String) (bound : Bool) (s : σ) :
    (apps.loading name).deeds bound s = apps.bodies name bound s :=
  List.nil_append _

theorem loading_of_not_mem {name : String} {failure : Failure} (hmem : name ∉ apps.catalogue)
    (h : apps.loadOrFail name = Hosted.raise failure) :
    apps.loading name = Hosted.raise failure := by
  funext bound s
  rw [loading, h, bodies, if_neg hmem, List.append_nil]
  rfl

theorem obeys_loading (apps : Applications σ) (name : String) :
    (apps.loading name).Obeys Reported (apps.loadOrFail name) where
  records := apps.records_loading name
  law bound s := by
    rw [deeds_loading, bodies]
    split_ifs with hmem
    · refine reported_singleton (.inl rfl) ?_
      rw [loadOrFail_apply, loadAny, if_pos hmem, Outcome.failure?, Outcome.failure?]
      rcases (apps.load name bound s).result <;> rfl
    · exact lawful_reported.nil _

/-! ### Starting a loaded application -/

/-- Call the start function of an application, if it has one. -/
def call (name : String) (app : Application σ) : Hosted σ Unit :=
  match app.start with
  | some start => callStart name start
  | none => pure ()

/-- Remember an application as started. -/
def remember (apps : Applications σ) (name : String) : Hosted σ Unit :=
  (Hosted.note (.startedApplication name)).andThen fun _ ↦
    Hosted.modify (apps.started.update (· ++ [name]))

theorem finish_eq_andThen (apps : Applications σ) (name : String) (app : Application σ) :
    apps.finish name app = (call name app).andThen fun _ ↦ apps.remember name := by
  rw [finish, call]
  cases app.start <;> rfl

theorem callStart_apply (name : String) (start : Hosted σ Unit) (bound : Bool) (s : σ) :
    callStart name start bound s =
      ⟨(start bound s).result.mapError (Code.start name).answer, (start bound s).state,
        .event (.started name) :: (start bound s).effects⟩ := by
  rw [callStart, Hosted.bind_eq_andThen, Hosted.attempt_andThen_apply]
  have hcall : ((Hosted.emit (.started name)).andThen fun _ ↦ start) bound s =
      ⟨(start bound s).result, (start bound s).state,
        .event (.started name) :: (start bound s).effects⟩ := rfl
  rw [hcall]
  rcases (start bound s).result with failure | ⟨⟩
  · cases herror : failure.cause.isError <;>
      simp [herror, Hosted.raise, Except.mapError, Code.answer, Code.passes]
  · simp [Except.mapError]

/-- What is done when a loaded application is called. -/
def calls (name : String) (app : Application σ) (bound : Bool) (s : σ) : List (Deed σ) :=
  match app.start with
  | some start => [⟨.start name, s, (start bound s).failure?⟩]
  | none => []

theorem watched_call_apply (name : String) (app : Application σ) (bound : Bool) (s : σ)
    (record : List (Deed σ)) : call name (app.watched name) bound (s, record) =
      (call name app bound s).beside (record ++ calls name app bound s) := by
  rw [call, call, calls, Application.watched]
  rcases app.start with - | start
  · rw [List.append_nil]
    rfl
  · exact (callStart_apply _ _ _ _).trans (congrArg (Outcome.beside · _)
      (callStart_apply name start bound s).symm)

theorem deeds_call (name : String) (app : Application σ) (bound : Bool) (s : σ) :
    (call name (app.watched name)).deeds bound s = calls name app bound s :=
  Hosted.deeds_eq_of_beside (watched_call_apply name app bound s)

theorem obeys_call (name : String) (app : Application σ) :
    (call name (app.watched name)).Obeys Reported (call name app) where
  records bound s record := by rw [deeds_call, watched_call_apply]
  law bound s := by
    rw [deeds_call, calls, call]
    rcases app.start with - | start
    · exact lawful_reported.nil _
    · refine reported_singleton (.inr rfl) ?_
      show (callStart name start bound s).failure? = _
      rw [callStart_apply, Outcome.failure?, Outcome.failure?]
      rcases (start bound s).result <;> rfl

theorem obeys_remember {law : List (Deed σ) → Option Failure → Prop} (hlaw : Lawful law)
    (apps : Applications σ) (name : String) :
    (apps.watched.remember name).Obeys law (apps.remember name) :=
  .of_beside hlaw fun _ _ _ ↦ rfl

/-! ### Starting under watch -/

/-- Start what a loaded application depends on, and then the application itself. -/
def visit (apps : Applications σ) (starting : List String) (name : String) (app : Application σ) :
    Hosted σ Unit :=
  (Hosted.each (apps.startWithin (starting ++ [name])) app.dependencies).andThen fun _ ↦
    (call name app).andThen fun _ ↦ apps.remember name

theorem startWithin_apply (apps : Applications σ) (starting : List String) (name : String)
    (bound : Bool) (s : σ) : apps.startWithin starting name bound s =
      if name ∈ apps.started.get s then ⟨.ok (), s, []⟩
      else if name ∈ starting then ⟨.error (circular name), s, []⟩
      else (apps.loadOrFail name).andThen (apps.visit starting name) bound s := by
  rw [startWithin_eq_startLayer, startLayer_apply]
  simp only [finish_eq_andThen]
  rfl

theorem watched_startWithin_apply (apps : Applications σ) (starting : List String) (name : String)
    (bound : Bool) (s : σ) (record : List (Deed σ)) :
    apps.watched.startWithin starting name bound (s, record) =
      if name ∈ apps.started.get s then ⟨.ok (), (s, record), []⟩
      else if name ∈ starting then ⟨.error (circular name), (s, record), []⟩
      else (apps.loading name).andThen (fun app ↦ apps.watched.visit starting name (app.watched name))
        bound (s, record) := by
  rw [startWithin_apply, watched_loadOrFail, Hosted.andThen_pure_andThen]
  rfl

variable {starting : List String} {name : String}

theorem obeys_visit (h : ∀ dependency, (apps.watched.startWithin (starting ++ [name])
      dependency).Obeys Reported (apps.startWithin (starting ++ [name]) dependency))
    (app : Application σ) : (apps.watched.visit starting name (app.watched name)).Obeys Reported
      (apps.visit starting name app) :=
  .andThen lawful_reported (.each lawful_reported h app.dependencies) fun _ ↦
    .andThen lawful_reported (obeys_call name app) fun _ ↦ obeys_remember lawful_reported apps name

theorem obeys_startWithin (apps : Applications σ) (starting : List String) (name : String) :
    (apps.watched.startWithin starting name).Obeys Reported (apps.startWithin starting name) := by
  -- by induction on how many modules are left
  induction hn : (apps.remaining starting).length using Nat.strongRecOn
    generalizing starting name with
  | ind n ih =>
    refine .of_apply fun bound s ↦ ?_
    rw [startWithin_apply]
    simp only [watched_startWithin_apply]
    split_ifs with hstarted hstarting
    · exact ⟨_, _, .pure lawful_reported (), fun _ ↦ rfl, rfl⟩
    · exact ⟨_, _, .raise lawful_reported (circular name), fun _ ↦ rfl, rfl⟩
    · refine ⟨_, _, ?_, fun _ ↦ rfl, rfl⟩
      by_cases hmem : name ∈ apps.catalogue
      · have hless := length_remaining_lt hmem hstarting
        exact .andThen lawful_reported (apps.obeys_loading name)
          (obeys_visit fun dependency ↦ ih _ (hn ▸ hless) _ _ rfl)
      · obtain ⟨failure, hload⟩ := loadOrFail_of_not_mem hmem
        rw [loading_of_not_mem hmem hload, hload]
        exact .raise lawful_reported failure

/-- **Starting an application obeys the law.** A record of the code changes nothing, and a failure of
the code of the application, or of anything it depends on, comes out. -/
theorem obeys_start (apps : Applications σ) (name : String) :
    (apps.watched.start name).Obeys Reported (apps.start name) :=
  apps.obeys_startWithin [] name

end Applications

end Host

end Launcher
