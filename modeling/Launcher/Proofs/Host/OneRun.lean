import Launcher.Proofs.Host.WatchedHost

/-!
# Files that run once

What hosted programs run, and what counts as required afterwards. A program **runs files once** if
every file that it runs was not required before, is run once, and counts as required afterwards, and
no other file does (`Hosted.RunsOnce`). Programs that are made of such programs are such programs.
The simplest are the **discreet** ones: they run no file and leave the required files as they are.
-/

namespace Launcher

variable {σ α β : Type}

/-- The file that was run. -/
def Effect.ran? : Effect → Option String
  | .event (.ran path) => some path
  | _ => none

/-- The files that were run, in order. -/
def ranIn (effects : List Effect) : List String := effects.filterMap Effect.ran?

@[simp]
theorem ranIn_nil : ranIn [] = [] := rfl

@[simp]
theorem ranIn_append (effects effects' : List Effect) :
    ranIn (effects ++ effects') = ranIn effects ++ ranIn effects' :=
  List.filterMap_append

/-- The files `ran` have been run, each once, when the files `before` counted as required; now the
files `after` do. -/
structure RunOnce (before ran after : List String) : Prop where
  fresh : ∀ path ∈ ran, path ∉ before
  nodup : ran.Nodup
  mem_after : ∀ path, path ∈ after ↔ path ∈ before ∨ path ∈ ran

namespace RunOnce

variable {a b c ran ran' : List String}

theorem refl (a : List String) : RunOnce a [] a where
  fresh := nofun
  nodup := List.nodup_nil
  mem_after _ := ⟨.inl, fun h ↦ h.resolve_right nofun⟩

theorem trans (h : RunOnce a ran b) (h' : RunOnce b ran' c) : RunOnce a (ran ++ ran') c where
  fresh path hpath := by
    rcases List.mem_append.1 hpath with hran | hran
    · exact h.fresh path hran
    · exact fun ha ↦ h'.fresh path hran ((h.mem_after path).2 (.inl ha))
  nodup := List.nodup_append.2 ⟨h.nodup, h'.nodup, fun path hran path' hran' heq ↦
    h'.fresh path' hran' ((h.mem_after path').2 (.inr (heq ▸ hran)))⟩
  mem_after path := by
    rw [h'.mem_after, h.mem_after, List.mem_append, or_assoc]

end RunOnce

namespace Hosted

variable {required : Slot σ (List String)} {p : Hosted σ α}

/-- The program runs no file, and leaves the required files as they are. -/
structure Discreet (required : Slot σ (List String)) (p : Hosted σ α) : Prop where
  keeps : ∀ bound s, required.get (p bound s).state = required.get s
  runs : ∀ bound s, ranIn (p bound s).effects = []

/-- Each file that the program runs is a new one, and is run once. -/
def RunsOnce (required : Slot σ (List String)) (p : Hosted σ α) : Prop :=
  ∀ bound s, RunOnce (required.get s) (ranIn (p bound s).effects) (required.get (p bound s).state)

theorem discreet_of_state_eq {result : Bool → σ → Except Failure α}
    {effects : Bool → σ → List Effect}
    (h : ∀ bound s, ranIn (effects bound s) = []) :
    Discreet required (fun bound s ↦ ⟨result bound s, s, effects bound s⟩ : Hosted σ α) where
  keeps _ _ := rfl
  runs := h

theorem discreet_pure (a : α) : (pure a : Hosted σ α).Discreet required :=
  discreet_of_state_eq fun _ _ ↦ rfl

theorem discreet_raise (failure : Failure) : (raise failure : Hosted σ α).Discreet required :=
  discreet_of_state_eq fun _ _ ↦ rfl

theorem discreet_emit {event : HostedEvent} (h : (Effect.event event).ran? = none) :
    (emit event : Hosted σ Unit).Discreet required :=
  discreet_of_state_eq fun _ _ ↦ by rw [ranIn, List.filterMap_cons, h, List.filterMap_nil]

theorem discreet_get : (get : Hosted σ σ).Discreet required :=
  discreet_of_state_eq fun _ _ ↦ rfl

theorem discreet_enqueue (queue : QueueId) (hook : Hook) :
    (enqueue queue hook : Hosted σ Unit).Discreet required :=
  discreet_of_state_eq fun _ _ ↦ rfl

theorem discreet_atExit (hook : Hook) : (atExit hook : Hosted σ Unit).Discreet required where
  keeps bound s := by cases bound <;> rfl
  runs bound s := by cases bound <;> rfl

theorem discreet_modify {f : σ → σ} (h : ∀ s, required.get (f s) = required.get s) :
    (modify f).Discreet required where
  keeps _ := h
  runs _ _ := rfl

theorem Discreet.bind {f : α → Hosted σ β} (hp : p.Discreet required)
    (hf : ∀ a, (f a).Discreet required) : (p >>= f).Discreet required := by
  have happly : ∀ bound s, required.get ((p >>= f) bound s).state = required.get s ∧
      ranIn ((p >>= f) bound s).effects = [] := by
    intro bound s
    rw [bind_eq_andThen]
    rcases hresult : (p bound s).result with failure | a
    · rw [andThen_apply_of_error hresult]
      exact ⟨hp.keeps bound s, hp.runs bound s⟩
    · rw [andThen_apply_of_ok hresult, ranIn_append, hp.runs, List.nil_append]
      exact ⟨((hf a).keeps bound _).trans (hp.keeps bound s), (hf a).runs bound _⟩
  exact ⟨fun bound s ↦ (happly bound s).1, fun bound s ↦ (happly bound s).2⟩

theorem discreet_each {f : β → Hosted σ Unit} (hf : ∀ b, (f b).Discreet required) (bs : List β) :
    (each f bs).Discreet required := by
  induction bs with
  | nil => exact discreet_pure ()
  | cons b bs ih => exact (hf b).bind fun _ ↦ ih

theorem Discreet.runsOnce (h : p.Discreet required) : p.RunsOnce required := by
  intro bound s
  rw [h.keeps, h.runs]
  exact .refl _

/-- What follows a program may be told what the program returns. -/
theorem RunsOnce.andThen_of_ok {f : α → Hosted σ β} (hp : p.RunsOnce required)
    (hf : ∀ bound s a, (p bound s).result = .ok a → (f a).RunsOnce required) :
    (p.andThen f).RunsOnce required := by
  intro bound s
  rcases hresult : (p bound s).result with failure | a
  · rw [andThen_apply_of_error hresult]
    exact hp bound s
  · rw [andThen_apply_of_ok hresult, ranIn_append]
    exact (hp bound s).trans (hf bound s a hresult bound _)

theorem RunsOnce.andThen {f : α → Hosted σ β} (hp : p.RunsOnce required)
    (hf : ∀ a, (f a).RunsOnce required) : (p.andThen f).RunsOnce required :=
  hp.andThen_of_ok fun _ _ a _ ↦ hf a

theorem RunsOnce.bind {f : α → Hosted σ β} (hp : p.RunsOnce required)
    (hf : ∀ a, (f a).RunsOnce required) : (p >>= f).RunsOnce required :=
  hp.andThen hf

theorem RunsOnce.get_bind {f : σ → Hosted σ β} (hf : ∀ s, (f s).RunsOnce required) :
    (Hosted.get >>= f).RunsOnce required :=
  fun bound s ↦ hf s bound s

theorem RunsOnce.attempt (hp : p.RunsOnce required) : (Hosted.attempt p).RunsOnce required :=
  hp

theorem runsOnce_each {f : β → Hosted σ Unit} (hf : ∀ b, (f b).RunsOnce required) (bs : List β) :
    (each f bs).RunsOnce required := by
  induction bs with
  | nil => exact (discreet_pure ()).runsOnce
  | cons b bs ih => exact (hf b).andThen fun _ ↦ ih

end Hosted

end Launcher
