import Launcher.Hosted

/-!
# Deeds

What hosted code has done is seen from outside by a host that keeps a record beside its state. A
**deed** is one run of a piece of code: the code, the state it found, and its failure if it failed.
The code itself has no access to the record, so a host that keeps one runs as it does without
(`Hosted.Records`), and what can be said about the record is said about the plain run.

A **law** relates the deeds of a program to how the program ends. If a law holds of a program behind
one that has returned, where it holds of both (`Lawful`), then it holds of whatever is put together
from programs of which it holds (`Obeys`).
-/

namespace Launcher

/-- A piece of hosted code. -/
inductive Code
  | expression (text : String)
  /-- The file at an absolute path. -/
  | file (path : String)
  /-- The body of a module, which runs when the module is loaded. -/
  | body (name : String)
  /-- The start function of an application. -/
  | start (name : String)
  deriving DecidableEq, Repr

/-- One run of a piece of code. -/
structure Deed (σ : Type) where
  code : Code
  /-- The state that the code found. -/
  before : σ
  failure? : Option Failure
  deriving DecidableEq, Repr

variable {σ α β : Type}

/-- The failure of a program that has failed. -/
def Outcome.failure? (o : Outcome σ α) : Option Failure :=
  match o.result with
  | .ok _ => none
  | .error failure => some failure

theorem Outcome.failure?_of_ok {o : Outcome σ α} {a : α} (h : o.result = .ok a) :
    o.failure? = none := by
  rw [Outcome.failure?, h]

theorem Outcome.failure?_of_error {o : Outcome σ α} {failure : Failure}
    (h : o.result = .error failure) : o.failure? = some failure := by
  rw [Outcome.failure?, h]

theorem Outcome.result_of_failure? {o : Outcome σ α} {failure : Failure}
    (h : o.failure? = some failure) : o.result = .error failure := by
  rcases hresult : o.result with failure' | a
  · rw [Outcome.failure?_of_error hresult] at h
    cases h
    rfl
  · rw [Outcome.failure?_of_ok hresult] at h
    cases h

/-- An outcome with a record beside its state. -/
def Outcome.beside (o : Outcome σ α) (record : List (Deed σ)) : Outcome (σ × List (Deed σ)) α :=
  ⟨o.result, (o.state, record), o.effects⟩

/-- A part of a state, where a record is kept beside it. -/
def Slot.beside {τ : Type} (slot : Slot σ τ) : Slot (σ × List (Deed σ)) τ where
  get s := slot.get s.1
  set t s := (slot.set t s.1, s.2)
  get_set t s := slot.get_set t s.1
  set_get s := by rw [slot.set_get]
  set_set t u s := by rw [slot.set_set]

namespace Hosted

/-- The program of a piece of code, whose run is a deed. -/
def watch (code : Code) (p : Hosted σ α) : Hosted (σ × List (Deed σ)) α := fun bound s ↦
  (p bound s.1).beside (s.2 ++ [⟨code, s.1, (p bound s.1).failure?⟩])

/-- A program whose run is no deed. -/
def unwatched (p : Hosted σ α) : Hosted (σ × List (Deed σ)) α := fun bound s ↦
  (p bound s.1).beside s.2

/-- What a program has done, run in the state `s`. -/
def deeds (p : Hosted (σ × List (Deed σ)) α) (bound : Bool) (s : σ) : List (Deed σ) :=
  (p bound (s, [])).state.2

/-- `p'` runs as `p` does, and puts its deeds at the end of the record. -/
def Records (p' : Hosted (σ × List (Deed σ)) α) (p : Hosted σ α) : Prop :=
  ∀ bound s record, p' bound (s, record) = (p bound s).beside (record ++ p'.deeds bound s)

theorem deeds_andThen_pure (p' : Hosted (σ × List (Deed σ)) α) (f : α → β) (bound : Bool) (s : σ) :
    (p'.andThen fun a ↦ Pure.pure (f a)).deeds bound s = p'.deeds bound s := by
  rw [deeds, andThen_pure_apply]
  rfl

section Records

variable {p' : Hosted (σ × List (Deed σ)) α} {p : Hosted σ α}
  {f' : α → Hosted (σ × List (Deed σ)) β} {f : α → Hosted σ β} {bound : Bool} {s : σ}

/-- What is put at the end of every record is what is put at the end of the empty one. -/
theorem deeds_eq_of_beside {deeds : List (Deed σ)}
    (h : ∀ record, p' bound (s, record) = (p bound s).beside (record ++ deeds)) :
    p'.deeds bound s = deeds := by
  rw [Hosted.deeds, h]
  exact List.nil_append _

theorem records_watch (code : Code) (p : Hosted σ α) : Records (watch code p) p :=
  fun _ _ _ ↦ rfl

theorem Records.andThen_apply_of_ok (hp : Records p' p) (hf : ∀ a, Records (f' a) (f a)) {a : α}
    (h : (p bound s).result = .ok a) (record : List (Deed σ)) :
    p'.andThen f' bound (s, record) = (p.andThen f bound s).beside
      (record ++ (p'.deeds bound s ++ (f' a).deeds bound (p bound s).state)) := by
  have h' : (p' bound (s, record)).result = .ok a := by
    rw [hp]
    exact h
  have hstate : (p' bound (s, record)).state =
      ((p bound s).state, record ++ p'.deeds bound s) := by
    rw [hp]
    rfl
  rw [Hosted.andThen_apply_of_ok h, Hosted.andThen_apply_of_ok h', hstate, hf, hp,
    ← List.append_assoc]
  rfl

theorem Records.andThen_apply_of_error (hp : Records p' p) {failure : Failure}
    (h : (p bound s).result = .error failure) (record : List (Deed σ)) :
    p'.andThen f' bound (s, record) =
      (p.andThen f bound s).beside (record ++ p'.deeds bound s) := by
  have h' : (p' bound (s, record)).result = .error failure := by
    rw [hp]
    exact h
  rw [Hosted.andThen_apply_of_error h, Hosted.andThen_apply_of_error h', hp]
  rfl

theorem Records.deeds_andThen_of_ok (hp : Records p' p) (hf : ∀ a, Records (f' a) (f a)) {a : α}
    (h : (p bound s).result = .ok a) : (p'.andThen f').deeds bound s =
      p'.deeds bound s ++ (f' a).deeds bound (p bound s).state :=
  deeds_eq_of_beside (hp.andThen_apply_of_ok hf h)

theorem Records.deeds_andThen_of_error (hp : Records p' p) {failure : Failure}
    (h : (p bound s).result = .error failure) :
    (p'.andThen f').deeds bound s = p'.deeds bound s :=
  deeds_eq_of_beside (hp.andThen_apply_of_error (f := fun _ ↦ raise failure) h)

theorem Records.andThen (hp : Records p' p) (hf : ∀ a, Records (f' a) (f a)) :
    Records (p'.andThen f') (p.andThen f) := by
  intro bound s record
  rcases h : (p bound s).result with failure | a
  · rw [hp.deeds_andThen_of_error h, hp.andThen_apply_of_error h]
  · rw [hp.deeds_andThen_of_ok hf h, hp.andThen_apply_of_ok hf h]

theorem Records.attempt (hp : Records p' p) : Records (Hosted.attempt p') (Hosted.attempt p) := by
  intro bound s record
  show Outcome.mk (.ok (p' bound (s, record)).result) (p' bound (s, record)).state
    (p' bound (s, record)).effects = _
  rw [hp]
  rfl

theorem Records.pure (a : α) : Records (Pure.pure a : Hosted (σ × List (Deed σ)) α) (Pure.pure a) := by
  intro bound s record
  show Outcome.mk (.ok a) (s, record) [] = Outcome.mk (.ok a) (s, record ++ []) []
  rw [List.append_nil]

/-- A program that leaves the record alone. -/
theorem Records.of_beside (h : ∀ bound s record, p' bound (s, record) = (p bound s).beside record) :
    Records p' p ∧ ∀ bound s, p'.deeds bound s = [] := by
  have hdeeds : ∀ bound s, p'.deeds bound s = [] := by
    intro bound s
    rw [Hosted.deeds, h]
    rfl
  refine ⟨fun bound s record ↦ ?_, hdeeds⟩
  rw [hdeeds, List.append_nil, h]

end Records

end Hosted

/-! ### Laws -/

/-- A law about deeds and the failure of the program that did them can be shown part by part. -/
structure Lawful (law : List (Deed σ) → Option Failure → Prop) : Prop where
  nil : ∀ failure?, law [] failure?
  append : ∀ {deeds deeds' failure?}, law deeds none → law deeds' failure? →
    law (deeds ++ deeds') failure?

namespace Hosted

/-- `p'` runs as `p` does, and its deeds obey the law. -/
structure Obeys (law : List (Deed σ) → Option Failure → Prop)
    (p' : Hosted (σ × List (Deed σ)) α) (p : Hosted σ α) : Prop where
  records : Records p' p
  law : ∀ bound s, law (p'.deeds bound s) (p bound s).failure?

namespace Obeys

variable {law : List (Deed σ) → Option Failure → Prop} {p' : Hosted (σ × List (Deed σ)) α}
  {p : Hosted σ α} {f' : α → Hosted (σ × List (Deed σ)) β} {f : α → Hosted σ β}

theorem of_beside (hlaw : Lawful law)
    (h : ∀ bound s record, p' bound (s, record) = (p bound s).beside record) :
    Obeys law p' p where
  records := (Records.of_beside h).1
  law bound s := by
    rw [(Records.of_beside h).2]
    exact hlaw.nil _

theorem unwatched (hlaw : Lawful law) (p : Hosted σ α) : Obeys law (unwatched p) p :=
  of_beside hlaw fun _ _ _ ↦ rfl

theorem pure (hlaw : Lawful law) (a : α) :
    Obeys law (Pure.pure a : Hosted (σ × List (Deed σ)) α) (Pure.pure a) :=
  of_beside hlaw fun _ _ _ ↦ rfl

theorem emit (hlaw : Lawful law) (event : HostedEvent) :
    Obeys law (emit event) (Hosted.emit event : Hosted σ Unit) :=
  of_beside hlaw fun _ _ _ ↦ rfl

theorem watch {code : Code} (h : ∀ bound s, law [⟨code, s, (p bound s).failure?⟩]
    (p bound s).failure?) : Obeys law (watch code p) p :=
  ⟨records_watch code p, h⟩

theorem andThen (hlaw : Lawful law) (hp : Obeys law p' p) (hf : ∀ a, Obeys law (f' a) (f a)) :
    Obeys law (p'.andThen f') (p.andThen f) where
  records := hp.records.andThen fun a ↦ (hf a).records
  law bound s := by
    rcases h : (p bound s).result with failure | a
    · rw [hp.records.deeds_andThen_of_error h, andThen_apply_of_error h]
      have hlaw' := hp.law bound s
      rwa [Outcome.failure?_of_error h] at hlaw'
    · rw [hp.records.deeds_andThen_of_ok (fun a ↦ (hf a).records) h, andThen_apply_of_ok h]
      have hlaw' := hp.law bound s
      rw [Outcome.failure?_of_ok h] at hlaw'
      exact hlaw.append hlaw' ((hf a).law bound (p bound s).state)

/-- What is run may depend on the state, but not on the record. -/
theorem of_apply (h : ∀ bound s, ∃ q' q, Obeys law q' q ∧
      (∀ record, p' bound (s, record) = q' bound (s, record)) ∧ p bound s = q bound s) :
    Obeys law p' p := by
  refine ⟨fun bound s record ↦ ?_, fun bound s ↦ ?_⟩
  · obtain ⟨q', q, hq, hp', hp⟩ := h bound s
    rw [deeds, hp', hp', hp, hq.records]
    rfl
  · obtain ⟨q', q, hq, hp', hp⟩ := h bound s
    rw [deeds, hp', hp]
    exact hq.law bound s

theorem bind (hlaw : Lawful law) (hp : Obeys law p' p) (hf : ∀ a, Obeys law (f' a) (f a)) :
    Obeys law (p' >>= f') (p >>= f) :=
  andThen hlaw hp hf

/-- What is done with the state may depend on it, but not on the record. -/
theorem get_bind {f' : σ × List (Deed σ) → Hosted (σ × List (Deed σ)) α} {f : σ → Hosted σ α}
    (h : ∀ s, ∃ q', (∀ record, f' (s, record) = q') ∧ Obeys law q' (f s)) :
    Obeys law (get >>= f') (get >>= f) := by
  refine of_apply fun bound s ↦ ?_
  obtain ⟨q', hq', hobeys⟩ := h s
  refine ⟨q', f s, hobeys, fun record ↦ ?_, rfl⟩
  show f' (s, record) bound (s, record) = _
  rw [hq']

theorem raise (hlaw : Lawful law) (failure : Failure) :
    Obeys law (raise failure : Hosted (σ × List (Deed σ)) α) (Hosted.raise failure) :=
  of_beside hlaw fun _ _ _ ↦ rfl

theorem each {g' : β → Hosted (σ × List (Deed σ)) Unit} {g : β → Hosted σ Unit} (hlaw : Lawful law)
    (h : ∀ b, Obeys law (g' b) (g b)) (bs : List β) : Obeys law (each g' bs) (each g bs) := by
  induction bs with
  | nil => exact .pure hlaw ()
  | cons b bs ih => exact .andThen hlaw (h b) fun _ ↦ ih

end Obeys

end Hosted

end Launcher
