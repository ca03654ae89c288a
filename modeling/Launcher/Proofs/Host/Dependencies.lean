import Launcher.Distinct
import Mathlib.Data.List.Basic
import Mathlib.Logic.Relation

/-!
# Dependencies

A graph of names is given by the list of direct dependencies of each. A **tour** of some names visits
them in order, each behind a tour of what it depends on, in the order in which that is listed: depth
first, and in post-order (`Tours`). A tour passes over nothing, so a name is visited as often as it
comes up. There is at most one tour (`Tours.unique`), it visits all that can be reached
(`Tours.mem_iff`), and there is none from which a cycle can be reached (`Tours.not_cyclic`).

The **fresh** names of a tour are those that are not among the given ones, each once, in the order of
their first visit. So a tour may be taken in two parts, the second of which takes for granted what the
first has found (`fresh_append`).
-/

namespace Launcher.Host

open Relation

variable {deps : String → List String}

/-- `a` depends on `b` directly. -/
def Depends (deps : String → List String) (a b : String) : Prop := b ∈ deps a

/-- A cycle of dependencies can be reached from a name. -/
def Cyclic (deps : String → List String) (name : String) : Prop :=
  ∃ a, ReflTransGen (Depends deps) name a ∧ TransGen (Depends deps) a a

/-- What lies on a cycle, or can reach one, has a dependency of this kind. -/
theorem Cyclic.exists_depends {a : String} (h : Cyclic deps a) :
    ∃ b, Depends deps a b ∧ Cyclic deps b := by
  obtain ⟨c, hreach, hcycle⟩ := h
  rcases ReflTransGen.cases_head hreach with rfl | ⟨b, hab, hbc⟩
  · obtain ⟨b, hab, hba⟩ := TransGen.head'_iff.1 hcycle
    exact ⟨b, hab, a, hba, hcycle⟩
  · exact ⟨b, hab, c, hbc, hcycle⟩

/-! ### Tours -/

/-- A tour of names, depth first and in post-order. -/
inductive Tours (deps : String → List String) : List String → List String → Prop
  | nil : Tours deps [] []
  | cons {name : String} {rest below behind : List String} :
    Tours deps (deps name) below → Tours deps rest behind →
    Tours deps (name :: rest) (below ++ name :: behind)

namespace Tours

variable {names order : List String}

theorem singleton {name : String} {below : List String} (h : Tours deps (deps name) below) :
    Tours deps [name] (below ++ [name]) :=
  .cons h .nil

/-- A tour of one name and then of others. -/
theorem append {name : String} {rest behind : List String} (h : Tours deps [name] order)
    (h' : Tours deps rest behind) : Tours deps (name :: rest) (order ++ behind) := by
  cases h with
  | cons hbelow hnil =>
    cases hnil
    rw [List.append_assoc]
    exact .cons hbelow h'

theorem unique {order' : List String} (h : Tours deps names order) (h' : Tours deps names order') :
    order = order' := by
  induction h generalizing order' with
  | nil =>
    cases h'
    rfl
  | cons _ _ ihbelow ihbehind =>
    cases h' with
    | cons hbelow hbehind => rw [ihbelow hbelow, ihbehind hbehind]

/-- **A tour visits what can be reached.** -/
theorem mem_iff (h : Tours deps names order) {a : String} :
    a ∈ order ↔ ∃ name ∈ names, ReflTransGen (Depends deps) name a := by
  induction h with
  | nil => simp
  | @cons name rest below behind _ _ ihbelow ihbehind =>
    have hname : ReflTransGen (Depends deps) name a ↔
        name = a ∨ ∃ b ∈ deps name, ReflTransGen (Depends deps) b a := ReflTransGen.cases_head_iff
    rw [List.mem_append, List.mem_cons, ihbelow, ihbehind, List.exists_mem_cons_iff, hname,
      eq_comm (a := a), or_left_comm, or_assoc]

/-- **No cycle can be reached from a tour.** -/
theorem not_cyclic (h : Tours deps names order) : ∀ name ∈ names, ¬Cyclic deps name := by
  induction h with
  | nil => exact fun name hname ↦ nomatch hname
  | @cons name rest below behind _ _ ihbelow ihbehind =>
    intro other hother hcyclic
    rcases List.mem_cons.1 hother with rfl | hrest
    · obtain ⟨b, hb, hcyclic'⟩ := hcyclic.exists_depends
      exact ihbelow b hb hcyclic'
    · exact ihbehind other hrest hcyclic

/-- What a name depends on is visited without the name. -/
theorem not_mem_below {name : String} {below : List String} (h : Tours deps (deps name) below) :
    name ∉ below := by
  intro hmem
  obtain ⟨b, hb, hreach⟩ := h.mem_iff.1 hmem
  have hcycle : TransGen (Depends deps) name name := TransGen.head' hb hreach
  exact h.not_cyclic b hb ⟨name, hreach, hcycle⟩

/-- The tour of a visited name is part of the tour. -/
theorem exists_singleton (h : Tours deps names order) {a : String} (ha : a ∈ order) :
    ∃ part, Tours deps [a] part ∧ part ⊆ order := by
  induction h with
  | nil => cases ha
  | @cons name rest below behind hbelow _ ihbelow ihbehind =>
    rcases List.mem_append.1 ha with ha | ha
    · obtain ⟨part, hpart, hsub⟩ := ihbelow ha
      exact ⟨part, hpart, fun b hb ↦ List.mem_append_left _ (hsub hb)⟩
    · rcases List.mem_cons.1 ha with rfl | ha
      · refine ⟨below ++ [a], singleton hbelow, fun b hb ↦ ?_⟩
        rcases List.mem_append.1 hb with hb | hb
        · exact List.mem_append_left _ hb
        · obtain rfl := List.mem_singleton.1 hb
          exact List.mem_append_right _ List.mem_cons_self
      · obtain ⟨part, hpart, hsub⟩ := ihbehind ha
        exact ⟨part, hpart, fun b hb ↦ List.mem_append_right _ (List.mem_cons_of_mem _ (hsub hb))⟩

end Tours

/-! ### Fresh names -/

/-- The names of a tour that are not among `started`, each once, in the order of the first visit. -/
def fresh (started order : List String) : List String := (distinct order).filter (· ∉ started)

section Fresh

variable {started order : List String}

theorem mem_fresh {a : String} : a ∈ fresh started order ↔ a ∈ order ∧ a ∉ started := by
  rw [fresh, List.mem_filter, mem_distinct, decide_eq_true_iff]

theorem nodup_fresh (started order : List String) : (fresh started order).Nodup :=
  (nodup_distinct order).filter _

theorem fresh_eq_nil (h : order ⊆ started) : fresh started order = [] :=
  List.eq_nil_iff_forall_not_mem.2 fun _ ha ↦ (mem_fresh.1 ha).2 (h (mem_fresh.1 ha).1)

theorem fresh_singleton {a : String} (h : a ∉ started) : fresh started [a] = [a] := by
  simp [fresh, distinct, h]

/-- **A tour in two parts.** The second part takes for granted what the first has found. -/
theorem fresh_append (started order order' : List String) :
    fresh started (order ++ order') =
      fresh started order ++ fresh (started ++ fresh started order) order' := by
  rw [fresh, distinct_append, List.filter_append, List.filter_filter]
  refine congrArg (fresh started order ++ ·) (List.filter_congr fun a _ ↦ ?_)
  by_cases hstarted : a ∈ started <;> by_cases horder : a ∈ order <;>
    simp [mem_fresh, hstarted, horder]

end Fresh

end Launcher.Host
