/-!
# Distinct members

The members of a list without repetitions, in the order of their first appearance. What that order
is, is said apart (`FirstAppearances`): it decides which of two members comes first by where each of
them stands in the list for the first time.
-/

namespace Launcher

variable {α : Type} [DecidableEq α]

/-- The members of a list, each once, in the order of first appearance. -/
def distinct : List α → List α
  | [] => []
  | a :: as => a :: (distinct as).filter (· ≠ a)

@[simp] theorem mem_distinct {a : α} {as : List α} : a ∈ distinct as ↔ a ∈ as := by
  induction as with
  | nil => simp [distinct]
  | cons b bs ih => by_cases h : a = b <;> simp [distinct, h, ih]

theorem nodup_distinct (as : List α) : (distinct as).Nodup := by
  induction as with
  | nil => simp [distinct]
  | cons a as ih =>
    refine List.nodup_cons.2 ⟨by simp, ?_⟩
    exact List.Pairwise.filter _ ih

theorem distinct_of_nodup {as : List α} (h : as.Nodup) : distinct as = as := by
  induction as with
  | nil => rfl
  | cons a as ih =>
    obtain ⟨ha, has⟩ := List.nodup_cons.1 h
    rw [distinct, ih has, List.filter_eq_self.2]
    exact fun b hb ↦ decide_eq_true fun hba ↦ ha (hba ▸ hb)

/-- Of the second part of a list only what has not appeared in the first one counts. -/
theorem distinct_append (as bs : List α) :
    distinct (as ++ bs) = distinct as ++ (distinct bs).filter (· ∉ as) := by
  induction as with
  | nil => exact (List.filter_eq_self.2 fun _ _ ↦ decide_eq_true List.not_mem_nil).symm
  | cons a as ih =>
    have hfilter : ((distinct bs).filter (· ∉ as)).filter (· ≠ a) =
        (distinct bs).filter (· ∉ a :: as) := by
      rw [List.filter_filter]
      refine List.filter_congr fun b _ ↦ ?_
      simp [not_or]
    show a :: (distinct (as ++ bs)).filter (· ≠ a) = _
    rw [ih, List.filter_append, hfilter]
    rfl

theorem distinct_filter (p : α → Bool) (as : List α) :
    distinct (as.filter p) = (distinct as).filter p := by
  induction as with
  | nil => rfl
  | cons a as ih =>
    rw [distinct]
    by_cases ha : p a
    · rw [List.filter_cons_of_pos ha, List.filter_cons_of_pos ha, distinct, ih, List.filter_filter,
        List.filter_filter]
      simp only [Bool.and_comm]
    · rw [List.filter_cons_of_neg ha, List.filter_cons_of_neg ha, ih, List.filter_filter]
      refine List.filter_congr fun b _ ↦ ?_
      by_cases hb : b = a <;> simp_all

/-- Repetitions may be left out of each part beforehand. -/
theorem distinct_flatMap_distinct {β : Type} (f : β → List α) (bs : List β) :
    distinct (bs.flatMap fun b ↦ distinct (f b)) = distinct (bs.flatMap f) := by
  induction bs with
  | nil => rfl
  | cons b bs ih =>
    rw [List.flatMap_cons, List.flatMap_cons, distinct_append, distinct_append, ih,
      distinct_of_nodup (nodup_distinct _)]
    simp only [mem_distinct]

/-- The members of a list, each once, in the order in which they first appear in it. -/
structure FirstAppearances (members list : List α) : Prop where
  mem_iff : ∀ a, a ∈ members ↔ a ∈ list
  ordered : members.Pairwise fun a b ↦ list.idxOf a < list.idxOf b

theorem firstAppearances_distinct (as : List α) : FirstAppearances (distinct as) as where
  mem_iff _ := mem_distinct
  ordered := by
    induction as with
    | nil => exact .nil
    | cons a as ih =>
      have hbehind : ∀ b ∈ (distinct as).filter (· ≠ a),
          (a :: as).idxOf b = as.idxOf b + 1 := by
        intro b hb
        have hne : b ≠ a := by simpa using (List.mem_filter.1 hb).2
        rw [List.idxOf_cons, beq_false_of_ne hne.symm, cond_false]
      refine List.pairwise_cons.2 ⟨fun b hb ↦ ?_, ?_⟩
      · rw [List.idxOf_cons_self, hbehind b hb]
        exact Nat.succ_pos _
      · refine (ih.filter _).imp_of_mem fun hb hc hlt ↦ ?_
        rw [hbehind _ hb, hbehind _ hc]
        exact Nat.succ_lt_succ hlt

end Launcher
