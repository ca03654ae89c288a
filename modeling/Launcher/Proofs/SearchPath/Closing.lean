import Launcher.Proofs.SearchPath.Additions
import Mathlib.Data.List.Perm.Subperm

/-!
# What closing a search path gives back

Closing takes away the first occurrence of every recorded entry. An entry that was put in front is the
first of its kind, and nothing is left of it. An entry that was put behind the list is the last of its
kind: if its text stood on the list already, another occurrence is taken away in its stead, and what is
left is the list with its first such entry moved to the end (`residue`).

So closing gives a list back exactly if these moves leave it as it was (`restores_iff`). It does so
whatever is added to the end if no such path is on the list, or only at its end (`Trailing`).
-/

namespace Launcher.SearchPath

/-! ### Recorded entries stay on the list -/

/-- Every recorded entry is on the list, as often as it is recorded. -/
def Holds (path : SearchPath) : Prop := path.added.Subperm path.entries

theorem holds_of_nil (l : List String) : Holds ⟨l, []⟩ := List.nil_subperm

theorem Holds.add {path : SearchPath} (h : path.Holds) (e : End) (p : String) :
    (path.add e p).Holds := by
  cases e with
  | front =>
    have hperm : (path.added ++ [p]).Perm (p :: path.added) := List.perm_append_singleton p _
    exact hperm.subperm.trans ((List.subperm_cons p).2 h)
  | back => exact (List.subperm_append_right [p]).2 h

theorem entries_close (path : SearchPath) : path.close.entries = path.entries.diff path.added :=
  (List.diff_eq_foldl _ _).symm

/-- What stands behind the recorded entries is not touched. -/
theorem diff_append_of_subperm {l : List String} (m : List String) {recorded : List String}
    (h : recorded.Subperm l) : (l ++ m).diff recorded = l.diff recorded ++ m := by
  induction recorded generalizing l with
  | nil => rfl
  | cons p recorded ih =>
    have hmem : p ∈ l := h.subset List.mem_cons_self
    have hrest : recorded.Subperm (l.erase p) := by
      have herase := h.erase p
      rwa [List.erase_cons_head] at herase
    rw [List.diff_cons, List.diff_cons, List.erase_append_left m hmem, ih hrest]

/-! ### What is left of an addition -/

/-- What an addition to `l` leaves behind when it is taken back. -/
def residue (l : List String) : Addition → List String
  | (.front, _) => l
  | (.back, p) => if p ∈ l then l.erase p ++ [p] else l

theorem erase_concat (l : List String) (p : String) :
    (l ++ [p]).erase p = residue l (.back, p) := by
  by_cases hp : p ∈ l
  · rw [List.erase_append_left _ hp, residue, if_pos hp]
  · rw [List.erase_append_right _ hp, residue, if_neg hp, List.erase_cons_head, List.append_nil]

/-- Closing after one more addition leaves the residue of it on what closing before it leaves. -/
theorem entries_close_add {path : SearchPath} (h : path.Holds) (addition : Addition) :
    (path.add addition.1 addition.2).close.entries = residue path.close.entries addition := by
  obtain ⟨e | e, p⟩ := addition
  · -- the new entry is the first of its kind, so it does not matter when it is taken away
    have hperm : (path.added ++ [p]).Perm (p :: path.added) := List.perm_append_singleton p _
    calc (path.prepend p).close.entries
      _ = (p :: path.entries).diff (path.added ++ [p]) := entries_close _
      _ = (p :: path.entries).diff (p :: path.added) := hperm.diff_left _
      _ = path.entries.diff path.added := by rw [List.diff_cons, List.erase_cons_head]
      _ = path.close.entries := (entries_close path).symm
  · -- the earlier records are on the list, so the new entry is still there when its turn comes
    calc (path.append p).close.entries
      _ = (path.entries ++ [p]).diff (path.added ++ [p]) := entries_close _
      _ = ((path.entries ++ [p]).diff path.added).erase p := by
        rw [List.diff_append, List.diff_cons, List.diff_nil]
      _ = (path.close.entries ++ [p]).erase p := by rw [diff_append_of_subperm [p] h, entries_close]
      _ = residue path.close.entries (.back, p) := erase_concat _ p

/-- **Closing leaves the residues of all additions.** -/
theorem entries_close_addAll {path : SearchPath} (h : path.Holds) (additions : List Addition) :
    (path.addAll additions).close.entries = additions.foldl residue path.close.entries := by
  induction additions generalizing path with
  | nil => rfl
  | cons addition additions ih =>
    refine (ih (h.add addition.1 addition.2)).trans ?_
    rw [entries_close_add h addition]
    rfl

/-! ### Additions without residue -/

/-- Behind the first `p` of a list there is nothing but `p`, if there is a `p` at all. -/
def Trailing (p : String) (l : List String) : Prop := ∀ q ∈ l.dropWhile (· ≠ p), q = p

theorem concat_eq_cons_iff {p : String} {l : List String} :
    l ++ [p] = p :: l ↔ ∀ q ∈ l, q = p := by
  induction l with
  | nil => simp
  | cons q l ih =>
    rw [List.cons_append, List.cons.injEq, List.forall_mem_cons]
    refine and_congr_right ?_
    rintro rfl
    exact ih

/-- An addition to the end has no residue exactly if its kind stands at the end only. -/
theorem residue_eq_self_iff (l : List String) (p : String) :
    residue l (.back, p) = l ↔ Trailing p l := by
  rw [← erase_concat]
  induction l with
  | nil => simp [Trailing]
  | cons q l ih =>
    by_cases hq : q = p
    · subst hq
      rw [List.cons_append, List.erase_cons_head, concat_eq_cons_iff, Trailing,
        List.dropWhile_cons_of_neg (by simp), List.forall_mem_cons]
      exact (and_iff_right rfl).symm
    · rw [List.cons_append, List.erase_cons_tail (by simpa using hq), List.cons.injEq, ih, Trailing,
        Trailing, List.dropWhile_cons_of_pos (by simpa using hq)]
      exact and_iff_right rfl

theorem foldl_residue_of_trailing {l : List String} {additions : List Addition}
    (h : ∀ p, (End.back, p) ∈ additions → Trailing p l) : additions.foldl residue l = l := by
  induction additions with
  | nil => rfl
  | cons addition additions ih =>
    have hfirst : residue l addition = l := by
      obtain ⟨e | e, p⟩ := addition
      · rfl
      · exact (residue_eq_self_iff l p).2 (h p List.mem_cons_self)
    rw [List.foldl_cons, hfirst]
    exact ih fun p hp ↦ h p (List.mem_cons_of_mem _ hp)

/-! ### Giving a list back -/

/-- Closing after `operations` on the list `l` gives `l` back, with nothing recorded. So does closing
a second time, and so does leaving a block of the operations, normally or by a failure, which comes out
of the block. -/
structure Restores (s : Argv.Surroundings) (l : List String) (operations : List Operation) :
    Prop where
  close : (performAll s ⟨l, []⟩ operations).2.close = ⟨l, []⟩
  again : (performAll s ⟨l, []⟩ operations).2.close.close = ⟨l, []⟩
  block : perform s ⟨l, []⟩ (.block operations) =
    ((performAll s ⟨l, []⟩ operations).1.map fun _ ↦ none, ⟨l, []⟩)
  failingBlock : perform s ⟨l, []⟩ (.failingBlock operations) =
    ((performAll s ⟨l, []⟩ operations).1.bind fun _ ↦ .error insideFailure, ⟨l, []⟩)

section Restores

variable {s : Argv.Surroundings} {l : List String} {operations : List Operation}

theorem restores_of_close (h : (performAll s ⟨l, []⟩ operations).2.close = ⟨l, []⟩) :
    Restores s l operations where
  close := h
  again := by rw [close_close, h]
  block := by simp only [perform, h]
  failingBlock := by simp only [perform, h]

theorem close_performAll (h : ∀ operation ∈ operations, operation.isOwn = true) :
    (performAll s ⟨l, []⟩ operations).2.close =
      ⟨(additionsAll s ⟨l, []⟩ operations).foldl residue l, []⟩ := by
  rw [performAll_of_isOwn s _ h]
  have hentries := entries_close_addAll (holds_of_nil l) (additionsAll s ⟨l, []⟩ operations)
  exact congrArg (SearchPath.mk · []) hentries

theorem restores_iff_foldl_residue (h : ∀ operation ∈ operations, operation.isOwn = true) :
    Restores s l operations ↔ (additionsAll s ⟨l, []⟩ operations).foldl residue l = l := by
  have hclose := close_performAll (s := s) (l := l) h
  refine ⟨fun hrestores ↦ ?_, fun hresidue ↦ restores_of_close ?_⟩
  · rw [hrestores.close] at hclose
    exact (congrArg entries hclose).symm
  · rw [hclose, hresidue]

end Restores

/-- **When closing gives a list back.** After operations of the launcher's own it leaves the residues
of their additions, and so it gives the list back exactly if these come to the list. It gives the list
back after all operations that put nothing but `paths` at the end exactly if each of these stands at
the end of the list only. -/
theorem restores_iff (s : Argv.Surroundings) (l : List String) :
    (∀ operations : List Operation, (∀ operation ∈ operations, operation.isOwn = true) →
      (performAll s ⟨l, []⟩ operations).2.added =
        (additionsAll s ⟨l, []⟩ operations).map Prod.snd ∧
      (performAll s ⟨l, []⟩ operations).2.close =
        ⟨(additionsAll s ⟨l, []⟩ operations).foldl residue l, []⟩ ∧
      (Restores s l operations ↔ (additionsAll s ⟨l, []⟩ operations).foldl residue l = l)) ∧
    ∀ paths : String → Prop,
      (∀ operations : List Operation, (∀ operation ∈ operations, operation.isOwn = true) →
        (∀ p, (End.back, p) ∈ additionsAll s ⟨l, []⟩ operations → paths p) →
          Restores s l operations) ↔
        ∀ p, paths p → Trailing p l := by
  refine ⟨fun operations hown ↦ ⟨?_, close_performAll hown, restores_iff_foldl_residue hown⟩,
    fun paths ↦ ⟨fun h p hp ↦ ?_, fun h operations hown hpaths ↦ ?_⟩⟩
  · rw [performAll_of_isOwn s _ hown, added_addAll]
    rfl
  · -- one addition is enough to tell
    have hadditions : additionsAll s ⟨l, []⟩ [.append p] = [(.back, p)] := by
      simp [additionsAll, additions, perform]
    have hown : ∀ operation ∈ [Operation.append p], operation.isOwn = true := by simp [Operation.isOwn]
    have hrestores : Restores s l [.append p] := by
      refine h _ hown fun q hq ↦ ?_
      rw [hadditions] at hq
      cases List.mem_singleton.1 hq
      exact hp
    have hresidue := (restores_iff_foldl_residue hown).1 hrestores
    rw [hadditions] at hresidue
    exact (residue_eq_self_iff l p).1 hresidue
  · exact (restores_iff_foldl_residue hown).2
      (foldl_residue_of_trailing fun p hp ↦ h p (hpaths p hp))

/-- Entries of the list that are added again, in front or behind what is of their kind, are taken back,
and so are the directories of a command line. -/
theorem restores_of_own_and_repeated :
    Restores desert ["/std", "/usr", "/usr"]
      [.prepend "/std", .append "/usr", .read ["-pa", "own", "-pz", "/late"], .append "/usr"] := by
  refine ((restores_iff desert ["/std", "/usr", "/usr"]).1 _ ?_).2.2.2 ?_
  · decide
  · decide +kernel

/-- An entry that stands in front of others and is added to the end comes back behind them. -/
theorem not_restores_of_standing_entry :
    (performAll desert ⟨["/std", "/usr"], []⟩ [.append "/std"]).2.close = ⟨["/usr", "/std"], []⟩ ∧
      ¬ Restores desert ["/std", "/usr"] [.append "/std"] := by
  have hclose : (performAll desert ⟨["/std", "/usr"], []⟩ [.append "/std"]).2.close =
      ⟨["/usr", "/std"], []⟩ := by
    decide
  refine ⟨hclose, fun h ↦ ?_⟩
  have hentries := congrArg entries (hclose.symm.trans h.close)
  revert hentries
  decide

end Launcher.SearchPath
