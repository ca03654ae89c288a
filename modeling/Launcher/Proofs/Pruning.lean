import Mathlib.Data.List.DropRight
import Launcher.Backtrace

/-!
# What pruning keeps

Pruning cuts the frames of a trace into three parts: an outer part that ends with a wrapper, the block
that is kept, and an inner part of machinery. What the parts hold says where the cuts are (`Cut`):
there is exactly one such cut (`Cut.unique`), and pruning makes it (`cut_prune`). So what is kept of
frames is found by naming a cut of them, and no statement here looks into the two scans again.

A frame may be machinery and a wrapper at once. The inner part is cut off first, so a wrapper in it
does not count.
-/

namespace Launcher.Backtrace

variable {α : Type} {machinery wrapper : α → Bool} {frames outer kept inner : List α}

/-- Frames cut into an outer part, a block that is kept, and an inner part. -/
structure Cut (machinery wrapper : α → Bool) (frames outer kept inner : List α) : Prop where
  whole : frames = outer ++ kept ++ inner
  /-- The inner part is machinery, -/
  inner_machinery : ∀ frame ∈ inner, machinery frame
  /-- and of the parts at the end of the frames that are, it is the longest. -/
  inner_longest : ∀ part, part <:+ frames → (∀ frame ∈ part, machinery frame) → part <:+ inner
  /-- No wrapper is kept. -/
  kept_bare : ∀ frame ∈ kept, wrapper frame = false
  /-- The outer part ends with a wrapper, unless it is empty. -/
  outer_wrapped : ∀ last, outer.getLast? = some last → wrapper last

/-! ### Parts at the end -/

/-- Machinery at the end of frames stands behind every frame that is none. -/
theorem suffix_of_machinery {part front back : List α} {frame : α}
    (hpart : part <:+ front ++ frame :: back) (hall : ∀ other ∈ part, machinery other)
    (hframe : machinery frame = false) : part <:+ back := by
  have hnot : frame ∉ part := fun hmem ↦ Bool.false_ne_true (hframe.symm.trans (hall frame hmem))
  rcases List.suffix_or_suffix_of_suffix hpart (List.suffix_append front (frame :: back)) with h | h
  · rcases List.suffix_cons_iff.1 h with rfl | h
    · exact absurd List.mem_cons_self hnot
    · exact h
  · exact absurd (h.mem List.mem_cons_self) hnot

theorem not_of_getLast?_rdropWhile {p : α → Bool} {last : α}
    (h : (frames.rdropWhile p).getLast? = some last) : p last = false := by
  obtain ⟨init, hinit⟩ := List.getLast?_eq_some_iff.1 h
  have hlast := List.rdropWhile_last_not p frames (by simp [hinit])
  simpa [hinit] using hlast

/-- An outer part does not reach into frames at the end that hold no wrapper. -/
theorem exists_between {front back : List α} (heq : outer ++ kept = front ++ back)
    (hback : ∀ frame ∈ back, wrapper frame = false)
    (houter : ∀ last, outer.getLast? = some last → wrapper last) :
    ∃ between, front = outer ++ between ∧ kept = between ++ back := by
  rcases List.append_eq_append_iff.1 heq with hbetween | ⟨extra, rfl, rfl⟩
  · exact hbetween
  · -- the last of what reaches into them would be a wrapper
    rcases extra.eq_nil_or_concat' with rfl | ⟨init, last, rfl⟩
    · exact ⟨[], by simp, rfl⟩
    · have hwrapper : wrapper last := houter last (by simp [← List.append_assoc])
      have hbare : wrapper last = false := hback last (by simp)
      exact absurd (hbare.symm.trans hwrapper) Bool.false_ne_true

/-! ### The cut -/

/-- **There is one cut only.** -/
theorem Cut.unique {outer' kept' inner' : List α}
    (h : Cut machinery wrapper frames outer kept inner)
    (h' : Cut machinery wrapper frames outer' kept' inner') :
    outer' = outer ∧ kept' = kept ∧ inner' = inner := by
  have hsub : inner <:+ inner' :=
    h'.inner_longest inner ⟨outer ++ kept, h.whole.symm⟩ h.inner_machinery
  have hsub' : inner' <:+ inner :=
    h.inner_longest inner' ⟨outer' ++ kept', h'.whole.symm⟩ h'.inner_machinery
  obtain rfl : inner' = inner := hsub'.eq_of_length_le hsub.length_le
  have heq : outer ++ kept = outer' ++ kept' :=
    List.append_cancel_right (h.whole.symm.trans h'.whole)
  obtain ⟨between, rfl, rfl⟩ := exists_between heq h'.kept_bare h.outer_wrapped
  obtain ⟨between', houter, -⟩ := exists_between heq.symm h.kept_bare h'.outer_wrapped
  obtain rfl : between = [] := by
    rw [List.append_assoc, List.self_eq_append_right] at houter
    exact (List.append_eq_nil_iff.1 houter).1
  exact ⟨List.append_nil outer, rfl, rfl⟩

/-- **Pruning makes the cut.** -/
theorem cut_prune (machinery wrapper : α → Bool) (frames : List α) :
    Cut machinery wrapper frames
      ((frames.rdropWhile machinery).rdropWhile fun frame ↦ !wrapper frame)
      (prune machinery wrapper frames) (frames.rtakeWhile machinery) where
  whole := by
    have hprune : prune machinery wrapper frames =
      (frames.rdropWhile machinery).rtakeWhile fun frame ↦ !wrapper frame := rfl
    rw [hprune, List.rdropWhile_append_rtakeWhile, List.rdropWhile_append_rtakeWhile]
  inner_machinery frame := List.mem_rtakeWhile_imp
  inner_longest part hpart hall := by
    have hsplit := List.rdropWhile_append_rtakeWhile (p := machinery) (l := frames)
    rcases (frames.rdropWhile machinery).eq_nil_or_concat' with hnil | ⟨init, last, hlast⟩
    · rw [hnil, List.nil_append] at hsplit
      rwa [hsplit]
    · have hend : (frames.rdropWhile machinery).getLast? = some last := by simp [hlast]
      have hnot : machinery last = false := not_of_getLast?_rdropWhile hend
      rw [hlast, List.append_assoc] at hsplit
      exact suffix_of_machinery (hsplit ▸ hpart) hall hnot
  kept_bare frame hframe := by simpa using List.mem_rtakeWhile_imp hframe
  outer_wrapped last hlast := by simpa using not_of_getLast?_rdropWhile hlast

namespace Cut

theorem prune_eq (h : Cut machinery wrapper frames outer kept inner) :
    prune machinery wrapper frames = kept :=
  (h.unique (cut_prune machinery wrapper frames)).2.1

/-- The block that is kept ends with a frame that is no machinery. -/
theorem last_kept (h : Cut machinery wrapper frames outer kept inner) {last : α}
    (hlast : kept.getLast? = some last) : machinery last = false := by
  obtain ⟨init, rfl⟩ := List.getLast?_eq_some_iff.1 hlast
  by_contra hmachinery
  rw [Bool.not_eq_false] at hmachinery
  have hsuffix : last :: inner <:+ inner := by
    refine h.inner_longest _ ⟨outer ++ init, ?_⟩ ?_
    · rw [h.whole]
      simp
    · exact List.forall_mem_cons.2 ⟨hmachinery, h.inner_machinery⟩
  exact absurd hsuffix.length_le (by simp)

/-- Nothing more is cut off the block that is kept. -/
theorem of_kept (h : Cut machinery wrapper frames outer kept inner) :
    Cut machinery wrapper kept [] kept [] where
  whole := by simp
  inner_machinery := nofun
  inner_longest part hpart hall := by
    rcases part.eq_nil_or_concat' with rfl | ⟨init, last, rfl⟩
    · exact List.suffix_rfl
    · obtain ⟨front, rfl⟩ := hpart
      have hlast : (front ++ (init ++ [last])).getLast? = some last := by simp [← List.append_assoc]
      have hnot : machinery last = false := h.last_kept hlast
      exact absurd (hnot.symm.trans (hall last (by simp))) Bool.false_ne_true
  kept_bare := h.kept_bare
  outer_wrapped := nofun

end Cut

/-! ### What is kept -/

/-- Frames behind the last wrapper stay up to the last one that is no machinery. -/
theorem exists_prune_eq {front middle back tail : List α} {frame later : α}
    (hlater : machinery later = false)
    (hbare : ∀ other ∈ frame :: (middle ++ later :: back), wrapper other = false)
    (htail : ∀ other ∈ tail, machinery other) :
    ∃ before after, prune machinery wrapper (front ++ frame :: (middle ++ later :: back) ++ tail) =
      before ++ frame :: (middle ++ later :: after) ∧ before <:+ front ∧ after <+: back := by
  have hcut := cut_prune machinery wrapper (front ++ frame :: (middle ++ later :: back) ++ tail)
  generalize prune machinery wrapper _ = kept at hcut ⊢
  generalize List.rdropWhile _ _ = outer, List.rtakeWhile _ _ = inner at hcut
  have hinner : inner <:+ back ++ tail := by
    have hpart : inner <:+ (front ++ frame :: middle) ++ later :: (back ++ tail) :=
      ⟨outer ++ kept, hcut.whole.symm.trans (by simp)⟩
    exact suffix_of_machinery hpart hcut.inner_machinery hlater
  -- the inner part takes the tail, and of what stands before it a part at its end
  obtain ⟨extra, rfl⟩ : tail <:+ inner := hcut.inner_longest tail (List.suffix_append _ _) htail
  obtain ⟨after, hafter⟩ := hinner
  obtain rfl : after ++ extra = back := by
    rw [← List.append_assoc] at hafter
    exact List.append_cancel_right hafter
  have heq : outer ++ kept = front ++ frame :: (middle ++ later :: after) := by
    have hwhole := hcut.whole
    simp only [← List.append_assoc, ← List.cons_append, List.append_cancel_right_eq] at hwhole
    simpa using hwhole.symm
  have hbare' : ∀ other ∈ frame :: (middle ++ later :: after), wrapper other = false :=
    fun other hother ↦ hbare other (by simp only [List.mem_cons, List.mem_append] at hother ⊢; tauto)
  obtain ⟨before, hfront, hkept⟩ := exists_between heq hbare' hcut.outer_wrapped
  exact ⟨before, after, hkept, ⟨outer, hfront.symm⟩, ⟨extra, rfl⟩⟩

/-- Between a wrapper and machinery at the end, frames without a wrapper are what is kept, if the last
of them is no machinery. -/
theorem prune_between {front block tail : List α} {frame : α} (hframe : wrapper frame)
    (hbare : ∀ other ∈ block, wrapper other = false) (hne : block ≠ [])
    (hlast : ∀ last, block.getLast? = some last → machinery last = false)
    (htail : ∀ other ∈ tail, machinery other) :
    prune machinery wrapper (front ++ [frame] ++ block ++ tail) = block := by
  rcases block.eq_nil_or_concat' with rfl | ⟨init, last, rfl⟩
  · exact absurd rfl hne
  · have hnot := hlast last (by simp)
    have hcut : Cut machinery wrapper (front ++ [frame] ++ (init ++ [last]) ++ tail)
        (front ++ [frame]) (init ++ [last]) tail := by
      refine ⟨rfl, htail, fun part hpart hall ↦ ?_, hbare, fun other hother ↦ ?_⟩
      · have hpart' : part <:+ (front ++ [frame] ++ init) ++ last :: tail := by simpa using hpart
        exact suffix_of_machinery hpart' hall hnot
      · obtain rfl : frame = other := by simpa using hother
        exact hframe
    exact hcut.prune_eq

/-- Machinery (3) in the block is kept, and only the last wrapper (0) counts. -/
example : prune (· == 3) (· == 0) [1, 0, 3, 2, 0, 3, 4, 3] = [3, 4] := by decide

end Launcher.Backtrace

namespace Launcher.Pruning

open Backtrace

/-- **What is kept is the only block of its kind**, whatever counts as machinery and as a wrapper. It
stands between an outer part that is empty or ends with a wrapper and the longest part of machinery
at the end, and it holds no wrapper. So it ends with a frame that is no machinery, pruning it again
changes nothing, frames behind the last wrapper stay up to the last one that is no machinery, and
what stands between a wrapper and machinery is kept as it is. -/
theorem keep_is_only_block (pruning : Pruning) (frames : List Frame) :
    (∃ outer inner,
      Cut pruning.isMachinery pruning.isWrapper frames outer (pruning.keep frames) inner ∧
      ∀ outer' kept inner', Cut pruning.isMachinery pruning.isWrapper frames outer' kept inner' →
        outer' = outer ∧ kept = pruning.keep frames ∧ inner' = inner) ∧
    (∀ last, (pruning.keep frames).getLast? = some last → pruning.isMachinery last = false) ∧
    pruning.keep (pruning.keep frames) = pruning.keep frames ∧
    (∀ front frame middle later back tail,
      frames = front ++ frame :: (middle ++ later :: back) ++ tail →
      pruning.isMachinery later = false →
      (∀ other ∈ frame :: (middle ++ later :: back), pruning.isWrapper other = false) →
      (∀ other ∈ tail, pruning.isMachinery other) →
      ∃ before after, pruning.keep frames = before ++ frame :: (middle ++ later :: after) ∧
        before <:+ front ∧ after <+: back) ∧
    (∀ front frame block tail, pruning.isWrapper frame →
      (∀ other ∈ block, pruning.isWrapper other = false) → block ≠ [] →
      (∀ last, block.getLast? = some last → pruning.isMachinery last = false) →
      (∀ other ∈ tail, pruning.isMachinery other) →
      pruning.keep (front ++ [frame] ++ block ++ tail) = block) := by
  have hcut := cut_prune pruning.isMachinery pruning.isWrapper frames
  refine ⟨⟨_, _, hcut, fun _ _ _ hother ↦ hcut.unique hother⟩, fun _ ↦ hcut.last_kept,
    hcut.of_kept.prune_eq, ?_, ?_⟩
  · rintro front frame middle later back tail rfl hlater hbare htail
    exact exists_prune_eq hlater hbare htail
  · intro front frame block tail hframe hbare hne hlast htail
    exact prune_between hframe hbare hne hlast htail

end Launcher.Pruning
