import Mathlib.Data.List.Infix
import Mathlib.Data.List.Nodup
import Mathlib.Data.List.Perm.Subperm
import Launcher.FileTree

/-!
# Following parts

Following the parts of a path succeeds in steps, one for every part, and a link puts the parts of
its target in front of those that are left (`Leads`). So a path with more parts is followed through
the place that the first of them lead to (`Leads.append_iff`). Each step stays in the tree: on the
way to the place that is reached every place is there (`Standing`).

How far down names lead is bounded: a name that leads to no link goes one place deeper in the tree,
which has no more depth than entries, and only so many links are followed (`Leads.length_le`).
-/

namespace Launcher.FileTree

/-- A part of a path that is the name of something. -/
def IsName (part : String) : Prop := part ≠ "" ∧ part ≠ "." ∧ part ≠ ".."

instance (part : String) : Decidable (IsName part) :=
  inferInstanceAs (Decidable (part ≠ "" ∧ part ≠ "." ∧ part ≠ ".."))

/-- The parts `parts` lead from the place `place` to the place `last`. The numbers are those of the
links which may still be followed, before and behind it. -/
inductive Leads (t : FileTree) : Nat → List String → List String → Nat → List String → Prop
  | done (links : Nat) (place : List String) : Leads t links place [] links place
  | stay {links left : Nat} {place rest last : List String} {part : String} :
      t.kind? place = some .directory → part = "" ∨ part = "." →
      Leads t links place rest left last → Leads t links place (part :: rest) left last
  | up {links left : Nat} {place rest last : List String} :
      t.kind? place = some .directory → Leads t links place.dropLast rest left last →
      Leads t links place (".." :: rest) left last
  | down {links left : Nat} {place rest last : List String} {part : String} {kind : Kind} :
      t.kind? place = some .directory → IsName part →
      part.utf8ByteSize ≤ nameLimit → t.kind? (place ++ [part]) = some kind →
      (∀ target, kind ≠ .link target) →
      Leads t links (place ++ [part]) rest left last → Leads t links place (part :: rest) left last
  | through {links left : Nat} {place rest last : List String} {part target : String} :
      t.kind? place = some .directory → IsName part →
      part.utf8ByteSize ≤ nameLimit → t.kind? (place ++ [part]) = some (.link target) →
      Leads t links (if Path.isAbsoluteChars target.toList then [] else place)
        (FileTree.parts target ++ rest) left last →
      Leads t (links + 1) place (part :: rest) left last

variable {t : FileTree} {links left middle : Nat} {place next last : List String}
  {part name : String} {parts rest names : List String}

/-! ### Steps -/

theorem Leads.of_follow (h : t.follow links place parts = .ok last) :
    ∃ left, t.Leads links place parts left last := by
  fun_induction t.follow links place parts generalizing last with
  | case1 links place => cases h; exact ⟨links, .done links _⟩
  | case2 => cases h
  | case3 links place part rest hdir hstay ih =>
    obtain ⟨left, hleads⟩ := ih h
    exact ⟨left, .stay (not_not.1 hdir) hstay hleads⟩
  | case4 links place rest hdir hstay ih =>
    obtain ⟨left, hleads⟩ := ih h
    exact ⟨left, .up (not_not.1 hdir) hleads⟩
  | case5 => cases h
  | case6 => cases h
  | case7 => cases h
  | case8 place part rest hdir hstay hup hsize target hkind links start =>
    rename_i ih
    obtain ⟨left, hleads⟩ := ih h
    obtain ⟨hempty, hhere⟩ := not_or.1 hstay
    exact ⟨left,
      .through (not_not.1 hdir) ⟨hempty, hhere, hup⟩ (Nat.le_of_not_lt hsize) hkind hleads⟩
  | case9 links place part rest hdir hstay hup hsize kind hnolink hkind ih =>
    obtain ⟨left, hleads⟩ := ih h
    obtain ⟨hempty, hhere⟩ := not_or.1 hstay
    exact ⟨left, .down (not_not.1 hdir) ⟨hempty, hhere, hup⟩ (Nat.le_of_not_lt hsize) hkind
      (fun target hlink ↦ hnolink target hlink) hleads⟩

theorem Leads.follow (h : t.Leads links place parts left last) :
    t.follow links place parts = .ok last := by
  induction h with
  | done => rw [FileTree.follow]
  | stay hdir hstay _ ih =>
    rw [FileTree.follow, if_neg (not_not.2 hdir), if_pos hstay, ih]
  | up hdir _ ih =>
    rw [FileTree.follow, if_neg (not_not.2 hdir), if_neg (by decide), if_pos rfl, ih]
  | @down _ _ _ _ _ _ kind hdir hname hsize hkind hnolink _ ih =>
    obtain ⟨hempty, hhere, hup⟩ := hname
    rw [FileTree.follow, if_neg (not_not.2 hdir), if_neg (not_or.2 ⟨hempty, hhere⟩), if_neg hup,
      if_neg (Nat.not_lt.2 hsize), hkind]
    cases kind with
    | link target => exact absurd rfl (hnolink target)
    | file executable => exact ih
    | directory => exact ih
  | through hdir hname hsize hkind _ ih =>
    obtain ⟨hempty, hhere, hup⟩ := hname
    rw [FileTree.follow, if_neg (not_not.2 hdir), if_neg (not_or.2 ⟨hempty, hhere⟩), if_neg hup,
      if_neg (Nat.not_lt.2 hsize), hkind]
    exact ih

/-- Following parts gets to a place exactly if the parts lead there. -/
theorem follow_eq_ok_iff :
    t.follow links place parts = .ok last ↔ ∃ left, t.Leads links place parts left last :=
  ⟨Leads.of_follow, fun ⟨_, h⟩ ↦ h.follow⟩

theorem Leads.left_le (h : t.Leads links place parts left last) : left ≤ links := by
  induction h with
  | done => exact Nat.le_refl _
  | stay _ _ _ ih => exact ih
  | up _ _ ih => exact ih
  | down _ _ _ _ _ _ ih => exact ih
  | through _ _ _ _ _ ih => exact Nat.le_succ_of_le ih

theorem Leads.append (hfirst : t.Leads links place parts middle next)
    (hrest : t.Leads middle next rest left last) :
    t.Leads links place (parts ++ rest) left last := by
  induction hfirst with
  | done => exact hrest
  | stay hdir hstay _ ih => exact .stay hdir hstay (ih hrest)
  | up hdir _ ih => exact .up hdir (ih hrest)
  | down hdir hname hsize hkind hnolink _ ih =>
    exact .down hdir hname hsize hkind hnolink (ih hrest)
  | through hdir hname hsize hkind _ ih =>
    exact .through hdir hname hsize hkind (List.append_assoc .. ▸ ih hrest)

theorem Leads.split (h : t.Leads links place (parts ++ rest) left last) :
    ∃ middle next, t.Leads links place parts middle next ∧ t.Leads middle next rest left last := by
  generalize hall : parts ++ rest = all at h
  induction h generalizing parts with
  | done links place =>
    obtain ⟨rfl, rfl⟩ := List.append_eq_nil_iff.1 hall
    exact ⟨links, place, .done links place, .done links place⟩
  | stay hdir hstay hleads ih =>
    cases parts with
    | nil => subst hall; exact ⟨_, _, .done _ _, .stay hdir hstay hleads⟩
    | cons part parts =>
      obtain ⟨rfl, rfl⟩ := List.cons.inj hall
      obtain ⟨middle, next, hfirst, hrest⟩ := ih rfl
      exact ⟨middle, next, .stay hdir hstay hfirst, hrest⟩
  | up hdir hleads ih =>
    cases parts with
    | nil => subst hall; exact ⟨_, _, .done _ _, .up hdir hleads⟩
    | cons part parts =>
      obtain ⟨rfl, rfl⟩ := List.cons.inj hall
      obtain ⟨middle, next, hfirst, hrest⟩ := ih rfl
      exact ⟨middle, next, .up hdir hfirst, hrest⟩
  | down hdir hname hsize hkind hnolink hleads ih =>
    cases parts with
    | nil => subst hall; exact ⟨_, _, .done _ _, .down hdir hname hsize hkind hnolink hleads⟩
    | cons part parts =>
      obtain ⟨rfl, rfl⟩ := List.cons.inj hall
      obtain ⟨middle, next, hfirst, hrest⟩ := ih rfl
      exact ⟨middle, next, .down hdir hname hsize hkind hnolink hfirst, hrest⟩
  | @through _ _ _ _ _ _ target hdir hname hsize hkind hleads ih =>
    cases parts with
    | nil => subst hall; exact ⟨_, _, .done _ _, .through hdir hname hsize hkind hleads⟩
    | cons part parts =>
      obtain ⟨rfl, rfl⟩ := List.cons.inj hall
      obtain ⟨middle, next, hfirst, hrest⟩ :=
        ih (List.append_assoc (FileTree.parts target) parts _)
      exact ⟨middle, next, .through hdir hname hsize hkind hfirst, hrest⟩

/-- More parts are followed through the place that the first of them lead to. -/
theorem Leads.append_iff : t.Leads links place (parts ++ rest) left last ↔
    ∃ middle next, t.Leads links place parts middle next ∧ t.Leads middle next rest left last :=
  ⟨Leads.split, fun ⟨_, _, hfirst, hrest⟩ ↦ hfirst.append hrest⟩

/-- No part leads anywhere else. -/
theorem Leads.nil_iff : t.Leads links place [] left last ↔ left = links ∧ last = place := by
  constructor
  · rintro ⟨⟩
    exact ⟨rfl, rfl⟩
  · rintro ⟨rfl, rfl⟩
    exact .done _ _

/-- The empty part leads from a directory to itself. -/
theorem Leads.empty_iff : t.Leads links place [""] left last ↔
    t.kind? place = some .directory ∧ left = links ∧ last = place := by
  constructor
  · intro h
    generalize hpart : "" = part at h
    cases h with
    | stay hdir _ h => exact ⟨hdir, Leads.nil_iff.1 h⟩
    | up => exact absurd hpart (by decide)
    | down _ hname => exact absurd hpart.symm hname.1
    | through _ hname => exact absurd hpart.symm hname.1
  · rintro ⟨hdir, rfl, rfl⟩
    exact .stay hdir (.inl rfl) (.done _ _)

theorem Leads.directory (h : t.Leads links place (part :: rest) left last) :
    t.kind? place = some .directory := by
  cases h <;> assumption

/-- What a name leads to: what is found under it, or what the link that is found leads to. -/
theorem Leads.name_cases (h : t.Leads links place [name] left last) (hname : IsName name) :
    t.kind? place = some .directory ∧ ∃ kind, t.kind? (place ++ [name]) = some kind ∧
      ((∀ target, kind ≠ .link target) ∧ left = links ∧ last = place ++ [name] ∨
        (∃ target, kind = .link target) ∧ left < links) := by
  cases h with
  | stay _ hstay _ => exact absurd hstay (not_or.2 ⟨hname.1, hname.2.1⟩)
  | up => exact absurd rfl hname.2.2
  | down hdir _ _ hkind hnolink h => exact ⟨hdir, _, hkind, .inl ⟨hnolink, Leads.nil_iff.1 h⟩⟩
  | through hdir _ _ hkind h =>
    exact ⟨hdir, _, hkind, .inr ⟨⟨_, rfl⟩, Nat.lt_succ_of_le h.left_le⟩⟩

/-! ### Staying in the tree -/

/-- Behind a name there is neither the root nor the working directory. -/
theorem concat_ne_root (place : List String) (hname : name ≠ "") :
    ¬(place ++ [name] = [] ∨ place ++ [name] = workingPlace) := by
  rintro (h | h)
  · exact List.append_ne_nil_of_right_ne_nil _ (List.cons_ne_nil _ _) h
  · have hlast : place ++ [name] = [] ++ [""] := h
    exact hname (List.head_eq_of_cons_eq (List.append_inj' hlast rfl).2)

/-- Every place on the way to a place is there. -/
def Standing (t : FileTree) (place : List String) : Prop :=
  ∀ front, front <+: place → (t.kind? front).isSome

theorem standing_nil : t.Standing [] := by
  intro front hfront
  rw [List.prefix_nil.1 hfront]
  rfl

theorem standing_workingPlace : t.Standing workingPlace := by
  intro front hfront
  rcases List.prefix_concat_iff.1 (show front <+: [] ++ [""] from hfront) with rfl | hfront
  · rfl
  · exact standing_nil front hfront

theorem Standing.of_prefix (h : t.Standing place) (hfront : next <+: place) : t.Standing next :=
  fun front hnext ↦ h front (hnext.trans hfront)

theorem Standing.concat (h : t.Standing place) (hpart : (t.kind? (place ++ [part])).isSome) :
    t.Standing (place ++ [part]) := by
  intro front hfront
  rcases List.prefix_concat_iff.1 hfront with rfl | hfront
  · exact hpart
  · exact h front hfront

/-- Parts lead from a place in the tree to one in the tree. -/
theorem Leads.standing (h : t.Leads links place parts left last) (hplace : t.Standing place) :
    t.Standing last := by
  induction h with
  | done => exact hplace
  | stay _ _ _ ih => exact ih hplace
  | up _ _ ih => exact ih (hplace.of_prefix (List.dropLast_prefix _))
  | down _ _ _ hkind _ _ ih => exact ih (hplace.concat (Option.isSome_of_mem hkind))
  | through _ _ _ _ _ ih =>
    refine ih ?_
    split_ifs
    · exact standing_nil
    · exact hplace

/-! ### How far down names lead -/

/-- The places on the way to a place, the root and the working directory aside. -/
def wayTo (place : List String) : List (List String) :=
  place.inits.filter fun front ↦ front ≠ [] ∧ front ≠ workingPlace

theorem nodup_wayTo (place : List String) : (wayTo place).Nodup := by
  refine List.Nodup.filter _ ?_
  induction place with
  | nil => simp
  | cons part place ih =>
    rw [List.inits_cons]
    refine List.nodup_cons.2 ⟨by simp, ih.map ?_⟩
    exact fun _ _ h ↦ List.tail_eq_of_cons_eq h

/-- A name goes one place deeper. -/
theorem length_wayTo_concat (place : List String) (hname : name ≠ "") :
    (wayTo (place ++ [name])).length = (wayTo place).length + 1 := by
  have hinits : (place ++ [name]).inits = place.inits ++ [place ++ [name]] := by
    rw [List.inits_append]
    simp
  rw [wayTo, hinits, List.filter_append, List.length_append, List.filter_singleton,
    decide_eq_true (not_or.1 (concat_ne_root place hname))]
  rfl

/-- A tree has no more depth than entries. -/
theorem Standing.length_wayTo_le (h : t.Standing place) :
    (wayTo place).length ≤ t.entries.length := by
  rw [← List.length_map (f := Prod.fst)]
  refine (List.subperm_of_subset (nodup_wayTo place) fun front hfront ↦ ?_).length_le
  obtain ⟨hinits, hnew⟩ := List.mem_filter.1 hfront
  have hkind := h front ((List.mem_inits _ _).1 hinits)
  rw [kind?, if_neg (not_or.2 (of_decide_eq_true hnew))] at hkind
  by_contra hout
  rw [List.lookup_eq_none_iff.2] at hkind
  · cases hkind
  · intro entry hentry
    exact bne_iff_ne.2 fun heq ↦ hout (heq ▸ List.mem_map_of_mem hentry)

/-- **Between two links names go no deeper than the tree**, and each link counts once. -/
theorem Leads.length_le (h : t.Leads links place names left last) (hplace : t.Standing place)
    (hnames : ∀ name ∈ names, IsName name) :
    names.length + (wayTo place).length ≤ links * (t.entries.length + 1) + t.entries.length := by
  induction names generalizing links place with
  | nil =>
    have hdepth := hplace.length_wayTo_le
    simp only [List.length_nil]
    omega
  | cons name names ih =>
    obtain ⟨hname, hnames⟩ := List.forall_mem_cons.1 hnames
    have happend : t.Leads links place ([name] ++ names) left last := h
    obtain ⟨middle, next, hfirst, hrest⟩ := happend.split
    have hbound := ih hrest (hfirst.standing hplace) hnames
    have hdepth := hplace.length_wayTo_le
    obtain ⟨-, kind, -, ⟨-, rfl, rfl⟩ | ⟨-, hlt⟩⟩ := hfirst.name_cases hname
    · rw [length_wayTo_concat place hname.1] at hbound
      simp only [List.length_cons]
      omega
    · have hlinks := Nat.mul_le_mul_right (t.entries.length + 1) (Nat.succ_le_of_lt hlt)
      rw [Nat.succ_mul] at hlinks
      simp only [List.length_cons]
      omega

end Launcher.FileTree
