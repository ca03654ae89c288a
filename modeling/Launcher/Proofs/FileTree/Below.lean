import Launcher.FileTree.Wildcard
import Launcher.Proofs.FileTree.Spelling

/-!
# What lies below a directory

Looking below a directory finds the names that lead downwards through directories, up to a depth
(`mem_below_iff`). No name that is not hidden is missed: whatever a path through such names leads
to, its last name is listed (`Reaches.mem_listKind`), and the depth is enough (`Reaches.mem_below`).
-/

namespace Launcher.FileTree

variable {t : FileTree} {path name rest : String} {names : List String} {left : Nat}
  {place last : List String} {kind : Kind} {directories : Bool}

/-- A name that something can have and that is not hidden. -/
structure Visible (name : String) : Prop where
  notMem : '/' ∉ name.toList
  ne_empty : name ≠ ""
  shown : Glob.isHidden name.toList = false

theorem Visible.isName (h : Visible name) : IsName name := by
  refine ⟨h.ne_empty, ?_, ?_⟩ <;>
  · rintro rfl
    exact absurd h.shown (by decide)

theorem Visible.isRelative (h : Visible name) : Path.isAbsoluteChars name.toList = false :=
  Path.isAbsoluteChars_of_notMem h.notMem

/-- Everything in the tree has a name that it can have. -/
def WellNamed (t : FileTree) : Prop :=
  ∀ entry ∈ t.entries, ∀ name ∈ entry.1.getLast?, '/' ∉ name.toList ∧ name ≠ ""

instance : Decidable t.WellNamed :=
  inferInstanceAs (Decidable (∀ entry ∈ t.entries, ∀ name ∈ entry.1.getLast?, _))

/-! ### Lists of names -/

theorem mem_entriesAt_iff :
    (name, kind) ∈ t.entriesAt place ↔ (place ++ [name], kind) ∈ t.entries := by
  simp only [entriesAt, List.mem_filterMap]
  constructor
  · rintro ⟨⟨entry, kind'⟩, hentry, h⟩
    split at h
    · next name' hlast =>
      obtain ⟨front, rfl⟩ := List.getLast?_eq_some_iff.1 hlast
      simp only [List.dropLast_concat] at h
      split_ifs at h with hfront
      cases h
      exact hfront ▸ hentry
    · cases h
  · intro hentry
    refine ⟨_, hentry, ?_⟩
    simp

theorem mem_list_iff {entry : String × Kind} (hpath : path ≠ "") :
    entry ∈ t.list path ↔ ∃ place, t.locate path = .ok place ∧ t.kind? place = some .directory ∧
      (place ++ [entry.1], entry.2) ∈ t.entries := by
  rw [list, if_neg (by simpa using hpath)]
  cases hlocate : t.locate path with
  | error e => simp
  | ok place =>
    by_cases hdir : t.kind? place = some .directory <;> simp [hdir, ← mem_entriesAt_iff]

/-- The names that are listed are names that can be. -/
theorem WellNamed.of_mem_listKind (h : t.WellNamed) (hname : name ∈ t.listKind path directories) :
    '/' ∉ name.toList ∧ name ≠ "" := by
  obtain ⟨⟨_, kind⟩, hentry, rfl⟩ := List.mem_map.1 hname
  have hlist := (List.mem_filter.1 hentry).1
  rw [list] at hlist
  split at hlist
  · next place hlocate =>
    split_ifs at hlist
    · exact h _ (mem_entriesAt_iff.1 hlist) _ (by simp)
    · cases hlist
  · cases hlist

theorem mem_entries_of_kind? (hname : name ≠ "") (h : t.kind? (place ++ [name]) = some kind) :
    (place ++ [name], kind) ∈ t.entries := by
  rw [kind?, if_neg (concat_ne_root place hname)] at h
  obtain ⟨front, rear, hentries, -⟩ := List.lookup_eq_some_iff.1 h
  rw [hentries]
  exact List.mem_append_right _ List.mem_cons_self

theorem enter_of_ne_empty (hpath : path ≠ "") : enter path name = Path.join path name :=
  if_neg (by simpa using hpath)

/-- The last name of a path that leads anywhere is listed. -/
theorem Reaches.mem_listKind (h : t.Reaches (Path.join path name) left last) (hpath : path ≠ "")
    (hname : Visible name) :
    name ∈ t.listKind path false ∧
      (t.kind? last = some .directory → name ∈ t.listKind path true) := by
  obtain ⟨-, middle, place, hplace, hlast⟩ := (reaches_join_iff hpath hname.notMem).1 h
  obtain ⟨hdir, kind, hkind, hcases⟩ := hlast.name_cases hname.isName
  have hentry : (name, kind) ∈ t.list path :=
    (mem_list_iff hpath).2 ⟨place, locate_eq_ok_iff.2 ⟨middle, hplace⟩, hdir,
      mem_entries_of_kind? hname.ne_empty hkind⟩
  refine ⟨List.mem_map.2 ⟨_, List.mem_filter.2 ⟨hentry, rfl⟩, rfl⟩, fun hlastDir ↦ ?_⟩
  refine List.mem_map.2 ⟨_, List.mem_filter.2 ⟨hentry, ?_⟩, rfl⟩
  rcases hcases with ⟨-, -, rfl⟩ | ⟨⟨target, rfl⟩, -⟩
  · obtain rfl : kind = .directory := Option.some.inj (hkind.symm.trans hlastDir)
    rfl
  · rw [Bool.not_true, Bool.false_or, leadsToDirectory, enter_of_ne_empty hpath]
    exact isDirectory_iff.2 ⟨left, last, h, hlastDir⟩

/-! ### Names that lead downwards -/

/-- The names lead downwards from a path, each through a directory and none of them hidden. -/
def Listed (t : FileTree) (path : String) : List String → Prop
  | [] => True
  | name :: names =>
    name ∈ t.listKind path true ∧ Glob.isHidden name.toList = false ∧
      t.Listed (enter path name) names

/-- Names as a path. -/
def relative (name : String) : List String → String
  | [] => name
  | next :: names => enter name (relative next names)

/-- Looking below a directory finds the names that lead downwards, up to a depth. -/
theorem mem_below_iff {depth : Nat} : rest ∈ t.below true depth path ↔
    ∃ name names, names.length < depth ∧ t.Listed path (name :: names) ∧
      rest = relative name names := by
  induction depth generalizing path rest with
  | zero => simp [below]
  | succ depth ih =>
    simp only [below, List.mem_flatMap, List.mem_filter, List.mem_cons, List.mem_map]
    constructor
    · rintro ⟨name, ⟨hlisted, hshown⟩, rfl | ⟨rest, hrest, rfl⟩⟩
      · exact ⟨rest, [], Nat.succ_pos _, ⟨hlisted, by simpa using hshown, trivial⟩, rfl⟩
      · obtain ⟨next, names, hlength, hnext, rfl⟩ := ih.1 hrest
        exact ⟨name, next :: names, Nat.succ_lt_succ hlength,
          ⟨hlisted, by simpa using hshown, hnext⟩, rfl⟩
    · rintro ⟨name, names, hlength, ⟨hlisted, hshown, hnames⟩, rfl⟩
      refine ⟨name, ⟨hlisted, by simp [hshown]⟩, ?_⟩
      cases names with
      | nil => exact .inl rfl
      | cons next names =>
        exact .inr ⟨_, ih.2 ⟨next, names, Nat.lt_of_succ_lt_succ hlength, hnames, rfl⟩, rfl⟩

theorem WellNamed.visible_of_listed (h : t.WellNamed) (hlisted : t.Listed path names) :
    ∀ name ∈ names, Visible name := by
  induction names generalizing path with
  | nil => exact nofun
  | cons name names ih =>
    obtain ⟨hname, hshown, hnames⟩ := hlisted
    obtain ⟨hslash, hempty⟩ := h.of_mem_listKind hname
    exact List.forall_mem_cons.2 ⟨⟨hslash, hempty, hshown⟩, ih hnames⟩

theorem isAbsoluteChars_relative (hname : Visible name) (hnames : ∀ name ∈ names, Visible name) :
    Path.isAbsoluteChars (relative name names).toList = false := by
  induction names generalizing name with
  | nil => exact hname.isRelative
  | cons next names ih =>
    obtain ⟨hnext, hnames⟩ := List.forall_mem_cons.1 hnames
    rw [relative, enter_of_ne_empty hname.ne_empty,
      Path.isAbsoluteChars_join hname.ne_empty (ih hnext hnames)]
    exact hname.isRelative

/-- Names as a path lead downwards from a path. -/
theorem join_relative (hpath : path ≠ "") (hname : Visible name)
    (hnames : ∀ name ∈ names, Visible name) :
    Path.join path (relative name names) = descend path (name :: names) := by
  induction names generalizing path name with
  | nil => rfl
  | cons next names ih =>
    obtain ⟨hnext, hnames⟩ := List.forall_mem_cons.1 hnames
    rw [relative, enter_of_ne_empty hname.ne_empty,
      ← Path.join_join hpath hname.ne_empty hname.notMem (isAbsoluteChars_relative hnext hnames),
      ih (Path.join_ne_empty hpath hname.isRelative) hnext hnames]
    rfl

/-- A path to a directory leads downwards. -/
theorem Reaches.listed (h : t.Reaches (descend path names) left last)
    (hdir : t.kind? last = some .directory) (hpath : path ≠ "")
    (hnames : ∀ name ∈ names, Visible name) :
    t.Listed path names := by
  induction names generalizing path with
  | nil => trivial
  | cons name names ih =>
    obtain ⟨hname, hrest⟩ := List.forall_mem_cons.1 hnames
    have hjoin : Path.join path name ≠ "" := Path.join_ne_empty hpath hname.isRelative
    have hbehind : t.Reaches (descend (Path.join path name) names) left last := h
    obtain ⟨middle, next, hfirst, hlast⟩ :=
      hbehind.exists_leads hjoin fun other hmem ↦ (hrest other hmem).notMem
    have hnext : t.kind? next = some .directory := by
      cases names with
      | nil => exact (Leads.nil_iff.1 hlast).2 ▸ hdir
      | cons _ _ => exact hlast.directory
    refine ⟨(hfirst.mem_listKind hpath hname).2 hnext, hname.shown, ?_⟩
    rw [enter_of_ne_empty hpath]
    exact ih hbehind hjoin hrest

/-- The depth to which names are looked up is enough for every path that leads to a directory. -/
theorem Reaches.mem_below (h : t.Reaches (descend path (name :: names)) left last)
    (hdir : t.kind? last = some .directory) (hpath : path ≠ "")
    (hnames : ∀ other ∈ name :: names, Visible other) :
    relative name names ∈ t.below true t.depthLimit path := by
  refine mem_below_iff.2 ⟨name, names, ?_, h.listed hdir hpath hnames, rfl⟩
  obtain ⟨middle, place, hplace, hleads⟩ :=
    h.exists_leads hpath fun other hmem ↦ (hnames other hmem).notMem
  have hlength := hleads.length_le hplace.standing fun other hmem ↦ (hnames other hmem).isName
  have hlinks := Nat.mul_le_mul_right (t.entries.length + 1) hplace.2.left_le
  rw [List.length_cons] at hlength
  rw [depthLimit, Nat.succ_mul]
  omega

end Launcher.FileTree
