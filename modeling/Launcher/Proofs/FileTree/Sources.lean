import Launcher.Proofs.FileTree.Below

/-!
# The pattern for the sources below a directory

A directory stands for the pattern that looks for names with a suffix at any depth below it. If no
part of its path is a pattern itself, then this finds what it should: the visible names with the
suffix below the directory (`mem_search_below_iff`).
-/

namespace Launcher

/-! ### Patterns for names -/

namespace Glob

variable {cs ds suffix name : List Char}

theorem mem_suffixes {α : Type} {as bs : List α} : bs ∈ suffixes as ↔ bs <:+ as := by
  induction as with
  | nil => simp [suffixes]
  | cons a as ih => simp [suffixes, ih, List.suffix_cons_iff]

/-- A literal text stands for itself. -/
theorem parse_of_literal (h : isPattern cs = false) : parse cs = cs.map .literal := by
  induction cs with
  | nil => rw [parse]; rfl
  | cons c cs ih =>
    simp only [isPattern, List.any_cons, Bool.or_eq_false_iff, decide_eq_false_iff_not] at h
    obtain ⟨⟨⟨hstar, hmark⟩, hbracket⟩, hcs⟩ := h
    rw [parse, ih hcs]
    · rfl
    · exact hstar
    · exact hmark
    · exact hbracket

theorem accepts_literals : accepts (cs.map .literal) ds ↔ ds = cs := by
  induction cs generalizing ds with
  | nil => simp [accepts]
  | cons c cs ih =>
    cases ds with
    | nil => simp [accepts]
    | cons d ds =>
      rw [List.map_cons, accepts, Bool.and_eq_true, ih, Item.covers, decide_eq_true_iff,
        List.cons.injEq]
      exact fun h ↦ Item.noConfusion h

/-- A star with a literal text behind it stands for the names that end in the text. -/
theorem fits_star_iff (h : isPattern suffix = false) :
    fits ('*' :: suffix) name ↔ suffix <:+ name := by
  rw [fits_eq_accepts, parse, parse_of_literal h, accepts, List.any_eq_true]
  constructor
  · rintro ⟨rest, hrest, haccepts⟩
    rw [← accepts_literals.1 haccepts]
    exact mem_suffixes.1 hrest
  · intro hsuffix
    exact ⟨suffix, mem_suffixes.2 hsuffix, accepts_literals.2 rfl⟩

end Glob

theorem Path.mem_of_mem_splitAt {sep c : Char} {cs part : List Char} (hpart : part ∈ splitAt sep cs)
    (hc : c ∈ part) : c ∈ cs := by
  induction cs generalizing part with
  | nil =>
    obtain rfl := List.mem_singleton.1 hpart
    exact hc
  | cons first cs ih =>
    rw [splitAt] at hpart
    split_ifs at hpart
    · rcases List.mem_cons.1 hpart with rfl | hpart
      · cases hc
      · exact List.mem_cons_of_mem _ (ih hpart hc)
    · cases hparts : splitAt sep cs with
      | nil => exact absurd hparts (splitAt_ne_nil sep cs)
      | cons head tail =>
        simp only [hparts] at hpart ih
        rcases List.mem_cons.1 hpart with rfl | hpart
        · rcases List.mem_cons.1 hc with rfl | hc
          · exact List.mem_cons_self
          · exact List.mem_cons_of_mem _ (ih List.mem_cons_self hc)
        · exact List.mem_cons_of_mem _ (ih (List.mem_cons_of_mem _ hpart) hc)

namespace FileTree

variable {t : FileTree} {directory suffix path : String}

/-- No part of a literal path is a pattern. -/
theorem isPattern_of_mem_splitAt {sep : Char} {cs part : List Char}
    (hliteral : Glob.isPattern cs = false) (hpart : part ∈ Path.splitAt sep cs) :
    Glob.isPattern part = false := by
  rw [Glob.isPattern, List.any_eq_false] at hliteral ⊢
  exact fun c hc ↦ hliteral c (Path.mem_of_mem_splitAt hpart hc)

theorem splitPattern_append {before parts rest : List (List Char)}
    (h : ∀ part ∈ parts, Glob.isPattern part = false) :
    splitPattern before (parts ++ rest) = splitPattern (before ++ parts) rest := by
  induction parts generalizing before with
  | nil => rw [List.nil_append, List.append_nil]
  | cons part parts ih =>
    obtain ⟨hpart, hparts⟩ := List.forall_mem_cons.1 h
    rw [List.cons_append, splitPattern, if_neg (by simp [hpart]), ih hparts, List.append_assoc]
    rfl

/-- The parts of the pattern for the sources below a directory. -/
theorem splitPattern_below (hliteral : Glob.isPattern directory.toList = false)
    (hsuffix : '/' ∉ suffix.toList) :
    splitPattern [] (Path.splitAt '/' (directory ++ "/**/*" ++ suffix).toList) =
      (Path.trimEndSlashes (directory ++ "/").toList, ["**", "*" ++ suffix]) := by
  have hparts : Path.splitAt '/' (directory ++ "/**/*" ++ suffix).toList =
      Path.splitAt '/' directory.toList ++ [['*', '*'], '*' :: suffix.toList] := by
    have hlast : Path.splitAt '/' ('*' :: suffix.toList) = ['*' :: suffix.toList] :=
      Path.splitAt_of_notMem (by simpa using hsuffix)
    have htext : (directory ++ "/**/*" ++ suffix).toList =
        directory.toList ++ '/' :: (['*', '*'] ++ '/' :: '*' :: suffix.toList) := by simp
    rw [htext, Path.splitAt_append_cons, Path.splitAt_append_cons, hlast]
    rfl
  have hbefore : ∀ part ∈ Path.splitAt '/' directory.toList, Glob.isPattern part = false :=
    fun part hpart ↦ isPattern_of_mem_splitAt hliteral hpart
  have hdirectory : Path.joinWith '/' (Path.splitAt '/' directory.toList ++ [[]]) =
      (directory ++ "/").toList := by
    rw [show [[]] = Path.splitAt '/' [] from rfl, ← Path.splitAt_append_cons, Path.joinWith_splitAt,
      String.toList_append]
    rfl
  have hempty : (Path.splitAt '/' directory.toList).isEmpty = false :=
    List.isEmpty_eq_false_iff.2 (Path.splitAt_ne_nil _ _)
  have hdeep : Glob.isPattern ['*', '*'] = true := rfl
  rw [hparts, splitPattern_append hbefore, List.nil_append, splitPattern, if_pos hdeep,
    hdirectory, hempty]
  simp

/-- What the pattern for the sources below a directory finds: names with the suffix, in the
directory and in all directories below it. -/
theorem search_below (hne : directory ≠ "") (hliteral : Glob.isPattern directory.toList = false)
    (hsuffix : '/' ∉ suffix.toList) :
    t.search (directory ++ "/**/*" ++ suffix) =
      t.expand [withoutEndSlashes (directory ++ "/")] ["**", "*" ++ suffix] := by
  have hdeep : isDeep (String.ofList ((directory ++ "/**/*" ++ suffix).toList.take 2)) = false := by
    refine decide_eq_false fun hstars ↦ ?_
    obtain ⟨c, cs, hcs⟩ :=
      List.exists_cons_of_ne_nil (show directory.toList ≠ [] by simpa using hne)
    have hfirst : c = '*' := by
      rw [← String.toList_inj, String.toList_ofList, String.append_assoc, String.toList_append, hcs]
        at hstars
      exact List.head_eq_of_cons_eq hstars
    rw [hcs, hfirst] at hliteral
    cases hliteral
  rw [search, splitPattern_below hliteral hsuffix]
  simp only [hdeep, Bool.false_and, Bool.false_eq_true, if_false]
  rfl

/-- A star with a literal text behind it lists the visible names that end in the text. -/
theorem mem_matching_star_iff {name : String} (hliteral : Glob.isPattern suffix.toList = false) :
    name ∈ t.matching false path ("*" ++ suffix) ↔
      name ∈ t.listKind path false ∧ Glob.isHidden name.toList = false ∧
        suffix.toList <:+ name.toList := by
  have htext : ("*" ++ suffix).toList = '*' :: suffix.toList := by simp
  have hdeep : isDeep ("*" ++ suffix) = false := by
    refine decide_eq_false fun hstars ↦ ?_
    rw [← String.toList_inj, htext] at hstars
    rw [List.tail_eq_of_cons_eq hstars] at hliteral
    cases hliteral
  have hpattern : Glob.isPattern ('*' :: suffix.toList) = true := rfl
  have hshown : Glob.isHidden ('*' :: suffix.toList) = false := rfl
  rw [matching, hdeep, if_neg Bool.false_ne_true, htext, if_pos hpattern, List.mem_filter, hshown,
    Bool.false_or, Bool.and_eq_true, Glob.fits_star_iff hliteral, Bool.not_eq_true']

/-- What two stars and a star with a literal text behind it find from a path. -/
theorem mem_expand_iff {root : String} (hliteral : Glob.isPattern suffix.toList = false) :
    path ∈ t.expand [root] ["**", "*" ++ suffix] ↔
      ∃ rest ∈ "" :: t.below true t.depthLimit root,
        ∃ name ∈ t.listKind (Path.join root rest) false,
        Glob.isHidden name.toList = false ∧ suffix.toList <:+ name.toList ∧
          path = Path.join (Path.join root rest) name := by
  have hdeep : t.matching true root "**" = "" :: t.below true t.depthLimit root := rfl
  have hexpand : t.expand [root] ["**", "*" ++ suffix] =
      ([root].flatMap fun path ↦ (t.matching true path "**").map (Path.join path)).flatMap
        fun path ↦ (t.matching false path ("*" ++ suffix)).map (Path.join path) := rfl
  rw [hexpand, List.flatMap_singleton, hdeep]
  simp only [List.mem_flatMap, List.mem_map, mem_matching_star_iff hliteral]
  constructor
  · rintro ⟨_, ⟨rest, hrest, rfl⟩, name, ⟨hname, hshown, hends⟩, rfl⟩
    exact ⟨rest, hrest, name, hname, hshown, hends, rfl⟩
  · rintro ⟨rest, hrest, name, hname, hshown, hends, rfl⟩
    exact ⟨_, ⟨rest, hrest, rfl⟩, name, ⟨hname, hshown, hends⟩, rfl⟩

/-- `path` leads to a regular file below a directory: through names that are not hidden, the last of
which has the suffix. -/
def SourceBelow (t : FileTree) (directory suffix path : String) : Prop :=
  t.isRegular path ∧ ∃ names name, (∀ other ∈ names ++ [name], Visible other) ∧
    suffix.toList <:+ name.toList ∧ path = descend directory (names ++ [name])

/-- The name of a source is not hidden and has the suffix. -/
theorem SourceBelow.baseName (h : t.SourceBelow directory suffix path) (hne : directory ≠ "") :
    Visible (Path.baseName path) ∧ suffix.toList <:+ (Path.baseName path).toList := by
  obtain ⟨-, names, name, hvisible, hends, rfl⟩ := h
  obtain ⟨hnames, hname⟩ := List.forall_mem_append.1 hvisible
  have hname : Visible name := List.forall_mem_singleton.1 hname
  have hbase : Path.baseName (descend directory (names ++ [name])) = name := by
    have hfront := descend_ne_empty hne fun other hmem ↦ (hnames other hmem).notMem
    have hjoin : descend directory (names ++ [name]) = Path.join (descend directory names) name :=
      descend_append ..
    rw [hjoin, Path.baseName_join hfront hname.notMem]
  rw [hbase]
  exact ⟨hname, hends⟩

/-- An empty name behind a path is the slash that is missing at its end. -/
theorem join_join_empty {root name : String} (hroot : root ≠ "") (hname : Visible name) :
    Path.join (Path.join root "") name = Path.join root name := by
  have hempty : Path.isAbsoluteChars "".toList = false := rfl
  rw [Path.join_eq_append (Path.join_ne_empty hroot hempty) hname.isRelative,
    Path.join_eq_append hroot hempty, Path.join_eq_append hroot hname.isRelative]
  cases hslash : Path.lacksSlash root with
  | false => simp [hslash]
  | true =>
    have hends : Path.lacksSlash (root ++ "/" ++ "") = false := by simp [Path.lacksSlash]
    rw [if_pos rfl, hends]
    simp

section

variable {root rest name : String} {names : List String} {left : Nat} {last : List String}

/-- A directory that is looked at lies below through visible names. -/
theorem WellNamed.exists_names (hnamed : t.WellNamed) (hroot : root ≠ "") (hname : Visible name)
    (hrest : rest ∈ "" :: t.below true t.depthLimit root) :
    ∃ names, (∀ other ∈ names, Visible other) ∧
      Path.join (Path.join root rest) name = descend root (names ++ [name]) := by
  rcases List.mem_cons.1 hrest with rfl | hrest
  · exact ⟨[], nofun, join_join_empty hroot hname⟩
  · obtain ⟨first, names, -, hlisted, rfl⟩ := mem_below_iff.1 hrest
    have hvisible := hnamed.visible_of_listed hlisted
    obtain ⟨hfirst, hnames⟩ := List.forall_mem_cons.1 hvisible
    refine ⟨first :: names, hvisible, ?_⟩
    rw [join_relative hroot hfirst hnames, descend_append]
    rfl

/-- A directory that lies below through visible names is looked at. -/
theorem Reaches.exists_rest (h : t.Reaches (descend root (names ++ [name])) left last)
    (hroot : root ≠ "") (hname : Visible name) (hnames : ∀ other ∈ names, Visible other) :
    ∃ rest ∈ "" :: t.below true t.depthLimit root, Path.join root rest ≠ "" ∧
      Path.join (Path.join root rest) name = descend root (names ++ [name]) := by
  cases names with
  | nil =>
    exact ⟨"", List.mem_cons_self, Path.join_ne_empty hroot rfl, join_join_empty hroot hname⟩
  | cons first names =>
    obtain ⟨hfirst, hrest⟩ := List.forall_mem_cons.1 hnames
    have hslashes : ∀ other ∈ first :: names, '/' ∉ other.toList := fun other hmem ↦
      (hnames other hmem).notMem
    have hne : descend root (first :: names) ≠ "" := descend_ne_empty hroot hslashes
    rw [descend_append] at h
    obtain ⟨-, middle, next, hdirectory, hlast⟩ := (reaches_join_iff hne hname.notMem).1 h
    refine ⟨relative first names, List.mem_cons_of_mem _ ?_, ?_, ?_⟩
    · exact hdirectory.mem_below hlast.directory hroot hnames
    · rw [join_relative hroot hfirst hrest]
      exact hne
    · rw [join_relative hroot hfirst hrest, descend_append]
      rfl

end

/-- **The pattern for the sources below a directory finds exactly these.** -/
theorem mem_search_below_iff (hnamed : t.WellNamed) (hne : directory ≠ "")
    (hdirectory : Glob.isPattern directory.toList = false) (hslash : '/' ∉ suffix.toList)
    (hsuffix : Glob.isPattern suffix.toList = false) :
    path ∈ t.search (directory ++ "/**/*" ++ suffix) ∧ t.isRegular path ↔
      t.SourceBelow (withoutEndSlashes (directory ++ "/")) suffix path := by
  have hroot : withoutEndSlashes (directory ++ "/") ≠ "" := withoutEndSlashes_ne_empty (by simp)
  rw [search_below hne hdirectory hslash, mem_expand_iff hsuffix]
  constructor
  · rintro ⟨⟨rest, hrest, name, hlisted, hshown, hends, rfl⟩, hregular⟩
    obtain ⟨hnoslash, hnonempty⟩ := hnamed.of_mem_listKind hlisted
    have hname : Visible name := ⟨hnoslash, hnonempty, hshown⟩
    obtain ⟨names, hnames, hpath⟩ := hnamed.exists_names hroot hname hrest
    exact ⟨hregular, names, name,
      List.forall_mem_append.2 ⟨hnames, List.forall_mem_singleton.2 hname⟩, hends, hpath⟩
  · rintro ⟨hregular, names, name, hvisible, hends, rfl⟩
    obtain ⟨hnames, hname⟩ := List.forall_mem_append.1 hvisible
    have hname : Visible name := List.forall_mem_singleton.1 hname
    obtain ⟨left, last, -, hreaches, -⟩ := isRegular_iff.1 hregular
    obtain ⟨rest, hrest, hjoin, hpath⟩ := hreaches.exists_rest hroot hname hnames
    rw [← hpath] at hreaches
    exact ⟨⟨rest, hrest, name, (hreaches.mem_listKind hjoin hname).1, hname.shown, hends,
      hpath.symm⟩, hregular⟩

end FileTree

end Launcher
