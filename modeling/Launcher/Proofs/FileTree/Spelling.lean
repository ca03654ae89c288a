import Mathlib.Data.List.TakeWhile
import Launcher.Proofs.FileTree.Following

/-!
# Paths and the places they lead to

A path leads where its parts lead, if it is neither empty nor too long (`Reaches`). So a name behind
a path leads where it leads in the directory that the path leads to (`reaches_join_iff`), and names
behind a path lead downwards from there (`Reaches.descend`). Slashes at the end of the path of a
directory change nothing.
-/

namespace Launcher

/-! ### Spelling -/

namespace Path

/-- Parts on both sides of a separator. -/
theorem splitAt_append_cons (sep : Char) (cs ds : List Char) :
    splitAt sep (cs ++ sep :: ds) = splitAt sep cs ++ splitAt sep ds := by
  induction cs with
  | nil => simp [splitAt]
  | cons c cs ih =>
    rw [List.cons_append, splitAt, splitAt, ih]
    split_ifs
    · rfl
    · cases hparts : splitAt sep cs with
      | nil => exact absurd hparts (splitAt_ne_nil sep cs)
      | cons part parts => rfl

theorem splitAt_of_notMem {sep : Char} {cs : List Char} (h : sep ∉ cs) : splitAt sep cs = [cs] := by
  induction cs with
  | nil => rfl
  | cons c cs ih =>
    obtain ⟨hc, hcs⟩ := not_or.1 (fun hor ↦ h (List.mem_cons.2 hor))
    rw [splitAt, if_neg (Ne.symm hc), ih hcs]

/-- No name is an absolute path. -/
theorem isAbsoluteChars_of_notMem {cs : List Char} (h : '/' ∉ cs) : isAbsoluteChars cs = false :=
  decide_eq_false fun hhead ↦ h (List.mem_of_mem_head? hhead)

/-- Whether a path has no slash at its end. -/
def lacksSlash (path : String) : Bool := path.toList.getLast? ≠ some '/'

variable {path name rest : String}

theorem isAbsoluteChars_append (hpath : path ≠ "") (rest : String) :
    isAbsoluteChars (path ++ rest).toList = isAbsoluteChars path.toList := by
  rw [isAbsoluteChars, isAbsoluteChars, String.toList_append,
    List.head?_append_of_ne_nil _ (by simpa using hpath)]

/-- A path that is not absolute comes behind a path and a slash, if the path does not end in one. -/
theorem join_eq_append (hpath : path ≠ "") (h : isAbsoluteChars name.toList = false) :
    join path name = path ++ (if lacksSlash path then "/" else "") ++ name := by
  have hempty : path.toList.isEmpty = false := by simpa using hpath
  rw [← String.toList_inj, join, String.toList_ofList, joinChars, h, lacksSlash, hempty]
  by_cases hlast : path.toList.getLast? = some '/' <;> simp [hlast]

theorem isAbsoluteChars_join (hpath : path ≠ "") (h : isAbsoluteChars name.toList = false) :
    isAbsoluteChars (join path name).toList = isAbsoluteChars path.toList := by
  rw [join_eq_append hpath h, String.append_assoc, isAbsoluteChars_append hpath]

theorem join_ne_empty (hpath : path ≠ "") (h : isAbsoluteChars name.toList = false) :
    join path name ≠ "" := by
  rw [join_eq_append hpath h]
  simp [hpath]

/-- A path that ends in a slash. -/
theorem exists_eq_append_slash (h : lacksSlash path = false) :
    ∃ front : String, path = front ++ "/" := by
  obtain ⟨front, hfront⟩ := List.getLast?_eq_some_iff.1 (not_not.1 (of_decide_eq_false h))
  exact ⟨String.ofList front, by simp [← String.toList_inj, hfront]⟩

theorem lacksSlash_append (hname : name ≠ "") (h : '/' ∉ name.toList) :
    lacksSlash (path ++ name) = true := by
  refine decide_eq_true fun hlast ↦ h (List.mem_of_getLast? (?_ : name.toList.getLast? = some '/'))
  rw [String.toList_append, List.getLast?_append_of_ne_nil _ (by simpa using hname)] at hlast
  exact hlast

theorem forall_mem_reverse_ne_slash {cs : List Char} (h : '/' ∉ cs) :
    ∀ c ∈ cs.reverse, decide (c ≠ '/') = true :=
  fun _ hc ↦ decide_eq_true fun hslash ↦ h (hslash ▸ List.mem_reverse.1 hc)

theorem lastPart_of_notMem {cs : List Char} (h : '/' ∉ cs) : lastPart cs = cs := by
  rw [lastPart, List.takeWhile_eq_self_iff.2 (forall_mem_reverse_ne_slash h), List.reverse_reverse]

theorem lastPart_append_cons {cs ds : List Char} (h : '/' ∉ ds) :
    lastPart (cs ++ '/' :: ds) = ds := by
  rw [lastPart, List.reverse_append, List.reverse_cons, List.append_assoc,
    List.takeWhile_append_of_pos (forall_mem_reverse_ne_slash h)]
  simp

/-- What stands before the extension of a name. -/
theorem splitExtensionChars_prefix (cs : List Char) : (splitExtensionChars cs).1 <+: cs := by
  rw [splitExtensionChars]
  split
  · exact List.prefix_rfl
  · exact List.take_prefix _ _

/-- The name behind a path is its last part. -/
theorem baseName_join (hpath : path ≠ "") (h : '/' ∉ name.toList) :
    baseName (join path name) = name := by
  have hjoin := join_eq_append hpath (isAbsoluteChars_of_notMem h)
  have hslash : ∃ front : String, join path name = front ++ "/" ++ name := by
    cases hlacks : lacksSlash path with
    | true => exact ⟨path, by rw [hjoin, hlacks, if_pos rfl]⟩
    | false =>
      obtain ⟨front, hfront⟩ := exists_eq_append_slash hlacks
      exact ⟨front, by rw [hjoin, hlacks, ← hfront]; simp⟩
  obtain ⟨front, hfront⟩ := hslash
  have htext : (front ++ "/" ++ name).toList = front.toList ++ '/' :: name.toList := by simp
  rw [hfront, baseName, htext, lastPart_append_cons h, String.ofList_toList]

/-- A path seen from a name seen from a path. -/
theorem join_join (hpath : path ≠ "") (hname : name ≠ "") (hslash : '/' ∉ name.toList)
    (hrest : isAbsoluteChars rest.toList = false) :
    join (join path name) rest = join path (join name rest) := by
  have hrelative := isAbsoluteChars_of_notMem hslash
  have hinner : join name rest = name ++ "/" ++ rest := by
    rw [join_eq_append hname hrest, ← String.empty_append (s := name),
      lacksSlash_append hname hslash]
    rfl
  have houter : isAbsoluteChars (join name rest).toList = false :=
    (isAbsoluteChars_join hname hrest).trans hrelative
  rw [join_eq_append (join_ne_empty hpath hrelative) hrest, join_eq_append hpath hrelative,
    lacksSlash_append hname hslash, join_eq_append hpath houter, hinner]
  simp [String.append_assoc]

end Path

namespace FileTree

variable {t : FileTree} {path name : String} {names : List String} {left middle : Nat}
  {last next : List String}

theorem parts_append_slash (path rest : String) :
    parts (path ++ "/" ++ rest) = parts path ++ parts rest := by
  simp [parts, Path.splitAt_append_cons]

theorem parts_of_notMem (h : '/' ∉ name.toList) : parts name = [name] := by
  simp [parts, Path.splitAt_of_notMem h]

/-- A name behind a path is the last part; an empty part at the end of the path is lost. -/
theorem parts_join (hpath : path ≠ "") (hname : '/' ∉ name.toList) :
    parts (Path.join path name) = parts path ++ [name] ∨
      ∃ front, parts path = front ++ [""] ∧ parts (Path.join path name) = front ++ [name] := by
  rw [Path.join_eq_append hpath (Path.isAbsoluteChars_of_notMem hname)]
  cases hslash : Path.lacksSlash path with
  | true =>
    left
    rw [if_pos rfl, parts_append_slash, parts_of_notMem hname]
  | false =>
    right
    obtain ⟨front, rfl⟩ := Path.exists_eq_append_slash hslash
    refine ⟨parts front, ?_, ?_⟩
    · rw [← String.append_empty (s := front ++ "/"), parts_append_slash]
      rfl
    · rw [if_neg Bool.false_ne_true, String.append_empty, parts_append_slash, parts_of_notMem hname]

theorem startOf_append (hpath : path ≠ "") (rest : String) :
    startOf (path ++ rest) = startOf path := by
  rw [startOf, startOf, Path.isAbsoluteChars_append hpath]

theorem refusal?_eq_none_iff :
    refusal? path = none ↔ path ≠ "" ∧ path.utf8ByteSize ≤ pathLimit := by
  rw [refusal?]
  split_ifs with hempty hsize <;> simp_all

/-! ### Where a path leads -/

/-- The path `path` leads to the place `last`, and `left` links may still be followed. -/
def Reaches (t : FileTree) (path : String) (left : Nat) (last : List String) : Prop :=
  refusal? path = none ∧ t.Leads linkLimit (startOf path) (parts path) left last

theorem locate_eq_ok_iff : t.locate path = .ok last ↔ ∃ left, t.Reaches path left last := by
  rw [locate]
  cases hrefusal : refusal? path with
  | some e => simp [Reaches, hrefusal]
  | none => simp [Reaches, hrefusal, follow_eq_ok_iff]

theorem find?_eq_some_iff {kind : Kind} :
    t.find? path = some kind ↔
      ∃ left last, t.Reaches path left last ∧ t.kind? last = some kind := by
  rw [find?]
  constructor
  · intro h
    cases hlocate : t.locate path with
    | error e => rw [hlocate] at h; cases h
    | ok last =>
      rw [hlocate] at h
      obtain ⟨left, hreaches⟩ := locate_eq_ok_iff.1 hlocate
      exact ⟨left, last, hreaches, h⟩
  · rintro ⟨left, last, hreaches, hkind⟩
    rw [locate_eq_ok_iff.2 ⟨left, hreaches⟩]
    exact hkind

theorem isDirectory_iff :
    t.isDirectory path ↔
      ∃ left last, t.Reaches path left last ∧ t.kind? last = some .directory := by
  rw [isDirectory, decide_eq_true_iff, find?_eq_some_iff]

theorem isRegular_iff : t.isRegular path ↔ ∃ left last executable,
    t.Reaches path left last ∧ t.kind? last = some (.file executable) := by
  rw [isRegular]
  constructor
  · intro h
    split at h
    · next executable hfind =>
      obtain ⟨left, last, hreaches, hkind⟩ := find?_eq_some_iff.1 hfind
      exact ⟨left, last, executable, hreaches, hkind⟩
    · cases h
  · rintro ⟨left, last, executable, hreaches, hkind⟩
    rw [find?_eq_some_iff.2 ⟨left, last, hreaches, hkind⟩]

theorem Reaches.standing (h : t.Reaches path left last) : t.Standing last := by
  refine h.2.standing ?_
  rw [startOf]
  split_ifs
  · exact standing_nil
  · exact standing_workingPlace

/-- A name behind a path leads where it leads in the directory that the path leads to. -/
theorem reaches_join_iff (hpath : path ≠ "") (hname : '/' ∉ name.toList) :
    t.Reaches (Path.join path name) left last ↔
      (Path.join path name).utf8ByteSize ≤ pathLimit ∧
        ∃ middle next, t.Reaches path middle next ∧ t.Leads middle next [name] left last := by
  have hjoin := Path.join_eq_append hpath (Path.isAbsoluteChars_of_notMem hname)
  have hstart : startOf (Path.join path name) = startOf path := by
    rw [hjoin, String.append_assoc, startOf_append hpath]
  have hsize : path.utf8ByteSize ≤ (Path.join path name).utf8ByteSize := by
    rw [hjoin, String.utf8ByteSize_append, String.utf8ByteSize_append, Nat.add_assoc]
    exact Nat.le_add_right _ _
  have hleads : t.Leads linkLimit (startOf path) (parts (Path.join path name)) left last ↔
      ∃ middle next, t.Leads linkLimit (startOf path) (parts path) middle next ∧
        t.Leads middle next [name] left last := by
    rcases parts_join hpath hname with hparts | ⟨front, hfront, hparts⟩
    · rw [hparts, Leads.append_iff]
    · -- the empty part at the end only asks for a directory, as the name does
      rw [hparts, hfront, Leads.append_iff]
      refine exists_congr fun middle ↦ exists_congr fun next ↦ and_congr_left fun hlast ↦ ?_
      rw [Leads.append_iff]
      constructor
      · exact fun h ↦ ⟨middle, next, h, Leads.empty_iff.2 ⟨hlast.directory, rfl, rfl⟩⟩
      · rintro ⟨_, _, h, hempty⟩
        obtain ⟨-, rfl, rfl⟩ := Leads.empty_iff.1 hempty
        exact h
  rw [Reaches, hstart, hleads, refusal?_eq_none_iff]
  constructor
  · rintro ⟨⟨-, hlimit⟩, middle, next, h, hlast⟩
    exact ⟨hlimit, middle, next, ⟨refusal?_eq_none_iff.2 ⟨hpath, hsize.trans hlimit⟩, h⟩, hlast⟩
  · rintro ⟨hlimit, middle, next, h, hlast⟩
    exact ⟨⟨Path.join_ne_empty hpath (Path.isAbsoluteChars_of_notMem hname), hlimit⟩,
      middle, next, h.2, hlast⟩

/-- The path that leads downwards from a path by names. -/
def descend (path : String) (names : List String) : String := names.foldl Path.join path

theorem descend_append (path : String) (names more : List String) :
    descend path (names ++ more) = descend (descend path names) more :=
  List.foldl_append ..

theorem descend_ne_empty (hpath : path ≠ "") (hnames : ∀ name ∈ names, '/' ∉ name.toList) :
    descend path names ≠ "" := by
  induction names generalizing path with
  | nil => exact hpath
  | cons name names ih =>
    obtain ⟨hname, hnames⟩ := List.forall_mem_cons.1 hnames
    exact ih (Path.join_ne_empty hpath (Path.isAbsoluteChars_of_notMem hname)) hnames

/-- Names lead downwards from the place that the path above leads to. -/
theorem Reaches.exists_leads (h : t.Reaches (descend path names) left last) (hpath : path ≠ "")
    (hnames : ∀ name ∈ names, '/' ∉ name.toList) :
    ∃ middle next, t.Reaches path middle next ∧ t.Leads middle next names left last := by
  induction names generalizing path with
  | nil => exact ⟨left, last, h, .done _ _⟩
  | cons name names ih =>
    obtain ⟨hname, hnames⟩ := List.forall_mem_cons.1 hnames
    obtain ⟨middle, next, hjoin, hrest⟩ :=
      ih h (Path.join_ne_empty hpath (Path.isAbsoluteChars_of_notMem hname)) hnames
    obtain ⟨-, start, home, hstart, hfirst⟩ := (reaches_join_iff hpath hname).1 hjoin
    exact ⟨start, home, hstart, hfirst.append hrest⟩

/-! ### Slashes at the end -/

theorem withoutEndSlashes_ne_empty (hpath : path ≠ "") : withoutEndSlashes path ≠ "" := by
  rw [withoutEndSlashes, Path.trimEndSlashes]
  split_ifs with hall
  · simpa using hpath
  · intro hempty
    have hdrop : path.toList.reverse.dropWhile (· = '/') = [] := by
      simpa [← String.toList_inj, Path.dropEndSlashes] using hempty
    exact hall (List.all_reverse.symm.trans
      (List.all_eq_true.2 (List.dropWhile_eq_nil_iff.1 hdrop)))

/-- A slash behind the path of a directory changes nothing. -/
theorem reaches_append_slash_iff (hpath : path ≠ "") :
    t.Reaches (path ++ "/") left last ↔
      (path ++ "/").utf8ByteSize ≤ pathLimit ∧ t.Reaches path left last ∧
        t.kind? last = some .directory := by
  have hparts : parts (path ++ "/") = parts path ++ [""] := by
    rw [← String.append_empty (s := path ++ "/"), parts_append_slash]
    rfl
  have hsize : path.utf8ByteSize ≤ (path ++ "/").utf8ByteSize := by
    rw [String.utf8ByteSize_append]
    exact Nat.le_add_right _ _
  rw [Reaches, startOf_append hpath, hparts, Leads.append_iff, refusal?_eq_none_iff]
  constructor
  · rintro ⟨⟨-, hlimit⟩, middle, next, h, hempty⟩
    obtain ⟨hdir, rfl, rfl⟩ := Leads.empty_iff.1 hempty
    exact ⟨hlimit, ⟨refusal?_eq_none_iff.2 ⟨hpath, hsize.trans hlimit⟩, h⟩, hdir⟩
  · rintro ⟨hlimit, h, hdir⟩
    exact ⟨⟨by simp [hpath], hlimit⟩, left, last, h.2, Leads.empty_iff.2 ⟨hdir, rfl, rfl⟩⟩

/-- A path without the slashes at its end leads where the path leads. -/
theorem Reaches.dropEndSlashes {cs : List Char} (h : t.Reaches (String.ofList cs) left last)
    (hcs : ¬cs.all (· = '/')) :
    t.Reaches (String.ofList (Path.dropEndSlashes cs)) left last := by
  induction cs using List.reverseRecOn with
  | nil => exact absurd rfl hcs
  | append_singleton cs c ih =>
    by_cases hc : c = '/'
    · subst hc
      have hcs : ¬cs.all (· = '/') := by simpa using hcs
      have hne : String.ofList cs ≠ "" := fun hempty ↦ hcs (by simp_all)
      have hslash : String.ofList (cs ++ ['/']) = String.ofList cs ++ "/" := String.ofList_append
      have hdrop : Path.dropEndSlashes (cs ++ ['/']) = Path.dropEndSlashes cs := by
        simp [Path.dropEndSlashes]
      rw [hslash, reaches_append_slash_iff hne] at h
      rw [hdrop]
      exact ih h.2.1 hcs
    · have hdrop : Path.dropEndSlashes (cs ++ [c]) = cs ++ [c] := by simp [Path.dropEndSlashes, hc]
      rw [hdrop]
      exact h

/-- The path of a directory with the slashes at its end trimmed still leads there, if it is not too
long to be looked up. -/
theorem locate_withoutEndSlashes (hdir : t.isDirectory path) :
    t.locate (withoutEndSlashes (path ++ "/")) = t.locate path ∨
      pathLimit < (withoutEndSlashes (path ++ "/")).utf8ByteSize := by
  obtain ⟨left, last, hreaches, hkind⟩ := isDirectory_iff.1 hdir
  have hpath : path ≠ "" := (refusal?_eq_none_iff.1 hreaches.1).1
  rw [locate_eq_ok_iff.2 ⟨left, hreaches⟩]
  by_cases hall : path.toList.all (· = '/')
  · have hroot : withoutEndSlashes (path ++ "/") = path ++ "/" := by
      have hall' : (path ++ "/").toList.all (· = '/') := by simpa using hall
      rw [withoutEndSlashes, Path.trimEndSlashes, if_pos hall', String.ofList_toList]
    rw [hroot]
    rcases Nat.lt_or_ge pathLimit (path ++ "/").utf8ByteSize with hlimit | hlimit
    · exact .inr hlimit
    · exact .inl (locate_eq_ok_iff.2
        ⟨left, (reaches_append_slash_iff hpath).2 ⟨hlimit, hreaches, hkind⟩⟩)
  · have hroot : withoutEndSlashes (path ++ "/") =
        String.ofList (Path.dropEndSlashes path.toList) := by
      have hall' : ¬(path ++ "/").toList.all (· = '/') := by simpa using hall
      rw [withoutEndSlashes, Path.trimEndSlashes, if_neg hall']
      simp [Path.dropEndSlashes]
    rw [hroot]
    rw [← String.ofList_toList (s := path)] at hreaches
    exact .inl (locate_eq_ok_iff.2 ⟨left, hreaches.dropEndSlashes hall⟩)

end FileTree

end Launcher
