import Launcher.Proofs.FileTree.Sources

/-!
# The name at the end of a path

The absolute path of a file goes through the directories that its spelling goes through, with those
left out that the spelling leaves again. The name at the end is not touched by that, so all
spellings of a file that end in a name end in the same one (`Path.baseName_absolute`). On the other
hand, none of them is rewritten when a pattern is looked up: a pattern that names a file literally
matches what it says (`FileTree.wildcard_of_isRegular`).
-/

namespace Launcher

namespace Path

variable {cs base part : List Char} {path : String}

/-! ### Last parts -/

/-- A path is a name or ends in one behind a slash. -/
theorem lastPart_cases (cs : List Char) :
    lastPart cs = cs ∨ ∃ front, cs = front ++ '/' :: lastPart cs := by
  by_cases hslash : '/' ∈ cs
  · right
    obtain ⟨rear, front, hreverse, hrear⟩ :=
      List.eq_append_cons_of_mem (List.mem_reverse.2 hslash)
    have hcs : cs = front.reverse ++ '/' :: rear.reverse := by
      simpa using congrArg List.reverse hreverse
    have hlast : lastPart cs = rear.reverse := by
      rw [hcs, lastPart_append_cons fun hmem ↦ hrear (List.mem_reverse.1 hmem)]
    exact ⟨front.reverse, hlast.symm ▸ hcs⟩
  · exact .inl (lastPart_of_notMem hslash)

/-- The last part of a path stands behind all its slashes. -/
theorem lastPart_append_slash (cs ds : List Char) : lastPart (cs ++ '/' :: ds) = lastPart ds := by
  rcases lastPart_cases ds with hds | ⟨front, hds⟩
  · rw [hds, lastPart_append_cons (hds ▸ not_mem_lastPart ds)]
  · have hcs : cs ++ '/' :: ds = (cs ++ '/' :: front) ++ '/' :: lastPart ds := by
      rw [List.append_assoc, List.cons_append, ← hds]
    rw [hcs, lastPart_append_cons (not_mem_lastPart ds)]

theorem lastPart_joinChars (h : isAbsoluteChars cs = false) :
    lastPart (joinChars base cs) = lastPart cs := by
  rw [joinChars, if_neg (h ▸ Bool.false_ne_true)]
  split_ifs with hbase
  · rcases Bool.or_eq_true_iff.1 hbase with hempty | hslash
    · rw [List.isEmpty_iff.1 hempty, List.nil_append]
    · obtain ⟨front, rfl⟩ := List.getLast?_eq_some_iff.1 (of_decide_eq_true hslash)
      rw [List.append_assoc, List.singleton_append, lastPart_append_slash]
  · exact lastPart_append_slash _ _

theorem exists_splitAt_eq (cs : List Char) : ∃ front, splitAt '/' cs = front ++ [lastPart cs] := by
  rcases lastPart_cases cs with hcs | ⟨front, hcs⟩
  · exact ⟨[], by rw [hcs, splitAt_of_notMem (hcs ▸ not_mem_lastPart cs), List.nil_append]⟩
  · refine ⟨splitAt '/' front, ?_⟩
    conv_lhs => rw [hcs]
    rw [splitAt_append_cons, splitAt_of_notMem (not_mem_lastPart cs)]

theorem joinWith_concat (sep : Char) (parts : List (List Char)) (part : List Char) :
    joinWith sep (parts ++ [part]) = part ∨
      ∃ front, joinWith sep (parts ++ [part]) = front ++ sep :: part := by
  match parts with
  | [] => exact .inl rfl
  | first :: parts =>
    right
    induction parts generalizing first with
    | nil => exact ⟨first, rfl⟩
    | cons second parts ih =>
      obtain ⟨front, hfront⟩ := ih second
      exact ⟨first ++ sep :: front, by simp [joinWith, ← hfront]⟩

/-! ### Normal forms -/

/-- The characters of a part that is a name. -/
def IsNameChars (part : List Char) : Prop := part ≠ [] ∧ part ≠ here ∧ part ≠ above

/-- A name at the end stays at the end of the normal form. -/
theorem normalParts_concat (rooted : Bool) (parts : List (List Char)) (h : IsNameChars part) :
    normalParts rooted (parts ++ [part]) = normalParts rooted parts ++ [part] := by
  obtain ⟨hempty, hhere, habove⟩ := h
  rw [normalParts, List.foldl_append, List.foldl_cons, List.foldl_nil, normalStep.eq_def,
    if_neg (not_or.2 ⟨hempty, hhere⟩), if_pos habove, List.reverse_cons, normalParts]

theorem rootChars_cases (cs : List Char) :
    rootChars cs = [] ∨ ∃ front, rootChars cs = front ++ ['/'] := by
  rw [rootChars]
  split
  · exact .inl rfl
  · exact .inr ⟨['/'], rfl⟩
  · exact .inr ⟨[], rfl⟩

theorem lastPart_normalChars (h : IsNameChars (lastPart cs)) :
    lastPart (normalChars cs) = lastPart cs := by
  obtain ⟨front, hfront⟩ := exists_splitAt_eq cs
  have hslash := not_mem_lastPart cs
  obtain ⟨path, hpath, hlast⟩ : ∃ path, rootChars cs ++
      joinWith '/' (normalParts (isAbsoluteChars cs) (splitAt '/' cs)) = path ∧
      lastPart path = lastPart cs := by
    refine ⟨_, rfl, ?_⟩
    rw [hfront, normalParts_concat _ _ h]
    rcases joinWith_concat '/' (normalParts (isAbsoluteChars cs) front) (lastPart cs) with
      hjoin | ⟨rest, hjoin⟩
    · rw [hjoin]
      rcases rootChars_cases cs with hroot | ⟨root, hroot⟩
      · rw [hroot, List.nil_append, lastPart_of_notMem hslash]
      · rw [hroot, List.append_assoc, List.singleton_append, lastPart_append_cons hslash]
    · rw [hjoin, ← List.append_assoc, lastPart_append_cons hslash]
  have hne : path.isEmpty = false := by
    refine List.isEmpty_eq_false_iff.2 fun hnil ↦ h.1 ?_
    rw [← hlast, hnil]
    rfl
  rw [normalChars, hpath, hne]
  exact hlast

/-- **A file has its name in every spelling** that ends in a name. -/
theorem baseName_absolute (h : FileTree.IsName (baseName path)) (directory : String) :
    baseName (absolute directory path) = baseName path := by
  obtain ⟨hempty, hhere, habove⟩ := h
  have hlast : lastPart (if isAbsoluteChars path.toList then path else join directory path).toList =
      lastPart path.toList := by
    split_ifs with habsolute
    · rfl
    · rw [join, String.toList_ofList, lastPart_joinChars (Bool.eq_false_iff.2 habsolute)]
  have hne : ∀ {name : List Char}, baseName path ≠ String.ofList name →
      lastPart path.toList ≠ name := fun hne heq ↦ hne (congrArg String.ofList heq)
  have hname : IsNameChars (lastPart path.toList) := ⟨hne hempty, hne hhere, hne habove⟩
  rw [baseName, absolute, normal, String.toList_ofList, lastPart_normalChars (hlast ▸ hname), hlast,
    baseName]

end Path

/-! ### Literal patterns -/

namespace FileTree

variable {t : FileTree} {path : String}

theorem parts_eq_concat (path : String) : ∃ front, parts path = front ++ [Path.baseName path] := by
  obtain ⟨front, hfront⟩ := Path.exists_splitAt_eq path.toList
  exact ⟨front.map String.ofList, by rw [parts, hfront, List.map_append]; rfl⟩

/-- What a name behind a place leads to is found in the directory there. -/
theorem Leads.entry {links left : Nat} {place last : List String} {name : String}
    (h : t.Leads links place [name] left last) (hname : IsName name) :
    t.kind? place = some .directory ∧ name.utf8ByteSize ≤ nameLimit ∧
      (t.kind? (place ++ [name])).isSome := by
  cases h with
  | stay _ hstay _ => exact absurd hstay (not_or.2 ⟨hname.1, hname.2.1⟩)
  | up => exact absurd rfl hname.2.2
  | down hdir _ hsize hkind | through hdir _ hsize hkind =>
    exact ⟨hdir, hsize, Option.isSome_of_mem hkind⟩

/-- The path of a file names something. -/
theorem names?_of_isRegular (h : t.isRegular path) (hname : IsName (Path.baseName path)) :
    t.names? path := by
  obtain ⟨left, last, -, ⟨hrefusal, hleads⟩, -⟩ := isRegular_iff.1 h
  obtain ⟨front, hparts⟩ := parts_eq_concat path
  rw [hparts] at hleads
  obtain ⟨middle, next, hfront, hlast⟩ := hleads.split
  obtain ⟨hdir, hsize, hkind⟩ := hlast.entry hname
  obtain ⟨hempty, hhere, habove⟩ := hname
  have hentry : t.locateEntry path = .ok (next ++ [Path.baseName path]) := by
    rw [locateEntry, hrefusal, hparts, List.dropLast_concat]
    simp only [hfront.follow, hdir, hempty, hhere, habove, or_self, if_false, ne_eq,
      not_true_eq_false, Nat.not_lt.2 hsize]
  rw [names?, hentry]
  exact hkind

/-- **A pattern that names a file literally matches what it says.** -/
theorem wildcard_of_isRegular (h : t.isRegular path) (hname : IsName (Path.baseName path))
    (hliteral : Glob.isPattern path.toList = false) : t.wildcard path = [path] := by
  have hsplit : splitPattern [] (Path.splitAt '/' path.toList) = (path.toList, []) := by
    rw [← List.append_nil (Path.splitAt '/' path.toList),
      splitPattern_append fun part hpart ↦ isPattern_of_mem_splitAt hliteral hpart,
      List.nil_append, splitPattern, Path.joinWith_splitAt]
  have hempty : (Path.baseName path).isEmpty = false := by
    rw [Bool.eq_false_iff, ne_eq, String.isEmpty_iff]
    exact hname.1
  have hsearch : t.search path = [path] := by
    rw [search, hsplit]
    simp only [hempty, names?_of_isRegular h hname, if_true, Bool.false_eq_true, if_false]
  rw [wildcard, hsearch, List.mergeSort_singleton]

end FileTree

end Launcher
