import Launcher.Proofs.Argv.Shape
import Launcher.Proofs.SearchPath.Additions
import Mathlib.Data.List.Basic

/-!
# What a command line adds to the search path

A command line is tiled by the items that are read and the tokens that are left. Whether an item adds
directories, which ones and at which end, can be told from its tokens alone (`additionsOf`), so a token
that is the value of another option or is not read has no part in it. What is added in front stands on
the search path in reverse, what is added behind in order, and all of it is on record in the order in
which it is given (`parse_adds_directories`).
-/

namespace Launcher.SearchPath

/-- The directories that are added at one end, in order. -/
def addedAt (e : End) (additions : List Addition) : List String :=
  (additions.filter (·.1 = e)).map Prod.snd

/-- **Where additions stand on the list**: those in front reversed, those behind in order. -/
theorem entries_addAll (path : SearchPath) (additions : List Addition) :
    (path.addAll additions).entries =
      (addedAt .front additions).reverse ++ path.entries ++ addedAt .back additions := by
  induction additions generalizing path with
  | nil => exact (List.append_nil _).symm
  | cons addition additions ih =>
    obtain ⟨e, p⟩ := addition
    refine (ih (path.add e p)).trans ?_
    cases e with
    | front =>
      show _ ++ (p :: path.entries) ++ _ = (p :: addedAt .front additions).reverse ++ _ ++ _
      rw [List.reverse_cons, List.append_assoc, List.append_assoc, List.append_assoc]
      rfl
    | back =>
      show _ ++ (path.entries ++ [p]) ++ _ = _ ++ _ ++ p :: addedAt .back additions
      simp only [List.append_assoc]
      rfl

/-! ### Items told by their tokens -/

/-- The directories that a value stands for: what its absolute path matches, read as a pattern, or
this path alone if that is nothing. -/
def directoriesOf (s : Argv.Surroundings) (value : String) : List String :=
  let path := Path.absolute s.place.directory (Path.expandHome s.place value)
  if s.wildcard path = [] then [path] else s.wildcard path

/-- What the tokens of one item add to the search path: `-pa` with a value the directories of the value
in front, `-pz` with a value those at the end, and anything else nothing. -/
def additionsOf (s : Argv.Surroundings) : List String → List Addition
  | [option, value] =>
    if option = "-pa" then (directoriesOf s value).map (.front, ·)
    else if option = "-pz" then (directoriesOf s value).map (.back, ·)
    else []
  | _ => []

variable {s : Argv.Surroundings} {mode : Argv.Mode} {token value : String}

theorem directories_eq_directoriesOf (s : Argv.Surroundings) (value : String) :
    s.directories value = directoriesOf s value := by
  rw [Argv.Surroundings.directories, directoriesOf]
  cases s.wildcard (Path.absolute s.place.directory (Path.expandHome s.place value)) <;> rfl

/-- No mode has a flag with the name of one of the two options. -/
theorem additionsOf_of_flag {flag : Argv.ModeFlag} (h : mode.flag? token = some flag) :
    additionsOf s [token, value] = [] := by
  have hne : ∀ {option : String} (shared : Argv.SharedOption),
      Argv.SharedOption.ofToken? option = some shared → token ≠ option := by
    rintro option shared hshared rfl
    cases (Argv.flag?_eq_none_of_shared hshared mode).symm.trans h
  have hfront : token ≠ "-pa" := hne (.valued (.path .front)) rfl
  have hback : token ≠ "-pz" := hne (.valued (.path .back)) rfl
  rw [additionsOf, if_neg hfront, if_neg hback]

theorem additionsOf_of_option {option : Argv.SharedValued}
    (h : Argv.SharedOption.ofToken? token = some (.valued option)) :
    additionsOf s [token, value] = (Argv.Item.valuedOption token option value).directories s := by
  rw [additionsOf, ← directories_eq_directoriesOf]
  unfold Argv.SharedOption.ofToken? at h
  split at h <;> cases h <;> rfl

/-- **The tokens of an item tell what it adds.** -/
theorem directories_eq_additionsOf {item : Argv.Item} (h : item.In mode) :
    item.directories s = additionsOf s item.tokens := by
  cases item with
  | valuedFlag token flag value => exact (additionsOf_of_flag h.valuedFlag).symm
  | valuedOption token option value => exact (additionsOf_of_option h.valuedOption).symm
  | _ => rfl

/-! ### The effect of a command line -/

/-- **What a command line adds to the search path.** However the reading ends, it is the additions of
the items in order, told by their tokens: those in front stand reversed before the entries that were
there, those at the end in order behind them, and all of them are on record as they were given. The
tokens of the items and those that are not read make up the command line. -/
theorem parse_adds_directories (s : Argv.Surroundings) (mode : Argv.Mode) (argv : List String)
    (plan : Plan) (entries : List String) :
    let r := Argv.readItems s mode argv plan { entries }
    let units := r.items.map Argv.Item.tokens
    let additions := units.flatMap (additionsOf s)
    ∃ ending p, Argv.parseNamed s mode.name argv plan { entries } = .ok (ending, p) ∧
      units.flatten ++ r.rest = argv ∧
      p.path.entries = (addedAt .front additions).reverse ++ entries ++ addedAt .back additions ∧
      p.path.added = additions.map Prod.snd := by
  intro r units additions
  have hadditions : r.items.flatMap (Argv.Item.directories s) = additions := by
    rw [show additions = _ from List.flatMap_map ..]
    refine List.flatMap_congr fun item hitem ↦ ?_
    obtain ⟨mode, hin⟩ := Argv.exists_in_of_mem_readItems hitem
    exact directories_eq_additionsOf hin
  have hpath : (Argv.read s mode argv { plan, path := { entries } }).2.path =
      addAll { entries } additions := by
    rw [(Argv.read_agrees s mode argv { plan, path := { entries } }).2.2, path_readItems, hadditions]
  refine ⟨_, _, Argv.parseNamed_name s mode argv plan { entries }, ?_, ?_, ?_⟩
  · rw [← List.flatMap_def]
    exact Argv.tokens_readItems s mode argv plan { entries }
  · rw [hpath, entries_addAll]
  · rw [hpath, added_addAll]
    rfl

/-- The value of another option adds nothing, nor does a token behind `--`. -/
example :
    let argv := ["-pa", "a", "-o", "-pa", "-pz", "b", "--", "-pa", "c"]
    ((Argv.readItems desert .compiler argv {} {}).items.map Argv.Item.tokens).flatMap
      (additionsOf desert) = [(.front, "/a"), (.back, "/b")] := by
  decide +kernel

end Launcher.SearchPath
