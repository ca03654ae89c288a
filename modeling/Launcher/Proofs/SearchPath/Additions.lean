import Launcher.Proofs.Argv.Batch
import Launcher.SearchPath.Operation

/-!
# Additions to the search path

Whatever the launcher itself does to the search path before it closes it is a sequence of
**additions**: a directory is put at one end. A command line that is read adds the directories of its
items, in order (`path_readItems`), and so operations of the launcher's own come to the additions that
they stand for (`performAll_of_isOwn`). An operation that fails is the last of its sequence, but its
additions count.
-/

namespace Launcher.SearchPath

/-- A directory and the end at which it is added. -/
abbrev Addition := End × String

/-- The search path after additions. -/
def addAll (path : SearchPath) (additions : List Addition) : SearchPath :=
  additions.foldl (fun path addition ↦ path.add addition.1 addition.2) path

theorem addAll_append (path : SearchPath) (first second : List Addition) :
    path.addAll (first ++ second) = (path.addAll first).addAll second :=
  List.foldl_append

/-- Additions are recorded in order. -/
theorem added_addAll (path : SearchPath) (additions : List Addition) :
    (path.addAll additions).added = path.added ++ additions.map Prod.snd := by
  induction additions generalizing path with
  | nil => exact (List.append_nil _).symm
  | cons addition additions ih =>
    refine (ih (path.add addition.1 addition.2)).trans ?_
    rw [added_add, List.append_assoc]
    rfl

/-- Reading a command line item by item adds the directories of the items. -/
theorem path_readItems (s : Argv.Surroundings) (mode : Argv.Mode) (tokens : List String) (plan : Plan)
    (path : SearchPath) :
    (Argv.readItems s mode tokens plan path).path =
      path.addAll
        ((Argv.readItems s mode tokens plan path).items.flatMap (Argv.Item.directories s)) := by
  fun_induction Argv.readItems s mode tokens plan path with
  | case1 => rfl
  | case2 => rfl
  | case3 mode plan path head rest item h =>
    rw [List.flatMap_singleton]
    rfl
  | case4 mode plan path head rest item next h ih =>
    rw [Argv.Reading.items_cons, List.flatMap_cons, addAll_append]
    exact ih

/-! ### Operations -/

/-- Whether an operation is the launcher's own and adds directories. -/
def Operation.isOwn : Operation → Bool
  | .prepend _ => true
  | .append _ => true
  | .read _ => true
  | _ => false

/-- The additions that an operation on `path` stands for. -/
def additions (s : Argv.Surroundings) (path : SearchPath) : Operation → List Addition
  | .prepend p => [(.front, p)]
  | .append p => [(.back, p)]
  | .read tokens =>
    (Argv.readItems s .top tokens {} path).items.flatMap (Argv.Item.directories s)
  | _ => []

/-- The additions of operations one after another, up to the first that fails and with those of
it. -/
def additionsAll (s : Argv.Surroundings) (path : SearchPath) : List Operation → List Addition
  | [] => []
  | operation :: operations =>
    additions s path operation ++
      match perform s path operation with
      | (.ok _, path) => additionsAll s path operations
      | (.error _, _) => []

theorem perform_of_isOwn (s : Argv.Surroundings) (path : SearchPath) {operation : Operation}
    (h : operation.isOwn = true) :
    (perform s path operation).2 = path.addAll (additions s path operation) := by
  cases operation with
  | prepend p => rw [perform]; rfl
  | append p => rw [perform]; rfl
  | read tokens =>
    have hpath := (Argv.read_agrees s .top tokens { plan := {}, path }).2.2
    rw [path_readItems] at hpath
    rw [perform]
    exact hpath
  | _ => cases h

/-- **Operations of the launcher's own come to their additions**, also if one of them fails. -/
theorem performAll_of_isOwn (s : Argv.Surroundings) (path : SearchPath) {operations : List Operation}
    (h : ∀ operation ∈ operations, operation.isOwn = true) :
    (performAll s path operations).2 = path.addAll (additionsAll s path operations) := by
  induction operations generalizing path with
  | nil => rw [performAll]; rfl
  | cons operation operations ih =>
    obtain ⟨hfirst, hrest⟩ := List.forall_mem_cons.1 h
    rw [performAll, additionsAll, addAll_append, ← perform_of_isOwn s path hfirst]
    rcases perform s path operation with ⟨failure | handback, next⟩
    · rfl
    · exact ih next hrest

/-- Surroundings without any file. -/
def desert : Argv.Surroundings where
  wildcard _ := []
  isDirectory _ := false
  place := { directory := "/", home := none, userHome := fun _ ↦ none }

end Launcher.SearchPath
