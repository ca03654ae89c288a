/-!
# The search path

The list of directories that hosted programs are looked up in, together with a record of the
entries that the launcher has added. Others may change the list at any time; an entry is known by
its text alone. Closing takes away, for every recorded entry in the order of recording, its first
occurrence.
-/

namespace Launcher

/-- A search path and the record of what was added to it. -/
structure SearchPath where
  /-- The directories, in the order in which they are searched. -/
  entries : List String := []
  /-- The entries added and not yet taken back, in the order of adding. -/
  added : List String := []
  deriving DecidableEq, Repr

/-- The two ends at which a directory can be added. -/
inductive SearchPath.End
  | front
  | back
  deriving DecidableEq, Repr

namespace SearchPath

/-- Put `path` in front of the list. -/
def prepend (s : SearchPath) (path : String) : SearchPath :=
  ⟨path :: s.entries, s.added ++ [path]⟩

/-- Put `path` behind the list. -/
def append (s : SearchPath) (path : String) : SearchPath :=
  ⟨s.entries ++ [path], s.added ++ [path]⟩

/-- Put `path` at one end of the list. -/
def add (s : SearchPath) : End → String → SearchPath
  | .front => s.prepend
  | .back => s.append

/-- Take back what was added. -/
def close (s : SearchPath) : SearchPath :=
  ⟨s.added.foldl List.erase s.entries, []⟩

/-- Another party puts `path` behind the list. -/
def foreignAppend (s : SearchPath) (path : String) : SearchPath :=
  { s with entries := s.entries ++ [path] }

/-- Another party takes away the first occurrence of `path`, if there is one. -/
def foreignRemove? (s : SearchPath) (path : String) : Option SearchPath :=
  if path ∈ s.entries then some { s with entries := s.entries.erase path } else none

@[simp] theorem added_close (s : SearchPath) : s.close.added = [] := rfl

@[simp] theorem close_close (s : SearchPath) : s.close.close = s.close := rfl

@[simp] theorem added_add (s : SearchPath) (e : End) (path : String) :
    (s.add e path).added = s.added ++ [path] := by cases e <;> rfl

end SearchPath

end Launcher
