import Launcher.FileTree
import Launcher.Glob

/-!
# Paths that a pattern matches

A pattern for paths is a literal directory followed by patterns for names. The names of each
directory reached so far are tried against the next one. A name that starts with a point only fits
a pattern that starts with one, too. Two stars that are a whole name stand for any number of
directories, links included, and at the end of a pattern for anything below them, too. None at all
is such a number, so they always match the place itself, even if nothing is there.
-/

namespace Launcher.FileTree

/-- `name` seen from the directory that a path leads to. -/
def enter (path name : String) : String :=
  if path.isEmpty then name else Path.join path name

/-- Whether what is found under a name in a directory is a directory, all links followed. Only for
a link it is looked up. -/
def leadsToDirectory (t : FileTree) (path : String) : String × Kind → Bool
  | (_, .directory) => true
  | (name, .link _) => t.isDirectory (enter path name)
  | (_, .file _) => false

/-- The names in a directory, or only those of directories. -/
def listKind (t : FileTree) (path : String) (directories : Bool) : List String :=
  ((t.list path).filter fun entry ↦ !directories || t.leadsToDirectory path entry).map Prod.fst

/-- Whether a name is the pattern for any number of directories. -/
def isDeep (name : String) : Bool := name = "**"

/-- The paths below a directory, seen from it, none of them through a hidden name. The number bounds
their depth. -/
def below (t : FileTree) (directories : Bool) : Nat → String → List String
  | 0, _ => []
  | depth + 1, path =>
    ((t.listKind path directories).filter fun name ↦ !Glob.isHidden name.toList).flatMap fun name ↦
      name :: (t.below directories depth (enter path name)).map (enter name)

/-- A bound on the depth of paths that a look-up can follow: between two links a path can go no
deeper than the tree. -/
def depthLimit (t : FileTree) : Nat := (linkLimit + 1) * (t.entries.length + 1) + 1

/-- The names that a pattern for names matches in a directory. The flag asks for directories
only. -/
def matching (t : FileTree) (directories : Bool) (path pattern : String) : List String :=
  if isDeep pattern then "" :: t.below directories t.depthLimit path
  else if Glob.isPattern pattern.toList then
    (t.listKind path directories).filter fun name ↦
      (Glob.isHidden pattern.toList || !Glob.isHidden name.toList) &&
        Glob.fits pattern.toList name.toList
  else if pattern.isEmpty then if t.isDirectory path then [""] else []
  else if t.names? (enter path pattern) then [pattern] else []

/-- The paths reached from `paths` through the patterns for names. -/
def expand (t : FileTree) : List String → List String → List String
  | paths, [] => paths
  | paths, pattern :: rest =>
    t.expand (paths.flatMap fun path ↦
      (t.matching (!rest.isEmpty) path pattern).map (Path.join path)) rest

/-- The parts of a pattern for paths: the characters of its literal directory, and the patterns for
names. The parts that are read are `before`; an empty one only counts at the very end. -/
def splitPattern (before : List (List Char)) : List (List Char) → List Char × List String
  | [] => (Path.joinWith '/' before, [])
  | part :: parts =>
    if Glob.isPattern part then
      let directory := Path.joinWith '/' (before ++ [[]])
      let names := part :: parts.dropLast.filter (fun p ↦ !p.isEmpty) ++ parts.getLast?.toList
      (if before.isEmpty then [] else Path.trimEndSlashes directory, names.map String.ofList)
    else splitPattern (before ++ [part]) parts

/-- The paths that a pattern for paths matches, as they are found. -/
def search (t : FileTree) (pattern : String) : List String :=
  match splitPattern [] (Path.splitAt '/' pattern.toList) with
  | (_, []) =>
    if (Path.baseName pattern).isEmpty then
      if t.isDirectory (Path.split pattern).1 then [pattern] else []
    else if t.names? pattern then [pattern] else []
  | (directory, names) =>
    let found := t.expand [String.ofList directory] names
    if isDeep (String.ofList (pattern.toList.take 2)) && found.head? = some "" then found.drop 1
    else found

/-- The paths that a pattern for paths matches, in the order of their characters. -/
def wildcard (t : FileTree) (pattern : String) : List String :=
  (t.search pattern).mergeSort fun a b ↦ a ≤ b

end Launcher.FileTree
