import Launcher.Failure
import Launcher.Path

/-!
# File trees

A tree of directories, regular files and symbolic links. Places in it are lists of names from the
root, which is its own parent. The working directory lies directly below the root and has the empty
name: relative paths start there, and no path leads back into it from outside.

Looking up a path follows links, but gives up after too many of them. Names and paths whose UTF-8
form is too long are refused.
-/

namespace Launcher

/-- What is found at a place. -/
inductive FileTree.Kind
  | file (executable : Bool)
  | directory
  /-- A link that stands for `target`, seen from the directory of the link. -/
  | link (target : String)
  deriving DecidableEq, Repr

/-- A tree: the places other than the root and the working directory, and what is found there. -/
structure FileTree where
  entries : List (List String × FileTree.Kind) := []
  deriving DecidableEq, Repr

namespace FileTree

/-- The place of the working directory. -/
def workingPlace : List String := [""]

/-- What is found at a place; the root and the working directory are directories. -/
def kind? (t : FileTree) (place : List String) : Option Kind :=
  if place = [] ∨ place = workingPlace then some .directory else t.entries.lookup place

/-- The parts of a path. -/
def parts (path : String) : List String :=
  (Path.splitAt '/' path.toList).map String.ofList

/-- The place from which a path is followed. -/
def startOf (path : String) : List String :=
  if Path.isAbsoluteChars path.toList then [] else workingPlace

/-- How many links a look-up follows. -/
def linkLimit : Nat := 40

/-- How many bytes a name may have. -/
def nameLimit : Nat := 255

/-- How many bytes a path may have. -/
def pathLimit : Nat := 4095

/-- The reason for which a path is refused whatever the tree. -/
def refusal? (path : String) : Option FileError :=
  if path.isEmpty then some .notFound
  else if pathLimit < path.utf8ByteSize then some .nameTooLong
  else none

/-- Follow `parts` from the place `place`. The first number is that of the links which may still be
followed. -/
def follow (t : FileTree) (links : Nat) (place parts : List String) :
    Except FileError (List String) :=
  match parts with
  | [] => .ok place
  | part :: rest =>
    if t.kind? place ≠ some .directory then .error .notDirectory
    else if part = "" ∨ part = "." then t.follow links place rest
    else if part = ".." then t.follow links place.dropLast rest
    else if nameLimit < part.utf8ByteSize then .error .nameTooLong
    else match t.kind? (place ++ [part]) with
      | none => .error .notFound
      | some (.link target) =>
        match links with
        | 0 => .error .tooManyLinks
        | links + 1 =>
          let start := if Path.isAbsoluteChars target.toList then [] else place
          t.follow links start (FileTree.parts target ++ rest)
      | some _ => t.follow links (place ++ [part]) rest
  termination_by (links, parts.length)

/-- The place that a path leads to, all links followed. -/
def locate (t : FileTree) (path : String) : Except FileError (List String) :=
  match refusal? path with
  | some e => .error e
  | none => t.follow linkLimit (startOf path) (parts path)

/-- The place that a path names, links followed except at its end. -/
def locateEntry (t : FileTree) (path : String) : Except FileError (List String) :=
  match refusal? path with
  | some e => .error e
  | none =>
    let last := Path.baseName path
    if last = "" ∨ last = "." ∨ last = ".." then t.locate path
    else match t.follow linkLimit (startOf path) (parts path).dropLast with
      | .error e => .error e
      | .ok place =>
        if t.kind? place ≠ some .directory then .error .notDirectory
        else if nameLimit < last.utf8ByteSize then .error .nameTooLong
        else .ok (place ++ [last])

/-- What a path leads to. -/
def find? (t : FileTree) (path : String) : Option Kind :=
  match t.locate path with
  | .ok place => t.kind? place
  | .error _ => none

/-- Whether a path leads to anything. -/
def exists? (t : FileTree) (path : String) : Bool := (t.find? path).isSome

/-- Whether a path names anything, be it a link that leads nowhere. -/
def names? (t : FileTree) (path : String) : Bool :=
  match t.locateEntry path with
  | .ok place => (t.kind? place).isSome
  | .error _ => false

/-- Whether a path leads to a directory. -/
def isDirectory (t : FileTree) (path : String) : Bool := t.find? path = some .directory

/-- Whether a path leads to a regular file. -/
def isRegular (t : FileTree) (path : String) : Bool :=
  match t.find? path with
  | some (.file _) => true
  | _ => false

/-- Whether a path leads to a regular file that may be executed. -/
def isExecutable (t : FileTree) (path : String) : Bool := t.find? path = some (.file true)

/-- The names in the directory at a place, with what is found there. -/
def entriesAt (t : FileTree) (place : List String) : List (String × Kind) :=
  t.entries.filterMap fun entry ↦ match entry.1.getLast? with
    | some name => if entry.1.dropLast = place then some (name, entry.2) else none
    | none => none

/-- The names in the directory that a path leads to, the working directory for the empty path, with
what is found there. -/
def list (t : FileTree) (path : String) : List (String × Kind) :=
  match t.locate (if path.isEmpty then "." else path) with
  | .ok place => if t.kind? place = some .directory then t.entriesAt place else []
  | .error _ => []

/-- The tree with something put at a place. -/
def insert (t : FileTree) (place : List String) (kind : Kind) : FileTree :=
  ⟨t.entries.filter (·.1 ≠ place) ++ [(place, kind)]⟩

/-! ### Creating directories -/

/-- `path` without the slashes at its end. -/
def withoutEndSlashes (path : String) : String :=
  String.ofList (Path.trimEndSlashes path.toList)

/-- Create one directory, in a directory that is there. -/
def makeDirectory (t : FileTree) (path : String) : Except FileError FileTree :=
  match refusal? path with
  | some e => .error e
  | none => match t.locateEntry (withoutEndSlashes path) with
    | .error e => .error e
    | .ok place =>
      if (t.kind? place).isSome then .error .exists else .ok (t.insert place .directory)

/-- A path as the directory it lies in and its last name, slashes at its end aside. -/
def splitName (path : String) : String × String :=
  let (directory, name) := Path.split path
  if name.isEmpty then Path.split directory else (directory, name)

/-- Create one directory; that it is there already is no error. The result is the failure with the
path it is about, if there is one, and the tree that is left. -/
def ensureLast (t : FileTree) (path : String) : Option (FileError × String) × FileTree :=
  match t.makeDirectory path with
  | .ok t => (none, t)
  | .error e => if t.isDirectory path then (none, t) else (some (e, path), t)

/-- Create a directory and those above it, as far as they are missing. That something is in the way
of a directory above is only an error if it then keeps the last one from being made. The number
bounds the names of the path. -/
def ensureWithin : Nat → String → FileTree → Option (FileError × String) × FileTree
  | 0, _, t => (none, t)
  | n + 1, path, t =>
    let (above, name) := splitName path
    if above.isEmpty || name.isEmpty || t.exists? above then t.ensureLast path
    else match ensureWithin n above t with
      | (some (e, culprit), t) =>
        if e ≠ .exists then (some (e, culprit), t)
        else if name = "." then (none, t)
        else t.ensureLast path
      | (none, t) => if name = "." then (none, t) else t.ensureLast path

/-- Create a directory and those above it, as far as they are missing. -/
def ensureDirectory (t : FileTree) (path : String) : Option (FileError × String) × FileTree :=
  ensureWithin (path.length + 1) path t

/-- The tree with something put at a path, and with the directories above it. -/
def put (t : FileTree) (path : String) (kind : Kind) : FileTree :=
  let above := (Path.split path).1
  let t := if above.isEmpty then t else (t.ensureDirectory above).2
  match t.locateEntry (withoutEndSlashes path) with
  | .ok place => if place = [] ∨ place = workingPlace then t else t.insert place kind
  | .error _ => t

/-- The tree with the given things put at the given paths, one after another. -/
def ofList (entries : List (String × Kind)) : FileTree :=
  entries.foldl (fun t entry ↦ t.put entry.1 entry.2) {}

end FileTree

end Launcher
