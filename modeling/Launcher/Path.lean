/-!
# Paths

Slash-separated paths as texts. Nothing here looks at a file system: a path is taken apart, joined
and normalised by its spelling alone. Normal form keeps exactly two leading slashes as two and any
other number as one; `..` at the front of a relative path stays.
-/

namespace Launcher

/-- What relative and home-relative paths refer to: the working directory, the own home directory
if there is one, and the home directories of named users. -/
structure Place where
  directory : String
  home : Option String
  userHome : String → Option String

namespace Path

/-! ### Taking paths apart -/

/-- The parts of `cs` between the characters equal to `sep`; there is always at least one. -/
def splitAt (sep : Char) : List Char → List (List Char)
  | [] => [[]]
  | c :: cs =>
    if c = sep then [] :: splitAt sep cs
    else match splitAt sep cs with
      | [] => [[c]]
      | part :: parts => (c :: part) :: parts

/-- The parts put together again with `sep` between them. -/
def joinWith (sep : Char) : List (List Char) → List Char
  | [] => []
  | [part] => part
  | part :: parts => part ++ sep :: joinWith sep parts

/-- The characters of a path behind its last slash. -/
def lastPart (cs : List Char) : List Char :=
  (cs.reverse.takeWhile (· ≠ '/')).reverse

/-- The characters of a path up to and with its last slash. -/
def leadingPart (cs : List Char) : List Char :=
  (cs.reverse.dropWhile (· ≠ '/')).reverse

/-- `cs` without the slashes at its end. -/
def dropEndSlashes (cs : List Char) : List Char :=
  (cs.reverse.dropWhile (· = '/')).reverse

/-- `cs` without the slashes at its end, unless it consists of slashes alone. -/
def trimEndSlashes (cs : List Char) : List Char :=
  if cs.all (· = '/') then cs else dropEndSlashes cs

/-- A path as directory and name: the name holds no slash, the directory ends in one only if it is
made of slashes. -/
def split (path : String) : String × String :=
  (String.ofList (trimEndSlashes (leadingPart path.toList)), String.ofList (lastPart path.toList))

/-- The name of a path: what follows its last slash. -/
def baseName (path : String) : String := String.ofList (lastPart path.toList)

/-- A name split before its last point; a name whose points all stand at its front has no
extension. -/
def splitExtensionChars (cs : List Char) : List Char × List Char :=
  let extension := (cs.reverse.takeWhile (· ≠ '.')).reverse
  let stem := cs.take (cs.length - extension.length - 1)
  if !cs.contains '.' || stem.all (· = '.') then (cs, []) else (stem, '.' :: extension)

/-- A path as the part before its extension and the extension with its point. -/
def splitExtension (path : String) : String × String :=
  let (stem, extension) := splitExtensionChars (lastPart path.toList)
  (String.ofList (leadingPart path.toList ++ stem), String.ofList extension)

/-! ### Joining and normalising -/

/-- Whether a path starts at the root. -/
def isAbsoluteChars (cs : List Char) : Bool := cs.head? = some '/'

/-- `path` seen from `base`: an absolute path stands for itself. -/
def joinChars (base path : List Char) : List Char :=
  if isAbsoluteChars path then path
  else if base.isEmpty || base.getLast? = some '/' then base ++ path
  else base ++ '/' :: path

/-- `path` seen from `base`. -/
def join (base path : String) : String :=
  String.ofList (joinChars base.toList path.toList)

/-- The slashes that a normal path starts with: two stay two, any other number is one. -/
def rootChars (cs : List Char) : List Char :=
  match (cs.takeWhile (· = '/')).length with
  | 0 => []
  | 2 => ['/', '/']
  | _ => ['/']

/-- The name of the directory itself. -/
def here : List Char := ['.']

/-- The name of the directory above. -/
def above : List Char := ['.', '.']

/-- One part added to the normal parts so far, which are kept in reverse. -/
def normalStep (rooted : Bool) (parts : List (List Char)) (part : List Char) : List (List Char) :=
  if part = [] ∨ part = here then parts
  else if part ≠ above then part :: parts
  else match parts with
    | [] => if rooted then [] else [above]
    | last :: rest => if last = above then above :: parts else rest

/-- The parts of the normal form of a path, in order. -/
def normalParts (rooted : Bool) (parts : List (List Char)) : List (List Char) :=
  (parts.foldl (normalStep rooted) []).reverse

/-- The normal form of a path. -/
def normalChars (cs : List Char) : List Char :=
  let path := rootChars cs ++ joinWith '/' (normalParts (isAbsoluteChars cs) (splitAt '/' cs))
  if path.isEmpty then here else path

/-- The normal form of a path: no empty and no `.` parts, and `..` only at the front of a relative
path. -/
def normal (path : String) : String :=
  String.ofList (normalChars path.toList)

/-- The normal absolute path that `path` stands for in `directory`. -/
def absolute (directory path : String) : String :=
  normal (if isAbsoluteChars path.toList then path else join directory path)

/-- `path` with a leading `~` or `~user` replaced by the home directory, which loses its slashes
at the end. Without a known home the path stays; an empty result is the root. -/
def expandHome (place : Place) (path : String) : String :=
  match path.toList with
  | '~' :: cs =>
    let user := cs.takeWhile (· ≠ '/')
    let rest := cs.dropWhile (· ≠ '/')
    let home := if user.isEmpty then place.home else place.userHome (String.ofList user)
    match home with
    | none => path
    | some home =>
      let expanded := dropEndSlashes home.toList ++ rest
      if expanded.isEmpty then "/" else String.ofList expanded
  | _ => path

/-! ### Laws -/

theorem splitAt_ne_nil (sep : Char) (cs : List Char) : splitAt sep cs ≠ [] := by
  induction cs with
  | nil => simp [splitAt]
  | cons c cs ih =>
    unfold splitAt
    split
    · simp
    · split <;> simp

/-- Splitting loses nothing. -/
theorem joinWith_splitAt (sep : Char) (cs : List Char) : joinWith sep (splitAt sep cs) = cs := by
  induction cs with
  | nil => rfl
  | cons c cs ih =>
    unfold splitAt
    split
    · next h =>
      cases hs : splitAt sep cs with
      | nil => exact absurd hs (splitAt_ne_nil sep cs)
      | cons part parts => simp [joinWith, h, ← hs, ih]
    · cases hs : splitAt sep cs with
      | nil => exact absurd hs (splitAt_ne_nil sep cs)
      | cons part parts =>
        cases parts with
        | nil => simpa [joinWith, hs] using ih
        | cons p ps => simpa [joinWith, hs] using ih

/-- A path is its leading part followed by its last part. -/
theorem leadingPart_append_lastPart (cs : List Char) : leadingPart cs ++ lastPart cs = cs := by
  unfold leadingPart lastPart
  rw [← List.reverse_append, List.takeWhile_append_dropWhile, List.reverse_reverse]

/-- The last part holds no slash. -/
theorem not_mem_lastPart (cs : List Char) : '/' ∉ lastPart cs := by
  intro h
  have := List.all_takeWhile (p := fun c : Char ↦ decide (c ≠ '/')) (l := cs.reverse)
  simp only [lastPart, List.mem_reverse] at h
  simpa using List.all_eq_true.1 this _ h

end Path

end Launcher
