/-!
# Patterns for names

A pattern for the name of a file. A star stands for any characters, a question mark for one, and a
class in square brackets for one of its members, or one that is not a member if it opens with an
exclamation mark. A bracket that is never closed stands for itself. A closing bracket that comes
first is a member.

Inside a class a hyphen between two characters makes a range, unless it is the first member or
comes right behind the end of a range. A range that holds nothing is left out together with both
its ends.
-/

namespace Launcher.Glob

/-- A part of a pattern. -/
inductive Item
  /-- Any characters. -/
  | many
  /-- Any one character. -/
  | one
  | literal (c : Char)
  /-- One character inside the closed ranges, or outside all of them. -/
  | member (negated : Bool) (ranges : List (Char × Char))
  deriving DecidableEq, Repr

/-- Whether an item that stands for one character stands for `c`. -/
def Item.covers : Item → Char → Bool
  | many, _ => true
  | one, _ => true
  | literal d, c => c = d
  | member negated ranges, c => (ranges.any fun r ↦ r.1 ≤ c && c ≤ r.2) != negated

/-- The suffixes of a list, the longest first. -/
def suffixes {α : Type} : List α → List (List α)
  | [] => [[]]
  | a :: as => (a :: as) :: suffixes as

/-- Whether a pattern stands for a text. -/
def accepts : List Item → List Char → Bool
  | [], cs => cs.isEmpty
  | .many :: items, cs => (suffixes cs).any (accepts items)
  | item :: items, c :: cs => item.covers c && accepts items cs
  | _ :: _, [] => false

/-! ### Matching all suffixes at once

Trying every suffix again for every star takes a time that grows with the product of the lengths.
The answers for all suffixes of a text make a row, and the row of a pattern comes from that of the
pattern without its first item in one pass. -/

/-- The answers for a pattern behind a star: some suffix fits the pattern. -/
def manyRow (answers : List Bool) : List Bool :=
  answers.foldr (fun b later ↦ (b || later.headD false) :: later) []

/-- The answers for a pattern behind an item for one character. -/
def itemRow (item : Item) : List Char → List Bool → List Bool
  | c :: cs, _ :: bs => (item.covers c && bs.headD false) :: itemRow item cs bs
  | _, _ => [false]

/-- The answers for all suffixes of a text, the longest first. -/
def row : List Item → List Char → List Bool
  | [], cs => (suffixes cs).map List.isEmpty
  | .many :: items, cs => manyRow (row items cs)
  | item :: items, cs => itemRow item cs (row items cs)

theorem manyRow_map_suffixes (p : List Char → Bool) (cs : List Char) :
    manyRow ((suffixes cs).map p) = (suffixes cs).map fun s ↦ (suffixes s).any p := by
  induction cs with
  | nil => simp [manyRow, suffixes]
  | cons c cs ih =>
    have h : (manyRow ((suffixes cs).map p)).headD false = (suffixes cs).any p := by
      rw [ih]
      cases cs <;> rfl
    simp only [suffixes, List.map_cons, List.any_cons]
    rw [← h, ← ih]
    rfl

theorem itemRow_map_suffixes {item : Item} (h : item ≠ .many) (items : List Item)
    (cs : List Char) :
    itemRow item cs ((suffixes cs).map (accepts items)) =
      (suffixes cs).map (accepts (item :: items)) := by
  induction cs with
  | nil => cases item <;> simp_all [itemRow, suffixes, accepts]
  | cons c cs ih =>
    have hd : ((suffixes cs).map (accepts items)).headD false = accepts items cs := by
      cases cs <;> rfl
    have hc : accepts (item :: items) (c :: cs) = (item.covers c && accepts items cs) := by
      cases item <;> simp_all [accepts]
    simp only [suffixes, List.map_cons, itemRow, hd, hc, ih]

/-- The row of a pattern holds its answer for every suffix. -/
theorem row_eq_map_suffixes (items : List Item) (cs : List Char) :
    row items cs = (suffixes cs).map (accepts items) := by
  induction items with
  | nil => simp [row, accepts]
  | cons item items ih =>
    by_cases h : item = .many
    · subst h
      rw [row, ih, manyRow_map_suffixes]
      exact List.map_congr_left fun s _ ↦ by cases s <;> rfl
    · rw [row, ih, itemRow_map_suffixes h]
      exact fun h' ↦ h h'

/-! ### Reading a class -/

/-- The members of a class cut at its hyphens. A hyphen among the first `skip` characters does not
count; `part` holds the current part in reverse. -/
def cutAtHyphens (skip : Nat) (part : List Char) : List Char → List (List Char)
  | [] => [part.reverse]
  | c :: cs =>
    if skip = 0 ∧ c = '-' then part.reverse :: cutAtHyphens 2 [] cs
    else cutAtHyphens (skip - 1) (c :: part) cs

/-- A hyphen at the very end is a member. -/
def closeLast : List (List Char) → List (List Char)
  | [part, []] => [part ++ ['-']]
  | part :: parts => part :: closeLast parts
  | [] => []

/-- Leave out the ranges that hold nothing. -/
def dropEmptyRanges : List (List Char) → List (List Char)
  | [] => []
  | part :: parts =>
    match part.getLast?, dropEmptyRanges parts with
    | some lo, (hi :: rest) :: later =>
      if hi < lo then (part.dropLast ++ rest) :: later else part :: (hi :: rest) :: later
    | _, later => part :: later

/-- The members of a class, with `none` for every hyphen that makes a range. -/
def classMembers (text : List Char) : List (Option Char) :=
  let skip := if text.head? = some '!' then 2 else 1
  let parts := dropEmptyRanges (closeLast (cutAtHyphens skip [] text))
  [none].intercalate (parts.map (·.map some))

/-- The ranges that members stand for. -/
def memberRanges : List (Option Char) → List (Char × Char)
  | some lo :: none :: some hi :: rest => (lo, hi) :: memberRanges rest
  | some c :: rest => (c, c) :: memberRanges rest
  | none :: rest => ('-', '-') :: memberRanges rest
  | [] => []

/-- The item that the text between two brackets stands for. -/
def classItem (text : List Char) : Item :=
  match classMembers text with
  | some '!' :: members => .member true (memberRanges members)
  | members => .member false (memberRanges members)

/-- The text of a class whose opening bracket has been read, and what follows its closing one. -/
def splitClass? (cs : List Char) : Option (List Char × List Char) :=
  let negation := if cs.head? = some '!' then ['!'] else []
  let cs := cs.drop negation.length
  let first := if cs.head? = some ']' then [']'] else []
  let cs := cs.drop first.length
  match cs.dropWhile (· ≠ ']') with
  | [] => none
  | _ :: rest => some (negation ++ first ++ cs.takeWhile (· ≠ ']'), rest)

theorem length_lt_of_splitClass? {cs text rest : List Char}
    (h : splitClass? cs = some (text, rest)) : rest.length < cs.length := by
  unfold splitClass? at h
  simp only at h
  split at h
  · cases h
  · next c r hd =>
    cases h
    have h1 := (List.dropWhile_suffix (p := fun x : Char ↦ decide (x ≠ ']'))
      (l := (cs.drop (if cs.head? = some '!' then ['!'] else []).length).drop
        (if (cs.drop (if cs.head? = some '!' then ['!'] else []).length).head? = some ']'
          then [']'] else []).length)).length_le
    rw [hd] at h1
    simp only [List.length_cons, List.length_drop] at h1
    omega

/-- The items of a pattern. -/
def parse (cs : List Char) : List Item :=
  match cs with
  | [] => []
  | '*' :: cs => .many :: parse cs
  | '?' :: cs => .one :: parse cs
  | '[' :: cs => match _h : splitClass? cs with
    | some (text, rest) => classItem text :: parse rest
    | none => .literal '[' :: parse cs
  | c :: cs => .literal c :: parse cs
  termination_by cs.length
  decreasing_by
    · exact Nat.lt_succ_self _
    · exact Nat.lt_succ_self _
    · exact Nat.lt_succ_of_lt (length_lt_of_splitClass? _h)
    · exact Nat.lt_succ_self _
    · exact Nat.lt_succ_self _

/-- Whether a name fits a pattern. -/
def fits (pattern name : List Char) : Bool := (row (parse pattern) name).headD false

theorem fits_eq_accepts (pattern name : List Char) :
    fits pattern name = accepts (parse pattern) name := by
  rw [fits, row_eq_map_suffixes]
  cases name <;> rfl

/-- Whether a text is more than a literal one. -/
def isPattern (cs : List Char) : Bool := cs.any fun c ↦ c = '*' || c = '?' || c = '['

/-- Whether a name is hidden. -/
def isHidden (cs : List Char) : Bool := cs.head? = some '.'

end Launcher.Glob
