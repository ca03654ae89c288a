/-!
# Blank characters

The characters that trimming a text removes at both ends: the white space of Unicode 14 and the
four information separators.
-/

namespace Launcher.Text

/-- The code points of the blank characters, in increasing order. -/
def blankPoints : List Nat :=
  [0x9, 0xa, 0xb, 0xc, 0xd, 0x1c, 0x1d, 0x1e, 0x1f, 0x20, 0x85, 0xa0, 0x1680, 0x2000, 0x2001,
    0x2002, 0x2003, 0x2004, 0x2005, 0x2006, 0x2007, 0x2008, 0x2009, 0x200a, 0x2028, 0x2029, 0x202f,
    0x205f, 0x3000]

/-- Whether trimming removes `c` at an end. -/
def isBlank (c : Char) : Bool :=
  blankPoints.contains c.toNat

/-- `as` without the members satisfying `p` at its end. -/
def dropEndWhile {α : Type} (p : α → Bool) (as : List α) : List α :=
  (as.reverse.dropWhile p).reverse

/-- `s` without the blank characters at both ends. -/
def trim (s : String) : String :=
  String.ofList (dropEndWhile isBlank (s.toList.dropWhile isBlank))

/-- `s` without the line feeds at its end. -/
def trimLineEnds (s : String) : String :=
  String.ofList (dropEndWhile (· == '\n') s.toList)

/-! ### Laws -/

/-- What core calls white space is blank. -/
theorem isBlank_of_isWhitespace {c : Char} (h : c.isWhitespace = true) : isBlank c = true := by
  simp only [Char.isWhitespace, Bool.or_eq_true, decide_eq_true_eq] at h
  rcases h with ((rfl | rfl) | rfl) | rfl <;> decide

/-- Nothing that is dropped is left at the end. -/
theorem getLast?_dropEndWhile {α : Type} (p : α → Bool) (as : List α) :
    (dropEndWhile p as).getLast?.all (fun a ↦ !p a) = true := by
  unfold dropEndWhile
  rw [List.getLast?_reverse]
  cases h : as.reverse.dropWhile p with
  | nil => rfl
  | cons a r =>
    have := List.head?_dropWhile_not p as.reverse
    simp [h] at this
    simp [this]

end Launcher.Text
