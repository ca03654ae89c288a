import Launcher.Text.Printable

/-!
# Quoted text

The written form of a text inside messages: between two quotation marks, with the mark, the
backslash and every character that is not printable written as an escape. The mark is the single
one, unless the text holds single marks and no double ones.
-/

namespace Launcher.Text

/-- The single quotation mark. -/
def singleMark : Char := '\x27'

/-- The double quotation mark. -/
def doubleMark : Char := '\x22'

/-- The backslash, which opens every escape. -/
def backslash : Char := '\x5c'

/-- The mark put around `cs`: the single one, unless only the double one needs no escape. -/
def markFor (cs : List Char) : Char :=
  if cs.contains singleMark && !cs.contains doubleMark then doubleMark else singleMark

/-- `n` in lower-case hexadecimal, padded with zeros to `width` digits. -/
def hexDigits (width n : Nat) : List Char :=
  let ds := Nat.toDigits 16 n
  List.replicate (width - ds.length) '0' ++ ds

/-- A code point as an escape of two, four or eight hexadecimal digits, the fewest that hold it. -/
def hexEscape (n : Nat) : List Char :=
  if n < 0x100 then backslash :: 'x' :: hexDigits 2 n
  else if n < 0x10000 then backslash :: 'u' :: hexDigits 4 n
  else backslash :: 'U' :: hexDigits 8 n

/-- One character as it stands between two marks. -/
def quoteChar (mark c : Char) : List Char :=
  if c = mark || c = backslash then [backslash, c]
  else if c = '\n' then [backslash, 'n']
  else if c = '\r' then [backslash, 'r']
  else if c = '\t' then [backslash, 't']
  else if isPrintable c then [c]
  else hexEscape c.toNat

/-- The written form of a list of characters. -/
def quoteChars (cs : List Char) : List Char :=
  markFor cs :: cs.flatMap (quoteChar (markFor cs)) ++ [markFor cs]

/-- The written form of a text. -/
def quote (s : String) : String :=
  String.ofList (quoteChars s.toList)

/-- A tuple of written parts: parentheses around them, with a comma after a part that is alone. -/
def tuple (parts : List String) : String :=
  match parts with
  | [part] => "(" ++ part ++ ",)"
  | parts => "(" ++ ", ".intercalate parts ++ ")"

/-- A list of written parts between square brackets. -/
def bracketed (parts : List String) : String :=
  "[" ++ ", ".intercalate parts ++ "]"

end Launcher.Text
