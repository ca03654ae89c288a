import Launcher.Text.Blank

/-!
# Log levels

A level is a number; a record is shown when its level reaches the chosen one and is positive. The
chosen level is read from a name, blank characters around it aside and in any case. An unknown name
stands for warnings.
-/

namespace Launcher.LogLevel

/-- The levels that have names, with the name that is shown first. -/
def names : List (String × Int) :=
  [("CRITICAL", 50), ("FATAL", 50), ("ERROR", 40), ("WARNING", 30), ("WARN", 30), ("INFO", 20),
    ("DEBUG", 10), ("NOTSET", 0)]

/-- The level of warnings. -/
def warning : Int := 30

/-- The level of diagnostic notes. -/
def debug : Int := 10

/-- The capital of a letter, as far as it is a letter of a level's name: the dotless i and the long
s have plain capitals, too. -/
def capital (c : Char) : Char :=
  if c = '\u0131' then 'I' else if c = '\u017f' then 'S' else c.toUpper

/-- A name in the form in which levels are looked up. -/
def canonical (name : String) : String :=
  String.ofList ((Text.trim name).toList.map capital)

/-- The level of a canonical name. -/
def ofName? (name : String) : Option Int := names.lookup name

/-- The level that a setting asks for; none set stands for warnings. -/
def ofSetting (setting : Option String) : Int :=
  match setting with
  | none => warning
  | some name => (ofName? (canonical name)).getD warning

/-- The name under which records of a level are shown. -/
def name (level : Int) : String :=
  match names.find? (·.2 = level) with
  | some entry => entry.1
  | none => "Level " ++ toString level

/-- Whether a record of level `record` is shown when `threshold` is chosen. -/
def shows (threshold record : Int) : Bool := 0 < record && threshold ≤ record

end Launcher.LogLevel
