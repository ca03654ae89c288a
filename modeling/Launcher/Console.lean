import Launcher.Backtrace
import Launcher.Event
import Launcher.LogLevel

/-!
# The console

What appears on the two streams of the console. Text is printed as it is; a message may hold style
tags, which vanish if the terminal library that interprets them is installed and are printed
otherwise.
-/

namespace Launcher

/-- The console: whether the terminal library is installed. -/
structure Console where
  rich : Bool := false
  deriving DecidableEq, Repr

namespace Console

/-- The failure of asking for the terminal library when it is not installed. -/
def notInstalled : Failure :=
  { cause := .environment "rich is not installed. Install with: pip install rich" none }

/-- Ask for the terminal library. -/
def styled? (console : Console) : Except Failure Unit :=
  if console.rich then .ok () else .error notInstalled

/-- The kind of handler that log records go through. -/
def logHandler (console : Console) : String :=
  if console.rich then "RichHandler" else "StreamHandler"

/-- The tags that open and close the style of a notice. -/
def tags : List (List Char) := ["[yellow]".toList, "[/yellow]".toList]

/-- A text without the style tags; the number counts the characters of a tag still to be left
out. -/
def dropTags : Nat → List Char → List Char
  | _, [] => []
  | skip + 1, _ :: cs => dropTags skip cs
  | 0, c :: cs => match tags.find? (·.isPrefixOf (c :: cs)) with
    | some tag => dropTags (tag.length - 1) cs
    | none => c :: dropTags 0 cs

/-- What printing a text adds to a stream. -/
def printText (_ : Console) (text : String) : String := text ++ "\n"

/-- What printing values as a message adds to a stream. -/
def print (console : Console) (values : List Scalar) : String :=
  let text := " ".intercalate (values.map Scalar.message) ++ "\n"
  if console.rich then String.ofList (dropTags 0 text.toList) else text

/-- The notice that the run was aborted. -/
def abortNotice : String := "\n[yellow]Aborted by user.[/yellow]"

/-- What reporting a failure adds to standard error: its trace, and its hint if it has one. -/
def failureText (console : Console) (failure : Failure) : String :=
  console.printText (Pruning.trace {} failure) ++
    match failure.cause.hint with
    | some hint => if hint.isEmpty then "" else console.printText ("Hint: " ++ hint)
    | none => ""

/-- What showing error lines adds to standard error. -/
def errorsText (console : Console) (errors : List String) : String :=
  String.join (errors.map console.printText)

/-- What a log record adds to standard error. -/
def recordText (level : Int) (logger text : String) : String :=
  LogLevel.name level ++ " " ++ (if logger.isEmpty then "root" else logger) ++ ": " ++ text ++ "\n"

/-- The line for a compiled file. -/
def compiledLine (file : String) : String := "Compiled " ++ file

/-- What an event adds to standard output. -/
def outText (console : Console) : Event → String
  | .hosted (.printed line) => line ++ "\n"
  | .hosted (.announced file) => console.printText (compiledLine file)
  | .versionShown version => console.printText version
  | _ => ""

/-- What an event adds to standard error. -/
def errText (console : Console) : Event → String
  | .hosted (.noted note) => recordText LogLevel.debug note.logger note.text
  | .noted note => recordText LogLevel.debug note.logger note.text
  | .aborted => console.print [.text abortNotice]
  | .reported failure => console.failureText failure
  | .errorShown line => console.printText line
  | _ => ""

/-- What a session has written to standard output. -/
def stdout (console : Console) (trace : List Event) : String :=
  String.join (trace.map console.outText)

/-- What a session has written to standard error. -/
def stderr (console : Console) (trace : List Event) : String :=
  String.join (trace.map console.errText)

end Console

end Launcher
