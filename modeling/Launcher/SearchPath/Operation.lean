import Launcher.Argv.Parser

/-!
# Operations on the search path

What can happen to a search path, by the launcher's hand and by others'. A block of operations takes
back at its end what was added, whether the block ends normally or by a failure.
-/

namespace Launcher.SearchPath

/-- An operation on a search path. -/
inductive Operation
  | prepend (path : String)
  | append (path : String)
  | close
  /-- Operations, and a close however they end. -/
  | block (operations : List Operation)
  /-- Operations and a failure behind them, and a close however they end. -/
  | failingBlock (operations : List Operation)
  | foreignAppend (path : String)
  | foreignRemove (path : String)
  /-- Read a command line. -/
  | read (tokens : List String)
  deriving Inhabited

/-- The failure of taking away an entry that is not there. -/
def noEntry : Failure := { cause := .standard .valueError "list.remove(x): x not in list" }

/-- The failure at the end of a failing block. -/
def insideFailure : Failure := { cause := .standard .valueError "inside" }

/-- What an operation hands back: the plan and the tokens left, if it has read a command line. -/
abbrev Handback := Option (Plan × List String)

mutual

/-- One operation. -/
def perform (s : Argv.Surroundings) (path : SearchPath) :
    Operation → Except Failure Handback × SearchPath
  | .prepend p => (.ok none, path.prepend p)
  | .append p => (.ok none, path.append p)
  | .close => (.ok none, path.close)
  | .block operations =>
    let (result, path) := performAll s path operations
    (result.map fun _ ↦ none, path.close)
  | .failingBlock operations =>
    let (result, path) := performAll s path operations
    (result.bind fun _ ↦ .error insideFailure, path.close)
  | .foreignAppend p => (.ok none, path.foreignAppend p)
  | .foreignRemove p => match path.foreignRemove? p with
    | some path => (.ok none, path)
    | none => (.error noEntry, path)
  | .read tokens =>
    let (ending, progress) := Argv.parse s tokens {} path
    (ending.handBack.map fun rest ↦ some (progress.plan, rest), progress.path)

/-- Operations one after another, up to the first that fails. -/
def performAll (s : Argv.Surroundings) (path : SearchPath) :
    List Operation → Except Failure Unit × SearchPath
  | [] => (.ok (), path)
  | operation :: operations =>
    match perform s path operation with
    | (.ok _, path) => performAll s path operations
    | (.error failure, path) => (.error failure, path)

end

end Launcher.SearchPath
