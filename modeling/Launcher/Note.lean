import Launcher.Argv.Mode

/-!
# Diagnostic notes

What the launcher notes about its own work when it is asked for diagnostics. A note belongs to the
part of the launcher that makes it.
-/

namespace Launcher

/-- One diagnostic note. -/
inductive Note
  | switchedMode (mode : Argv.Mode)
  | unknownOption (token : String)
  | prependedPath (path : String)
  | appendedPath (path : String)
  | runningCommand (command : Command)
  | runningHooks (count : Nat) (status : Int)
  | halting (status : Int)
  | requiring (path : String)
  | alreadyRequired (path : String)
  | startedApplication (name : String)
  deriving DecidableEq, Repr

namespace Note

/-- The part of the launcher that makes the note. -/
def logger : Note → String
  | switchedMode _ => "runtime_cli.core.argv_parser"
  | unknownOption _ => "runtime_cli.core.argv_parser"
  | prependedPath _ => "runtime_cli.core.registries"
  | appendedPath _ => "runtime_cli.core.registries"
  | runningCommand _ => "runtime_cli.core.dispatcher"
  | runningHooks _ _ => "runtime_cli.core.exit_coordinator"
  | halting _ => "runtime_cli.infra.process"
  | requiring _ => "runtime_cli.infra.python_runtime"
  | alreadyRequired _ => "runtime_cli.infra.python_runtime"
  | startedApplication _ => "runtime_cli.infra.python_runtime"

/-- The text of the note. -/
def text : Note → String
  | switchedMode mode => "Switching to " ++ mode.name ++ " mode"
  | unknownOption token => "Unknown option " ++ token
  | prependedPath path => "Prepending code path " ++ path
  | appendedPath path => "Appending code path " ++ path
  | runningCommand command => "Running " ++ command.written
  | runningHooks count status =>
    "Running " ++ toString count ++ " exit hook(s) with status " ++ toString status
  | halting status => "Halting with status " ++ toString status
  | requiring path => "Requiring " ++ path
  | alreadyRequired path => "Skipping already required file " ++ path
  | startedApplication name => "Started application " ++ name

end Note

end Launcher
