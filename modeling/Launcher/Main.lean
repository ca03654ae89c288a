import Launcher.Console
import Launcher.Rehearsal
import Launcher.Run

/-!
# The console command

The launcher as a console command. It works on a listing of the working directory, read from
standard input with one path a line; a path with a slash at its end is a directory, any other a file
that may be executed. There is no language to run hosted programs in, so every command line is read
and planned, and whatever would run a program ends the run with a failure.
-/

namespace Launcher.Terminal

open Rehearsal

/-- The lines of a stream, up to its end. -/
partial def readLines (input : IO.FS.Stream) : IO (List String) := do
  let line ← input.getLine
  if line.isEmpty then pure []
  else do
    let rest ← readLines input
    pure (Text.trimLineEnds line :: rest)

/-- What a line of the listing puts into the file tree. -/
def entry (line : String) : String × FileTree.Kind :=
  (line, if line.toList.getLast? = some '/' then .directory else .file true)

/-- The exit code for a status: its last eight bits. -/
def exitCode (status : Int) : UInt32 := (status % 256).toNat.toUInt32

/-- The exit code for the way in which a run has ended. -/
def endingCode : Except Failure Unit → UInt32
  | .ok _ => exitCode Status.success
  | .error failure => match failure.cause with
    | .exit code => exitCode (code.exitStatus?.getD Status.generalError)
    | _ => exitCode Status.generalError

/-- The end of a run without exit hooks. -/
def exit : Exit Stage where
  halting := .leaving
  call _ _ := pure ()
  passes := 1

/-- A run over a command line, and the callbacks for the end of the process if it stays alive. -/
def run (c : Collaborators Stage) (setting : Option String) : Session Stage Unit := do
  Run.command c exit setting
  let w ← Session.world
  Session.each (Run.shutdown exit) w.shutdowns

/-- Read the surroundings of the process, run, print what the run has written, and return the exit
code. -/
def start (arguments : List String) : IO UInt32 := do
  let listing ← readLines (← IO.getStdin)
  let shell : Host.Shell := { searchPath := (← IO.getEnv "PATH").getD "" }
  let place : Place := {
    directory := (← IO.getEnv "PWD").getD "/"
    home := ← IO.getEnv "HOME"
    userHome := fun _ ↦ none }
  let language := Host.Language.none Host.launcherVersion
  let c := language.host Stage.memory (Host.localFiles shell Stage.treeSlot) place
  let tree := FileTree.ofList (listing.map entry)
  match run c (← IO.getEnv "RUNTIME_CLI_LOG_LEVEL") { host := { tree }, arguments } with
  | none => pure (exitCode Status.generalError)
  | some (result, w) => do
    IO.print (Console.stdout {} w.trace)
    IO.eprint (Console.stderr {} w.trace)
    pure (endingCode result)

end Launcher.Terminal

/-- The console command. -/
def main (arguments : List String) : IO UInt32 := Launcher.Terminal.start arguments
