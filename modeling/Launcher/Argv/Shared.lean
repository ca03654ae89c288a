import Launcher.Argv.Progress

/-!
# Options of every mode

The options that can stand in every mode. They are read in a batch: as long as the first token is
such an option, and has its value if it takes one, it is taken off. The batch never looks at the
flags of a mode.
-/

namespace Launcher.Argv

/-- Shared options that stand alone. -/
inductive SharedBare
  /-- Keep the process alive after the last command. -/
  | noHalt
  /-- Accepted for the sake of the process that starts the launcher. -/
  | ignored
  deriving DecidableEq, Repr

/-- Shared options that take a value. -/
inductive SharedValued
  /-- Add directories at one end of the search path. -/
  | path (e : SearchPath.End)
  | app
  | eval
  | require
  | parallelRequire
  /-- Accepted for the sake of the process that starts the launcher. -/
  | ignored
  deriving DecidableEq, Repr

/-- An option of every mode. -/
inductive SharedOption
  | version
  | bare (option : SharedBare)
  | valued (option : SharedValued)
  deriving DecidableEq, Repr

/-- The shared option that a token stands for. -/
def SharedOption.ofToken? : String → Option SharedOption
  | "-v" => some .version
  | "--version" => some .version
  | "-pa" => some (.valued (.path .front))
  | "-pz" => some (.valued (.path .back))
  | "--app" => some (.valued .app)
  | "--no-halt" => some (.bare .noHalt)
  | "-e" => some (.valued .eval)
  | "-r" => some (.valued .require)
  | "-pr" => some (.valued .parallelRequire)
  | "--erl" => some (.valued .ignored)
  | "--sname" => some (.valued .ignored)
  | "--name" => some (.valued .ignored)
  | "--cookie" => some (.valued .ignored)
  | "--detached" => some (.bare .ignored)
  | "--hidden" => some (.bare .ignored)
  | "--gen-debug" => some (.bare .ignored)
  | _ => none

/-- What an option that stands alone does. -/
def SharedBare.apply : SharedBare → Progress → Progress
  | .noHalt, p => p.mapPlan fun plan ↦ { plan with halt := false }
  | .ignored, p => p

/-- What an option with its value does. -/
def SharedValued.apply (s : Surroundings) : SharedValued → String → Progress → Progress
  | .path e, value, p => (s.directories value).foldl (Progress.addPath e) p
  | .app, value, p => p.addCommand (.app value)
  | .eval, value, p => p.addCommand (.eval value)
  | .require, value, p => p.addCommand (.require value)
  | .parallelRequire, value, p => p.addCommand (.parallelRequire value)
  | .ignored, _, p => p

/-- Read the shared options at the front of the tokens. -/
def shared (s : Surroundings) : List String → Progress → Ending × Progress
  | [], p => (.finished [], p)
  | head :: rest, p =>
    match SharedOption.ofToken? head, rest with
    | some .version, _ => (.versionRequested, p)
    | some (.bare option), rest => shared s rest (option.apply p)
    | some (.valued option), value :: rest => shared s rest (option.apply s value p)
    | some (.valued _), [] => (.finished [head], p)
    | none, rest => (.finished (head :: rest), p)

end Launcher.Argv
