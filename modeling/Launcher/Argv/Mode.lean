import Launcher.Plan

/-!
# Modes and their flags

A command line is read in one of three modes. Each mode has flags of its own; a flag either stands
alone or takes the next token as its value. A flag that takes a value and is the last token is no
flag of its mode.
-/

namespace Launcher.Argv

/-- The three ways of reading a command line. -/
inductive Mode
  | top
  | compiler
  | interactive
  deriving DecidableEq, Repr

/-- The name of a mode. -/
def Mode.name : Mode → String
  | .top => "top"
  | .compiler => "compiler"
  | .interactive => "interactive"

/-- The mode that a name stands for. -/
def Mode.ofName? : String → Option Mode
  | "top" => some .top
  | "compiler" => some .compiler
  | "interactive" => some .interactive
  | _ => none

/-- Flags of a mode that stand alone. -/
inductive BareFlag
  /-- Go on in another mode. -/
  | switch (mode : Mode)
  /-- Set one option of the compiler. -/
  | compilerOption (key : String) (value : Bool)
  /-- Announce every compiled file. -/
  | verbose
  deriving DecidableEq, Repr

/-- Flags of a mode that take a value. -/
inductive ValuedFlag
  /-- Run an executable; the rest of the command line belongs to it. -/
  | script
  /-- Set the directory for compiled files. -/
  | output
  /-- Accepted and without effect. -/
  | ignored
  deriving DecidableEq, Repr

/-- A flag of a mode. -/
inductive ModeFlag
  | bare (flag : BareFlag)
  | valued (flag : ValuedFlag)
  deriving DecidableEq, Repr

/-- The flags of each mode. -/
def Mode.flag? : Mode → String → Option ModeFlag
  | .top, token => match token with
    | "+elixirc" => some (.bare (.switch .compiler))
    | "+iex" => some (.bare (.switch .interactive))
    | "-S" => some (.valued .script)
    | _ => none
  | .compiler, token => match token with
    | "-o" => some (.valued .output)
    | "--no-docs" => some (.bare (.compilerOption "docs" false))
    | "--no-debug-info" => some (.bare (.compilerOption "debug_info" false))
    | "--ignore-module-conflict" => some (.bare (.compilerOption "ignore_module_conflict" true))
    | "--warnings-as-errors" => some (.bare (.compilerOption "warnings_as_errors" true))
    | "--verbose" => some (.bare .verbose)
    | _ => none
  | .interactive, token => match token with
    | "--dot-iex" => some (.valued .ignored)
    | "--remsh" => some (.valued .ignored)
    | "-S" => some (.valued .script)
    | _ => none

/-- The token that ends the reading in every mode. -/
def stopToken : String := "--"

/-- Whether a token looks like an option. -/
def isFlag (token : String) : Bool := token.toList.head? = some '-'

end Launcher.Argv
