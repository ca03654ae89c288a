import Launcher.Scalar

/-!
# Plans

What a command line asks for: commands in the order in which they run, the settings of the
compiler, the errors met while reading, and whether the process ends once every command has run.
-/

namespace Launcher

/-- One thing to run. -/
inductive Command
  /-- Set the cookie of the running node. -/
  | cookie (value : String)
  /-- Evaluate an expression. -/
  | eval (expression : String)
  /-- Start an application and what it depends on. -/
  | app (name : String)
  /-- Find an executable on the search path and run it. -/
  | script (name : String)
  /-- Run one file. -/
  | file (path : String)
  /-- Run every regular file that a pattern matches, one after another. -/
  | require (pattern : String)
  /-- Run every regular file that a pattern matches through the parallel loader. -/
  | parallelRequire (pattern : String)
  /-- Compile the regular files that any of the patterns matches. -/
  | compile (patterns : List String)
  /-- A value that is no command; running it is a type error. -/
  | unknown (value : Literal)
  deriving DecidableEq, Repr

/-- The written form of a command, as diagnostics show it. -/
def Command.written : Command → String
  | .cookie value => field "Cookie" "value" (Text.quote value)
  | .eval expression => field "Eval" "expr" (Text.quote expression)
  | .app name => field "App" "name" (Text.quote name)
  | .script name => field "Script" "path" (Text.quote name)
  | .file path => field "File" "path" (Text.quote path)
  | .require pattern => field "Require" "pattern" (Text.quote pattern)
  | .parallelRequire pattern => field "ParallelRequire" "pattern" (Text.quote pattern)
  | .compile patterns => field "Compile" "patterns" (Text.tuple (patterns.map Text.quote))
  | .unknown value => value.written
where
  /-- A named record with one field. -/
  field (record name value : String) : String := record ++ "(" ++ name ++ "=" ++ value ++ ")"

/-- Everything that reading a command line has found out. -/
structure Plan where
  /-- The directory that compiled files are written to. -/
  output : String := "."
  /-- The commands, in the order in which they run. -/
  commands : List Command := []
  /-- The patterns of sources to compile, gathered until the command line ends. -/
  sources : List String := []
  /-- Whether the process ends once every command has run. -/
  halt : Bool := true
  /-- The settings of the compiler in the order given; of two for one key the later one counts. -/
  compilerOptions : List (String × Bool) := []
  /-- Errors met while reading, shown before those of the commands. -/
  errors : List String := []
  /-- Whether every compiled file is announced. -/
  verbose : Bool := false
  deriving DecidableEq, Repr

namespace Plan

/-- Whether the plan evaluates an expression. -/
def hasEval (plan : Plan) : Bool :=
  plan.commands.any fun
    | .eval _ => true
    | _ => false

/-- The plan with one more command at its end. -/
def addCommand (plan : Plan) (command : Command) : Plan :=
  { plan with commands := plan.commands ++ [command] }

/-- The plan with one more error at its end. -/
def addError (plan : Plan) (error : String) : Plan :=
  { plan with errors := plan.errors ++ [error] }

/-- The plan with one more source pattern at its end. -/
def addSource (plan : Plan) (pattern : String) : Plan :=
  { plan with sources := plan.sources ++ [pattern] }

/-- The plan with one more setting of the compiler. -/
def addOption (plan : Plan) (key : String) (value : Bool) : Plan :=
  { plan with compilerOptions := plan.compilerOptions ++ [(key, value)] }

end Plan

end Launcher
