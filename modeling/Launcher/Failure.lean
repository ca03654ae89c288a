import Launcher.Scalar

/-!
# Failures

How an action can end other than by returning. A failure is a cause together with the frames of
the hosted program that it passed through. Causes are told apart by what the launcher does about
them: a request to terminate, an exit of the process, an interrupt, a closed generator and a signal
that a program defines are not errors of a program, and everything else is. The launcher's own
errors may carry a hint.
-/

namespace Launcher

/-- A place in a hosted program: a line of a file, inside a function. -/
structure Frame where
  file : String
  line : Int
  name : String
  deriving DecidableEq, Repr

/-- The errors that the host's own operations raise. -/
inductive StandardError
  | keyError
  | typeError
  | valueError
  | runtimeError
  | zeroDivision
  | importError
  | moduleNotFound
  deriving DecidableEq, Repr

/-- Why the file system refused an operation. -/
inductive FileError
  | exists
  | notFound
  | notDirectory
  | nameTooLong
  | tooManyLinks
  deriving DecidableEq, Repr

/-- Why an action failed. -/
inductive Cause
  /-- A request to end the process with `status`. -/
  | terminate (status : Int)
  /-- The program left the process with an exit code. -/
  | exit (code : Scalar)
  /-- The user interrupted the program. -/
  | interrupt
  /-- A generator was closed. -/
  | generatorClosed
  /-- An application could not be started. -/
  | applicationStart (application reason : String)
  /-- A source could not be compiled. -/
  | compilation (message : String) (hint : Option String)
  /-- Something that the launcher can use is not installed. -/
  | environment (message : String) (hint : Option String)
  /-- Any other error of the launcher. -/
  | general (message : String) (hint : Option String)
  /-- An error of the host. -/
  | standard (kind : StandardError) (message : String)
  /-- The file system refused an operation on `path`. -/
  | file (kind : FileError) (path : String)
  /-- An error that the hosted program defines, in `module`. -/
  | custom (module name message : String)
  /-- Anything that is raised and is neither an error nor one of the above, defined in `module`. -/
  | signal (module name message : String)
  deriving DecidableEq, Repr

/-- A cause and the frames of the hosted program that it passed through, outermost first. -/
structure Failure where
  cause : Cause
  frames : List Frame := []
  deriving DecidableEq, Repr

namespace StandardError

/-- The name that messages give to the error. -/
def name : StandardError → String
  | keyError => "KeyError"
  | typeError => "TypeError"
  | valueError => "ValueError"
  | runtimeError => "RuntimeError"
  | zeroDivision => "ZeroDivisionError"
  | importError => "ImportError"
  | moduleNotFound => "ModuleNotFoundError"

end StandardError

namespace FileError

/-- The name that messages give to the error. -/
def name : FileError → String
  | .exists => "FileExistsError"
  | .notFound => "FileNotFoundError"
  | .notDirectory => "NotADirectoryError"
  | .nameTooLong => "OSError"
  | .tooManyLinks => "OSError"

/-- The number by which the system knows the error. -/
def number : FileError → Nat
  | .exists => 17
  | .notFound => 2
  | .notDirectory => 20
  | .nameTooLong => 36
  | .tooManyLinks => 40

/-- The system's words for the error. -/
def words : FileError → String
  | .exists => "File exists"
  | .notFound => "No such file or directory"
  | .notDirectory => "Not a directory"
  | .nameTooLong => "File name too long"
  | .tooManyLinks => "Too many levels of symbolic links"

end FileError

namespace Cause

/-- The short name of the kind of failure. -/
def name : Cause → String
  | terminate _ => "TerminationRequested"
  | exit _ => "SystemExit"
  | interrupt => "KeyboardInterrupt"
  | generatorClosed => "GeneratorExit"
  | applicationStart _ _ => "ApplicationStartError"
  | compilation _ _ => "CompilationError"
  | environment _ _ => "EnvironmentError"
  | general _ _ => "RuntimeCliError"
  | standard kind _ => kind.name
  | file kind _ => kind.name
  | custom _ name _ => name
  | signal _ name _ => name

/-- The text of the failure. -/
def message : Cause → String
  | terminate status => "termination requested with status " ++ toString status
  | exit code => code.message
  | interrupt => ""
  | generatorClosed => ""
  | applicationStart application reason => application ++ ": " ++ reason
  | compilation message _ => message
  | environment message _ => message
  | general message _ => message
  | standard _ message => message
  | file kind path =>
    "[Errno " ++ toString kind.number ++ "] " ++ kind.words ++ ": " ++ Text.quote path
  | custom _ _ message => message
  | signal _ _ message => message

/-- The name of the launcher's most general error. -/
def generalName : String := "RuntimeCliError"

/-- The names of the launcher's own kinds of error that a failure belongs to, the most special one
first. -/
def families (cause : Cause) : List String :=
  match cause with
  | general _ _ => [generalName]
  | terminate _ => [cause.name, generalName]
  | applicationStart _ _ => [cause.name, generalName]
  | compilation _ _ => [cause.name, generalName]
  | environment _ _ => [cause.name, generalName]
  | _ => []

/-- The module that the launcher's own errors are named after. -/
def launcherModule : String := "runtime_cli.exceptions"

/-- A name with its module, unless it is the host's own or belongs to the main program. -/
def qualified (module name : String) : String :=
  if module = "__main__" ∨ module = "builtins" then name else module ++ "." ++ name

/-- The name in front of the text in a trace: with its module, unless the error is the host's own
or belongs to the main program. -/
def fullName (cause : Cause) : String :=
  match cause with
  | custom module name _ => qualified module name
  | signal module name _ => qualified module name
  | _ => if cause.families.isEmpty then cause.name else launcherModule ++ "." ++ cause.name

/-- Advice that an error of the launcher carries. -/
def hint : Cause → Option String
  | compilation _ hint => hint
  | environment _ hint => hint
  | general _ hint => hint
  | _ => none

/-- Whether the failure is an error, as opposed to a way of leaving a program. -/
def isError : Cause → Bool
  | exit _ => false
  | interrupt => false
  | generatorClosed => false
  | signal _ _ _ => false
  | _ => true

/-- Whether a module could not be found or loaded. -/
def isImportError : Cause → Bool
  | standard .importError _ => true
  | standard .moduleNotFound _ => true
  | _ => false

end Cause

/-! ### The status that a failure asks for -/

/-- What becomes of the process when an action ends with a failure. -/
inductive Verdict
  /-- The process ends in good order with `status`. -/
  | exit (status : Int)
  /-- The user asked for the end. -/
  | interrupted
  /-- The failure is reported and the process ends with the general error status. -/
  | failed
  /-- The failure is not the launcher's to handle. -/
  | passedOn
  deriving DecidableEq, Repr

namespace Status

/-- Every command ran without error. -/
def success : Int := 0

/-- Errors were collected, or an action failed. -/
def generalError : Int := 1

/-- The user interrupted the run: 128 and the number of the signal. -/
def interrupted : Int := 130

end Status

/-- The status that an exit code stands for: a whole number stands for itself and no code for
success. Truth values, doubles and texts are none. -/
def Scalar.exitStatus? : Scalar → Option Int
  | .nothing => some Status.success
  | .whole n => some n
  | _ => none

/-- What the launcher does about a failure. -/
def Cause.verdict : Cause → Verdict
  | .terminate status => .exit status
  | .exit code => match code.exitStatus? with
    | some status => .exit status
    | none => .failed
  | .interrupt => .interrupted
  | .generatorClosed => .passedOn
  | .signal _ _ _ => .passedOn
  | _ => .failed

end Launcher
