import Launcher.Hosted
import Launcher.Path
import Launcher.Text.Blank

/-!
# The compiler

Compiles each source into a file of its own, named after the module that the source defines. Two
sources for one module are a conflict, found before anything is compiled, unless conflicts are to be
ignored. Compiled files are announced in the order of the sources, up to the first that fails.
-/

namespace Launcher.Host

variable {σ : Type}

/-- The settings of the compiler, by name. -/
abbrev Settings := List (String × Bool)

/-- The value of a setting, `fallback` if it is not given. -/
def Settings.value (settings : Settings) (key : String) (fallback : Bool) : Bool :=
  (settings.lookup key).getD fallback

/-- How compiling a single file can fail. -/
inductive CompileError
  /-- The machinery found the source faulty. -/
  | source (message : String)
  /-- Anything else. -/
  | other (failure : Failure)

namespace Compiler

/-- The module that a source defines. -/
def moduleName (file : String) : String := (Path.splitExtension (Path.baseName file)).1

/-- The file that a source is compiled to. -/
def target (output file : String) : String := Path.join output (moduleName file ++ ".pyc")

/-- The optimization level that settings ask for: documentation is dropped at the second, checks at
the first; by default it is left open. -/
def level (settings : Settings) : Int :=
  if !settings.value "docs" true then 2
  else if !settings.value "debug_info" true then 1
  else -1

/-- The failure of two sources for one module. The module's name is read off the target. -/
def conflict (file earlier target : String) : Failure :=
  let name := Path.baseName target
  { cause := .compilation
      (file ++ " and " ++ earlier ++ " both define module " ++
        String.ofList (name.toList.take (name.length - 4)))
      (some "Pass --ignore-module-conflict to overwrite.") }

/-- The first source whose target is already taken, after the sources in `seen`, which are listed
with their targets. -/
def findConflict (output : String) (seen : List (String × String)) :
    List String → Option Failure
  | [] => none
  | file :: files =>
    match seen.lookup (target output file) with
    | some earlier => some (conflict file earlier (target output file))
    | none => findConflict output ((target output file, file) :: seen) files

/-- The failure of a file to compile. -/
def CompileError.failure : CompileError → Failure
  | .source message => { cause := .compilation (Text.trim message) none }
  | .other failure => failure

end Compiler

/-- A compiler: the machinery that compiles a file to a target at a level, with or without taking
warnings for errors. -/
structure Compiler (σ : Type) where
  compile : (file target : String) → (level : Int) → (strict : Bool) →
    Hosted σ (Option CompileError)

namespace Compiler

/-- Compile one file. -/
def compileOne (compiler : Compiler σ) (output : String) (settings : Settings) (file : String) :
    Hosted σ Unit := do
  let target := target output file
  let strict := settings.value "warnings_as_errors" false
  match ← compiler.compile file target (level settings) strict with
  | some e => Hosted.raise (CompileError.failure e)
  | none => Hosted.emit (.compiled file target (level settings))

/-- Compile files one after another, and call back for each. -/
def compileAll (compiler : Compiler σ) (output : String) (settings : Settings)
    (eachFile : Option (String → Hosted σ Unit)) : List String → Hosted σ Unit
  | [] => pure ()
  | file :: files => do
    compiler.compileOne output settings file
    match eachFile with
    | some f => f file
    | none => pure ()
    compiler.compileAll output settings eachFile files

/-- Compile files into a directory. -/
def compileFiles (compiler : Compiler σ) (files : List String) (output : String)
    (settings : Settings) (eachFile : Option (String → Hosted σ Unit)) : Hosted σ Unit :=
  match if settings.value "ignore_module_conflict" false then none
    else findConflict output [] files with
  | some failure => Hosted.raise failure
  | none => compiler.compileAll output settings eachFile files

end Compiler

end Launcher.Host
