import Launcher.Argv.Progress
import Launcher.Hosted

/-!
# Collaborators

Everything that the launcher turns to: the file system, the evaluator and the loaders, the compiler,
the applications and the node. They share one state. Whatever acts or runs hosted code is a hosted
program, which may fail and may change the state in any way.

Questions about the files and the node are total functions of the state: a question is answered and
changes nothing. The version is even the same in all states. So a question that fails, or that does
something besides giving its answer, is left out here.
-/

namespace Launcher

/-- The file system, as far as the launcher needs it: questions, which are always answered, and the
creation of directories, which may fail. -/
structure FileSystem (σ : Type) where
  /-- The paths that a pattern matches, in order. -/
  wildcard : σ → String → List String
  /-- Whether a path names a regular file. -/
  isRegular : σ → String → Bool
  /-- Whether a path names a directory. -/
  isDirectory : σ → String → Bool
  /-- The executable of a name on the search path of the shell. -/
  findExecutable : σ → String → Option String
  /-- Whether executables are wrapped in batch scripts. -/
  isBatchPlatform : σ → Bool
  /-- Create a directory and those above it, as far as they are missing. -/
  ensureDirectory : String → Hosted σ Unit

/-- All collaborators of a run, over states `σ`. -/
structure Collaborators (σ : Type) where
  files : FileSystem σ
  place : Place
  /-- Evaluate an expression. -/
  eval : String → Hosted σ Unit
  /-- Run the file at a path. -/
  requireFile : String → Hosted σ Unit
  /-- Run several files and wait for all of them. -/
  loadFiles : List String → Hosted σ Unit
  /-- Start an application and what it depends on. -/
  startApplication : String → Hosted σ Unit
  /-- Compile files into a directory with the given settings, and call back for each if asked. -/
  compileFiles : List String → String → List (String × Bool) → Option (String → Hosted σ Unit) →
    Hosted σ Unit
  /-- Whether the process is part of a cluster. -/
  nodeIsAlive : σ → Bool
  setCookie : String → Hosted σ Unit
  /-- Hand the trailing arguments to the hosted program. -/
  publish : List String → Hosted σ Unit := fun _ ↦ pure ()
  /-- The name and version of the language runtime. -/
  version : String

/-- What reading a command line can see in the state `s`. -/
def Collaborators.surroundings {σ : Type} (c : Collaborators σ) (s : σ) : Argv.Surroundings where
  wildcard := c.files.wildcard s
  isDirectory := c.files.isDirectory s
  place := c.place

end Launcher
