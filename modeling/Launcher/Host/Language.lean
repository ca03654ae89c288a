import Launcher.Collaborators
import Launcher.Host.Applications
import Launcher.Host.CodeServer
import Launcher.Host.Compiler
import Launcher.Host.Node

/-!
# The language of the default host

The default host runs programs of one language. It asks little of the language: evaluate an
expression, run a file, load a module, compile a file. The code server, the applications and the
compiler add their own rules to that, and remember what they have done in parts of the common state.
-/

namespace Launcher.Host

variable {σ : Type}

/-- What the default host needs of the language whose programs it runs. -/
structure Language (σ : Type) where
  /-- The name and version of the language. -/
  version : String
  /-- Evaluate an expression. -/
  eval : String → Hosted σ Unit
  /-- Run the file at an absolute path. -/
  run : String → Hosted σ Unit
  /-- The names of the modules that can be loaded. -/
  catalogue : List String
  /-- Load a module of the catalogue. -/
  load : String → Hosted σ (Application σ)
  /-- Compile a file to a target at a level, with or without taking warnings for errors. -/
  compile : (file target : String) → (level : Int) → (strict : Bool) →
    Hosted σ (Option CompileError)

/-- Where the default host keeps what it remembers. -/
structure Memory (σ : Type) where
  required : Slot σ (List String)
  started : Slot σ (List String)
  node : Slot σ Node

namespace Language

/-- The failure of turning to a language that is not there. -/
def missing : Failure := { cause := .environment "no language is attached" none }

/-- The language in which nothing can be run. -/
def none (version : String) : Language σ where
  version := version
  eval _ := Hosted.raise missing
  run _ := Hosted.raise missing
  catalogue := []
  load _ := Hosted.raise missing
  compile _ _ _ _ := Hosted.raise missing

/-- The code server of a language. -/
def codeServer (language : Language σ) (memory : Memory σ) (directory : String) : CodeServer σ where
  required := memory.required
  directory := directory
  run := language.run

/-- The applications of a language. -/
def applications (language : Language σ) (memory : Memory σ) : Applications σ where
  started := memory.started
  catalogue := language.catalogue
  load := language.load

/-- The compiler of a language. -/
def compiler (language : Language σ) : Compiler σ := ⟨language.compile⟩

/-- The default host. -/
def host (language : Language σ) (memory : Memory σ) (files : FileSystem σ) (place : Place) :
    Collaborators σ where
  files := files
  place := place
  eval := language.eval
  requireFile := (language.codeServer memory place.directory).requireFile
  loadFiles := (language.codeServer memory place.directory).loadFiles
  startApplication := (language.applications memory).start
  compileFiles := language.compiler.compileFiles
  nodeIsAlive s := (memory.node.get s).isAlive
  setCookie value := Hosted.modify (memory.node.update (·.setCookie value))
  version := language.version

end Language

end Launcher.Host
