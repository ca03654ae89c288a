import Launcher.Collaborators
import Launcher.FileTree.Executable
import Launcher.FileTree.Wildcard

/-!
# Local files

The file system of the launcher over a file tree.
-/

namespace Launcher.Host

variable {σ : Type}

/-- The parts of the shell that looking up files depends on: the search path for executables and
the name of the operating system. -/
structure Shell where
  searchPath : String := ""
  system : String := "Linux"
  deriving DecidableEq, Repr

/-- Whether the operating system wraps executables in batch scripts. -/
def Shell.isBatchPlatform (shell : Shell) : Bool :=
  shell.system.toList.map Char.toLower = "windows".toList

/-- The file system over the tree that is kept in a part of the state. -/
def localFiles (shell : Shell) (tree : Slot σ FileTree) : FileSystem σ where
  wildcard s := (tree.get s).wildcard
  isRegular s := (tree.get s).isRegular
  isDirectory s := (tree.get s).isDirectory
  findExecutable s := (tree.get s).findExecutable shell.searchPath
  isBatchPlatform _ := shell.isBatchPlatform
  ensureDirectory path := do
    let s ← Hosted.get
    let (failure, t) := (tree.get s).ensureDirectory path
    Hosted.modify (tree.set t)
    match failure with
    | none => pure ()
    | some (e, culprit) => Hosted.raise { cause := .file e culprit }

end Launcher.Host
