import Launcher.Hosted
import Launcher.Path

/-!
# The code server

Runs files, each at most once. A file is known by its absolute path, and it counts as required from
before it runs, so that a file which fails or asks for itself is not run again.
-/

namespace Launcher.Host

variable {σ : Type}

/-- A code server: where it remembers the files required so far, what relative paths refer to, and
the program that runs the file at an absolute path. -/
structure CodeServer (σ : Type) where
  required : Slot σ (List String)
  directory : String
  run : String → Hosted σ Unit

namespace CodeServer

/-- Run the file at a path, unless it has been required before. -/
def requireFile (server : CodeServer σ) (path : String) : Hosted σ Unit := do
  let absolute := Path.absolute server.directory path
  let s ← Hosted.get
  if absolute ∈ server.required.get s then Hosted.note (.alreadyRequired absolute)
  else do
    Hosted.modify (server.required.update (· ++ [absolute]))
    Hosted.note (.requiring absolute)
    Hosted.emit (.ran absolute)
    server.run absolute

/-- Run programs one after another, whether they fail or not, and return the first failure. -/
def runAll : List (Hosted σ Unit) → Hosted σ (Option Failure)
  | [] => pure none
  | p :: ps => do
    let result ← Hosted.attempt p
    let later ← runAll ps
    match result with
    | .ok _ => pure later
    | .error failure => pure (some failure)

/-- Run several files and wait for all of them; then the failure of the first that failed comes
out. -/
def loadFiles (server : CodeServer σ) (paths : List String) : Hosted σ Unit := do
  match ← runAll (paths.map server.requireFile) with
  | none => pure ()
  | some failure => Hosted.raise failure

end CodeServer

end Launcher.Host
