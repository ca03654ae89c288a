import Launcher.Hosted

/-!
# Applications

An application is a module. Its dependencies are started before it, in the order in which it lists
them, and it is started at most once. An application that comes up again while its own dependencies
are being started lies on a cycle and cannot be started.

Only the modules of a catalogue can be loaded, so the applications on the way to the one being
started are distinct members of the catalogue, and starting comes to an end.
-/

namespace Launcher.Host

variable {σ : Type}

/-- A loaded application: what it depends on, and its start function if it has one. -/
structure Application (σ : Type) where
  dependencies : List String := []
  start : Option (Hosted σ Unit) := none

/-- The modules that can be loaded, and where the started ones are remembered. -/
structure Applications (σ : Type) where
  started : Slot σ (List String)
  /-- The names of the modules. -/
  catalogue : List String
  /-- Load a module of the catalogue. -/
  load : String → Hosted σ (Application σ)

namespace Applications

/-- The failure of an application to start. -/
def failed (name reason : String) : Failure := { cause := .applicationStart name reason }

/-- The failure of loading a module that is not in the catalogue. -/
def noModule (name : String) : Failure :=
  { cause := .standard .moduleNotFound ("No module named '" ++ name ++ "'") }

/-- Load a module. -/
def loadAny (apps : Applications σ) (name : String) : Hosted σ (Application σ) :=
  if name ∈ apps.catalogue then apps.load name else Hosted.raise (noModule name)

/-- Load the module of an application. A module that cannot be found or loaded is a failure of the
application; any other failure is the module's own. -/
def loadOrFail (apps : Applications σ) (name : String) : Hosted σ (Application σ) := do
  match ← Hosted.attempt (apps.loadAny name) with
  | .ok app => pure app
  | .error failure =>
    if failure.cause.isImportError then
      Hosted.raise (failed name ("not found (" ++ failure.cause.message ++ ")"))
    else Hosted.raise failure

/-- Call the start function of an application. An error in it is a failure of the application. -/
def callStart (name : String) (start : Hosted σ Unit) : Hosted σ Unit := do
  match ← Hosted.attempt (Hosted.andThen (Hosted.emit (.started name)) fun _ ↦ start) with
  | .ok _ => pure ()
  | .error failure =>
    if failure.cause.isError then
      Hosted.raise (failed name (failure.cause.name ++ ": " ++ failure.cause.message))
    else Hosted.raise failure

/-- Call the start function of a loaded application, if it has one, and remember it as started. -/
def finish (apps : Applications σ) (name : String) (app : Application σ) : Hosted σ Unit := do
  match app.start with
  | some start => callStart name start
  | none => pure ()
  Hosted.note (.startedApplication name)
  Hosted.modify (apps.started.update (· ++ [name]))

/-- The modules of the catalogue that are not among `starting`. -/
def remaining (apps : Applications σ) (starting : List String) : List String :=
  apps.catalogue.filter (· ∉ starting)

theorem length_remaining_lt {apps : Applications σ} {starting : List String} {name : String}
    (hmem : name ∈ apps.catalogue) (hnot : name ∉ starting) :
    (apps.remaining (starting ++ [name])).length < (apps.remaining starting).length := by
  have hsub : apps.remaining (starting ++ [name]) =
      (apps.remaining starting).filter (· ≠ name) := by
    simp only [remaining, List.filter_filter]
    congr 1
    funext a
    by_cases h : a = name <;> simp [h]
  rw [hsub]
  exact List.length_filter_lt_length_iff_exists.2
    ⟨name, List.mem_filter.2 ⟨hmem, by simpa using hnot⟩, by simp⟩

/-- Start an application while those in `starting` wait for it. -/
def startWithin (apps : Applications σ) (starting : List String) (name : String) :
    Hosted σ Unit := do
  let s ← Hosted.get
  if name ∈ apps.started.get s then pure ()
  else if _hnot : name ∈ starting then
    Hosted.raise (failed name "circular application dependency")
  else if _hmem : name ∈ apps.catalogue then do
    let app ← apps.loadOrFail name
    Hosted.each (fun dependency ↦ apps.startWithin (starting ++ [name]) dependency)
      app.dependencies
    apps.finish name app
  else do
    let _ ← apps.loadOrFail name
    pure ()
  termination_by (apps.remaining starting).length
  decreasing_by exact length_remaining_lt _hmem _hnot

/-- Start an application and everything it depends on. -/
def start (apps : Applications σ) (name : String) : Hosted σ Unit := apps.startWithin [] name

end Applications

end Launcher.Host
