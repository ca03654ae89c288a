import Launcher.Exit
import Launcher.Host.Language
import Launcher.Host.LocalFiles

/-!
# Rehearsals

A rehearsal runs the launcher with a script in place of hosted programs: what every expression,
file, application and hook does is written down beforehand. The collaborators are either stand-ins
that follow the script at once, or the default host over scripted programs. The files are those of
a table or of a file tree.
-/

namespace Launcher.Rehearsal

/-- What a scripted program does: print a line, queue hooks, fail, in this order. -/
structure Action where
  print : Option String := none
  atExit : List Hook := []
  failure : Option Failure := none

/-- Actions by what they belong to; what is not listed does nothing. -/
abbrev Cues := List (String × Action)

/-- A scripted hook: what it does, and which hooks it puts into the queue of the rehearsal in each
of its first `times` runs. -/
structure HookScript where
  action : Action := {}
  register : List Hook := []
  times : Int := 1

/-- A scripted module: how loading it fails, or what it depends on and does at its start. -/
structure ModuleScript where
  failure : Option Failure := none
  dependencies : List String := []
  start : Option Action := none

/-- A scripted source: the warning and the error that compiling it meets with. -/
structure SourceScript where
  warning : Option String := none
  error : Option String := none

/-- A table of files. -/
structure Table where
  files : List String := []
  directories : List String := []
  matching : List (String × List String) := []
  executables : List (String × String) := []
  batch : Bool := false

/-- A script. -/
structure Script where
  eval : Cues := []
  require : Cues := []
  start : Cues := []
  load : Cues := []
  compile : Cues := []
  cookie : Cues := []
  hooks : List (Hook × HookScript) := []
  modules : List (String × ModuleScript) := []
  sources : List (String × SourceScript) := []

/-- The state of a rehearsal. -/
structure Stage where
  /-- The runs of scripted hooks so far. -/
  hookRuns : List Hook := []
  required : List String := []
  started : List String := []
  /-- Whether compiling any file has failed. -/
  compileFailed : Bool := false
  node : Host.Node := {}
  tree : FileTree := {}

/-- The files required so far, as a part of the state. -/
def Stage.requiredSlot : Slot Stage (List String) where
  get := required
  set r s := { s with required := r }
  get_set _ _ := rfl
  set_get _ := rfl
  set_set _ _ _ := rfl

/-- The applications started so far, as a part of the state. -/
def Stage.startedSlot : Slot Stage (List String) where
  get := started
  set r s := { s with started := r }
  get_set _ _ := rfl
  set_get _ := rfl
  set_set _ _ _ := rfl

/-- The node, as a part of the state. -/
def Stage.nodeSlot : Slot Stage Host.Node where
  get := node
  set n s := { s with node := n }
  get_set _ _ := rfl
  set_get _ := rfl
  set_set _ _ _ := rfl

/-- What the default host remembers, as parts of the state. -/
def Stage.memory : Host.Memory Stage := ⟨requiredSlot, startedSlot, nodeSlot⟩

/-- The file tree, as a part of the state. -/
def Stage.treeSlot : Slot Stage FileTree where
  get := tree
  set t s := { s with tree := t }
  get_set _ _ := rfl
  set_get _ := rfl
  set_set _ _ _ := rfl

/-- A program on the stage. -/
abbrev Act (α : Type) := Hosted Stage α

/-- The program of an action. -/
def Action.perform (action : Action) : Act Unit := do
  match action.print with
  | some line => Hosted.print line
  | none => pure ()
  Hosted.each Hosted.atExit action.atExit
  match action.failure with
  | some failure => Hosted.raise failure
  | none => pure ()

/-- The program that a key is the cue for. -/
def Cues.perform (cues : Cues) (key : String) : Act Unit :=
  ((cues.lookup key).getD {}).perform

/-- The program behind a hook. A hook without a script does nothing. -/
def Script.call (script : Script) (queue : QueueId) (hook : Hook) (_status : Int) : Act Unit := do
  match script.hooks.lookup hook with
  | none => pure ()
  | some h => do
    Hosted.modify fun s ↦ { s with hookRuns := hook :: s.hookRuns }
    let s ← Hosted.get
    if Int.ofNat (s.hookRuns.count hook) ≤ h.times then
      Hosted.each (Hosted.enqueue queue) h.register
    h.action.perform

/-- How often a drain has to look at its queue. In a chain of hooks of which each queues the next,
the scripted runs that still register number at most the sum of `times`, and between two of them no
hook comes up twice, unless the chain has no end. -/
def Script.passes (script : Script) : Nat :=
  let registering := script.hooks.foldl (fun n entry ↦ n + entry.2.times.toNat) 0
  (registering + 2) * (script.hooks.length + 2)

/-- The end of a run over a script. -/
def Script.exit (script : Script) (queue : QueueId) (halting : Halting) : Exit Stage where
  queue := queue
  halting := halting
  call := script.call queue
  passes := script.passes

/-! ### Files -/

/-- The file system of a table. Creating a directory is only asked for. -/
def Table.fileSystem (table : Table) : FileSystem Stage where
  wildcard _ pattern := match table.matching.lookup pattern with
    | some found => found
    | none => if pattern ∈ table.files ∨ pattern ∈ table.directories then [pattern] else []
  isRegular _ path := path ∈ table.files
  isDirectory _ path := path ∈ table.directories
  findExecutable _ name := table.executables.lookup name
  isBatchPlatform _ := table.batch
  ensureDirectory _ := pure ()

/-! ### The default host over scripted programs -/

/-- What compiling a source meets with. A warning only counts when warnings are taken for errors,
and then it comes before the error. -/
def SourceScript.error? (source : SourceScript) (strict : Bool) : Option String :=
  match source.warning with
  | some warning => if strict then some warning else source.error
  | none => source.error

/-- The language of a rehearsal; expressions, files and modules follow the script. -/
def Script.language (script : Script) (version : String) : Host.Language Stage where
  version := version
  eval := script.eval.perform
  run := script.require.perform
  catalogue := script.modules.map Prod.fst
  load name := do
    let module := (script.modules.lookup name).getD {}
    match module.failure with
    | some failure => Hosted.raise failure
    | none => pure { dependencies := module.dependencies, start := module.start.map (·.perform) }
  compile file _ _ strict := do
    match ((script.sources.lookup file).getD {}).error? strict with
    | none => pure none
    | some message => do
      Hosted.modify fun s ↦ { s with compileFailed := true }
      pure (some (.source message))

/-! ### Stand-ins -/

/-- Compiling files one after another, and calling back for each. -/
def Script.compileEach (script : Script) (eachFile : Option (String → Act Unit))
    (file : String) : Act Unit := do
  script.compile.perform file
  match eachFile with
  | some f => f file
  | none => pure ()

/-- Collaborators that follow the script at once. -/
def Script.standIns (script : Script) (files : FileSystem Stage) (place : Place)
    (version : String) : Collaborators Stage where
  files := files
  place := place
  eval := script.eval.perform
  requireFile := script.require.perform
  loadFiles paths := script.load.perform (paths.headD "")
  startApplication := script.start.perform
  compileFiles paths _ _ eachFile := Hosted.each (script.compileEach eachFile) paths
  nodeIsAlive s := s.node.isAlive
  setCookie := script.cookie.perform
  version := version

end Launcher.Rehearsal
