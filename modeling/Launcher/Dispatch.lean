import Launcher.Collaborators
import Launcher.Distinct

/-!
# Dispatch

Running the commands of a plan. A command either succeeds or has one error line; error lines are
collected and never stop the plan. A collaborator that fails stops it, except that the failure of
an application to start is an error line, too.
-/

namespace Launcher.Dispatch

variable {σ : Type}

/-- The settings of the compiler as a map: every key once, with the value given last, in the order
of the keys. -/
def settings (options : List (String × Bool)) : List (String × Bool) :=
  let keys := (distinct (options.map Prod.fst)).mergeSort fun a b ↦ a ≤ b
  keys.map fun key ↦ (key, (options.reverse.lookup key).getD false)

/-- The distinct regular files that a pattern matches, in the order of the matches. -/
def regularFiles (c : Collaborators σ) (s : σ) (pattern : String) : List String :=
  (distinct (c.files.wildcard s pattern)).filter (c.files.isRegular s)

/-- The file to run for the name of an executable. On a batch platform it is the file next to the
wrapper and without the wrapper's extension. -/
def findScript (c : Collaborators σ) (s : σ) (name : String) : Option String :=
  match c.files.findExecutable s name with
  | none => none
  | some executable =>
    if c.files.isBatchPlatform s then
      let script := (Path.splitExtension executable).1
      if c.files.isRegular s script then some script else none
    else some executable

/-- Turn to a collaborator. -/
def ask (request : Request) (p : Hosted σ Unit) : Hosted σ Unit :=
  Hosted.andThen (Hosted.emit (.asked request)) fun _ ↦ p

/-- Turn to a collaborator; there is no error line. -/
def invoke (request : Request) (p : Hosted σ Unit) : Hosted σ (Option String) := do
  ask request p
  pure none

/-- Run one file. -/
def require (c : Collaborators σ) (path : String) : Hosted σ Unit :=
  ask (.require path) (c.requireFile path)

/-- Set the cookie of a node that is alive. -/
def cookie (c : Collaborators σ) (value : String) : Hosted σ (Option String) := do
  if c.nodeIsAlive (← Hosted.get) then invoke (.cookie value) (c.setCookie value)
  else pure (some
    "--cookie : Cannot set cookie if the node is not alive (set --name or --sname)")

/-- Start an application. -/
def app (c : Collaborators σ) (name : String) : Hosted σ (Option String) := do
  match ← Hosted.attempt (ask (.start name) (c.startApplication name)) with
  | .ok _ => pure none
  | .error failure => match failure.cause with
    | .applicationStart application reason =>
      pure (some ("--app : Could not start application " ++ application ++ ": " ++ reason))
    | _ => Hosted.raise failure

/-- Find an executable and run it. -/
def script (c : Collaborators σ) (name : String) : Hosted σ (Option String) := do
  match findScript c (← Hosted.get) name with
  | none => pure (some ("-S : Could not find executable " ++ name))
  | some path => do
    require c path
    pure none

/-- Run a file. -/
def file (c : Collaborators σ) (path : String) : Hosted σ (Option String) := do
  if c.files.isRegular (← Hosted.get) path then do
    require c path
    pure none
  else pure (some ("No file named " ++ path))

/-- Run the files that a pattern matches, one after another. -/
def requireAll (c : Collaborators σ) (pattern : String) : Hosted σ (Option String) := do
  let files := regularFiles c (← Hosted.get) pattern
  if files.isEmpty then pure (some ("-r : No files matched pattern " ++ pattern))
  else do
    Hosted.each (require c) files
    pure none

/-- Run the files that a pattern matches through the loader. -/
def loadAll (c : Collaborators σ) (pattern : String) : Hosted σ (Option String) := do
  let files := regularFiles c (← Hosted.get) pattern
  if files.isEmpty then pure (some ("-pr : No files matched pattern " ++ pattern))
  else invoke (.load files) (c.loadFiles files)

/-- The patterns without a regular file. -/
def missing (c : Collaborators σ) (s : σ) (patterns : List String) : List String :=
  distinct (patterns.filter fun pattern ↦ (regularFiles c s pattern).isEmpty)

/-- The regular files that any of the patterns matches, by pattern and then by match. -/
def matched (c : Collaborators σ) (s : σ) (patterns : List String) : List String :=
  distinct (patterns.flatMap (regularFiles c s))

/-- Compile the sources of a plan. The output directory is created first. Nothing is compiled
unless every pattern has a regular file. -/
def compile (c : Collaborators σ) (plan : Plan) (patterns : List String) :
    Hosted σ (Option String) := do
  ask (.ensureDirectory plan.output) (c.files.ensureDirectory plan.output)
  let s ← Hosted.get
  if !(missing c s patterns).isEmpty then
    pure (some ("No files matched pattern(s) " ++ ",".intercalate (missing c s patterns)))
  else if (matched c s patterns).isEmpty then pure (some "No files matched provided patterns")
  else
    let files := matched c s patterns
    let options := settings plan.compilerOptions
    let announce := fun file ↦ Hosted.emit (.announced file)
    invoke (.compile files plan.output options plan.verbose)
      (c.compileFiles files plan.output options (if plan.verbose then some announce else none))

/-- The failure of running a value that is no command. -/
def notACommand (value : Literal) : Failure :=
  { cause := .standard .typeError ("Unknown command: " ++ value.written) }

/-- Run one command of a plan. -/
def command (c : Collaborators σ) (plan : Plan) : Command → Hosted σ (Option String)
  | .cookie value => cookie c value
  | .eval expression => invoke (.eval expression) (c.eval expression)
  | .app name => app c name
  | .script name => script c name
  | .file path => file c path
  | .require pattern => requireAll c pattern
  | .parallelRequire pattern => loadAll c pattern
  | .compile patterns => compile c plan patterns
  | .unknown value => Hosted.raise (notACommand value)

/-- Run commands in order and collect their error lines. -/
def commands (c : Collaborators σ) (plan : Plan) : List Command → Hosted σ (List String)
  | [] => pure []
  | first :: rest => do
    Hosted.note (.runningCommand first)
    let error ← command c plan first
    let errors ← commands c plan rest
    pure (error.toList ++ errors)

/-- Run every command of a plan. The errors met while reading come first. -/
def plan (c : Collaborators σ) (plan : Plan) : Hosted σ (List String) := do
  let errors ← commands c plan plan.commands
  pure (plan.errors ++ errors)

end Launcher.Dispatch
