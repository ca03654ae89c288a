import Launcher.Argv.Parser
import Launcher.Dispatch
import Launcher.Exit

/-!
# Runs

A run of the launcher: read the command line, hand the trailing arguments to the hosted program,
run the plan, and end. Reading and running each take place inside the boundary. While a run is
going on its queue is bound; if the process stays alive, the queue stays bound until the callback
for the end of the process has drained it.
-/

namespace Launcher.Run

variable {σ : Type}

/-- The request to end the run with `status`. -/
def termination (status : Int) : Failure := { cause := .terminate status }

/-- Note everything that reading a command line has noted, and take over the search path. -/
def takeOver (p : Argv.Progress) : Session σ Unit := do
  Session.update fun w ↦ { w with path := p.path }
  Session.each Session.note p.notes

/-- Read the command line. The version is shown as often as it is reported. -/
def read (c : Collaborators σ) (arguments : List String) : Session σ (Plan × List String) := do
  let w ← Session.world
  let (ending, p) := Argv.parse (c.surroundings w.host) arguments {} w.path
  takeOver p
  Session.each (fun version ↦ Session.record (.versionShown version))
    (List.replicate ending.versionReports c.version)
  match ending.handBack with
  | .ok rest => pure (p.plan, rest)
  | .error failure => Session.raise failure

/-- Run a plan. Error lines are shown, and end the run with the general error status. -/
def execute (c : Collaborators σ) (plan : Plan) : Session σ Plan := do
  let errors ← Session.perform (Dispatch.plan c plan)
  if errors.isEmpty then pure plan
  else do
    Session.each (fun line ↦ Session.record (.errorShown line)) errors
    Session.raise (termination Status.generalError)

/-- Hand the trailing arguments to the hosted program. -/
def publish (c : Collaborators σ) (arguments : List String) : Session σ Unit := do
  Session.record (.published arguments)
  Session.update fun w ↦ { w with arguments }
  Session.perform (c.publish arguments)

/-- Read and execute inside the boundary. The plan is there only if the process stays alive. -/
def body (c : Collaborators σ) (exit : Exit σ) (arguments : List String) :
    Session σ (Option Plan) := do
  match ← exit.guarded false true (read c arguments) with
  | none => pure none
  | some (plan, rest) => do
    publish c rest
    exit.guarded plan.halt true (execute c plan)

/-- Take a step with `queue` bound. The binding returns to what it was, unless the step returns
with a plan: then a callback for the end of the process is left behind. -/
def withBound (queue : QueueId) (p : Session σ (Option Plan)) : Session σ (Option Plan) := do
  let previous ← Session.bindQueue (some queue)
  match ← Session.attempt p with
  | .ok (some plan) => do
    Session.update fun w ↦ { w with shutdowns := w.shutdowns ++ [⟨queue, previous⟩] }
    Session.record .shutdownPlanned
    pure (some plan)
  | .ok none => do
    let _ ← Session.bindQueue previous
    pure none
  | .error failure => do
    let _ ← Session.bindQueue previous
    Session.raise failure

/-- One run over the given command line. It returns the plan if the process stays alive. -/
def main (c : Collaborators σ) (exit : Exit σ) (arguments : List String) :
    Session σ (Option Plan) :=
  withBound exit.queue (body c exit arguments)

/-- The callback for the end of the process: drain the queue with success, then let the binding
return, however the drain ended. -/
def shutdown (exit : Exit σ) (callback : Shutdown) : Session σ Unit :=
  Session.rebinding callback.previous ({ exit with queue := callback.queue }.drain Status.success)

/-- The run of the console command: the log level comes from a setting, the arguments are those of
the process, and the plan is not handed back. -/
def command (c : Collaborators σ) (exit : Exit σ) (setting : Option String) : Session σ Unit := do
  Session.update fun w ↦ { w with level := LogLevel.ofSetting setting }
  let w ← Session.world
  let _ ← main c exit w.arguments
  pure ()

end Launcher.Run
