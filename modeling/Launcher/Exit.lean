import Launcher.Session

/-!
# The end of a run

A run ends by draining its queue of exit hooks and halting the process with the same status. Hooks
queued by a hook are called in the next pass. A failing hook is reported and the others go on.

The boundary around an action gives an ending of the action its status. An action that returns ends
the run with success, unless the process is to stay alive. A closed generator and a signal that the
launcher does not know are passed on.
-/

namespace Launcher

/-- What halting the process does. -/
inductive Halting
  /-- The halt is recorded, and the caller goes on. -/
  | recording
  /-- The process is left with the status as its exit code. -/
  | leaving
  /-- The halt itself fails. -/
  | failing (failure : Failure)
  deriving DecidableEq, Repr

/-- How a run ends. -/
structure Exit (σ : Type) where
  /-- The queue of the run. -/
  queue : QueueId := 0
  halting : Halting := .recording
  /-- The program behind a hook. -/
  call : Hook → Int → Hosted σ Unit
  /-- How many times the queue is looked at before the drain is given up. -/
  passes : Nat

namespace Exit

variable {σ α : Type}

/-- Call one hook; its failure is reported. -/
def callHook (exit : Exit σ) (status : Int) (hook : Hook) : Session σ Unit := do
  Session.record (.hookCalled hook status)
  match ← Session.attempt (Session.perform (exit.call hook status)) with
  | .ok _ => pure ()
  | .error failure => Session.record (.reported failure)

/-- Call the hooks of the queue, pass after pass, until a pass finds none. -/
def drainWithin (exit : Exit σ) (status : Int) : Nat → Session σ Unit
  | 0 => fun _ ↦ none
  | passes + 1 => do
    let hooks ← Session.flush exit.queue
    if hooks.isEmpty then pure ()
    else do
      Session.note (.runningHooks hooks.length status)
      Session.each (exit.callHook status) hooks
      exit.drainWithin status passes

/-- Call every hook of the queue with `status`. -/
def drain (exit : Exit σ) (status : Int) : Session σ Unit := exit.drainWithin status exit.passes

/-- Halt the process, without calling hooks. -/
def halt (exit : Exit σ) (status : Int) : Session σ Unit :=
  match exit.halting with
  | .recording => Session.record (.halted status)
  | .leaving => do
    Session.note (.halting status)
    Session.raise { cause := .exit (.whole status) }
  | .failing failure => Session.raise failure

/-- Call every hook, then halt the process with the same status. -/
def finish (exit : Exit σ) (status : Int) : Session σ Unit := do
  exit.drain status
  exit.halt status

/-- End the run after a failure that is nobody's wish. -/
def fail (exit : Exit σ) (failure : Failure) : Session σ Unit := do
  exit.drain Status.generalError
  Session.record (.reported failure)
  exit.halt Status.generalError

/-- End the run as a failure demands. -/
def settle (exit : Exit σ) (announcing : Bool) (failure : Failure) : Session σ Unit :=
  match failure.cause.verdict with
  | .exit status => exit.finish status
  | .interrupted => do
    if announcing then Session.record .aborted
    exit.finish Status.interrupted
  | .failed => exit.fail failure
  | .passedOn => Session.raise failure

/-- Take an action inside the boundary. The result is there only if the action returned and the
process is to stay alive. -/
def guarded (exit : Exit σ) (halt announcing : Bool) (action : Session σ α) :
    Session σ (Option α) := do
  match ← Session.attempt action with
  | .error failure => do
    exit.settle announcing failure
    pure none
  | .ok a =>
    if halt then do
      exit.finish Status.success
      pure none
    else pure (some a)

end Exit

end Launcher
