import Launcher.Exit

/-!
# Operations on queues of exit hooks

What can happen to the queues of exit hooks, step by step: hooks are queued and taken out, queues
are bound, drained and dropped, and the process is halted. A block of operations drops the hooks of
a queue at its end, whether it ends normally or by a failure.
-/

namespace Launcher.Exit

/-- An operation on the queues of exit hooks. -/
inductive Operation
  /-- Put a hook into a queue. -/
  | register (queue : QueueId) (hook : Hook)
  /-- Take the hooks out of a queue. -/
  | flush (queue : QueueId)
  /-- Drop the hooks of a queue. -/
  | close (queue : QueueId)
  /-- Operations, and a close however they end. -/
  | block (queue : QueueId) (operations : List Operation)
  /-- Bind a queue, or none. -/
  | bind (queue : Option QueueId)
  /-- Put a hook into the bound queue. -/
  | atExit (hook : Hook)
  | drain (status : Int)
  | finish (status : Int)
  | halt (status : Int)
  deriving Inhabited

/-- What an operation hands back. -/
inductive Handback
  | nothing
  | hooks (hooks : List Hook)
  | queue (queue : Option QueueId)
  deriving DecidableEq, Repr

variable {σ : Type}

/-- A step that hands back nothing. -/
def quietly (p : Session σ Unit) : Session σ Handback := do
  p
  pure .nothing

mutual

/-- One operation. -/
def perform (exit : Exit σ) : Operation → Session σ Handback
  | .register queue hook => quietly (Session.enqueue queue hook)
  | .flush queue => do pure (.hooks (← Session.flush queue))
  | .close queue => quietly (do let _ ← Session.flush queue)
  | .block queue operations => quietly (Session.closing queue (performAll exit operations))
  | .bind queue => do pure (.queue (← Session.bindQueue queue))
  | .atExit hook => quietly (Session.perform (Hosted.atExit hook))
  | .drain status => quietly (exit.drain status)
  | .finish status => quietly (exit.finish status)
  | .halt status => quietly (exit.halt status)

/-- Operations one after another, up to the first that fails. -/
def performAll (exit : Exit σ) : List Operation → Session σ Unit
  | [] => pure ()
  | operation :: operations => do
    let _ ← perform exit operation
    performAll exit operations

end

end Launcher.Exit
