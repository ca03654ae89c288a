import Launcher.HookTable
import Launcher.Hosted
import Launcher.LogLevel
import Launcher.SearchPath

/-!
# Sessions

A session is the launcher at work on the process: it moves hooks between queues, changes the search
path, runs hosted programs, and leaves a trace of events. A step of a session returns, fails, or,
when hooks go on queueing hooks for longer than the session is prepared to wait, has no result at
all; a step without result cannot be recovered from.
-/

namespace Launcher

/-- A callback for the end of the process: the queue that is drained then, and the queue to which
the binding returns afterwards. -/
structure Shutdown where
  queue : QueueId
  previous : Option QueueId
  deriving DecidableEq, Repr

/-- The state of the process, with states `σ` for the hosted programs. -/
structure World (σ : Type) where
  host : σ
  hooks : HookTable := {}
  path : SearchPath := {}
  /-- The arguments that the hosted program sees. -/
  arguments : List String := []
  shutdowns : List Shutdown := []
  /-- The log level: notes below it are not recorded. -/
  level : Int := LogLevel.warning
  /-- The events so far, the last one first. -/
  log : List Event := []

namespace World

variable {σ : Type}

/-- Whether diagnostic notes are recorded. -/
def notes (w : World σ) : Bool := LogLevel.shows w.level LogLevel.debug

/-- The events so far, in order. -/
def trace (w : World σ) : List Event := w.log.reverse

/-- The world with one more event. A note is dropped unless notes are recorded. -/
def record (w : World σ) (event : Event) : World σ :=
  if event.note?.isSome && !w.notes then w else { w with log := event :: w.log }

theorem trace_record (w : World σ) (event : Event) :
    (w.record event).trace =
      if event.note?.isSome && !w.notes then w.trace else w.trace ++ [event] := by
  unfold record
  split <;> simp [trace]

/-- The world with one more hook in a queue, which was named or is the bound one. -/
def push (w : World σ) (queue : QueueId) (hook : Hook) (named : Bool) : World σ :=
  { w with hooks := w.hooks.push queue hook }.record (.queued queue hook named)

/-- The world after one effect of a hosted program. -/
def apply (w : World σ) : Effect → World σ
  | .event event => w.record (.hosted event)
  | .enqueue (some queue) hook => w.push queue hook true
  | .enqueue none hook => match w.hooks.bound with
    | some queue => w.push queue hook false
    | none => w

/-- The world after the effects of a hosted program. -/
def applyAll (w : World σ) (effects : List Effect) : World σ := effects.foldl apply w

end World

/-- A step of a session that may return a value in `α`. -/
def Session (σ α : Type) : Type := World σ → Option (Except Failure α × World σ)

namespace Session

variable {σ α β : Type}

/-- The step that returns `a` and changes nothing. -/
def ret (a : α) : Session σ α := fun w ↦ some (.ok a, w)

/-- One step after another. -/
def andThen (p : Session σ α) (f : α → Session σ β) : Session σ β := fun w ↦
  match p w with
  | none => none
  | some (.error failure, w) => some (.error failure, w)
  | some (.ok a, w) => f a w

instance : Monad (Session σ) where
  pure := ret
  bind := andThen

/-- Fail. -/
def raise (failure : Failure) : Session σ α := fun w ↦ some (.error failure, w)

/-- Take a step and return how it ended. -/
def attempt (p : Session σ α) : Session σ (Except Failure α) := fun w ↦
  (p w).map fun (result, w) ↦ (.ok result, w)

/-- The state of the process. -/
def world : Session σ (World σ) := fun w ↦ some (.ok w, w)

/-- Change the state of the process. -/
def update (f : World σ → World σ) : Session σ Unit := fun w ↦ some (.ok (), f w)

/-- Make an event. -/
def record (event : Event) : Session σ Unit := update (·.record event)

/-- Make a diagnostic note. -/
def note (note : Note) : Session σ Unit := record (.noted note)

/-- Run a hosted program. -/
def perform (p : Hosted σ α) : Session σ α := fun w ↦
  let outcome := p w.hooks.bound.isSome w.host
  some (outcome.result, { w with host := outcome.state }.applyAll outcome.effects)

/-- Take a step for every member of a list. -/
def each (f : α → Session σ Unit) : List α → Session σ Unit
  | [] => ret ()
  | a :: as => andThen (f a) fun _ ↦ each f as

/-- Bind a queue, or none, and return the queue that was bound before. -/
def bindQueue (queue : Option QueueId) : Session σ (Option QueueId) := fun w ↦
  some (.ok w.hooks.bound, { w with hooks := { w.hooks with bound := queue } })

/-- Take a step and bind `queue`, however the step ends. -/
def rebinding (queue : Option QueueId) (p : Session σ α) : Session σ α := do
  let result ← attempt p
  let _ ← bindQueue queue
  match result with
  | .ok a => ret a
  | .error failure => raise failure

/-- Put a hook into a queue. -/
def enqueue (queue : QueueId) (hook : Hook) : Session σ Unit := update (·.push queue hook true)

/-- Empty a queue and return its hooks. -/
def flush (queue : QueueId) : Session σ (List Hook) := fun w ↦
  let hooks := w.hooks.pending queue
  some (.ok hooks, { w with hooks := w.hooks.clear queue }.record (.taken queue hooks))

/-- Take a step and empty a queue, however the step ends. -/
def closing (queue : QueueId) (p : Session σ α) : Session σ α := do
  let result ← attempt p
  let _ ← flush queue
  match result with
  | .ok a => ret a
  | .error failure => raise failure

end Session

end Launcher
