import Launcher.Event

/-!
# Queues of exit hooks

Hooks wait in queues until they are called or dropped. At most one queue is bound: it receives the
hooks of programs that do not name one.
-/

namespace Launcher

/-- The hooks that wait in queues, and the bound queue. A queue that is not listed is empty. -/
structure HookTable where
  queues : List (QueueId × List Hook) := []
  bound : Option QueueId := none
  deriving DecidableEq, Repr

namespace HookTable

/-- The hooks that wait in a queue, in the order in which they were put there. -/
def pending (t : HookTable) (queue : QueueId) : List Hook := (t.queues.lookup queue).getD []

/-- Replace the hooks of one queue. -/
def setPending (t : HookTable) (queue : QueueId) (hooks : List Hook) : HookTable :=
  { t with queues := (queue, hooks) :: t.queues.filter (·.1 ≠ queue) }

/-- Put a hook behind those of a queue. -/
def push (t : HookTable) (queue : QueueId) (hook : Hook) : HookTable :=
  t.setPending queue (t.pending queue ++ [hook])

/-- Empty a queue. -/
def clear (t : HookTable) (queue : QueueId) : HookTable := t.setPending queue []

@[simp] theorem pending_setPending_self (t : HookTable) (queue : QueueId) (hooks : List Hook) :
    (t.setPending queue hooks).pending queue = hooks := by simp [setPending, pending]

theorem lookup_filter_of_ne {queue q : QueueId} (h : q ≠ queue)
    (queues : List (QueueId × List Hook)) :
    (queues.filter (·.1 ≠ queue)).lookup q = queues.lookup q := by
  induction queues with
  | nil => rfl
  | cons entry queues ih =>
    by_cases he : entry.1 = queue
    · have hq : (q == entry.1) = false := by simpa [he] using h
      rw [List.filter_cons_of_neg (by simpa using he), ih, List.lookup_cons, hq]
    · rw [List.filter_cons_of_pos (by simpa using he), List.lookup_cons, List.lookup_cons, ih]

theorem pending_setPending_of_ne (t : HookTable) {queue q : QueueId} (hooks : List Hook)
    (h : q ≠ queue) : (t.setPending queue hooks).pending q = t.pending q := by
  have hq : (q == queue) = false := by simpa using h
  simp only [setPending, pending, List.lookup_cons, hq, lookup_filter_of_ne h]

@[simp] theorem bound_setPending (t : HookTable) (queue : QueueId) (hooks : List Hook) :
    (t.setPending queue hooks).bound = t.bound := rfl

end HookTable

end Launcher
