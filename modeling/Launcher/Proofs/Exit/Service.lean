import Launcher.Exit
import Launcher.Proofs.Story
import Mathlib.Data.List.Basic

/-!
# Serving a queue of hooks

A queue is **served** one hook at a time: as long as there is a first hook, it is taken out and
called, and what it queues goes behind all others (`Serves`). The hooks are called in the order in
which they were queued (`Serves.map_hook`).

A **pass** calls a list of hooks without a look at the queue. Whoever serves the hooks of a pass and
then the queue serves the hooks of the pass, the queue, and behind it what the pass has queued
(`Serves.append_iff`); this is what lets a drain work in passes. A queue can be served to its end if
every hook only queues hooks of a lower rank (`exists_serves_of_rank`).
-/

namespace Launcher.Exit

variable {σ : Type}

/-! ### Calls -/

/-- One call of a hook: the hook, and what its program left behind. -/
structure Call (σ : Type) where
  hook : Hook
  outcome : Outcome σ Unit

namespace Call

/-- The hooks that a call put into `queue` while `bound` was bound. -/
def queued (queue : QueueId) (bound : Option QueueId) (call : Call σ) : List Hook :=
  call.outcome.effects.filterMap (Effect.hook? queue bound)

/-- The failure of a call. -/
def failure? (call : Call σ) : Option Failure :=
  match call.outcome.result with
  | .ok _ => none
  | .error failure => some failure

/-- What a call with `status` adds to the story: the call, the effects of its program, and the report
of its failure. -/
def story (status : Int) (bound : Option QueueId) (call : Call σ) : List Event :=
  .hookCalled call.hook status ::
    (Effect.storyOf bound call.outcome.effects ++ call.failure?.toList.map .reported)

variable (status : Int) (bound : Option QueueId)

/-- A reading of the story that passes over programs and queued hooks finds the calls and the
reports. -/
theorem filterMap_flatMap_story {α : Type} {f : Event → Option α}
    (hhosted : ∀ hosted, f (.hosted hosted) = none)
    (hqueued : ∀ queue hook named, f (.queued queue hook named) = none) (calls : List (Call σ)) :
    (calls.flatMap (story status bound)).filterMap f =
      calls.flatMap fun call ↦ (f (.hookCalled call.hook status)).toList ++
        call.failure?.toList.filterMap fun failure ↦ f (.reported failure) := by
  rw [List.filterMap_flatMap]
  refine List.flatMap_congr fun call _ ↦ ?_
  rw [story, List.filterMap_cons, List.filterMap_append, List.filterMap_map,
    Effect.filterMap_storyOf_eq_nil hhosted hqueued]
  cases f (.hookCalled call.hook status) <;> rfl

theorem filterMap_called?_story (calls : List (Call σ)) :
    (calls.flatMap (story status bound)).filterMap Event.called? =
      calls.map fun call ↦ (call.hook, status) := by
  rw [filterMap_flatMap_story status bound (fun _ ↦ rfl) (fun _ _ _ ↦ rfl), List.map_eq_flatMap]
  refine List.flatMap_congr fun call _ ↦ ?_
  cases call.failure? <;> rfl

theorem filterMap_reported?_story (calls : List (Call σ)) :
    (calls.flatMap (story status bound)).filterMap Event.reported? = calls.filterMap failure? := by
  rw [filterMap_flatMap_story status bound (fun _ ↦ rfl) (fun _ _ _ ↦ rfl),
    List.filterMap_eq_flatMap_toList]
  refine List.flatMap_congr fun call _ ↦ ?_
  cases call.failure? <;> rfl

/-- No call halts the process. -/
theorem filterMap_halted?_story (calls : List (Call σ)) :
    (calls.flatMap (story status bound)).filterMap Event.halted? = [] := by
  rw [filterMap_flatMap_story status bound (fun _ ↦ rfl) (fun _ _ _ ↦ rfl),
    List.flatMap_eq_nil_iff]
  intro call _
  cases call.failure? <;> rfl

/-- The story tells every hook that calls put into a queue. -/
theorem filterMap_queued?_story (queue : QueueId) (calls : List (Call σ)) :
    (calls.flatMap (story status bound)).filterMap (Event.queued? queue) =
      calls.flatMap (queued queue bound) := by
  rw [List.filterMap_flatMap]
  refine List.flatMap_congr fun call _ ↦ ?_
  rw [story, List.filterMap_cons_none (by rfl), List.filterMap_append,
    Effect.filterMap_queued?_storyOf, queued]
  cases call.failure? <;> exact List.append_nil _

end Call

/-- The call of a hook in the state `s`. -/
def callOf (exit : Exit σ) (status : Int) (bound : Option QueueId) (hook : Hook) (s : σ) : Call σ :=
  ⟨hook, exit.call hook status bound.isSome s⟩

@[simp]
theorem hook_callOf (exit : Exit σ) (status : Int) (bound : Option QueueId) (hook : Hook) (s : σ) :
    (exit.callOf status bound hook s).hook = hook :=
  rfl

/-- Serving a queue one hook at a time: `calls` are the calls that empty the queue `hooks` from the
state `s` on, and `s'` is the state they lead to. -/
inductive Serves (exit : Exit σ) (status : Int) (bound : Option QueueId) :
    List Hook → σ → List (Call σ) → σ → Prop
  | done {s : σ} : Serves exit status bound [] s [] s
  | call {hook : Hook} {rest : List Hook} {s s' : σ} {calls : List (Call σ)} :
    Serves exit status bound
      (rest ++ (exit.callOf status bound hook s).queued exit.queue bound)
      (exit.callOf status bound hook s).outcome.state calls s' →
    Serves exit status bound (hook :: rest) s (exit.callOf status bound hook s :: calls) s'

/-- The calls of one pass over `hooks`, and the state they lead to. -/
def pass (exit : Exit σ) (status : Int) (bound : Option QueueId) : List Hook → σ → List (Call σ) × σ
  | [], s => ([], s)
  | hook :: hooks, s =>
    let call := exit.callOf status bound hook s
    let (calls, s') := exit.pass status bound hooks call.outcome.state
    (call :: calls, s')

variable {exit : Exit σ} {status : Int} {bound : Option QueueId}

theorem length_pass (hooks : List Hook) (s : σ) :
    (exit.pass status bound hooks s).1.length = hooks.length := by
  induction hooks generalizing s with
  | nil => rfl
  | cons hook hooks ih => exact congrArg (· + 1) (ih _)

/-- Each call of a pass queues what some hook of the pass queues. -/
theorem exists_of_mem_pass {hooks : List Hook} {s : σ} {call : Call σ}
    (h : call ∈ (exit.pass status bound hooks s).1) :
    ∃ hook ∈ hooks, ∃ t, call = exit.callOf status bound hook t := by
  induction hooks generalizing s with
  | nil => cases h
  | cons hook hooks ih =>
    rcases List.mem_cons.1 h with rfl | h
    · exact ⟨hook, List.mem_cons_self, s, rfl⟩
    · obtain ⟨hook', hmem, t, rfl⟩ := ih h
      exact ⟨hook', List.mem_cons_of_mem _ hmem, t, rfl⟩

/-! ### The queue that is served -/

namespace Serves

theorem nil_iff {s s' : σ} {calls : List (Call σ)} :
    exit.Serves status bound [] s calls s' ↔ calls = [] ∧ s' = s := by
  constructor
  · intro h
    cases h
    exact ⟨rfl, rfl⟩
  · rintro ⟨rfl, rfl⟩
    exact .done

theorem cons_iff {hook : Hook} {rest : List Hook} {s s' : σ} {calls : List (Call σ)} :
    exit.Serves status bound (hook :: rest) s calls s' ↔
      ∃ more, calls = exit.callOf status bound hook s :: more ∧
        exit.Serves status bound
          (rest ++ (exit.callOf status bound hook s).queued exit.queue bound)
          (exit.callOf status bound hook s).outcome.state more s' := by
  constructor
  · intro h
    cases h with
    | call h => exact ⟨_, rfl, h⟩
  · rintro ⟨more, rfl, h⟩
    exact .call h

/-- **A pass and what it leaves in the queue.** Serving `hooks ++ queue` is the pass over `hooks`
followed by serving `queue` and what the pass has put behind it. -/
theorem append_iff {hooks queue : List Hook} {s s' : σ} {calls : List (Call σ)} :
    exit.Serves status bound (hooks ++ queue) s calls s' ↔
      ∃ more, calls = (exit.pass status bound hooks s).1 ++ more ∧
        exit.Serves status bound
          (queue ++ (exit.pass status bound hooks s).1.flatMap (Call.queued exit.queue bound))
          (exit.pass status bound hooks s).2 more s' := by
  induction hooks generalizing queue s calls with
  | nil => simp [pass]
  | cons hook hooks ih =>
    rw [List.cons_append, cons_iff]
    simp only [List.append_assoc, ih]
    constructor
    · rintro ⟨_, rfl, more, rfl, h⟩
      exact ⟨more, rfl, h⟩
    · rintro ⟨more, rfl, h⟩
      exact ⟨_, rfl, more, rfl, h⟩

theorem pass_iff {hooks : List Hook} {s s' : σ} {calls : List (Call σ)} :
    exit.Serves status bound hooks s calls s' ↔
      ∃ more, calls = (exit.pass status bound hooks s).1 ++ more ∧
        exit.Serves status bound
          ((exit.pass status bound hooks s).1.flatMap (Call.queued exit.queue bound))
          (exit.pass status bound hooks s).2 more s' := by
  have h : exit.Serves status bound (hooks ++ []) s calls s' ↔ _ := append_iff
  rwa [List.append_nil] at h

/-- A queue is served in one way. -/
theorem unique {hooks : List Hook} {s s₁ s₂ : σ} {calls₁ calls₂ : List (Call σ)}
    (h₁ : exit.Serves status bound hooks s calls₁ s₁)
    (h₂ : exit.Serves status bound hooks s calls₂ s₂) : calls₁ = calls₂ ∧ s₁ = s₂ := by
  induction h₁ generalizing calls₂ s₂ with
  | done =>
    obtain ⟨rfl, rfl⟩ := nil_iff.1 h₂
    exact ⟨rfl, rfl⟩
  | call _ ih =>
    obtain ⟨more, rfl, h⟩ := cons_iff.1 h₂
    obtain ⟨rfl, rfl⟩ := ih h
    exact ⟨rfl, rfl⟩

/-- **First in, first out**: the hooks called are those that waited, followed by those that the calls
queued, in this order. -/
theorem map_hook {hooks : List Hook} {s s' : σ} {calls : List (Call σ)}
    (h : exit.Serves status bound hooks s calls s') :
    calls.map Call.hook = hooks ++ calls.flatMap (Call.queued exit.queue bound) := by
  induction h with
  | done => rfl
  | call _ ih =>
    rw [List.map_cons, ih, List.flatMap_cons, List.append_assoc]
    rfl

/-- The same with the status that each hook is called with. -/
theorem map_hook_status {hooks : List Hook} {s s' : σ} {calls : List (Call σ)}
    (h : exit.Serves status bound hooks s calls s') :
    (calls.map fun call ↦ (call.hook, status)) =
      (hooks ++ calls.flatMap (Call.queued exit.queue bound)).map fun hook ↦ (hook, status) := by
  rw [← h.map_hook, List.map_map]
  rfl

end Serves

theorem exists_rank_lt (rank : Hook → Nat) (hooks : List Hook) :
    ∃ k, ∀ hook ∈ hooks, rank hook < k := by
  induction hooks with
  | nil => exact ⟨0, fun _ h ↦ nomatch h⟩
  | cons hook hooks ih =>
    obtain ⟨k, hk⟩ := ih
    refine ⟨max k (rank hook + 1), fun other hmem ↦ ?_⟩
    rcases List.mem_cons.1 hmem with rfl | hmem
    · omega
    · have := hk other hmem
      omega

/-- A queue can be served if every hook only queues hooks of a lower rank. -/
theorem exists_serves_of_rank {rank : Hook → Nat}
    (hrank : ∀ hook s, ∀ new ∈ (exit.callOf status bound hook s).queued exit.queue bound,
      rank new < rank hook) (hooks : List Hook) (s : σ) :
    ∃ calls s', exit.Serves status bound hooks s calls s' := by
  obtain ⟨k, hk⟩ := exists_rank_lt rank hooks
  induction k generalizing hooks s with
  | zero =>
    obtain rfl : hooks = [] := List.eq_nil_iff_forall_not_mem.2 fun hook h ↦ by
      have := hk hook h
      omega
    exact ⟨[], s, .done⟩
  | succ k ih =>
    -- the pass over all hooks leaves only hooks of lower rank
    have hlower : ∀ new ∈ (exit.pass status bound hooks s).1.flatMap
        (Call.queued exit.queue bound), rank new < k := by
      intro new hnew
      obtain ⟨call, hcall, hnew⟩ := List.mem_flatMap.1 hnew
      obtain ⟨hook, hhook, t, rfl⟩ := exists_of_mem_pass hcall
      have h₁ := hrank hook t new hnew
      have h₂ := hk hook hhook
      omega
    obtain ⟨more, s', h⟩ := ih _ (exit.pass status bound hooks s).2 hlower
    exact ⟨_, s', Serves.pass_iff.2 ⟨more, rfl, h⟩⟩

end Launcher.Exit
