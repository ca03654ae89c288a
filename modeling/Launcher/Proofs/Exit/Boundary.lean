import Launcher.Proofs.Exit.Drain

/-!
# The boundary around an action

Whatever ends an action, the boundary owes it a **closing**: the hooks are called with a status, a
failure that nobody asked for is reported, and the process is halted with the status (`closing?`).
Only an action that returns into a process that is to stay alive is owed none.

The boundary closes every run but one whose action ends with a closed generator or with a signal
that a program defines. These leave the boundary as they are: no hook is called, nothing is reported,
and the process is not halted.
-/

namespace Launcher

/-- Whether a failure is neither an error nor an exit of the process nor an interrupt. -/
def Cause.escapes (cause : Cause) : Bool :=
  match cause with
  | .exit _ => false
  | .interrupt => false
  | _ => !cause.isError

namespace Exit

variable {σ α : Type}

/-! ### Drains that end -/

/-- The drain of the queue with `status` ends, if it may take its time. -/
def DrainEnds (exit : Exit σ) (status : Int) (w : World σ) : Prop :=
  ∃ n, (exit.drainWithin status n w).isSome

theorem drainEnds_iff (exit : Exit σ) (status : Int) (w : World σ) :
    exit.DrainEnds status w ↔ ∃ calls s',
      exit.Serves status w.hooks.bound (w.hooks.pending exit.queue) w.host calls s' := by
  constructor
  · rintro ⟨n, hn⟩
    obtain ⟨⟨result, w'⟩, hw'⟩ := Option.isSome_iff_exists.1 hn
    obtain ⟨-, calls, hdrained⟩ := drained_of_drainWithin hw'
    exact ⟨calls, w'.host, hdrained.serves⟩
  · rintro ⟨calls, s', h⟩
    obtain ⟨w', hw', -⟩ := drainWithin_of_serves h (Nat.lt_succ_self _)
    exact ⟨calls.length + 1, by rw [hw']; rfl⟩

/-- The same end of a run with `n` looks at the queue. -/
def within (exit : Exit σ) (n : Nat) : Exit σ := { exit with passes := n }

theorem drainWithin_within (exit : Exit σ) (n : Nat) (status : Int) (k : Nat) :
    (exit.within n).drainWithin status k = exit.drainWithin status k := by
  induction k with
  | zero => rfl
  | succ k ih =>
    rw [drainWithin, drainWithin, ih]
    rfl

theorem drain_within (exit : Exit σ) (n : Nat) (status : Int) :
    (exit.within n).drain status = exit.drainWithin status n :=
  drainWithin_within exit n status n

/-! ### Closing a run -/

/-- How a run is closed. -/
structure Closing where
  /-- The status that the hooks and the process get. -/
  status : Int
  /-- Whether the user is told that the run was aborted. -/
  announcing : Bool := false
  /-- The failure that is reported. -/
  failure? : Option Failure := none

namespace Closing

/-- What comes before the hooks are called. -/
def before (closing : Closing) : List Event := if closing.announcing then [.aborted] else []

/-- What comes after the hooks have been called. -/
def after (closing : Closing) : List Event :=
  closing.failure?.toList.map .reported ++ [.halted closing.status]

/-- What a closing with these calls adds to the story. -/
def story (closing : Closing) (bound : Option QueueId) (calls : List (Call σ)) : List Event :=
  closing.before ++ calls.flatMap (Call.story closing.status bound) ++ closing.after

theorem filter_before (closing : Closing) :
    (closing.before.filter fun e ↦ !e.isQuiet) = closing.before := by
  rw [before]
  split <;> rfl

theorem filter_after (closing : Closing) :
    (closing.after.filter fun e ↦ !e.isQuiet) = closing.after := by
  rw [after]
  cases closing.failure? <;> rfl

section Readings

variable (closing : Closing) (bound : Option QueueId) (calls : List (Call σ))

/-- A reading of the story of a closing that passes over the announcement. -/
theorem filterMap_story {β : Type} {f : Event → Option β} (haborted : f .aborted = none) :
    (closing.story bound calls).filterMap f =
      (calls.flatMap (Call.story closing.status bound)).filterMap f ++ closing.after.filterMap f := by
  have hbefore : closing.before.filterMap f = [] := by
    rw [before]
    split
    · exact List.filterMap_cons_none haborted
    · rfl
  rw [story, List.filterMap_append, List.filterMap_append, hbefore, List.nil_append]

theorem filterMap_halted?_story :
    (closing.story bound calls).filterMap Event.halted? = [closing.status] := by
  rw [filterMap_story closing bound calls rfl, Call.filterMap_halted?_story, after]
  cases closing.failure? <;> rfl

theorem filterMap_called?_story :
    (closing.story bound calls).filterMap Event.called? =
      calls.map fun call ↦ (call.hook, closing.status) := by
  rw [filterMap_story closing bound calls rfl, Call.filterMap_called?_story, after]
  cases closing.failure? <;> exact List.append_nil _

theorem filterMap_reported?_story :
    (closing.story bound calls).filterMap Event.reported? =
      calls.filterMap Call.failure? ++ closing.failure?.toList := by
  rw [filterMap_story closing bound calls rfl, Call.filterMap_reported?_story, after]
  cases closing.failure? <;> rfl

theorem filterMap_queued?_story (queue : QueueId) :
    (closing.story bound calls).filterMap (Event.queued? queue) =
      calls.flatMap (Call.queued queue bound) := by
  rw [filterMap_story closing bound calls rfl, Call.filterMap_queued?_story, after]
  cases closing.failure? <;> exact List.append_nil _

end Readings

end Closing

/-- Close a run, if a halt is recorded. -/
def close (exit : Exit σ) (closing : Closing) : Session σ Unit := do
  Session.each Session.record closing.before
  exit.drain closing.status
  Session.each Session.record closing.after

/-- `w'` comes from `w` by a closing with `calls`. -/
structure Closed (exit : Exit σ) (closing : Closing) (w : World σ) (calls : List (Call σ))
    (w' : World σ) : Prop where
  /-- The calls are those of a queue that is served one hook at a time. -/
  serves : exit.Serves closing.status w.hooks.bound (w.hooks.pending exit.queue) w.host calls w'.host
  /-- No hook waits any more. -/
  pending : w'.hooks.pending exit.queue = []
  story : w'.story = w.story ++ closing.story w.hooks.bound calls
  bound : w'.hooks.bound = w.hooks.bound
  shutdowns : w'.shutdowns = w.shutdowns
  keeps : w.Keeps w'

/-- **A run whose drain ends is closed.** -/
theorem exists_close (exit : Exit σ) (closing : Closing) {w : World σ}
    (h : exit.DrainEnds closing.status w) :
    ∃ N, ∀ n, N ≤ n → ∃ calls w', (exit.within n).close closing w = some (.ok (), w') ∧
      Closed exit closing w calls w' := by
  obtain ⟨calls, s', hserves⟩ := (drainEnds_iff exit closing.status w).1 h
  refine ⟨calls.length + 1, fun n hn ↦ ?_⟩
  -- the announcement changes neither the queue nor the state of the programs
  have hbefore := w.extends_recordAll closing.before
  have hpending := hbefore.pending exit.queue
  rw [List.append_nil] at hpending
  rw [← hpending, ← hbefore.bound, ← w.host_recordAll closing.before] at hserves
  obtain ⟨v, hv, hdrained⟩ := drainWithin_of_serves hserves hn
  rw [← drain_within] at hv
  have hafter := v.extends_recordAll closing.after
  refine ⟨calls, v.recordAll closing.after, ?_, ?_⟩
  · refine (Session.bind_of_ok (Session.each_record _ _)).trans ?_
    exact (Session.bind_of_ok hv).trans (Session.each_record _ _)
  · refine ⟨?_, ?_, ?_, ?_, ?_, ?_⟩
    · rw [World.host_recordAll, ← hpending, ← hbefore.bound, ← w.host_recordAll closing.before]
      exact hdrained.serves
    · rw [hafter.pending, hdrained.pending, List.append_nil]
    · rw [hafter.story, hdrained.story, hbefore.story, hbefore.bound, Closing.filter_before,
        Closing.filter_after, Closing.story, List.append_assoc, List.append_assoc,
        List.append_assoc]
    · rw [hafter.bound, hdrained.bound, hbefore.bound]
    · rw [hafter.shutdowns, hdrained.shutdowns, hbefore.shutdowns]
    · exact ((w.keeps_recordAll _).trans hdrained.keeps).trans (v.keeps_recordAll _)

/-! ### What the boundary owes -/

/-- The closing that is owed to a failure. A request to terminate and an exit with a status give
their status, an exit without a code that of success, and an interrupt its own; any other failure
is reported. -/
def closingOf (announcing : Bool) (failure : Failure) : Closing :=
  match failure.cause with
  | .terminate status => { status }
  | .exit (.whole status) => { status }
  | .exit .nothing => { status := Status.success }
  | .interrupt => { status := Status.interrupted, announcing }
  | _ => { status := Status.generalError, failure? := some failure }

/-- The closing that is owed to an ending, none if the action returns and the process is to stay
alive. -/
def closing? (halt announcing : Bool) : Except Failure α → Option Closing
  | .error failure => some (closingOf announcing failure)
  | .ok _ => if halt then some { status := Status.success } else none

theorem settle_of_escapes (exit : Exit σ) (announcing : Bool) {failure : Failure}
    (h : failure.cause.escapes = true) :
    exit.settle announcing failure = Session.raise failure := by
  obtain ⟨cause, frames⟩ := failure
  cases cause <;> first | rfl | cases h

/-- A failure that does not escape is given the closing that is owed to it. -/
theorem settle_eq_close {exit : Exit σ} (hrecording : exit.halting = .recording)
    (announcing : Bool) {failure : Failure} (h : failure.cause.escapes = false) :
    exit.settle announcing failure = exit.close (closingOf announcing failure) := by
  obtain ⟨queue, halting, call, passes⟩ := exit
  obtain rfl : halting = .recording := hrecording
  obtain ⟨cause, frames⟩ := failure
  cases cause with
  | exit code => cases code <;> rfl
  | interrupt => cases announcing <;> rfl
  | generatorClosed => cases h
  | signal module name message => cases h
  | _ => rfl

/-! ### The boundary -/

/-- What the boundary does about an ending. -/
def conclude (exit : Exit σ) (halt announcing : Bool) : Except Failure α → Session σ (Option α)
  | .error failure => exit.settle announcing failure >>= fun _ ↦ pure none
  | .ok a => if halt then exit.finish Status.success >>= fun _ ↦ pure none else pure (some a)

section Guarded

variable {exit : Exit σ} {halt announcing : Bool} {action : Session σ α} {w w₁ : World σ}
  {result : Except Failure α}

/-- The boundary looks only at how the action ends. -/
theorem guarded_apply (exit : Exit σ) (halt announcing : Bool)
    (haction : action w = some (result, w₁)) :
    exit.guarded halt announcing action w = exit.conclude halt announcing result w₁ := by
  refine (Session.bind_of_ok (Session.attempt_of_some haction)).trans ?_
  cases result with
  | error failure => rfl
  | ok a => rfl

theorem guarded_of_escapes (exit : Exit σ) (halt announcing : Bool) {failure : Failure}
    (haction : action w = some (.error failure, w₁)) (h : failure.cause.escapes = true) :
    exit.guarded halt announcing action w = some (.error failure, w₁) := by
  rw [guarded_apply exit halt announcing haction, conclude, settle_of_escapes exit announcing h]
  rfl

theorem guarded_of_stay (haction : action w = some (result, w₁))
    (h : closing? halt announcing result = none) :
    exit.guarded halt announcing action w = some (result.map some, w₁) := by
  rw [guarded_apply exit halt announcing haction]
  cases result with
  | error failure => cases h
  | ok a =>
    cases halt with
    | true => cases h
    | false => rfl

theorem guarded_eq_close (hrecording : exit.halting = .recording)
    (haction : action w = some (result, w₁))
    (hcaught : ∀ failure, result = .error failure → failure.cause.escapes = false)
    {closing : Closing} (hclosing : closing? halt announcing result = some closing) :
    exit.guarded halt announcing action w = (exit.close closing >>= fun _ ↦ pure none) w₁ := by
  rw [guarded_apply exit halt announcing haction]
  cases result with
  | error failure =>
    obtain rfl := Option.some.inj hclosing
    rw [conclude, settle_eq_close hrecording announcing (hcaught failure rfl)]
  | ok a =>
    cases halt with
    | false => cases hclosing
    | true =>
      obtain rfl := Option.some.inj hclosing
      -- a return is closed like a request to terminate with success
      have hsettle : exit.finish Status.success = exit.close { status := Status.success } :=
        settle_eq_close hrecording announcing
          (show (Failure.mk (.terminate Status.success) []).cause.escapes = false from rfl)
      rw [← hsettle]
      rfl

/-- An ending that does not escape the boundary is given its closing, if the drain ends. -/
theorem exists_guarded (hrecording : exit.halting = .recording)
    (haction : action w = some (result, w₁))
    (hcaught : ∀ failure, result = .error failure → failure.cause.escapes = false)
    {closing : Closing} (hclosing : closing? halt announcing result = some closing)
    (hdrain : exit.DrainEnds closing.status w₁) :
    ∃ N, ∀ n, N ≤ n → ∃ calls w',
      (exit.within n).guarded halt announcing action w = some (.ok none, w') ∧
        Closed exit closing w₁ calls w' := by
  obtain ⟨N, hN⟩ := exists_close exit closing hdrain
  refine ⟨N, fun n hn ↦ ?_⟩
  obtain ⟨calls, w', hw', hclosed⟩ := hN n hn
  have hrecording' : (exit.within n).halting = .recording := hrecording
  refine ⟨calls, w', ?_, hclosed⟩
  rw [guarded_eq_close hrecording' haction hcaught hclosing]
  exact Session.bind_of_ok hw'

end Guarded

/-- `outcome` is what the boundary owes to an action that left `w` with `result`. Without a closing
that is the result itself. A closing empties the queue, calls every hook with the status, reports the
failures of the hooks and the failure of the action if it has one to report, and halts once. -/
def Honours (exit : Exit σ) (halt announcing : Bool) (result : Except Failure α) (w : World σ)
    (outcome : Option (Except Failure (Option α) × World σ)) : Prop :=
  match closing? halt announcing result with
  | none => outcome = some (result.map some, w)
  | some closing => ∃ calls told w', outcome = some (.ok none, w') ∧
      Closed exit closing w calls w' ∧ told = closing.story w.hooks.bound calls ∧
      told.filterMap Event.called? = calls.map (fun call ↦ (call.hook, closing.status)) ∧
      told.filterMap Event.reported? = calls.filterMap Call.failure? ++ closing.failure?.toList ∧
      told.filterMap Event.halted? = [closing.status]

theorem Closed.honours {exit : Exit σ} {halt announcing : Bool} {result : Except Failure α}
    {w w' : World σ} {closing : Closing} {calls : List (Call σ)}
    (hclosing : closing? halt announcing result = some closing) (h : Closed exit closing w calls w') :
    exit.Honours halt announcing result w (some (.ok none, w')) := by
  rw [Honours, hclosing]
  exact ⟨calls, _, w', rfl, h, rfl, closing.filterMap_called?_story _ calls,
    closing.filterMap_reported?_story _ calls, closing.filterMap_halted?_story _ calls⟩

/-- **The boundary gives an ending what it owes unless the ending escapes**, provided that the drain
ends. What escapes is a failure that is neither an error nor an exit of the process nor an interrupt;
it leaves the boundary with the world as the action has left it. -/
theorem guarded_honours_iff (exit : Exit σ) (hrecording : exit.halting = .recording)
    (halt announcing : Bool) {action : Session σ α} {w w₁ : World σ} {result : Except Failure α}
    (haction : action w = some (result, w₁))
    (hdrain : ∀ closing, closing? halt announcing result = some closing →
      exit.DrainEnds closing.status w₁) :
    ((∃ N, ∀ n, N ≤ n → exit.Honours halt announcing result w₁
        ((exit.within n).guarded halt announcing action w)) ↔
      ∀ failure, result = .error failure → failure.cause.escapes = false) ∧
      ∀ failure, result = .error failure → failure.cause.escapes = true →
        ∀ n, (exit.within n).guarded halt announcing action w = some (.error failure, w₁) := by
  have hout : ∀ failure, result = .error failure → failure.cause.escapes = true →
      ∀ n, (exit.within n).guarded halt announcing action w = some (.error failure, w₁) := by
    rintro failure rfl hescapes n
    exact guarded_of_escapes (exit.within n) halt announcing haction hescapes
  refine ⟨⟨?_, fun hcaught ↦ ?_⟩, hout⟩
  · rintro ⟨N, hN⟩ failure rfl
    by_contra hescapes
    -- a failure is owed a closing, and a closing does not end with a failure
    obtain ⟨calls, told, w', houtcome, -⟩ := hN N (Nat.le_refl N)
    rw [hout failure rfl (Bool.not_eq_false _ ▸ hescapes)] at houtcome
    cases houtcome
  · rcases hclosing : closing? halt announcing result with - | closing
    · refine ⟨0, fun n _ ↦ ?_⟩
      rw [guarded_of_stay haction hclosing, Honours, hclosing]
    · obtain ⟨N, hN⟩ := exists_guarded hrecording haction hcaught hclosing (hdrain closing hclosing)
      refine ⟨N, fun n hn ↦ ?_⟩
      obtain ⟨calls, w', hw', hclosed⟩ := hN n hn
      rw [hw']
      exact hclosed.honours hclosing

/-! #### The relay inside the boundary -/

theorem drainEnds_relay (status : Int) (w : World Unit) : relay.DrainEnds status w :=
  (drainEnds_iff relay status w).2
    (exists_serves_of_rank (fun hook s new h ↦ relayRank_lt status _ hook new s h) _ _)

theorem guarded_relay_honours :
    ∃ N, ∀ n, N ≤ n → relay.Honours true false (.error noBaton : Except Failure Unit) relayStart
      ((relay.within n).guarded true false (Session.raise noBaton) relayStart) := by
  have haction : (Session.raise noBaton : Session Unit Unit) relayStart =
      some (.error noBaton, relayStart) := rfl
  refine (guarded_honours_iff relay rfl true false haction
    fun closing _ ↦ drainEnds_relay closing.status relayStart).1.2 ?_
  rintro failure h
  cases h
  rfl

/-- The failure of an action that closes a generator. -/
def closedGenerator : Failure := { cause := .generatorClosed }

/-- A closed generator is not an interrupt, and still the waiting hook is not called. -/
theorem guarded_closed_generator_escapes :
    relay.DrainEnds Status.generalError relayStart ∧
      relayStart.hooks.pending relay.queue = ["first"] ∧
      (∀ n, (relay.within n).guarded true false
        (Session.raise closedGenerator : Session Unit Unit) relayStart =
          some (.error closedGenerator, relayStart)) ∧
      ¬ ∃ N, ∀ n, N ≤ n →
        relay.Honours true false (.error closedGenerator : Except Failure Unit) relayStart
          ((relay.within n).guarded true false (Session.raise closedGenerator) relayStart) := by
  refine ⟨drainEnds_relay _ _, rfl, fun n ↦ rfl, ?_⟩
  rintro ⟨N, hN⟩
  obtain ⟨calls, told, w', houtcome, -⟩ := hN N (Nat.le_refl N)
  cases houtcome

end Exit

end Launcher
