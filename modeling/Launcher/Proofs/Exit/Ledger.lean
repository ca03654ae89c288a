import Launcher.Exit.Operation
import Launcher.Proofs.Alike
import Launcher.Proofs.Run.Ending

/-!
# The ledger of exit hooks

Hooks go into a queue one by one and come out of it in front, all that wait at once: to be handed
back, dropped or called. The trace is the ledger of both. It **balances** if for each queue the
hooks that waited at first, followed by those put into it since, are the hooks taken out of it,
followed by those that still wait (`World.Accounts`). So no hook is lost, none is doubled, and none
overtakes another.

Every operation on queues keeps the ledger balanced, also one that fails, and also while hooks that
are called put further hooks into queues (`accounts_of_visits`). What each operation enters into the
ledger is told by `Operation.Entered`.
-/

namespace Launcher

variable {σ α : Type}

namespace Event

/-- The hooks that an event takes out of `queue`. -/
def takenFrom (queue : QueueId) : Event → List Hook
  | .taken q hooks => if q = queue then hooks else []
  | _ => []

/-- Whether an event moves hooks into or out of a queue. -/
def movesHooks : Event → Bool
  | .queued _ _ _ => true
  | .taken _ _ => true
  | _ => false

theorem queued?_of_movesHooks {e : Event} (h : e.movesHooks = false) (queue : QueueId) :
    e.queued? queue = none := by
  cases e <;> first | rfl | cases h

theorem takenFrom_of_movesHooks {e : Event} (h : e.movesHooks = false) (queue : QueueId) :
    e.takenFrom queue = [] := by
  cases e <;> first | rfl | cases h

theorem movesHooks_of_isPlain {e : Event} (h : e.isPlain = true) : e.movesHooks = false := by
  cases e <;> first | rfl | cases h

/-- A reading that passes over bookkeeping. -/
theorem filterMap_filter_of_quiet {β : Type} {f : Event → Option β}
    (hf : ∀ e, e.isQuiet = true → f e = none) (told : List Event) :
    (told.filter fun e ↦ !e.isQuiet).filterMap f = told.filterMap f := by
  rw [List.filterMap_filter]
  refine List.filterMap_congr fun e _ ↦ ?_
  cases he : e.isQuiet with
  | true => exact (hf e he).symm
  | false => rfl

end Event

/-! ### The balance -/

namespace World

/-- `w'` comes from `w` by telling `told`, and for each queue the ledger balances. -/
structure Accounts (w : World σ) (told : List Event) (w' : World σ) : Prop where
  trace : w'.trace = w.trace ++ told
  balance : ∀ q, w.hooks.pending q ++ told.filterMap (Event.queued? q) =
    told.flatMap (Event.takenFrom q) ++ w'.hooks.pending q

/-- The ledger balances since the beginning: for each queue the hooks ever put into it are the hooks
ever taken out of it, followed by those that wait. -/
def Balanced (w : World σ) : Prop :=
  ∀ q, w.trace.filterMap (Event.queued? q) =
    w.trace.flatMap (Event.takenFrom q) ++ w.hooks.pending q

namespace Accounts

/-- Nothing that concerns hooks or the trace has happened. -/
theorem of_same {w v : World σ} (hpending : ∀ q, v.hooks.pending q = w.hooks.pending q)
    (hlog : v.log = w.log) : w.Accounts [] v where
  trace := by rw [World.trace, World.trace, hlog, List.append_nil]
  balance q := by simp [hpending]

theorem refl (w : World σ) : w.Accounts [] w := of_same (fun _ ↦ rfl) rfl

theorem trans {u v w : World σ} {told told' : List Event} (h : u.Accounts told v)
    (h' : v.Accounts told' w) : u.Accounts (told ++ told') w where
  trace := by rw [h'.trace, h.trace, List.append_assoc]
  balance q := by
    rw [List.filterMap_append, List.flatMap_append, ← List.append_assoc, h.balance,
      List.append_assoc, h'.balance, List.append_assoc]

theorem story {w w' : World σ} {told : List Event} (h : w.Accounts told w') :
    w'.story = w.story ++ told.filter fun e ↦ !e.isQuiet := by
  rw [World.story, h.trace, List.filter_append]
  rfl

theorem balanced {w w' : World σ} {told : List Event} (h : w.Accounts told w')
    (hw : w.Balanced) : w'.Balanced := by
  intro q
  rw [h.trace, List.filterMap_append, hw, List.append_assoc, h.balance, List.flatMap_append,
    List.append_assoc]

end Accounts

/-- An event that does not move hooks. It is dropped if it is a note below the log level. -/
theorem exists_accounts_record (w : World σ) {e : Event} (h : e.movesHooks = false) :
    ∃ told, w.Accounts told (w.record e) ∧ ∀ e' ∈ told, e' = e := by
  have htrace := w.trace_record e
  split at htrace
  · refine ⟨[], ⟨by rw [htrace, List.append_nil], fun q ↦ by simp⟩, nofun⟩
  · refine ⟨[e], ⟨htrace, fun q ↦ ?_⟩, fun e' he' ↦ List.mem_singleton.1 he'⟩
    simp [Event.queued?_of_movesHooks h, Event.takenFrom_of_movesHooks h]

theorem accounts_push (w : World σ) (queue : QueueId) (hook : Hook) (named : Bool) :
    w.Accounts [.queued queue hook named] (w.push queue hook named) where
  trace := by
    rw [push, trace_record]
    rfl
  balance q := by
    rw [(w.extends_push queue hook named).pending]
    by_cases hq : queue = q <;> simp [Event.queued?, Event.takenFrom, hq]

/-- Emptying a queue. -/
theorem accounts_clear (w : World σ) (queue : QueueId) :
    w.Accounts [.taken queue (w.hooks.pending queue)]
      ({ w with hooks := w.hooks.clear queue }.record (.taken queue (w.hooks.pending queue))) where
  trace := by
    rw [trace_record]
    rfl
  balance q := by
    rw [hooks_record]
    show _ = _ ++ (w.hooks.setPending queue []).pending q
    by_cases hq : queue = q
    · subst hq
      simp [Event.queued?, Event.takenFrom]
    · rw [HookTable.pending_setPending_of_ne _ _ (Ne.symm hq)]
      simp [Event.queued?, Event.takenFrom, hq]

/-- `w'` comes from `w` with a ledger that balances, and every event told on the way is in `P`. -/
def Tells (P : Event → Prop) (w w' : World σ) : Prop :=
  ∃ told, w.Accounts told w' ∧ ∀ e ∈ told, P e

section Tells

variable {P : Event → Prop}

theorem tells_refl (w : World σ) : w.Tells P w := ⟨[], Accounts.refl w, nofun⟩

theorem Tells.trans {u v w : World σ} (h : u.Tells P v) (h' : v.Tells P w) : u.Tells P w := by
  obtain ⟨told, haccounts, htold⟩ := h
  obtain ⟨told', haccounts', htold'⟩ := h'
  refine ⟨told ++ told', haccounts.trans haccounts', fun e he ↦ ?_⟩
  exact (List.mem_append.1 he).elim (htold e) (htold' e)

theorem tells_record (w : World σ) {e : Event} (h : e.movesHooks = false) (he : P e) :
    w.Tells P (w.record e) := by
  obtain ⟨told, haccounts, htold⟩ := w.exists_accounts_record h
  refine ⟨told, haccounts, fun e' he' ↦ ?_⟩
  rw [htold e' he']
  exact he

theorem tells_push (w : World σ) {queue : QueueId} {hook : Hook} {named : Bool}
    (h : P (.queued queue hook named)) : w.Tells P (w.push queue hook named) := by
  refine ⟨_, w.accounts_push queue hook named, fun e he ↦ ?_⟩
  rw [List.mem_singleton.1 he]
  exact h

theorem tells_apply (w : World σ) (effect : Effect)
    (h : ∀ e, effect.event? w.hooks.bound = some e → P e) :
    w.Tells P (w.apply effect) := by
  cases effect with
  | event hosted => exact w.tells_record rfl (h _ rfl)
  | enqueue target hook =>
    rw [apply_enqueue]
    rcases ht : (target <|> w.hooks.bound) with - | queue
    · exact w.tells_refl
    · exact w.tells_push (h _ (by rw [Effect.event?, ht]; rfl))

/-- Hosted programs keep the ledger balanced. -/
theorem tells_applyAll (w : World σ) (effects : List Effect)
    (h : ∀ effect ∈ effects, ∀ e, effect.event? w.hooks.bound = some e → P e) :
    w.Tells P (w.applyAll effects) := by
  induction effects generalizing w with
  | nil => exact w.tells_refl
  | cons effect effects ih =>
    refine (w.tells_apply effect (h effect List.mem_cons_self)).trans (ih (w.apply effect) ?_)
    rw [(w.extends_apply effect).bound]
    exact fun effect' he' ↦ h effect' (List.mem_cons_of_mem _ he')

theorem tells_after (w : World σ) (o : Outcome σ α)
    (h : ∀ effect ∈ o.effects, ∀ e, effect.event? w.hooks.bound = some e → P e) :
    w.Tells P (w.after o) := by
  have hhost : w.Tells P { w with host := o.state } := ⟨[], .of_same (fun _ ↦ rfl) rfl, nofun⟩
  exact hhost.trans (tells_applyAll _ o.effects h)

theorem tells_rebound (w : World σ) (queue : Option QueueId) : w.Tells P (w.rebound queue) :=
  ⟨[], .of_same (fun _ ↦ rfl) rfl, nofun⟩

theorem tells_planned (exit : Exit σ) (previous : Option QueueId) (w : World σ)
    (h : P .shutdownPlanned) : w.Tells P (Run.planned exit previous w) := by
  let callback : Shutdown := ⟨exit.queue, previous⟩
  let u : World σ := { w with shutdowns := w.shutdowns ++ [callback] }
  have hu : w.Tells P u := ⟨[], .of_same (fun _ ↦ rfl) rfl, nofun⟩
  exact hu.trans (u.tells_record rfl h)

theorem course_tells {exit : Exit σ} (hplain : ∀ e : Event, e.isPlain = true → P e)
    (htaken : ∀ hooks, P (.taken exit.queue hooks)) : Course exit (World.Tells P) where
  refl := tells_refl
  trans h h' := h.trans h'
  record w e he := w.tells_record (Event.movesHooks_of_isPlain he) (hplain e he)
  emptied w := by
    refine ⟨_, w.accounts_clear exit.queue, fun e he ↦ ?_⟩
    rw [List.mem_singleton.1 he]
    exact htaken _
  setPath w path := ⟨[], .of_same (fun _ ↦ rfl) rfl, nofun⟩
  setArguments w arguments := ⟨[], .of_same (fun _ ↦ rfl) rfl, nofun⟩

end Tells

end World

namespace Exit

/-! ### Draining -/

/-- Hooks are taken from no queue but `queue`. -/
def TakesFrom (queue : QueueId) (e : Event) : Prop := ∀ q hooks, e = .taken q hooks → q = queue

theorem flatMap_takenFrom_eq_nil {queue q : QueueId} (hq : q ≠ queue) {told : List Event}
    (h : ∀ e ∈ told, TakesFrom queue e) : told.flatMap (Event.takenFrom q) = [] := by
  refine List.flatMap_eq_nil_iff.2 fun e he ↦ ?_
  cases e with
  | taken q' hooks =>
    obtain rfl := h _ he q' hooks rfl
    exact if_neg (Ne.symm hq)
  | _ => rfl

theorem takesFrom_event {bound : Option QueueId} {queue : QueueId} {effect : Effect} {e : Event}
    (h : effect.event? bound = some e) : TakesFrom queue e := by
  rintro q hooks rfl
  cases effect with
  | event hosted => cases h
  | enqueue target hook =>
    obtain ⟨_, -, h⟩ := Option.map_eq_some_iff.1 h
    cases h

theorem course_takesFrom (exit : Exit σ) : Course exit (World.Tells (TakesFrom exit.queue)) := by
  refine World.course_tells (fun e he q hooks h ↦ ?_) fun _ q hooks h ↦ ?_
  · subst h
    cases he
  · cases h
    rfl

/-- `w'` comes from `w` by telling `told`, in which the queue of `exit` is emptied by `calls`. -/
structure Empties (exit : Exit σ) (status : Int) (w : World σ) (told : List Event)
    (calls : List (Call σ)) (w' : World σ) : Prop where
  accounts : w.Accounts told w'
  /-- The calls are those of a queue that is served one hook at a time. -/
  serves : exit.Serves status w.hooks.bound (w.hooks.pending exit.queue) w.host calls w'.host
  called : told.filterMap Event.called? = calls.map fun call ↦ (call.hook, status)
  /-- What has been taken out of the queue has been called. -/
  taken : told.flatMap (Event.takenFrom exit.queue) = calls.map Call.hook
  pending : w'.hooks.pending exit.queue = []
  /-- From other queues nothing is taken. -/
  others : ∀ q, q ≠ exit.queue → told.flatMap (Event.takenFrom q) = []
  /-- Hooks are put into queues by the calls. -/
  queued : ∀ q, told.filterMap (Event.queued? q) = calls.flatMap (Call.queued q w.hooks.bound)

/-- **A drain that has a result has called all that it has taken out of the queue.** -/
theorem empties_of_drainWithin {exit : Exit σ} {status : Int} {n : Nat} {w w' : World σ}
    {result : Except Failure Unit} (h : exit.drainWithin status n w = some (result, w')) :
    result = .ok () ∧ ∃ told calls, Empties exit status w told calls w' := by
  obtain ⟨hok, calls, hdrained⟩ := drained_of_drainWithin h
  obtain ⟨told, haccounts, htakes⟩ := passes_drainWithin (course_takesFrom exit)
    (fun _ _ w ↦ w.tells_after _ fun _ _ _ he ↦ takesFrom_event he) status n w _ w' h
  -- without bookkeeping, what is told is the story of the calls
  have hstory := List.append_cancel_left (haccounts.story.symm.trans hdrained.story)
  have hqueued : ∀ q, told.filterMap (Event.queued? q) =
      calls.flatMap (Call.queued q w.hooks.bound) := by
    intro q
    rw [← Event.filterMap_filter_of_quiet (fun e he ↦ by cases e <;> first | rfl | cases he),
      hstory, Call.filterMap_queued?_story]
  refine ⟨hok, told, calls, haccounts, hdrained.serves, ?_, ?_, hdrained.pending,
    fun q hq ↦ flatMap_takenFrom_eq_nil hq htakes, hqueued⟩
  · rw [← Event.filterMap_filter_of_quiet (fun e he ↦ by cases e <;> first | rfl | cases he),
      hstory, Call.filterMap_called?_story]
  · have hbalance := haccounts.balance exit.queue
    rw [hdrained.pending, List.append_nil, hqueued] at hbalance
    rw [← hbalance, hdrained.serves.map_hook]

/-- Halting the process moves no hook. -/
theorem halt_apply (exit : Exit σ) (status : Int) (w : World σ) :
    ∃ result w', exit.halt status w = some (result, w') ∧ w'.hooks = w.hooks ∧
      w'.host = w.host ∧ ∃ told, w.Accounts told w' ∧
        ∀ e ∈ told, e.movesHooks = false ∧ e.called? = none := by
  have hrecord : ∀ {e : Event}, e.movesHooks = false → e.called? = none →
      (w.record e).hooks = w.hooks ∧ (w.record e).host = w.host ∧
        ∃ told, w.Accounts told (w.record e) ∧
          ∀ e ∈ told, e.movesHooks = false ∧ e.called? = none := fun he hcalled ↦
    ⟨w.hooks_record _, w.host_record _, w.tells_record he ⟨he, hcalled⟩⟩
  obtain ⟨queue, halting, call, passes⟩ := exit
  cases halting with
  | recording => exact ⟨_, _, rfl, hrecord rfl rfl⟩
  | leaving => exact ⟨_, _, rfl, hrecord rfl rfl⟩
  | failing failure => exact ⟨_, w, rfl, rfl, rfl, w.tells_refl⟩

/-! ### Operations -/

/-- What an operation enters into the ledger from `w` on, if it comes to `outcome`. -/
def Operation.Entered (exit : Exit σ) (w : World σ)
    (outcome : Option (Except Failure Handback × World σ)) : Operation → Prop
  | .register queue hook => ∃ w', outcome = some (.ok .nothing, w') ∧
      w.Accounts [.queued queue hook true] w'
  | .flush queue => ∃ w', outcome = some (.ok (.hooks (w.hooks.pending queue)), w') ∧
      w.Accounts [.taken queue (w.hooks.pending queue)] w'
  | .close queue => ∃ w', outcome = some (.ok .nothing, w') ∧
      w.Accounts [.taken queue (w.hooks.pending queue)] w'
  | .block queue operations => ∀ result v, exit.performAll operations w = some (result, v) →
      ∃ w', outcome = some (result.map fun _ ↦ .nothing, w') ∧
        v.Accounts [.taken queue (v.hooks.pending queue)] w'
  | .bind queue => outcome = some (.ok (.queue w.hooks.bound), w.rebound queue)
  | .atExit hook => match w.hooks.bound with
      | some queue => ∃ w', outcome = some (.ok .nothing, w') ∧
          w.Accounts [.queued queue hook false] w'
      | none => outcome = some (.error Hosted.outsideRun, w)
  | .drain status => ∀ result w', outcome = some (result, w') →
      ∃ told calls, Empties exit status w told calls w'
  | .finish status => ∀ result w', outcome = some (result, w') →
      ∃ told calls, Empties exit status w told calls w'
  | .halt _ => ∃ result w', outcome = some (result, w') ∧ w'.hooks = w.hooks ∧
      ∃ told, w.Accounts told w' ∧ ∀ e ∈ told, e.movesHooks = false

/-- `v` is a world that a sequence of operations comes by from `w` on: before or after one of them,
whether it has failed or not, or within one that is a block. -/
inductive Visits (exit : Exit σ) : List Operation → World σ → World σ → Prop
  | start {operations : List Operation} {w : World σ} : Visits exit operations w w
  | inside {queue : QueueId} {block rest : List Operation} {w v : World σ} :
    Visits exit block w v → Visits exit (.block queue block :: rest) w v
  | next {operation : Operation} {rest : List Operation} {w u v : World σ}
    {result : Except Failure Handback} : exit.perform operation w = some (result, u) →
    Visits exit rest u v → Visits exit (operation :: rest) w v

variable {exit : Exit σ} {w w' : World σ}

section Steps

variable {p : Session σ Unit} {result : Except Failure Unit}

theorem quietly_apply (h : p w = some (result, w')) :
    quietly p w = some (result.map fun _ ↦ .nothing, w') := by
  cases result with
  | error failure => exact Session.bind_of_error h
  | ok _ => exact Session.bind_of_ok h

theorem exists_of_quietly {result : Except Failure Handback}
    (h : quietly p w = some (result, w')) : ∃ result', p w = some (result', w') := by
  rcases hp : p w with - | ⟨result', v⟩
  · cases (Session.bind_of_none hp).symm.trans h
  · cases (quietly_apply hp).symm.trans h
    exact ⟨result', rfl⟩

theorem closing_apply (queue : QueueId) (h : p w = some (result, w')) :
    Session.closing queue p w = some (result, { w' with hooks := w'.hooks.clear queue }.record
      (.taken queue (w'.hooks.pending queue))) := by
  refine (Session.bind_of_ok (Session.attempt_of_some h)).trans ((Session.bind_of_ok rfl).trans ?_)
  cases result with
  | error failure => rfl
  | ok _ => rfl

end Steps

theorem perform_drain (status : Int) {result : Except Failure Handback}
    (h : exit.perform (.drain status) w = some (result, w')) :
    ∃ told calls, Empties exit status w told calls w' := by
  obtain ⟨_, hdrain⟩ := exists_of_quietly h
  exact (empties_of_drainWithin hdrain).2

/-- Halting behind a drain changes nothing about it. -/
theorem Empties.halt {status : Int} {told : List Event} {calls : List (Call σ)} {v : World σ}
    (h : Empties exit status w told calls v) (hhooks : w'.hooks = v.hooks)
    (hhost : w'.host = v.host) {more : List Event} (haccounts : v.Accounts more w')
    (hmore : ∀ e ∈ more, e.movesHooks = false ∧ e.called? = none) :
    Empties exit status w (told ++ more) calls w' where
  accounts := h.accounts.trans haccounts
  serves := hhost ▸ h.serves
  called := by
    rw [List.filterMap_append, List.filterMap_eq_nil_iff.2 fun e he ↦ (hmore e he).2,
      List.append_nil, h.called]
  taken := by
    rw [List.flatMap_append, List.flatMap_eq_nil_iff.2 fun e he ↦
      Event.takenFrom_of_movesHooks (hmore e he).1 _, List.append_nil, h.taken]
  pending := by rw [hhooks, h.pending]
  others q hq := by
    rw [List.flatMap_append, h.others q hq, List.nil_append]
    exact List.flatMap_eq_nil_iff.2 fun e he ↦ Event.takenFrom_of_movesHooks (hmore e he).1 q
  queued q := by
    rw [List.filterMap_append, List.filterMap_eq_nil_iff.2 fun e he ↦
      Event.queued?_of_movesHooks (hmore e he).1 q, List.append_nil, h.queued]

theorem perform_finish (status : Int) {result : Except Failure Handback}
    (h : exit.perform (.finish status) w = some (result, w')) :
    ∃ told calls, Empties exit status w told calls w' := by
  obtain ⟨_, hfinish⟩ := exists_of_quietly h
  rcases hdrain : exit.drain status w with - | ⟨_, v⟩
  · cases (Session.bind_of_none hdrain).symm.trans hfinish
  · obtain ⟨rfl, told, calls, hempties⟩ := empties_of_drainWithin hdrain
    obtain ⟨_, u, hhalt, hhooks, hhost, more, haccounts, hmore⟩ := exit.halt_apply status v
    cases ((Session.bind_of_ok hdrain).trans hhalt).symm.trans hfinish
    exact ⟨_, calls, hempties.halt hhooks hhost haccounts hmore⟩

theorem perform_atExit (exit : Exit σ) (hook : Hook) (w : World σ) :
    Operation.Entered exit w (exit.perform (.atExit hook) w) (.atExit hook) := by
  rw [Operation.Entered]
  split
  · next queue hbound =>
    have hperform : Session.perform (Hosted.atExit hook) w =
        some (.ok (), w.push queue hook false) := by
      rw [Session.perform_apply, hbound]
      show some (_, w.apply (.enqueue none hook)) = _
      rw [World.apply_enqueue, hbound]
      rfl
    exact ⟨_, quietly_apply hperform, w.accounts_push queue hook false⟩
  · next hbound =>
    have hperform : Session.perform (Hosted.atExit hook) w =
        some (.error Hosted.outsideRun, w) := by
      rw [Session.perform_apply, hbound]
      rfl
    exact quietly_apply hperform

/-- **What each operation enters into the ledger.** -/
theorem entered_perform (exit : Exit σ) (w : World σ) (operation : Operation) :
    operation.Entered exit w (exit.perform operation w) := by
  cases operation with
  | register queue hook => exact ⟨_, rfl, w.accounts_push queue hook true⟩
  | flush queue => exact ⟨_, rfl, w.accounts_clear queue⟩
  | close queue => exact ⟨_, rfl, w.accounts_clear queue⟩
  | block queue operations =>
    exact fun result v h ↦ ⟨_, quietly_apply (closing_apply queue h), v.accounts_clear queue⟩
  | bind queue => rfl
  | atExit hook => exact perform_atExit exit hook w
  | drain status => exact fun result w' h ↦ perform_drain status h
  | finish status => exact fun result w' h ↦ perform_finish status h
  | halt status =>
    obtain ⟨result, w', hhalt, hhooks, -, told, haccounts, htold⟩ := exit.halt_apply status w
    exact ⟨_, w', quietly_apply hhalt, hhooks, told, haccounts, fun e he ↦ (htold e he).1⟩

/-- Whatever is told on the way, the ledger balances. -/
abbrev Accounted (w w' : World σ) : Prop := w.Tells (fun _ ↦ True) w'

theorem course_accounted (exit : Exit σ) : Course exit Accounted :=
  World.course_tells (fun _ _ ↦ trivial) fun _ ↦ trivial

theorem accounted_after (p : Hosted σ α) : p.KeepsTo Accounted :=
  fun w ↦ w.tells_after _ fun _ _ _ _ ↦ trivial

theorem passes_flush (queue : QueueId) :
    (Session.flush queue : Session σ (List Hook)).Passes Accounted :=
  Session.passes_of_apply (fun _ ↦ rfl) fun w ↦ ⟨_, w.accounts_clear queue, fun _ _ ↦ trivial⟩

theorem passes_quietly (exit : Exit σ) {p : Session σ Unit} (h : p.Passes Accounted) :
    (quietly p).Passes Accounted :=
  have hR := course_accounted exit
  hR.passes_bind h fun _ ↦ hR.passes_pure _

mutual

/-- **An operation keeps the ledger balanced.** -/
theorem passes_perform (exit : Exit σ) : ∀ operation, (exit.perform operation).Passes Accounted
  | .register queue hook => passes_quietly exit <| Session.passes_of_apply (fun _ ↦ rfl) fun w ↦
      w.tells_push trivial
  | .flush queue => (course_accounted exit).passes_bind (passes_flush queue) fun _ ↦
      (course_accounted exit).passes_pure _
  | .close queue => passes_quietly exit <| (course_accounted exit).passes_bind (passes_flush queue)
      fun _ ↦ (course_accounted exit).passes_pure _
  | .block queue operations => passes_quietly exit <| by
      have hR := course_accounted exit
      refine hR.passes_bind (hR.passes_attempt (passes_performAll exit operations)) fun result ↦ ?_
      refine hR.passes_bind (passes_flush queue) fun _ ↦ ?_
      cases result with
      | error failure => exact hR.passes_raise failure
      | ok _ => exact hR.passes_pure _
  | .bind queue => (course_accounted exit).passes_bind
      (Session.passes_of_apply (fun _ ↦ rfl) fun _ ↦ ⟨[], .of_same (fun _ ↦ rfl) rfl, nofun⟩)
      fun _ ↦ (course_accounted exit).passes_pure _
  | .atExit hook => passes_quietly exit <| Session.passes_perform <| accounted_after _
  | .drain status => passes_quietly exit <|
      passes_drainWithin (course_accounted exit) (fun _ _ ↦ accounted_after _) status exit.passes
  | .finish status => passes_quietly exit <|
      passes_finish (course_accounted exit) (fun _ _ ↦ accounted_after _) status
  | .halt status => passes_quietly exit <| passes_halt (course_accounted exit) status

theorem passes_performAll (exit : Exit σ) :
    ∀ operations, (exit.performAll operations).Passes Accounted
  | [] => (course_accounted exit).passes_pure ()
  | operation :: operations => (course_accounted exit).passes_bind (passes_perform exit operation)
      fun _ ↦ passes_performAll exit operations

end

/-- **The ledger balances in every world that a sequence of operations comes by.** -/
theorem Visits.accounts {operations : List Operation} {v : World σ}
    (h : exit.Visits operations w v) : ∃ told, w.Accounts told v := by
  induction h with
  | start => exact ⟨[], .refl _⟩
  | inside _ ih => exact ih
  | next hperform _ ih =>
    obtain ⟨told, htold, -⟩ := passes_perform exit _ _ _ _ hperform
    obtain ⟨more, hmore⟩ := ih
    exact ⟨_, htold.trans hmore⟩

/-- **Exit hooks are conserved.** In every world that operations on queues come by, whether they
succeed or fail and whatever the hooks do that are called meanwhile, the ledger balances for each
queue: the hooks put into it, in order, are the hooks taken out of it, in order, followed by those
that wait. What an operation enters into the ledger is determined. To put a hook into the bound
queue adds this hook to this queue and nothing to any other, and fails without a trace if no queue
is bound. A drain, whether or not the process is halted behind it, calls what it takes out of its
queue, leaves this empty, and takes nothing out of any other; what comes into queues meanwhile are
the hooks that its calls put there. -/
theorem hooks_are_conserved (exit : Exit σ) (w : World σ) :
    (∀ operations v, exit.Visits operations w v →
      (∃ told, w.Accounts told v) ∧ (w.Balanced → v.Balanced)) ∧
      ∀ operation : Operation, operation.Entered exit w (exit.perform operation w) := by
  refine ⟨fun operations v h ↦ ?_, entered_perform exit w⟩
  obtain ⟨told, htold⟩ := h.accounts
  exact ⟨⟨told, htold⟩, htold.balanced⟩

/-- The first hook of the relay and a hook for another queue, which is bound meanwhile, wait. -/
theorem hooks_of_relay_are_conserved : ∃ v : World Unit,
    relay.Visits [.register 0 "first", .bind (some 1), .atExit "other", .drain 7] { host := () } v ∧
      v.Balanced ∧ v.hooks.pending 1 = ["other"] ∧
      v.trace.filterMap Event.called? = [("first", 7), ("second", 7)] := by
  let start : World Unit :=
    (World.rebound (World.push { host := () } 0 "first" true) (some 1)).push 1 "other" false
  have hdrained : (relay.perform (.drain 7) start).map (fun (_, v) ↦
      (v.hooks.pending 1, v.trace.filterMap Event.called?)) =
        some (["other"], [("first", 7), ("second", 7)]) := by decide +kernel
  rcases hdrain : relay.perform (.drain 7) start with - | ⟨result, v⟩
  · rw [hdrain] at hdrained
    cases hdrained
  · rw [hdrain] at hdrained
    have hvisits : relay.Visits [.register 0 "first", .bind (some 1), .atExit "other", .drain 7]
        { host := () } v := .next rfl (.next rfl (.next rfl (.next hdrain .start)))
    have hbalanced := ((hooks_are_conserved relay { host := () }).1 _ _ hvisits).2 fun _ ↦ rfl
    simp only [Option.map_some, Option.some.injEq, Prod.mk.injEq] at hdrained
    exact ⟨v, hvisits, hbalanced, hdrained⟩

end Exit

end Launcher
