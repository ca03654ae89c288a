import Launcher.Proofs.Run.Plain

/-!
# How a run ends

A run has two boundaries, one around reading and one around running the plan. They act as one
boundary around the plain run (`body_eq_conclude`), and so a run ends in one of two ways. Either it
halts the process (`Halted`): every hook that was ever queued is called with the status of the halt,
and the halt is the last event. Or it stays alive (`StaysAlive`): it returns the plan that was read,
calls no hook, and leaves a callback behind that calls every hook with success.
-/

namespace Launcher

/-- The world with another binding. -/
def World.rebound {σ : Type} (w : World σ) (queue : Option QueueId) : World σ :=
  { w with hooks := { w.hooks with bound := queue } }

namespace Run

variable {σ : Type} {c : Collaborators σ} {exit : Exit σ} {arguments : List String}

/-! ### Two boundaries act as one -/

/-- Whether the process ends after a plain run. -/
def halting : Except Failure Plan → Bool
  | .ok plan => plan.halt
  | .error _ => true

/-- After a failure the first boundary leaves nothing to publish. -/
theorem conclude_error_bind (exit : Exit σ) (failure : Failure) (u : World σ)
    {f : Option (Plan × List String) → Session σ (Option Plan)} (hnone : f none = pure none) :
    (exit.conclude false true (.error failure) >>= f) u =
      exit.conclude true true (.error failure) u := by
  rcases hsettle : exit.settle true failure u with - | ⟨failure' | ⟨⟩, v⟩
  · exact (Session.bind_of_none (Session.bind_of_none hsettle)).trans
      (Session.bind_of_none hsettle).symm
  · exact (Session.bind_of_error (Session.bind_of_error hsettle)).trans
      (Session.bind_of_error hsettle).symm
  · refine (Session.bind_of_ok (Session.bind_of_ok hsettle)).trans ?_
    rw [hnone]
    exact (Session.bind_of_ok (f := fun _ ↦ pure none) hsettle).symm

/-- **The boundaries around reading and around running the plan act as one boundary** around the
plain run, if nothing fails between them. -/
theorem body_eq_conclude (hpublish : ∀ rest bound s, (c.publish rest bound s).result = .ok ())
    (exit : Exit σ) {w v : World σ} {result : Except Failure Plan}
    (hplain : plain c arguments w = some (result, v)) :
    body c exit arguments w = exit.conclude (halting result) true result v := by
  obtain ⟨u, -, -, hread⟩ := read_apply c arguments w
  generalize (Argv.parse (c.surroundings w.host) arguments {} w.path).1.handBack.map _ = read?
    at hread
  have hfirst := Exit.guarded_apply exit false true hread
  refine (Session.bind_congr hfirst _).trans ?_
  rcases read? with failure | ⟨plan, rest⟩
  -- the first boundary brings the run to its end
  · have hfailed : plain c arguments w = some (.error failure, u) := Session.bind_of_error hread
    rw [hfailed] at hplain
    cases hplain
    exact conclude_error_bind exit failure v rfl
  -- the first boundary lets the run go on, and the second one is around the rest of it
  · obtain ⟨u', -, -, hpublished⟩ := publish_apply hpublish rest u
    have hexecute : execute c plan u' = some (result, v) := by
      rw [← hplain]
      exact ((Session.bind_of_ok hread).trans (Session.bind_of_ok hpublished)).symm
    refine (Session.bind_of_ok rfl).trans ((Session.bind_of_ok hpublished).trans ?_)
    rw [Exit.guarded_apply exit _ true hexecute]
    cases result with
    | error failure => rfl
    | ok plan' =>
      -- the plan that comes back is the one whose halt the second boundary goes by
      obtain ⟨_, -, hexecute'⟩ := execute_apply c plan u'
      rw [hexecute, Option.some.injEq, Prod.mk.injEq] at hexecute'
      rw [plainEnding_of_ok hexecute'.1.symm]
      rfl

theorem body_eq_guarded (hpublish : ∀ rest bound s, (c.publish rest bound s).result = .ok ())
    (exit : Exit σ) {w v : World σ} {result : Except Failure Plan}
    (hplain : plain c arguments w = some (result, v)) :
    body c exit arguments w = exit.guarded (halting result) true (plain c arguments) w := by
  rw [Exit.guarded_apply exit _ true hplain]
  exact body_eq_conclude hpublish exit hplain

/-! ### The binding around a run -/

theorem main_of_body_error {w v : World σ} {failure : Failure}
    (h : body c exit arguments (w.rebound (some exit.queue)) = some (.error failure, v)) :
    main c exit arguments w = some (.error failure, v.rebound w.hooks.bound) :=
  (Session.bind_of_ok rfl).trans (Session.bind_of_ok (Session.attempt_of_some h))

theorem main_of_body_none {w v : World σ}
    (h : body c exit arguments (w.rebound (some exit.queue)) = some (.ok none, v)) :
    main c exit arguments w = some (.ok none, v.rebound w.hooks.bound) :=
  (Session.bind_of_ok rfl).trans (Session.bind_of_ok (Session.attempt_of_some h))

/-- The world after a callback for the end of the process has been left behind. -/
def planned (exit : Exit σ) (previous : Option QueueId) (v : World σ) : World σ :=
  let callback : Shutdown := ⟨exit.queue, previous⟩
  { v with shutdowns := v.shutdowns ++ [callback] }.record .shutdownPlanned

theorem main_of_body_some {w v : World σ} {plan : Plan}
    (h : body c exit arguments (w.rebound (some exit.queue)) = some (.ok (some plan), v)) :
    main c exit arguments w = some (.ok (some plan), planned exit w.hooks.bound v) := by
  refine (Session.bind_of_ok rfl).trans ?_
  exact (Session.bind_of_ok (Session.attempt_of_some h)).trans rfl

/-- A run ends as its body does. The binding returns unless the process stays alive. -/
theorem exists_body_of_main {w w' : World σ} {result : Except Failure (Option Plan)}
    (h : main c exit arguments w = some (result, w')) :
    ∃ v, body c exit arguments (w.rebound (some exit.queue)) = some (result, v) ∧
      ((∃ plan, result = .ok (some plan) ∧ w' = planned exit w.hooks.bound v) ∨
        (∀ plan, result ≠ .ok (some plan)) ∧ w' = v.rebound w.hooks.bound) := by
  rcases hbody : body c exit arguments (w.rebound (some exit.queue)) with
    - | ⟨failure | (- | plan), v⟩
  · have hattempt := congrArg (Option.map fun (result, w) ↦ (Except.ok (ε := Failure) result, w)) hbody
    have hnever : main c exit arguments w = none :=
      (Session.bind_of_ok rfl).trans (Session.bind_of_none hattempt)
    rw [hnever] at h
    cases h
  · rw [main_of_body_error hbody] at h
    cases h
    exact ⟨v, rfl, .inr ⟨nofun, rfl⟩⟩
  · rw [main_of_body_none hbody] at h
    cases h
    exact ⟨v, rfl, .inr ⟨nofun, rfl⟩⟩
  · rw [main_of_body_some hbody] at h
    cases h
    exact ⟨v, rfl, .inl ⟨plan, rfl, rfl⟩⟩

/-- The callback for the end of the process drains the queue and lets the binding return. -/
theorem exists_shutdown (exit : Exit σ) (previous : Option QueueId) {w : World σ}
    (hdrain : exit.DrainEnds Status.success w) :
    ∃ N, ∀ n, N ≤ n → ∃ calls w',
      shutdown (exit.within n) ⟨exit.queue, previous⟩ w = some (.ok (), w'.rebound previous) ∧
        Exit.Drained exit Status.success w calls w' := by
  obtain ⟨calls, s', hserves⟩ := (Exit.drainEnds_iff exit Status.success w).1 hdrain
  refine ⟨calls.length + 1, fun n hn ↦ ?_⟩
  obtain ⟨w', hw', hdrained⟩ := Exit.drainWithin_of_serves hserves hn
  rw [← Exit.drain_within] at hw'
  refine ⟨calls, w', ?_, hdrained⟩
  exact (Session.bind_of_ok (Session.attempt_of_some hw')).trans (Session.bind_of_ok rfl)

/-! ### The two ways to end -/

/-- A run from `w` has halted the process with `status`: it told `commands` and then `ending`. -/
structure Halted (c : Collaborators σ) (exit : Exit σ) (arguments : List String) (w : World σ)
    (commands ending : List Event) (status : Int) (value : Except Failure (Option Plan))
    (w' : World σ) : Prop where
  /-- No plan is handed back. -/
  value_eq : value = .ok none
  story : w'.story = w.story ++ (commands ++ ending)
  running : ∀ e ∈ commands, e.isEnding = false
  /-- The ending is the closing that the boundary owes to the plain run. -/
  closes : ∃ result v closing, ∃ calls : List (Exit.Call σ),
    plain c arguments (w.rebound (some exit.queue)) = some (result, v) ∧
      Exit.closing? (halting result) true result = some closing ∧ closing.status = status ∧
      ending = closing.story (some exit.queue) calls
  /-- Every hook that waited before the run or was queued since is called once, with the status. -/
  called : (commands ++ ending).filterMap Event.called? = (w.hooks.pending exit.queue ++
    (commands ++ ending).filterMap (Event.queued? exit.queue)).map fun hook ↦ (hook, status)
  /-- There is one halt, and it is the last event. -/
  halted : (commands ++ ending).filterMap Event.halted? = [status]
  last : (commands ++ ending).getLast? = some (.halted status)
  pending : w'.hooks.pending exit.queue = []
  /-- No callback is left behind. -/
  shutdowns : w'.shutdowns = w.shutdowns
  bound : w'.hooks.bound = w.hooks.bound

/-- A run from `w` has left the process alive with `plan`: it told `commands` and left a callback
behind. -/
structure StaysAlive (c : Collaborators σ) (exit : Exit σ) (arguments : List String) (w : World σ)
    (commands : List Event) (plan : Plan) (value : Except Failure (Option Plan)) (w' : World σ) :
    Prop where
  value_eq : value = .ok (some plan)
  /-- The plan is the one that was read. -/
  parsed : ∃ rest p, Argv.parse (c.surroundings w.host) arguments {} w.path = (.finished rest, p) ∧
    plan = p.plan
  halt : plan.halt = false
  story : w'.story = w.story ++ (commands ++ [.shutdownPlanned])
  running : ∀ e ∈ commands, e.isEnding = false
  called : commands.filterMap Event.called? = []
  halted : commands.filterMap Event.halted? = []
  pending : w'.hooks.pending exit.queue =
    w.hooks.pending exit.queue ++ commands.filterMap (Event.queued? exit.queue)
  /-- Exactly one callback is left behind. -/
  shutdowns : w'.shutdowns = w.shutdowns ++ [⟨exit.queue, w.hooks.bound⟩]
  bound : w'.hooks.bound = some exit.queue
  /-- Whatever hosted programs do until the callback is run, it calls every hook that waited before
  the run or was queued since, once and with success, and halts nothing. -/
  callback : ∀ later v, w'.Proceeds later v → exit.DrainEnds Status.success v →
    ∃ N, ∀ n, N ≤ n → ∃ told v',
      shutdown (exit.within n) ⟨exit.queue, w.hooks.bound⟩ v = some (.ok (), v') ∧
        v'.story = v.story ++ told ∧
        told.filterMap Event.called? = (w.hooks.pending exit.queue ++
          (commands ++ later ++ told).filterMap (Event.queued? exit.queue)).map
            (fun hook ↦ (hook, Status.success)) ∧
        told.filterMap Event.halted? = [] ∧
        v'.hooks.pending exit.queue = [] ∧ v'.hooks.bound = w.hooks.bound

section Endings

variable {w v w' : World σ} {told : List Event} {result : Except Failure Plan}

/-- Closing a plain run and letting the binding return halts the process. -/
theorem halted_of_closed (hproceeds : (w.rebound (some exit.queue)).Proceeds told v)
    (hplain : plain c arguments (w.rebound (some exit.queue)) = some (result, v))
    {closing : Exit.Closing} (hclosing : Exit.closing? (halting result) true result = some closing)
    {calls : List (Exit.Call σ)} (hclosed : Exit.Closed exit closing v calls w') :
    Halted c exit arguments w told (closing.story (some exit.queue) calls) closing.status (.ok none)
      (w'.rebound w.hooks.bound) := by
  have hbound : v.hooks.bound = some exit.queue := hproceeds.grown.bound
  have hstory := hclosed.story
  have hserves := hclosed.serves
  rw [hbound] at hstory hserves
  refine ⟨rfl, ?_, hproceeds.running, ⟨result, v, closing, calls, hplain, hclosing, rfl, rfl⟩, ?_,
    ?_, ?_, hclosed.pending, ?_, rfl⟩
  · show w'.story = _
    rw [hstory, hproceeds.grown.story, List.append_assoc]
    rfl
  · -- first in, first out: the queue after the plain run, then what the hooks have queued
    have hcalls := hserves.map_hook_status
    rw [hproceeds.grown.pending] at hcalls
    rw [List.filterMap_append, List.filterMap_append, hproceeds.called, List.nil_append,
      closing.filterMap_called?_story, closing.filterMap_queued?_story, ← List.append_assoc]
    exact hcalls
  · rw [List.filterMap_append, hproceeds.halted, closing.filterMap_halted?_story, List.nil_append]
  · rw [Exit.Closing.story, Exit.Closing.after, ← List.append_assoc, ← List.append_assoc,
      List.getLast?_concat]
  · exact hclosed.shutdowns.trans hproceeds.grown.shutdowns

/-- A run whose ending is caught and owed a closing halts, if the drain ends. -/
theorem exists_halted (hpublish : ∀ rest bound s, (c.publish rest bound s).result = .ok ())
    (hrecording : exit.halting = .recording)
    (hproceeds : (w.rebound (some exit.queue)).Proceeds told v)
    (hplain : plain c arguments (w.rebound (some exit.queue)) = some (result, v))
    (hcaught : ∀ failure, result = .error failure → failure.cause.escapes = false)
    {closing : Exit.Closing} (hclosing : Exit.closing? (halting result) true result = some closing)
    (hdrain : exit.DrainEnds closing.status v) :
    ∃ N, ∀ n, N ≤ n → ∃ (calls : List (Exit.Call σ)) (w' : World σ),
      main c (exit.within n) arguments w = some (.ok none, w') ∧
        Halted c exit arguments w told (closing.story (some exit.queue) calls) closing.status
          (.ok none) w' := by
  obtain ⟨N, hN⟩ := Exit.exists_guarded hrecording hplain hcaught hclosing hdrain
  refine ⟨N, fun n hn ↦ ?_⟩
  obtain ⟨calls, w', hw', hclosed⟩ := hN n hn
  rw [Exit.guarded_apply _ _ _ hplain, ← body_eq_conclude hpublish (exit.within n) hplain] at hw'
  exact ⟨calls, _, main_of_body_none hw', halted_of_closed hproceeds hplain hclosing hclosed⟩

/-- A callback that is left behind by a plain run. -/
theorem staysAlive_of_ok (hproceeds : (w.rebound (some exit.queue)).Proceeds told v) {plan : Plan}
    (hparsed : ∃ rest p,
      Argv.parse (c.surroundings w.host) arguments {} w.path = (.finished rest, p) ∧ plan = p.plan)
    (hhalt : plan.halt = false) :
    StaysAlive c exit arguments w told plan (.ok (some plan)) (planned exit w.hooks.bound v) := by
  let callback : Shutdown := ⟨exit.queue, w.hooks.bound⟩
  have hplanned := { v with shutdowns := v.shutdowns ++ [callback] }.extends_record .shutdownPlanned
  have hpending : (planned exit w.hooks.bound v).hooks.pending exit.queue =
      w.hooks.pending exit.queue ++ told.filterMap (Event.queued? exit.queue) := by
    rw [planned, hplanned.pending, List.append_nil]
    exact hproceeds.grown.pending exit.queue
  have hbound : (planned exit w.hooks.bound v).hooks.bound = some exit.queue :=
    hplanned.bound.trans hproceeds.grown.bound
  refine ⟨rfl, hparsed, hhalt, ?_, hproceeds.running, hproceeds.called, hproceeds.halted, hpending,
    ?_, hbound, ?_⟩
  · rw [planned, hplanned.story]
    show v.story ++ _ = _
    rw [hproceeds.grown.story, List.append_assoc]
    rfl
  · rw [planned, hplanned.shutdowns]
    exact congrArg (· ++ [callback]) hproceeds.grown.shutdowns
  · intro later u hlater hdrain
    obtain ⟨N, hN⟩ := exists_shutdown exit w.hooks.bound hdrain
    refine ⟨N, fun n hn ↦ ?_⟩
    obtain ⟨calls, u', hu', hdrained⟩ := hN n hn
    refine ⟨_, _, hu', hdrained.story, ?_, Exit.Call.filterMap_halted?_story _ _ calls,
      hdrained.pending, rfl⟩
    have hcalls := hdrained.serves.map_hook_status
    rw [hlater.grown.pending, hpending] at hcalls
    rw [Exit.Call.filterMap_called?_story, List.filterMap_append, List.filterMap_append,
      Exit.Call.filterMap_queued?_story, ← List.append_assoc, ← List.append_assoc]
    exact hcalls

end Endings

/-- **A run halts the process or leaves it alive, and never both**, if publishing does not fail, all
that the run turns to is catchable, and the drain at its end ends. -/
theorem main_halts_or_stays_alive (hc : c.Catchable)
    (hpublish : ∀ rest bound s, (c.publish rest bound s).result = .ok ()) (exit : Exit σ)
    (hrecording : exit.halting = .recording) (arguments : List String) (w : World σ)
    (hdrain : ∀ result v closing,
      plain c arguments (w.rebound (some exit.queue)) = some (result, v) →
      Exit.closing? (halting result) true result = some closing →
      exit.DrainEnds closing.status v) :
    ∃ N, ∀ n, N ≤ n → ∃ value w', main c (exit.within n) arguments w = some (value, w') ∧
      Xor (∃ commands ending status, Halted c exit arguments w commands ending status value w')
        (∃ commands plan, StaysAlive c exit arguments w commands plan value w') := by
  obtain ⟨result, told, v, hproceeds, hplain, hok, hcaught⟩ :=
    plain_apply hc hpublish arguments (w.rebound (some exit.queue))
  have hbody : ∀ n, body c (exit.within n) arguments (w.rebound (some exit.queue)) =
      (exit.within n).guarded (halting result) true (plain c arguments)
        (w.rebound (some exit.queue)) :=
    fun n ↦ body_eq_guarded hpublish (exit.within n) hplain
  rcases hclosing : Exit.closing? (halting result) true result with - | closing
  · refine ⟨0, fun n _ ↦ ?_⟩
    have hstay := (hbody n).trans (Exit.guarded_of_stay hplain hclosing)
    cases result with
    | error failure => cases hclosing
    | ok plan =>
      have hhalt : plan.halt = false := by
        cases h : plan.halt with
        | false => rfl
        | true =>
          rw [halting, h] at hclosing
          cases hclosing
      have halive : StaysAlive c exit arguments w told plan _ _ :=
        staysAlive_of_ok hproceeds (hok plan rfl) hhalt
      refine ⟨_, _, main_of_body_some hstay, Or.inr ⟨⟨told, plan, halive⟩, ?_⟩⟩
      rintro ⟨_, _, _, hhalted⟩
      cases hhalted.value_eq
  · obtain ⟨N, hN⟩ := Exit.exists_guarded hrecording hplain hcaught hclosing
      (hdrain result v closing hplain hclosing)
    refine ⟨N, fun n hn ↦ ?_⟩
    obtain ⟨calls, w', hw', hclosed⟩ := hN n hn
    have hnone := (hbody n).trans hw'
    have hhalted := halted_of_closed hproceeds hplain hclosing hclosed
    refine ⟨_, _, main_of_body_none hnone, Or.inl ⟨⟨told, _, _, hhalted⟩, ?_⟩⟩
    rintro ⟨_, _, hstays⟩
    cases hstays.value_eq

/-! ### A run of the relay -/

/-- Collaborators that do nothing, but for an evaluator that puts the first hook of the relay into
the queue of the run. -/
def relayHost : Collaborators Unit where
  files := {
    wildcard := fun _ _ ↦ []
    isRegular := fun _ _ ↦ false
    isDirectory := fun _ _ ↦ false
    findExecutable := fun _ _ ↦ none
    isBatchPlatform := fun _ ↦ false
    ensureDirectory := fun _ ↦ pure () }
  place := { directory := "/", home := none, userHome := fun _ ↦ none }
  eval _ := Hosted.atExit "first"
  requireFile _ := pure ()
  loadFiles _ := pure ()
  startApplication _ := pure ()
  compileFiles _ _ _ _ := pure ()
  nodeIsAlive _ := false
  setCookie _ := pure ()
  version := "1.0"

theorem catchable_relayHost : relayHost.Catchable where
  ensureDirectory _ := Hosted.catchable_pure ()
  eval _ bound _ failure h := by
    cases bound with
    | true => cases h
    | false =>
      cases h
      rfl
  requireFile _ := Hosted.catchable_pure ()
  loadFiles _ := Hosted.catchable_pure ()
  startApplication _ := Hosted.catchable_pure ()
  compileFiles _ _ _ _ _ := Hosted.catchable_pure ()
  setCookie _ := Hosted.catchable_pure ()

theorem main_relay_halts : ∃ N, ∀ n, N ≤ n → ∃ value w' commands ending status,
    main relayHost (Exit.relay.within n) ["-e", "baton"] Exit.relayStart = some (value, w') ∧
      Halted relayHost Exit.relay ["-e", "baton"] Exit.relayStart commands ending status value
        w' := by
  obtain ⟨N, hN⟩ := main_halts_or_stays_alive catchable_relayHost (fun _ _ _ ↦ rfl) Exit.relay rfl
    ["-e", "baton"] Exit.relayStart fun _ v closing _ _ ↦ Exit.drainEnds_relay closing.status v
  refine ⟨N, fun n hn ↦ ?_⟩
  obtain ⟨value, w', hmain, ⟨⟨commands, ending, status, hhalted⟩, -⟩ | ⟨⟨_, plan, hstays⟩, -⟩⟩ :=
    hN n hn
  · exact ⟨value, w', commands, ending, status, hmain, hhalted⟩
  · obtain ⟨rest, p, hparse, rfl⟩ := hstays.parsed
    have hhalt := hstays.halt
    -- only an option keeps the process alive, and there is none
    have hread : Argv.parse (relayHost.surroundings ()) ["-e", "baton"] {} {} = (.finished rest, p) :=
      hparse
    cbv at hread
    cases hread
    cases hhalt

end Run

end Launcher
