import Launcher.Proofs.Exit.Service

/-!
# Draining serves the queue

A drain takes all waiting hooks out of the queue, calls them, and looks again; while it calls them,
hooks may put further hooks into the queue. That comes to the same as serving the queue one hook at
a time: a drain that has a result has served the queue (`drained_of_drainWithin`), and a queue that
can be served is drained in at most one pass more than there are calls (`drainWithin_of_serves`).

The main statement says both, and what can be read off the story of a drain.
-/

namespace Launcher.Exit

variable {σ : Type} {exit : Exit σ} {status : Int} {bound : Option QueueId}

/-! ### Calls in a session -/

/-- `w'` comes from `w` by `calls` and is left in the state `s'`. -/
structure Called (status : Int) (w : World σ) (calls : List (Call σ)) (s' : σ) (w' : World σ) :
    Prop where
  host : w'.host = s'
  keeps : w.Keeps w'
  extends_calls : w.Extends (fun q ↦ calls.flatMap (Call.queued q w.hooks.bound))
    (calls.flatMap (Call.story status w.hooks.bound)) w'

theorem Called.nil (status : Int) (w : World σ) : Called status w [] w.host w :=
  ⟨rfl, World.Keeps.refl w, World.Extends.refl w⟩

theorem Called.cons {u v w : World σ} {call : Call σ} {calls : List (Call σ)} {s s' : σ}
    (h : Called status u [call] s v) (h' : Called status v calls s' w) :
    Called status u (call :: calls) s' w := by
  have hext := h.extends_calls.trans h'.extends_calls
  rw [h.extends_calls.bound] at hext
  refine ⟨h'.host, h.keeps.trans h'.keeps, ?_⟩
  simpa only [← List.flatMap_append, List.singleton_append] using hext

/-- What a call comes to before its failure is reported. -/
theorem called_before_report (status : Int) (w : World σ) (call : Call σ) :
    let v := (w.record (.hookCalled call.hook status)).after call.outcome
    v.host = call.outcome.state ∧ w.Keeps v ∧
      w.Extends (fun q ↦ call.queued q w.hooks.bound)
        (.hookCalled call.hook status :: Effect.storyOf w.hooks.bound call.outcome.effects) v := by
  have hrecord := w.extends_record (.hookCalled call.hook status)
  have hafter := (w.record (.hookCalled call.hook status)).extends_after call.outcome
  have hext := hrecord.trans hafter
  rw [hrecord.bound] at hext
  exact ⟨World.host_after _ _, (World.keeps_record w _).trans (World.keeps_after _ _), hext⟩

/-- Calling one hook in a session. -/
theorem callHook_apply (exit : Exit σ) (status : Int) (hook : Hook) (w : World σ) :
    ∃ w', exit.callHook status hook w = some (.ok (), w') ∧
      Called status w [exit.callOf status w.hooks.bound hook w.host]
        (exit.callOf status w.hooks.bound hook w.host).outcome.state w' := by
  have hattempt : Session.attempt (Session.perform (exit.call hook status))
      (w.record (.hookCalled hook status)) =
        some (.ok (exit.callOf status w.hooks.bound hook w.host).outcome.result,
          (w.record (.hookCalled hook status)).after
            (exit.callOf status w.hooks.bound hook w.host).outcome) := by
    rw [Session.attempt, Session.perform_apply, World.hooks_record, World.host_record]
    rfl
  have hrun : exit.callHook status hook w = _ :=
    (Session.bind_of_ok rfl).trans (Session.bind_of_ok hattempt)
  obtain ⟨hhost, hkeeps, hext⟩ :=
    called_before_report status w (exit.callOf status w.hooks.bound hook w.host)
  rcases hresult : (exit.callOf status w.hooks.bound hook w.host).outcome.result with failure | ⟨⟩
  · rw [hresult] at hrun
    refine ⟨_, hrun, (World.host_record _ _).trans hhost, hkeeps.trans (World.keeps_record _ _), ?_⟩
    have hreport := hext.trans (World.extends_record _ (.reported failure))
    simpa [Call.story, Call.failure?, hresult, Event.isQuiet] using hreport
  · rw [hresult] at hrun
    refine ⟨_, hrun, hhost, hkeeps, ?_⟩
    simpa [Call.story, Call.failure?, hresult] using hext

/-- Calling the hooks of a pass in a session. -/
theorem each_callHook_apply (exit : Exit σ) (status : Int) (hooks : List Hook) (w : World σ) :
    ∃ w', Session.each (exit.callHook status) hooks w = some (.ok (), w') ∧
      Called status w (exit.pass status w.hooks.bound hooks w.host).1
        (exit.pass status w.hooks.bound hooks w.host).2 w' := by
  induction hooks generalizing w with
  | nil => exact ⟨w, rfl, Called.nil status w⟩
  | cons hook hooks ih =>
    obtain ⟨v, hv, hcalled⟩ := callHook_apply exit status hook w
    obtain ⟨w', hw', hcalled'⟩ := ih v
    rw [hcalled.host, hcalled.extends_calls.bound] at hcalled'
    exact ⟨w', (Session.bind_of_ok hv).trans hw', hcalled.cons hcalled'⟩

/-! ### Draining -/

/-- `w'` comes from `w` by draining the queue of `exit` with `calls`. -/
structure Drained (exit : Exit σ) (status : Int) (w : World σ) (calls : List (Call σ))
    (w' : World σ) : Prop where
  /-- The calls are those of a queue that is served one hook at a time. -/
  serves : exit.Serves status w.hooks.bound (w.hooks.pending exit.queue) w.host calls w'.host
  /-- No hook waits any more. -/
  pending : w'.hooks.pending exit.queue = []
  /-- Another queue has what the calls put into it. -/
  others : ∀ q, q ≠ exit.queue → w'.hooks.pending q =
    w.hooks.pending q ++ calls.flatMap (Call.queued q w.hooks.bound)
  /-- Nothing happened but the calls, each with its effects and the report of its failure. -/
  story : w'.story = w.story ++ calls.flatMap (Call.story status w.hooks.bound)
  bound : w'.hooks.bound = w.hooks.bound
  shutdowns : w'.shutdowns = w.shutdowns
  keeps : w.Keeps w'

/-- The world after the hooks of the queue have been taken out. -/
def emptied (exit : Exit σ) (w : World σ) : World σ :=
  { w with hooks := w.hooks.clear exit.queue }.record
    (.taken exit.queue (w.hooks.pending exit.queue))

section Emptied

variable (exit : Exit σ) (w : World σ)

@[simp]
theorem host_emptied : (exit.emptied w).host = w.host :=
  World.host_record _ _

@[simp]
theorem bound_emptied : (exit.emptied w).hooks.bound = w.hooks.bound := by
  rw [emptied, World.hooks_record]
  exact HookTable.bound_setPending _ _ _

theorem keeps_emptied : w.Keeps (exit.emptied w) :=
  have h := World.keeps_record { w with hooks := w.hooks.clear exit.queue }
    (.taken exit.queue (w.hooks.pending exit.queue))
  ⟨h.path, h.arguments, h.level⟩

theorem shutdowns_emptied : (exit.emptied w).shutdowns = w.shutdowns :=
  (World.extends_record _ _).shutdowns

@[simp]
theorem pending_emptied : (exit.emptied w).hooks.pending exit.queue = [] := by
  rw [emptied, World.hooks_record]
  exact HookTable.pending_setPending_self _ _ _

theorem pending_emptied_of_ne {q : QueueId} (h : q ≠ exit.queue) :
    (exit.emptied w).hooks.pending q = w.hooks.pending q := by
  rw [emptied, World.hooks_record]
  exact HookTable.pending_setPending_of_ne _ _ h

theorem story_emptied : (exit.emptied w).story = w.story :=
  (World.story_record _ _).trans (List.append_nil _)

end Emptied

theorem drained_nil {w : World σ} (h : w.hooks.pending exit.queue = []) :
    Drained exit status w [] (exit.emptied w) where
  serves := by
    rw [h, host_emptied]
    exact .done
  pending := pending_emptied exit w
  others q hq := by rw [pending_emptied_of_ne exit w hq, List.flatMap_nil, List.append_nil]
  story := by rw [story_emptied, List.flatMap_nil, List.append_nil]
  bound := bound_emptied exit w
  shutdowns := shutdowns_emptied exit w
  keeps := keeps_emptied exit w

theorem drainWithin_of_empty {w : World σ} (h : w.hooks.pending exit.queue = []) (n : Nat) :
    exit.drainWithin status (n + 1) w = some (.ok (), exit.emptied w) := by
  refine (Session.bind_of_ok rfl).trans ?_
  rw [emptied, h]
  rfl

/-- `v` comes from `w` by the first pass of a drain. -/
structure Passed (exit : Exit σ) (status : Int) (w v : World σ) : Prop where
  host : v.host = (exit.pass status w.hooks.bound (w.hooks.pending exit.queue) w.host).2
  pending : v.hooks.pending exit.queue =
    (exit.pass status w.hooks.bound (w.hooks.pending exit.queue) w.host).1.flatMap
      (Call.queued exit.queue w.hooks.bound)
  others : ∀ q, q ≠ exit.queue → v.hooks.pending q = w.hooks.pending q ++
    (exit.pass status w.hooks.bound (w.hooks.pending exit.queue) w.host).1.flatMap
      (Call.queued q w.hooks.bound)
  story : v.story = w.story ++
    (exit.pass status w.hooks.bound (w.hooks.pending exit.queue) w.host).1.flatMap
      (Call.story status w.hooks.bound)
  bound : v.hooks.bound = w.hooks.bound
  shutdowns : v.shutdowns = w.shutdowns
  keeps : w.Keeps v

/-- The hooks that were taken out are called, after a note. -/
theorem Passed.of_called {w v : World σ} {note : Note}
    (h : Called status ((exit.emptied w).record (.noted note))
      (exit.pass status w.hooks.bound (w.hooks.pending exit.queue) w.host).1
      (exit.pass status w.hooks.bound (w.hooks.pending exit.queue) w.host).2 v) :
    Passed exit status w v := by
  have hnote := (exit.emptied w).extends_record (.noted note)
  have hext := hnote.trans h.extends_calls
  rw [hnote.bound, bound_emptied] at hext
  refine ⟨h.host, ?_, fun q hq ↦ ?_, ?_, ?_, ?_, ?_⟩
  · rw [hext.pending, pending_emptied]
    rfl
  · rw [hext.pending, pending_emptied_of_ne exit w hq]
    rfl
  · rw [hext.story, story_emptied]
    rfl
  · rw [hext.bound, bound_emptied]
  · rw [hext.shutdowns, shutdowns_emptied]
  · exact ((keeps_emptied exit w).trans (World.keeps_record _ _)).trans h.keeps

/-- A pass and a drain behind it are a drain. -/
theorem Passed.drained {w v w' : World σ} {more : List (Call σ)} (h : Passed exit status w v)
    (hmore : Drained exit status v more w') :
    Drained exit status w
      ((exit.pass status w.hooks.bound (w.hooks.pending exit.queue) w.host).1 ++ more) w' where
  serves := by
    have hserves := hmore.serves
    rw [h.bound, h.pending, h.host] at hserves
    exact Serves.pass_iff.2 ⟨more, rfl, hserves⟩
  pending := hmore.pending
  others q hq := by
    rw [hmore.others q hq, h.others q hq, h.bound, List.flatMap_append, List.append_assoc]
  story := by rw [hmore.story, h.story, h.bound, List.flatMap_append, List.append_assoc]
  bound := hmore.bound.trans h.bound
  shutdowns := hmore.shutdowns.trans h.shutdowns
  keeps := h.keeps.trans hmore.keeps

/-- A drain that finds hooks makes a pass and looks again. -/
theorem exists_drainWithin_succ (exit : Exit σ) (status : Int) {w : World σ}
    (h : w.hooks.pending exit.queue ≠ []) :
    ∃ v, Passed exit status w v ∧
      ∀ n, exit.drainWithin status (n + 1) w = exit.drainWithin status n v := by
  obtain ⟨v, hv, hcalled⟩ := each_callHook_apply exit status (w.hooks.pending exit.queue)
    ((exit.emptied w).record (.noted (.runningHooks (w.hooks.pending exit.queue).length status)))
  rw [World.hooks_record, World.host_record, bound_emptied, host_emptied] at hcalled
  refine ⟨v, .of_called hcalled, fun n ↦ ?_⟩
  refine (Session.bind_of_ok rfl).trans ?_
  rw [if_neg (by simpa using h)]
  exact (Session.bind_of_ok rfl).trans (Session.bind_of_ok hv)

/-- **A drain that has a result has served the queue.** It never fails. -/
theorem drained_of_drainWithin {w w' : World σ} {n : Nat} {result : Except Failure Unit}
    (h : exit.drainWithin status n w = some (result, w')) :
    result = .ok () ∧ ∃ calls, Drained exit status w calls w' := by
  induction n generalizing w with
  | zero => cases h
  | succ n ih =>
    by_cases hempty : w.hooks.pending exit.queue = []
    · rw [drainWithin_of_empty hempty] at h
      cases h
      exact ⟨rfl, [], drained_nil hempty⟩
    · obtain ⟨v, hpassed, hrun⟩ := exists_drainWithin_succ exit status hempty
      rw [hrun] at h
      obtain ⟨hok, more, hmore⟩ := ih h
      exact ⟨hok, _, hpassed.drained hmore⟩

/-- **A queue that can be served is drained**, in at most one pass more than there are calls. -/
theorem drainWithin_of_serves {w : World σ} {calls : List (Call σ)} {s' : σ}
    (h : exit.Serves status w.hooks.bound (w.hooks.pending exit.queue) w.host calls s') {n : Nat}
    (hn : calls.length < n) :
    ∃ w', exit.drainWithin status n w = some (.ok (), w') ∧ Drained exit status w calls w' := by
  induction n generalizing w calls with
  | zero => omega
  | succ n ih =>
    by_cases hempty : w.hooks.pending exit.queue = []
    · rw [hempty] at h
      obtain ⟨rfl, -⟩ := Serves.nil_iff.1 h
      exact ⟨_, drainWithin_of_empty hempty n, drained_nil hempty⟩
    · obtain ⟨v, hpassed, hrun⟩ := exists_drainWithin_succ exit status hempty
      obtain ⟨more, rfl, hmore⟩ := Serves.pass_iff.1 h
      -- the pass has made at least one of the calls
      have hlength := List.length_pos_iff.2 hempty
      rw [List.length_append, length_pass] at hn
      rw [← hpassed.pending, ← hpassed.host, ← hpassed.bound] at hmore
      obtain ⟨w', hw', hdrained⟩ := ih hmore (by omega)
      exact ⟨w', (hrun n).trans hw', hpassed.drained hdrained⟩

/-- **A drain behaves as a queue served one hook at a time.** Whenever it has a result it has
returned, its calls empty the queue, and its story tells them: the hooks called are those that waited
and then those that were queued, in this order, each with the status, and exactly the failures of the
calls are reported, in their order. Conversely a queue that can be served is drained by the same
calls, and if every hook only queues hooks of a lower rank, the drain ends. -/
theorem drain_serves_queue (exit : Exit σ) (status : Int) (w : World σ) :
    (∀ n result w', exit.drainWithin status n w = some (result, w') → result = .ok () ∧
      ∃ calls told, Drained exit status w calls w' ∧ w'.story = w.story ++ told ∧
        told.filterMap Event.called? = calls.map (fun call ↦ (call.hook, status)) ∧
        calls.map Call.hook =
          w.hooks.pending exit.queue ++ told.filterMap (Event.queued? exit.queue) ∧
        told.filterMap Event.reported? = calls.filterMap Call.failure?) ∧
    (∀ calls s', exit.Serves status w.hooks.bound (w.hooks.pending exit.queue) w.host calls s' →
      ∀ n, calls.length < n → ∃ w', exit.drainWithin status n w = some (.ok (), w') ∧
        w'.host = s' ∧ Drained exit status w calls w') ∧
    (∀ rank : Hook → Nat,
      (∀ hook s, ∀ new ∈ (exit.callOf status w.hooks.bound hook s).queued exit.queue w.hooks.bound,
        rank new < rank hook) →
      ∃ passes, ∀ n, passes ≤ n → (exit.drainWithin status n w).isSome) := by
  refine ⟨fun n result w' h ↦ ?_, fun calls s' h n hn ↦ ?_, fun rank hrank ↦ ?_⟩
  · obtain ⟨hok, calls, hdrained⟩ := drained_of_drainWithin h
    refine ⟨hok, calls, _, hdrained, hdrained.story, ?_, ?_, ?_⟩
    · exact Call.filterMap_called?_story status _ calls
    · rw [Call.filterMap_queued?_story]
      exact hdrained.serves.map_hook
    · exact Call.filterMap_reported?_story status _ calls
  · obtain ⟨w', hw', hdrained⟩ := drainWithin_of_serves h hn
    exact ⟨w', hw', (hdrained.serves.unique h).2, hdrained⟩
  · obtain ⟨calls, s', h⟩ := exists_serves_of_rank hrank (w.hooks.pending exit.queue) w.host
    refine ⟨calls.length + 1, fun n hn ↦ ?_⟩
    obtain ⟨w', hw', -⟩ := drainWithin_of_serves h hn
    rw [hw']
    rfl

/-- The failure of a hook that has nobody to hand over to. -/
def noBaton : Failure := { cause := .standard .valueError "no baton" }

/-- A queue in which one hook queues another that fails. -/
def relay : Exit Unit where
  call hook _ := if hook = "first" then Hosted.enqueue 0 "second" else Hosted.raise noBaton
  passes := 3

/-- A world in which the first hook of the relay waits. -/
def relayStart : World Unit := { host := (), hooks := { queues := [(0, ["first"])] } }

/-- The first hook of the relay ranks above all others. -/
def relayRank (hook : Hook) : Nat := if hook = "first" then 1 else 0

theorem relayRank_lt (status : Int) (bound : Option QueueId) (hook new : Hook) (s : Unit)
    (h : new ∈ (relay.callOf status bound hook s).queued 0 bound) :
    relayRank new < relayRank hook := by
  by_cases hfirst : hook = "first"
  · subst hfirst
    obtain rfl : new = "second" := List.mem_singleton.1 h
    decide
  · have hcall : relay.call hook status = Hosted.raise noBaton := if_neg hfirst
    rw [Call.queued, callOf, hcall] at h
    cases h

theorem drain_relay_serves_queue :
    ∃ w' told, relay.drainWithin 7 3 relayStart = some (.ok (), w') ∧
      w'.story = relayStart.story ++ told ∧
      told.filterMap Event.called? = [("first", 7), ("second", 7)] ∧
      told.filterMap Event.reported? = [noBaton] ∧
      ∃ passes, ∀ n, passes ≤ n → (relay.drainWithin 7 n relayStart).isSome := by
  obtain ⟨hresult, hserved, hrank⟩ := drain_serves_queue relay 7 relayStart
  have hserves : relay.Serves 7 none ["first"] ()
      [relay.callOf 7 none "first" (), relay.callOf 7 none "second" ()] () := .call (.call .done)
  obtain ⟨w', hw', -, hdrained⟩ := hserved _ () hserves 3 (by decide)
  obtain ⟨-, calls, told, hdrained', hstory, hcalled, -, hreported⟩ := hresult 3 _ w' hw'
  obtain ⟨rfl, -⟩ := hdrained'.serves.unique hserves
  exact ⟨w', told, hw', hstory, hcalled, hreported,
    hrank relayRank fun hook s new h ↦ relayRank_lt 7 none hook new s h⟩

end Launcher.Exit
