import Launcher.Proofs.ErrorLines
import Launcher.Proofs.Run.Ending

/-!
# Two ways to halt

A halt can be recorded, and then the code behind it goes on. Or it leaves the process, and then the
exit passes through everything that is still around the run. Neither makes a difference for what the
run does before: everything that leads up to a halt is the same (`Exit.conclude_eq_leadUp`), the
boundaries do not catch an exit that comes from themselves, and behind a recorded halt there is
nothing left to do (`main_agrees_on_halting`).
-/

namespace Launcher

variable {σ α : Type}

/-- `w'` comes from `w` without a halt. -/
def World.RunsOn (w w' : World σ) : Prop :=
  ∃ told, w'.story = w.story ++ told ∧ told.filterMap Event.halted? = []

namespace World.RunsOn

variable {u v w : World σ}

theorem refl (w : World σ) : w.RunsOn w := ⟨[], (List.append_nil _).symm, rfl⟩

theorem trans (h : u.RunsOn v) (h' : v.RunsOn w) : u.RunsOn w := by
  obtain ⟨told, hstory, hhalted⟩ := h
  obtain ⟨told', hstory', hhalted'⟩ := h'
  refine ⟨told ++ told', by rw [hstory', hstory, List.append_assoc], ?_⟩
  rw [List.filterMap_append, hhalted, hhalted']
  rfl

theorem recordAll (w : World σ) {events : List Event}
    (h : events.filterMap Event.halted? = []) : w.RunsOn (w.recordAll events) := by
  refine ⟨_, (w.extends_recordAll events).story, List.filterMap_eq_nil_iff.2 fun e he ↦ ?_⟩
  exact List.filterMap_eq_nil_iff.1 h e (List.mem_filter.1 he).1

end World.RunsOn

theorem World.Proceeds.runsOn {w w' : World σ} {told : List Event} (h : w.Proceeds told w') :
    w.RunsOn w' :=
  ⟨told, h.grown.story, h.halted⟩

theorem Session.bind_assoc {β γ : Type} (p : Session σ α) (f : α → Session σ β)
    (g : β → Session σ γ) : p >>= f >>= g = p >>= fun a ↦ f a >>= g := by
  funext w
  show andThen (andThen p f) g w = andThen p (fun a ↦ andThen (f a) g) w
  rw [andThen, andThen, andThen]
  rcases p w with - | ⟨failure | a, v⟩ <;> rfl

namespace Exit

/-- The same end of a run with another way to halt. -/
def halts (exit : Exit σ) (halting : Halting) : Exit σ := { exit with halting }

theorem drainWithin_halts (exit : Exit σ) (halting : Halting) (status : Int) (k : Nat) :
    (exit.halts halting).drainWithin status k = exit.drainWithin status k := by
  induction k with
  | zero => rfl
  | succ k ih =>
    rw [drainWithin, drainWithin, ih]
    rfl

/-- What leads up to the halt of a closing. -/
def leadUp (exit : Exit σ) (closing : Closing) : Session σ Unit := do
  Session.each Session.record closing.before
  exit.drain closing.status
  Session.each Session.record (closing.failure?.toList.map .reported)

theorem leadUp_halts (exit : Exit σ) (halting : Halting) (closing : Closing) :
    (exit.halts halting).leadUp closing = exit.leadUp closing := by
  have hdrain : (exit.halts halting).drain closing.status = exit.drain closing.status :=
    drainWithin_halts exit halting closing.status exit.passes
  rw [leadUp, leadUp, hdrain]

/-- Closing a run is to lead up to the halt and to record it. -/
theorem close_eq_leadUp (exit : Exit σ) (closing : Closing) : exit.close closing =
    exit.leadUp closing >>= fun _ ↦ Session.record (.halted closing.status) := by
  rw [close, leadUp, Session.bind_assoc, Session.bind_assoc, Closing.after]
  cases closing.failure? <;> rfl

/-- What leads up to a halt has a result if the drain ends, and halts nothing. -/
theorem exists_leadUp (exit : Exit σ) (closing : Closing) {w : World σ}
    (h : exit.DrainEnds closing.status w) :
    ∃ N, ∀ n, N ≤ n → ∃ u, (exit.within n).leadUp closing w = some (.ok (), u) ∧ w.RunsOn u := by
  obtain ⟨N, hN⟩ := exists_close exit closing h
  refine ⟨N, fun n hn ↦ ?_⟩
  obtain ⟨calls, w', hw', hclosed⟩ := hN n hn
  rw [close_eq_leadUp] at hw'
  rcases hlead : (exit.within n).leadUp closing w with - | ⟨failure | ⟨⟩, u⟩
  · rw [Session.bind_of_none hlead] at hw'
    cases hw'
  · rw [Session.bind_of_error hlead] at hw'
    cases hw'
  · rw [Session.bind_of_ok hlead] at hw'
    cases hw'
    refine ⟨u, rfl, ?_⟩
    -- the story of the closing ends with the halt, and there is no other one in it
    obtain ⟨told, htold⟩ : ∃ told, closing.story w.hooks.bound calls =
        told ++ [.halted closing.status] :=
      ⟨_, (List.append_assoc _ _ _).symm⟩
    have hhalted := closing.filterMap_halted?_story w.hooks.bound calls
    have hstory := hclosed.story
    rw [htold, List.filterMap_append] at hhalted
    rw [htold, World.story_record, ← List.append_assoc] at hstory
    exact ⟨told, List.append_cancel_right hstory, List.append_cancel_right hhalted⟩

/-- What the boundary owes is given before the halt. -/
theorem settle_eq_leadUp (exit : Exit σ) (announcing : Bool) {failure : Failure}
    (h : failure.cause.escapes = false) :
    exit.settle announcing failure = exit.leadUp (closingOf announcing failure) >>= fun _ ↦
      exit.halt (closingOf announcing failure).status := by
  obtain ⟨cause, frames⟩ := failure
  rw [leadUp, Session.bind_assoc, Session.bind_assoc]
  cases cause with
  | exit code => cases code <;> rfl
  | interrupt => cases announcing <;> rfl
  | generatorClosed => cases h
  | signal module name message => cases h
  | _ => rfl

/-- **What the boundary does about an ending leads up to a halt**, unless it is not owed a closing. -/
theorem conclude_eq_leadUp (exit : Exit σ) {halt announcing : Bool} {result : Except Failure α}
    (hcaught : ∀ failure, result = .error failure → failure.cause.escapes = false)
    {closing : Closing} (hclosing : closing? halt announcing result = some closing) :
    exit.conclude halt announcing result = exit.leadUp closing >>= fun _ ↦
      exit.halt closing.status >>= fun _ ↦ pure none := by
  cases result with
  | error failure =>
    obtain rfl := Option.some.inj hclosing
    rw [conclude, settle_eq_leadUp exit announcing (hcaught failure rfl), Session.bind_assoc]
  | ok a =>
    cases halt with
    | false => cases hclosing
    | true =>
      obtain rfl := Option.some.inj hclosing
      -- a return is closed like a request to terminate with success
      have hfinish : exit.finish Status.success =
          exit.leadUp { status := Status.success } >>= fun _ ↦ exit.halt Status.success :=
        settle_eq_leadUp exit announcing
          (show (Failure.mk (.terminate Status.success) []).cause.escapes = false from rfl)
      show exit.finish Status.success >>= _ = _
      rw [hfinish, Session.bind_assoc]

end Exit

theorem World.record_rebound (w : World σ) (e : Event) (queue : Option QueueId) :
    (w.record e).rebound queue = (w.rebound queue).record e := by
  unfold World.record
  split
  · next h => exact (if_pos h).symm
  · next h => exact (if_neg h).symm

namespace Console

variable (console : Console) (w : World σ)

/-- An event that prints nothing. -/
theorem stdout_record {e : Event} (h : console.outText e = "") :
    console.stdout (w.record e).trace = console.stdout w.trace := by
  rw [World.trace_record]
  split
  · rfl
  · simp [stdout, String.join_append, h]

/-- An event is recorded, and then it prints its text, or it is dropped. -/
theorem stderr_record (e : Event) : console.stderr (w.record e).trace = console.stderr w.trace ∨
    console.stderr (w.record e).trace = console.stderr w.trace ++ console.errText e := by
  rw [World.trace_record]
  split
  · exact .inl rfl
  · exact .inr (by simp [stderr, String.join_append])

end Console

namespace Run

variable {c : Collaborators σ} {exit : Exit σ} {arguments : List String}

/-- The failure of a halt that leaves the process with `status`. -/
def left (status : Int) : Failure := { cause := .exit (.whole status) }

/-- A run whose halt is recorded has ended with `value` in `v`, and one that leaves the process with
`value'` in `v'`. Both have done the same up to the halt, if there is one. -/
inductive Agree (w : World σ) : Except Failure (Option Plan) → World σ →
    Except Failure (Option Plan) → World σ → Prop
  | halts {u : World σ} (status : Int) : w.RunsOn u →
    Agree w (.ok none) (u.record (.halted status)) (.error (left status))
      (u.record (.noted (.halting status)))
  | stays {u : World σ} (plan : Plan) : w.RunsOn u →
    Agree w (.ok (some plan)) u (.ok (some plan)) u
  | escapes {u : World σ} (failure : Failure) : w.RunsOn u → failure.cause.escapes = true →
    Agree w (.error failure) u (.error failure) u

/-! ### Agreement -/

namespace Agree

variable {w v v' : World σ} {value value' : Except Failure (Option Plan)}

/-- **The one run leaves the process with a status if and only if the other halts it with this
status**, once, and returns no plan. -/
theorem left_iff (h : Agree w value v value' v') (status : Int) :
    value' = .error (left status) ↔ value = .ok none ∧
      ∃ told, v.story = w.story ++ told ∧ told.filterMap Event.halted? = [status] := by
  cases h with
  | @halts u other hruns =>
    obtain ⟨told, hstory, hhalted⟩ := hruns
    have hhalt : (u.record (.halted other)).story = w.story ++ (told ++ [.halted other]) := by
      rw [World.story_record, hstory, List.append_assoc]
      rfl
    have htold : (told ++ [Event.halted other]).filterMap Event.halted? = [other] := by
      rw [List.filterMap_append, hhalted]
      rfl
    constructor
    · rintro ⟨⟩
      exact ⟨rfl, _, hhalt, htold⟩
    · rintro ⟨-, told', hhalt', htold'⟩
      obtain rfl := List.append_cancel_left (hhalt.symm.trans hhalt')
      rw [List.singleton_inj.1 (htold.symm.trans htold')]
  | stays plan hruns => simp
  | escapes failure hruns hescapes =>
    refine ⟨fun heq ↦ ?_, nofun⟩
    cases heq
    cases hescapes

/-- Otherwise both runs come to the same. -/
theorem eq_or_left (h : Agree w value v value' v') : (∃ status, value' = .error (left status)) ∨
    value' = value ∧ v' = v ∧ ((∃ plan, value = .ok (some plan)) ∨
      ∃ failure, value = .error failure ∧ failure.cause.escapes = true) := by
  cases h with
  | halts status hruns => exact .inl ⟨status, rfl⟩
  | stays plan hruns => exact .inr ⟨rfl, rfl, .inl ⟨plan, rfl⟩⟩
  | escapes failure hruns hescapes => exact .inr ⟨rfl, rfl, .inr ⟨failure, rfl, hescapes⟩⟩

/-- Both runs print the same, but for the note that the process is left. -/
theorem prints (h : Agree w value v value' v') (console : Console) :
    console.stdout v'.trace = console.stdout v.trace ∧
      (console.stderr v'.trace = console.stderr v.trace ∨ ∃ status, value' = .error (left status) ∧
        console.stderr v'.trace =
          console.stderr v.trace ++ console.errText (.noted (.halting status))) := by
  cases h with
  | @halts u status hruns =>
    have hhalt : console.stderr (u.record (.halted status)).trace = console.stderr u.trace :=
      (console.stderr_record u (.halted status)).elim id fun h ↦ h.trans String.append_empty
    rw [console.stdout_record u rfl, console.stdout_record u rfl, hhalt]
    exact ⟨rfl, (console.stderr_record u (.noted (.halting status))).imp_right
      fun h ↦ ⟨status, rfl, h⟩⟩
  | stays plan hruns => exact ⟨rfl, .inl rfl⟩
  | escapes failure hruns hescapes => exact ⟨rfl, .inl rfl⟩

end Agree

/-- A run comes to its end with either way to halt, and the two agree. -/
def AgreesOnHalting (c : Collaborators σ) (exit : Exit σ) (arguments : List String) (w : World σ) :
    Prop :=
  ∃ value v value' v', main c (exit.halts .recording) arguments w = some (value, v) ∧
    main c (exit.halts .leaving) arguments w = some (value', v') ∧ Agree w value v value' v'

section Endings

variable {w u v : World σ} {result : Except Failure Plan} {n : Nat}

/-- Both runs stay alive. -/
theorem agree_of_stay (hruns : w.RunsOn v)
    (hbody : ∀ exit' : Exit σ, body c exit' arguments (w.rebound (some exit.queue)) =
      exit'.conclude (halting result) true result v)
    (hclosing : Exit.closing? (halting result) true result = none) :
    AgreesOnHalting c (exit.within n) arguments w := by
  cases result with
  | error failure => cases hclosing
  | ok plan =>
    have hhalt : plan.halt = false := by
      cases h : plan.halt with
      | false => rfl
      | true =>
        rw [halting, h] at hclosing
        cases hclosing
    have hstays : ∀ exit' : Exit σ, body c exit' arguments (w.rebound (some exit.queue)) =
        some (.ok (some plan), v) := by
      intro exit'
      rw [hbody, halting, hhalt]
      rfl
    refine ⟨_, _, _, _, main_of_body_some (hstays _), main_of_body_some (hstays _), .stays plan ?_⟩
    have hplanned : [Event.shutdownPlanned].filterMap Event.halted? = [] := rfl
    exact hruns.trans (.recordAll _ hplanned)

/-- The same failure escapes from both runs. -/
theorem agree_of_escapes {failure : Failure} (hruns : w.RunsOn v)
    (hbody : ∀ exit' : Exit σ, body c exit' arguments (w.rebound (some exit.queue)) =
      exit'.conclude (halting (.error failure)) true (.error failure) v)
    (hescapes : failure.cause.escapes = true) :
    AgreesOnHalting c (exit.within n) arguments w := by
  have hraises : ∀ exit' : Exit σ, body c exit' arguments (w.rebound (some exit.queue)) =
      some (.error failure, v) := by
    intro exit'
    rw [hbody, Exit.conclude, Exit.settle_of_escapes exit' true hescapes]
    rfl
  exact ⟨_, _, _, _, main_of_body_error (hraises _), main_of_body_error (hraises _),
    .escapes failure hruns hescapes⟩

/-- Both runs halt. -/
theorem agree_of_leadUp (hruns : w.RunsOn u)
    (hbody : ∀ exit' : Exit σ, body c exit' arguments (w.rebound (some exit.queue)) =
      exit'.conclude (halting result) true result v)
    (hcaught : ∀ failure, result = .error failure → failure.cause.escapes = false)
    {closing : Exit.Closing} (hclosing : Exit.closing? (halting result) true result = some closing)
    (hlead : (exit.within n).leadUp closing v = some (.ok (), u)) :
    AgreesOnHalting c (exit.within n) arguments w := by
  have hhalt : ∀ kind, body c ((exit.within n).halts kind) arguments
      (w.rebound (some exit.queue)) =
        (((exit.within n).halts kind).halt closing.status >>= fun _ ↦ pure none) u := by
    intro kind
    rw [hbody, Exit.conclude_eq_leadUp _ hcaught hclosing, Exit.leadUp_halts]
    exact Session.bind_of_ok hlead
  have hrecorded := main_of_body_none (hhalt .recording)
  have hleft := main_of_body_error (hhalt .leaving)
  rw [World.record_rebound] at hrecorded hleft
  exact ⟨_, _, _, _, hrecorded, hleft, .halts closing.status hruns⟩

end Endings

/-- **The two ways to halt agree.** Let publishing return, and let the drain at the end of the run
end, whatever else hosted programs do. Then a run that records its halt and a run that leaves the
process do the same up to the halt, and print the same. The one leaves the process with a status, as
the last thing it does, if and only if the other has halted it with this status, once, and returns no
plan. Otherwise both return the same plan, or the same failure escapes from both. -/
theorem main_agrees_on_halting (hpublish : ∀ rest bound s, (c.publish rest bound s).result = .ok ())
    (exit : Exit σ) (arguments : List String) (w : World σ)
    (hdrain : ∀ result v closing,
      plain c arguments (w.rebound (some exit.queue)) = some (result, v) →
      (∀ failure, result = .error failure → failure.cause.escapes = false) →
      Exit.closing? (halting result) true result = some closing →
      exit.DrainEnds closing.status v) :
    ∃ N, ∀ n, N ≤ n → ∃ value v value' v',
      main c ((exit.within n).halts .recording) arguments w = some (value, v) ∧
      main c ((exit.within n).halts .leaving) arguments w = some (value', v') ∧
      Agree w value v value' v' ∧
      (∀ status, value' = .error (left status) ↔ value = .ok none ∧
        ∃ told, v.story = w.story ++ told ∧ told.filterMap Event.halted? = [status]) ∧
      ((∃ status, value' = .error (left status)) ∨
        value' = value ∧ v' = v ∧ ((∃ plan, value = .ok (some plan)) ∨
          ∃ failure, value = .error failure ∧ failure.cause.escapes = true)) ∧
      ∀ console : Console, console.stdout v'.trace = console.stdout v.trace ∧
        (console.stderr v'.trace = console.stderr v.trace ∨ ∃ status,
          value' = .error (left status) ∧ console.stderr v'.trace =
            console.stderr v.trace ++ console.errText (.noted (.halting status))) := by
  suffices hagree : ∃ N, ∀ n, N ≤ n → AgreesOnHalting c (exit.within n) arguments w by
    obtain ⟨N, hN⟩ := hagree
    refine ⟨N, fun n hn ↦ ?_⟩
    obtain ⟨value, v, value', v', hmain, hmain', h⟩ := hN n hn
    exact ⟨value, v, value', v', hmain, hmain', h, h.left_iff, h.eq_or_left, h.prints⟩
  obtain ⟨result, told, v, hproceeds, hplain, -, -⟩ :=
    plain_proceeds hpublish arguments (w.rebound (some exit.queue))
  have hruns : w.RunsOn v := hproceeds.runsOn
  have hbody : ∀ exit' : Exit σ, body c exit' arguments (w.rebound (some exit.queue)) =
      exit'.conclude (halting result) true result v :=
    fun exit' ↦ body_eq_conclude hpublish exit' hplain
  by_cases hcaught : ∀ failure, result = .error failure → failure.cause.escapes = false
  · rcases hclosing : Exit.closing? (halting result) true result with - | closing
    · exact ⟨0, fun n _ ↦ agree_of_stay hruns hbody hclosing⟩
    · obtain ⟨N, hN⟩ := exit.exists_leadUp closing (hdrain result v closing hplain hcaught hclosing)
      refine ⟨N, fun n hn ↦ ?_⟩
      obtain ⟨u, hu, hlead⟩ := hN n hn
      exact agree_of_leadUp (hruns.trans hlead) hbody hcaught hclosing hu
  · push Not at hcaught
    obtain ⟨failure, rfl, hescapes⟩ := hcaught
    exact ⟨0, fun n _ ↦ agree_of_escapes hruns hbody (eq_true_of_ne_false hescapes)⟩

theorem main_relay_agrees_on_halting : ∃ N, ∀ n, N ≤ n → ∃ value v value' v',
    main relayHost ((Exit.relay.within n).halts .recording) ["-e", "baton"] Exit.relayStart =
      some (value, v) ∧
    main relayHost ((Exit.relay.within n).halts .leaving) ["-e", "baton"] Exit.relayStart =
      some (value', v') ∧
    Agree Exit.relayStart value v value' v' ∧
    Console.stdout {} v'.trace = Console.stdout {} v.trace := by
  have hpublish : ∀ rest bound s, (relayHost.publish rest bound s).result = .ok () :=
    fun _ _ _ ↦ rfl
  obtain ⟨N, hN⟩ := main_agrees_on_halting hpublish Exit.relay ["-e", "baton"] Exit.relayStart
    fun _ v closing _ _ _ ↦ Exit.drainEnds_relay closing.status v
  refine ⟨N, fun n hn ↦ ?_⟩
  obtain ⟨value, v, value', v', hmain, hmain', hagree, -, -, hprints⟩ := hN n hn
  exact ⟨value, v, value', v', hmain, hmain', hagree, (hprints {}).1⟩

end Run

end Launcher
