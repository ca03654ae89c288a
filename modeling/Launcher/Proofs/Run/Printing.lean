import Launcher.Proofs.Exit.Ledger
import Launcher.Proofs.Run.Errors

/-!
# What a run prints with and without the terminal library

A run does not look at the console: whether the terminal library is installed makes no difference to
what it does, only to how its events are printed. Of these, only the notice that the run was aborted
holds style tags. So what a run prints is the same on both consoles, unless the user has interrupted
it: then the notice is made, once, and without the library its tags are printed, too
(`Run.prints_alike_iff`).
-/

namespace Launcher

variable {σ α : Type}

/-! ### Events on the console -/

namespace Console

/-- The terminal library is installed. -/
def styled : Console := { rich := true }

/-- The terminal library is not installed. -/
def plain : Console := { rich := false }

theorem stdout_eq (console console' : Console) (events : List Event) :
    console.stdout events = console'.stdout events := by
  refine congrArg String.join (List.map_congr_left fun e _ ↦ ?_)
  cases e with
  | hosted hosted => cases hosted <;> rfl
  | _ => rfl

theorem errText_eq (console console' : Console) {e : Event} (h : e ≠ .aborted) :
    console.errText e = console'.errText e := by
  cases e with
  | hosted hosted => cases hosted <;> rfl
  | aborted => exact absurd rfl h
  | _ => rfl

theorem stderr_eq (console console' : Console) {events : List Event}
    (h : ∀ e ∈ events, e ≠ .aborted) : console.stderr events = console'.stderr events :=
  congrArg String.join (List.map_congr_left fun e he ↦ errText_eq console console' (h e he))

/-- If the notice was made once, the consoles print the same text before and behind it. -/
theorem exists_stderr_of_count_eq_one {events : List Event} (h : events.count .aborted = 1) :
    ∃ before after, ∀ console : Console,
      console.stderr events = before ++ (console.errText .aborted ++ after) := by
  obtain ⟨front, back, rfl⟩ := List.append_of_mem (List.count_pos_iff.1 (h ▸ Nat.one_pos))
  rw [List.count_append, List.count_cons_self] at h
  have hfront : front.count .aborted = 0 := by omega
  have hback : back.count .aborted = 0 := by omega
  rw [List.count_eq_zero] at hfront hback
  refine ⟨plain.stderr front, plain.stderr back, fun console ↦ ?_⟩
  rw [stderr_append, stderr_cons,
    stderr_eq console plain fun e he h ↦ hfront (h ▸ he),
    stderr_eq console plain fun e he h ↦ hback (h ▸ he)]

theorem errText_aborted_styled : styled.errText .aborted = "\nAborted by user.\n" := by
  decide

theorem errText_aborted_plain :
    plain.errText .aborted = "\n[yellow]Aborted by user.[/yellow]\n" := by
  decide

/-- The notice is not the same on both consoles, wherever it stands. -/
theorem notices_differ (before after : String) :
    before ++ (styled.errText .aborted ++ after) ≠ before ++ (plain.errText .aborted ++ after) := by
  intro h
  have hlength := congrArg String.length h
  have hnotices : "\nAborted by user.\n".length + 17 =
      "\n[yellow]Aborted by user.[/yellow]\n".length := by decide
  rw [errText_aborted_styled, errText_aborted_plain] at hlength
  simp only [String.length_append] at hlength
  omega

end Console

/-! ### How often the notice is made -/

namespace World

/-- `w'` comes from `w` by going on, and the user was told so often that the run was aborted. -/
def Aborts (w : World σ) (times : Nat) (w' : World σ) : Prop :=
  ∃ told, w'.trace = w.trace ++ told ∧ told.count .aborted = times

theorem Aborts.trans {u v w : World σ} {m n : Nat} (h : u.Aborts m v) (h' : v.Aborts n w) :
    u.Aborts (m + n) w := by
  obtain ⟨told, hv, rfl⟩ := h
  obtain ⟨told', hw, rfl⟩ := h'
  exact ⟨told ++ told', by rw [hw, hv, List.append_assoc], List.count_append⟩

theorem aborts_of_tells {w w' : World σ} (h : w.Tells (· ≠ .aborted) w') : w.Aborts 0 w' := by
  obtain ⟨told, haccounts, htold⟩ := h
  exact ⟨told, haccounts.trace, List.count_eq_zero.2 fun hmem ↦ htold _ hmem rfl⟩

/-- `w'` comes from `w` by going on, and the user was told that the run was aborted, once if `P`
holds and never otherwise. -/
def AbortsIf (P : Prop) (w w' : World σ) : Prop := P ∧ w.Aborts 1 w' ∨ ¬P ∧ w.Aborts 0 w'

theorem AbortsIf.congr {P Q : Prop} {w w' : World σ} (h : w.AbortsIf P w') (hPQ : P ↔ Q) :
    w.AbortsIf Q w' := by
  rwa [AbortsIf, hPQ] at h

theorem AbortsIf.trans {P : Prop} {u v w : World σ} (h : u.Aborts 0 v) (h' : v.AbortsIf P w) :
    u.AbortsIf P w :=
  h'.imp (fun ⟨hP, h'⟩ ↦ ⟨hP, h.trans h'⟩) fun ⟨hP, h'⟩ ↦ ⟨hP, h.trans h'⟩

theorem AbortsIf.append {P : Prop} {u v w : World σ} (h : u.AbortsIf P v) (h' : v.Aborts 0 w) :
    u.AbortsIf P w :=
  h.imp (fun ⟨hP, h⟩ ↦ ⟨hP, h.trans h'⟩) fun ⟨hP, h⟩ ↦ ⟨hP, h.trans h'⟩

theorem aborts_record_aborted (w : World σ) : w.Aborts 1 (w.record .aborted) :=
  ⟨[.aborted], w.trace_record .aborted, rfl⟩

end World

/-- The launcher by itself makes no notice, but at the boundary. -/
theorem course_noNotice (exit : Exit σ) : Course exit (World.Tells (· ≠ .aborted)) :=
  World.course_tells (fun e he h ↦ by subst h; cases he) fun _ ↦ nofun

theorem Hosted.noNotice (p : Hosted σ α) : p.KeepsTo (World.Tells (· ≠ .aborted)) := by
  refine fun w ↦ w.tells_after _ fun effect _ e he h ↦ ?_
  subst h
  cases effect with
  | event hosted => cases he
  | enqueue target hook =>
    obtain ⟨_, -, he⟩ := Option.map_eq_some_iff.1 he
    cases he

theorem Cause.verdict_eq_interrupted_iff {cause : Cause} :
    cause.verdict = .interrupted ↔ cause = .interrupt := by
  constructor
  · intro h
    cases cause with
    | interrupt => rfl
    | exit code =>
      rw [verdict] at h
      split at h <;> cases h
    | _ => cases h
  · rintro rfl
    rfl

namespace Exit

/-- An action has ended because the user interrupts it. -/
def Interrupts (result : Except Failure α) : Prop :=
  ∃ failure, result = .error failure ∧ failure.cause = .interrupt

theorem interrupts_error_iff {failure : Failure} :
    Interrupts (.error failure : Except Failure α) ↔ failure.cause = .interrupt := by
  constructor
  · rintro ⟨_, ⟨⟩, h⟩
    exact h
  · exact fun h ↦ ⟨failure, rfl, h⟩

variable {exit : Exit σ} {w w' : World σ}

theorem aborts_finish {status : Int} {result : Except Failure Unit}
    (h : exit.finish status w = some (result, w')) : w.Aborts 0 w' :=
  World.aborts_of_tells <| passes_finish (course_noNotice exit) (fun _ _ ↦ Hosted.noNotice _) status
    w result w' h

theorem aborts_settle {failure : Failure} {result : Except Failure Unit}
    (h : exit.settle true failure w = some (result, w')) :
    w.AbortsIf (failure.cause = .interrupt) w' := by
  refine World.AbortsIf.congr ?_ Cause.verdict_eq_interrupted_iff
  rw [settle] at h
  cases hverdict : failure.cause.verdict with
  | exit status =>
    rw [hverdict] at h
    exact .inr ⟨by rintro ⟨⟩, aborts_finish h⟩
  | interrupted =>
    rw [hverdict] at h
    obtain ⟨_, ⟨⟩, -⟩ | ⟨_, v, hrecord, hfinish⟩ := Session.bind_cases h
    cases hrecord
    exact .inl ⟨rfl, (World.aborts_record_aborted w).trans (aborts_finish hfinish)⟩
  | failed =>
    rw [hverdict] at h
    exact .inr ⟨by rintro ⟨⟩, World.aborts_of_tells <| passes_fail (course_noNotice exit)
      (fun _ _ ↦ Hosted.noNotice _) failure w result w' h⟩
  | passedOn =>
    rw [hverdict] at h
    cases h
    exact .inr ⟨by rintro ⟨⟩, World.aborts_of_tells w.tells_refl⟩

/-- A boundary makes the notice if the user interrupts the action. -/
theorem aborts_guarded {halt : Bool} {action : Session σ α} {v : World σ}
    {result : Except Failure α} {result' : Except Failure (Option α)}
    (haction : action w = some (result, v))
    (h : exit.guarded halt true action w = some (result', w')) :
    v.AbortsIf (Interrupts result) w' := by
  rw [guarded_apply exit halt true haction] at h
  cases result with
  | error failure =>
    refine World.AbortsIf.congr ?_ interrupts_error_iff.symm
    obtain ⟨_, hsettle, -⟩ | ⟨_, u, hsettle, hpure⟩ := Session.bind_cases h
    · exact aborts_settle hsettle
    · cases hpure
      exact aborts_settle hsettle
  | ok a =>
    refine .inr ⟨nofun, ?_⟩
    rw [conclude] at h
    split at h
    · obtain ⟨_, hfinish, -⟩ | ⟨_, u, hfinish, hpure⟩ := Session.bind_cases h
      · exact aborts_finish hfinish
      · cases hpure
        exact aborts_finish hfinish
    · cases h
      exact World.aborts_of_tells w'.tells_refl

/-- After a failure a boundary hands nothing back. -/
theorem eq_none_of_guarded {halt : Bool} {action : Session σ α} {v : World σ} {failure : Failure}
    {value : Option α} (haction : action w = some (.error failure, v))
    (h : exit.guarded halt true action w = some (.ok value, w')) : value = none := by
  rw [guarded_apply exit halt true haction] at h
  obtain ⟨_, -, ⟨⟩⟩ | ⟨_, u, -, hpure⟩ := Session.bind_cases h
  cases hpure
  rfl

end Exit

namespace Run

variable {c : Collaborators σ} {exit : Exit σ} {arguments : List String} {w w' : World σ}

/-- The user interrupts the run from `w` while its plan is run. -/
def Interrupted (c : Collaborators σ) (arguments : List String) (w : World σ) : Prop :=
  ∃ rest p, Argv.parse (c.surroundings w.host) arguments {} w.path = (.finished rest, p) ∧
    (c.publish rest true w.host).result = .ok () ∧
    Exit.Interrupts (Dispatch.plan c p.plan true (c.publish rest true w.host).state).result

theorem interrupted_iff {rest : List String} {p : Argv.Progress}
    (hparse : Argv.parse (c.surroundings w.host) arguments {} w.path = (.finished rest, p)) :
    Interrupted c arguments w ↔ (c.publish rest true w.host).result = .ok () ∧
      Exit.Interrupts (Dispatch.plan c p.plan true (c.publish rest true w.host).state).result := by
  constructor
  · rintro ⟨_, _, hparse', h⟩
    cases hparse.symm.trans hparse'
    exact h
  · exact fun h ↦ ⟨rest, p, hparse, h⟩

theorem interrupts_plainEnding {plan : Plan} {result : Except Failure (List String)} :
    Exit.Interrupts (plainEnding plan result) ↔ Exit.Interrupts result := by
  rcases result with failure | lines
  · exact Exit.interrupts_error_iff.trans Exit.interrupts_error_iff.symm
  · refine ⟨?_, nofun⟩
    rintro ⟨failure, h, hinterrupt⟩
    rw [plainEnding] at h
    split_ifs at h
    cases h
    cases hinterrupt

/-- Reading a command line that asks for the version ends by a request to terminate, and no notice
is made. -/
theorem body_aborts_of_versionRequested {p : Argv.Progress}
    (hparse : Argv.parse (c.surroundings w.host) arguments {} w.path = (.versionRequested, p))
    {result : Except Failure (Option Plan)} (h : body c exit arguments w = some (result, w')) :
    w.Aborts 0 w' := by
  obtain ⟨u, -, -, hread⟩ := read_apply c arguments w
  have hu := World.aborts_of_tells (passes_read (course_noNotice exit) arguments _ _ _ hread)
  rw [hparse] at hread
  have hguarded : ∀ {read? : Except Failure (Option (Plan × List String))} {v : World σ},
      exit.guarded false true (read c arguments) w = some (read?, v) → w.Aborts 0 v := by
    intro read? v hguarded
    obtain ⟨⟨_, ⟨⟩, ⟨⟩⟩, -⟩ | ⟨-, haborts⟩ := Exit.aborts_guarded hread hguarded
    exact hu.trans haborts
  obtain ⟨_, hfirst, -⟩ | ⟨value, v, hfirst, hrest⟩ := Session.bind_cases h
  · exact hguarded hfirst
  · obtain rfl := Exit.eq_none_of_guarded hread hfirst
    cases hrest
    exact hguarded hfirst

/-- Behind the reading, only the boundary around the plan makes a notice. -/
theorem body_aborts_of_finished (hbound : w.hooks.bound = some exit.queue) {rest : List String}
    {p : Argv.Progress}
    (hparse : Argv.parse (c.surroundings w.host) arguments {} w.path = (.finished rest, p))
    {result : Except Failure (Option Plan)} (h : body c exit arguments w = some (result, w')) :
    w.AbortsIf ((c.publish rest true w.host).result = .ok () ∧
      Exit.Interrupts (Dispatch.plan c p.plan true (c.publish rest true w.host).state).result)
    w' := by
  have hnotice := course_noNotice exit
  obtain ⟨u, hproceeds, huhost, hread⟩ := read_apply c arguments w
  have hu := World.aborts_of_tells (passes_read hnotice arguments _ _ _ hread)
  have hubound : u.hooks.bound.isSome = true := by
    rw [hproceeds.grown.bound, hbound]
    rfl
  rw [hparse] at hread
  have hfirst : exit.guarded false true (read c arguments) w =
      some (.ok (some (p.plan, rest)), u) :=
    Exit.guarded_apply exit false true hread
  have hbody : body c exit arguments w =
      (publish c rest >>= fun _ ↦ exit.guarded p.plan.halt true (execute c p.plan)) u :=
    Session.bind_of_ok hfirst
  rw [hbody] at h
  obtain ⟨v, hpublish, hvhost, hvbound, -⟩ := exists_publish c rest u
  have hv := World.aborts_of_tells
    (passes_publish hnotice (Hosted.noNotice (c.publish rest)) _ _ _ hpublish)
  rw [hubound, huhost] at hpublish hvhost
  refine .trans (hu.trans hv) ?_
  obtain ⟨failure, hfails, -⟩ | ⟨⟨⟩, v', hpublished, hguarded⟩ := Session.bind_cases h
  · obtain ⟨hresult, rfl⟩ := Prod.mk.inj (Option.some.inj (hpublish.symm.trans hfails))
    rw [hresult]
    exact .inr ⟨nofun, World.aborts_of_tells v.tells_refl⟩
  · obtain ⟨hresult, rfl⟩ := Prod.mk.inj (Option.some.inj (hpublish.symm.trans hpublished))
    obtain ⟨u', -, hexecute⟩ := execute_apply c p.plan v
    have hu' := World.aborts_of_tells (passes_execute hnotice
      (fun w line ↦ w.tells_record rfl nofun) (Hosted.noNotice _) _ _ _ hexecute)
    rw [hvbound, hubound, hvhost] at hexecute
    have haborts := World.AbortsIf.trans hu' (Exit.aborts_guarded hexecute hguarded)
    exact haborts.congr (by simp [interrupts_plainEnding, hresult])

/-- **A run makes the notice, once, if and only if the user interrupts it.** -/
theorem main_aborts {result : Except Failure (Option Plan)}
    (h : main c exit arguments w = some (result, w')) :
    w.AbortsIf (Interrupted c arguments w) w' := by
  obtain ⟨v, hbody, hend⟩ := exists_body_of_main h
  have hstart := World.aborts_of_tells (w.tells_rebound (some exit.queue))
  have hrun : (w.rebound (some exit.queue)).AbortsIf (Interrupted c arguments w) v := by
    rcases hparse : Argv.parse (c.surroundings w.host) arguments {} w.path with ⟨rest | -, p⟩
    · exact (body_aborts_of_finished (w := w.rebound (some exit.queue)) rfl hparse hbody).congr
        (interrupted_iff hparse).symm
    · refine .inr ⟨?_, body_aborts_of_versionRequested hparse hbody⟩
      rintro ⟨_, _, hfinished, -⟩
      cases hparse.symm.trans hfinished
  refine .append (.trans hstart hrun) ?_
  rcases hend with ⟨plan, -, rfl⟩ | ⟨-, rfl⟩
  · exact World.aborts_of_tells (v.tells_planned exit w.hooks.bound nofun)
  · exact World.aborts_of_tells (v.tells_rebound w.hooks.bound)

/-- **What a run prints depends on the terminal library if and only if the user interrupts the
run.** Standard output is the same with and without the library. Standard error is the same, too,
but for the notice that an interrupted run makes, once: without the library it is printed with its
style tags. -/
theorem main_prints_alike_iff (c : Collaborators σ) (exit : Exit σ) (arguments : List String)
    {w w' : World σ} {result : Except Failure (Option Plan)}
    (h : main c exit arguments w = some (result, w')) :
    ∃ told, w'.trace = w.trace ++ told ∧ Console.styled.stdout told = Console.plain.stdout told ∧
      (Console.styled.stderr told = Console.plain.stderr told ↔ ¬Interrupted c arguments w) ∧
      (Interrupted c arguments w → ∃ before after,
        Console.styled.stderr told = before ++ ("\nAborted by user.\n" ++ after) ∧
        Console.plain.stderr told =
          before ++ ("\n[yellow]Aborted by user.[/yellow]\n" ++ after)) := by
  obtain ⟨hinterrupted, told, htold, hcount⟩ | ⟨hnot, told, htold, hcount⟩ := main_aborts h
  · obtain ⟨before, after, hprints⟩ := Console.exists_stderr_of_count_eq_one hcount
    refine ⟨told, htold, Console.stdout_eq _ _ told, ⟨fun heq ↦ ?_, absurd hinterrupted⟩, fun _ ↦
      ⟨before, after, ?_, ?_⟩⟩
    · rw [hprints, hprints] at heq
      exact absurd heq (Console.notices_differ before after)
    · rw [hprints, Console.errText_aborted_styled]
    · rw [hprints, Console.errText_aborted_plain]
  · have hsame : Console.styled.stderr told = Console.plain.stderr told :=
      Console.stderr_eq _ _ fun e he heq ↦ List.count_eq_zero.1 hcount (heq ▸ he)
    exact ⟨told, htold, Console.stdout_eq _ _ told, ⟨fun _ ↦ hnot, fun _ ↦ hsame⟩,
      fun hinterrupted ↦ absurd hinterrupted hnot⟩

/-- In a run of the relay a hook fails, which both consoles report alike. -/
theorem main_relay_prints_alike : ∃ result w',
    main relayHost Exit.relay ["-e", "baton"] Exit.relayStart = some (result, w') ∧
      Console.plain.stderr w'.trace ≠ "" ∧
      Console.styled.stderr w'.trace = Console.plain.stderr w'.trace ∧
      ¬Interrupted relayHost ["-e", "baton"] Exit.relayStart := by
  have hprints : (main relayHost Exit.relay ["-e", "baton"] Exit.relayStart).map (fun (_, w') ↦
      (decide (Console.plain.stderr w'.trace = ""),
        decide (Console.styled.stderr w'.trace = Console.plain.stderr w'.trace))) =
      some (false, true) := by decide +kernel
  obtain ⟨⟨result, w'⟩, hmain, hvalues⟩ := Option.map_eq_some_iff.1 hprints
  obtain ⟨hsome, hsame⟩ := Prod.mk.inj hvalues
  obtain ⟨told, htold, -, hiff, -⟩ :=
    main_prints_alike_iff relayHost Exit.relay ["-e", "baton"] hmain
  obtain rfl : w'.trace = told := htold
  have hsame := of_decide_eq_true hsame
  exact ⟨result, w', hmain, of_decide_eq_false hsome, hsame, hiff.1 hsame⟩

/-- Collaborators of the relay with an evaluator that the user interrupts. -/
def waitingHost : Collaborators Unit :=
  { relayHost with eval := fun _ ↦ Hosted.raise { cause := .interrupt } }

/-- The tags of the notice are printed if the terminal library is not installed. -/
theorem main_waiting_prints_tags : ∃ result w',
    main waitingHost Exit.relay ["-e", "wait"] { host := () } = some (result, w') ∧
      Console.styled.stderr w'.trace = "\nAborted by user.\n" ∧
      Console.plain.stderr w'.trace = "\n[yellow]Aborted by user.[/yellow]\n" ∧
      Console.styled.stderr w'.trace ≠ Console.plain.stderr w'.trace := by
  have hprints : (main waitingHost Exit.relay ["-e", "wait"] { host := () }).map (fun (_, w') ↦
      (Console.styled.stderr w'.trace, Console.plain.stderr w'.trace)) =
      some ("\nAborted by user.\n", "\n[yellow]Aborted by user.[/yellow]\n") := by
    decide +kernel
  obtain ⟨⟨result, w'⟩, hmain, hvalues⟩ := Option.map_eq_some_iff.1 hprints
  obtain ⟨hstyled, hplain⟩ := Prod.mk.inj hvalues
  refine ⟨result, w', hmain, hstyled, hplain, ?_⟩
  rw [hstyled, hplain]
  decide

end Run

end Launcher
