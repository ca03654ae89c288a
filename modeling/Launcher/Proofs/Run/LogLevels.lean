import Launcher.Proofs.Run.Arguments
import Launcher.Proofs.Run.Printing

/-!
# A run at different log levels

Notes are made at every step of a run, but nothing that a run does depends on whether they are recorded.
So a run can be told without its level: there is a list of events of which each level records its part
(`World.atLevel`). A change of the world **ignores the level** if it adds to this list and to the world in
the same way at all levels (`World.IgnoresLevel`); recording an event does, and so does whatever a hosted
program has done, since a program sees no more of the session than its own state and whether a queue is
bound.

One world at two levels is a pair that all steps of a run keep (`World.link_atLevels`). Hence a run that
differs only in its level comes to the same end (`Run.alike_main`), and two settings of the console
command differ only in the notes that are recorded (`Run.command_same_at_levels`). The same holds for
the callbacks that are left for the end of the process (`Run.callbacks_same_at_levels`).
-/

namespace Launcher

variable {σ α : Type}

/-! ### Notes among events -/

namespace Event

/-- The events that are no notes. -/
def withoutNotes (events : List Event) : List Event := events.filter fun e ↦ e.note?.isNone

/-- The events that are recorded at a log level. -/
def recordedAt (level : Int) (events : List Event) : List Event :=
  if LogLevel.shows level LogLevel.debug then events else withoutNotes events

theorem recordedAt_nil (level : Int) : recordedAt level [] = [] := by
  rw [recordedAt]
  split <;> rfl

theorem recordedAt_concat (level : Int) (events : List Event) (e : Event) :
    recordedAt level (events ++ [e]) =
      if e.note?.isSome && !LogLevel.shows level LogLevel.debug then recordedAt level events
      else recordedAt level events ++ [e] := by
  rcases hshows : LogLevel.shows level LogLevel.debug with - | -
  · rcases hnote : e.note? with - | note <;>
      simp [recordedAt, withoutNotes, hshows, hnote]
  · simp [recordedAt, hshows]

/-- At whatever level, it is only notes that are not recorded. -/
theorem withoutNotes_recordedAt (level : Int) (events : List Event) :
    withoutNotes (recordedAt level events) = withoutNotes events := by
  rw [recordedAt]
  split
  · rfl
  · exact List.filter_filter.trans (by simp only [Bool.and_self]; rfl)

/-- Above the level of notes no note is recorded. -/
theorem recordedAt_of_debug_lt {level : Int} (h : LogLevel.debug < level) (events : List Event) :
    recordedAt level events = withoutNotes events := by
  have hshows : LogLevel.shows level LogLevel.debug = false := by
    rw [LogLevel.shows, decide_eq_false (Int.not_le.2 h), Bool.and_false]
  rw [recordedAt, hshows]
  rfl

end Event

namespace Console

/-- Notes are not printed on standard output. -/
theorem stdout_withoutNotes (console : Console) (events : List Event) :
    console.stdout (Event.withoutNotes events) = console.stdout events := by
  induction events with
  | nil => rfl
  | cons e events ih =>
    have hcons : ∀ events, console.stdout (e :: events) = console.outText e ++ console.stdout events :=
      fun _ ↦ String.join_cons
    rcases hnote : e.note? with - | note
    · rw [hcons, ← ih, ← hcons, Event.withoutNotes, List.filter_cons_of_pos (by rw [hnote]; rfl)]
      rfl
    · have hsilent : console.outText e = "" := by
        unfold Event.note? at hnote
        split at hnote
        · rfl
        · rfl
        · cases hnote
      rw [hcons, hsilent, String.empty_append, ← ih, Event.withoutNotes,
        List.filter_cons_of_neg (by rw [hnote]; nofun)]
      rfl

end Console

/-! ### One world at all levels -/

namespace World

/-- The world at a log level, after `told` has happened since the log was `before`. -/
def atLevel (w : World σ) (before told : List Event) (level : Int) : World σ :=
  { w with level, log := (Event.recordedAt level told).reverse ++ before }

theorem record_atLevel (w : World σ) (before told : List Event) (level : Int) (e : Event) :
    (w.atLevel before told level).record e = w.atLevel before (told ++ [e]) level := by
  rw [atLevel, atLevel, Event.recordedAt_concat, record, notes]
  split
  · rfl
  · rw [List.reverse_concat]
    rfl

theorem trace_atLevel (w : World σ) (before told : List Event) (level : Int) :
    (w.atLevel before told level).trace = before.reverse ++ Event.recordedAt level told := by
  rw [trace, atLevel, List.reverse_append, List.reverse_reverse]

/-- What is done to the world is the same at every log level. -/
def IgnoresLevel (f : World σ → World σ) : Prop :=
  ∀ (w : World σ) before told, ∃ (w' : World σ) (told' : List Event), ∀ level,
    f (w.atLevel before told level) = w'.atLevel before told' level

section IgnoresLevel

theorem ignoresLevel_record (e : Event) : IgnoresLevel fun w : World σ ↦ w.record e :=
  fun w before told ↦ ⟨w, told ++ [e], fun level ↦ w.record_atLevel before told level e⟩

theorem IgnoresLevel.comp {f g : World σ → World σ} (hf : IgnoresLevel f) (hg : IgnoresLevel g) :
    IgnoresLevel fun w ↦ g (f w) := by
  intro w before told
  obtain ⟨u, told', hu⟩ := hf w before told
  obtain ⟨v, told'', hv⟩ := hg u before told'
  exact ⟨v, told'', fun level ↦ (congrArg g (hu level)).trans (hv level)⟩

theorem ignoresLevel_push (queue : QueueId) (hook : Hook) (named : Bool) :
    IgnoresLevel fun w : World σ ↦ w.push queue hook named := by
  intro w before told
  let u : World σ := { w with hooks := w.hooks.push queue hook }
  exact ⟨u, _, fun level ↦ u.record_atLevel before told level (.queued queue hook named)⟩

theorem ignoresLevel_apply (effect : Effect) : IgnoresLevel fun w : World σ ↦ w.apply effect := by
  cases effect with
  | event hosted => exact ignoresLevel_record (.hosted hosted)
  | enqueue target hook =>
    intro w before told
    -- the queue is the same one at every level
    rcases hqueue : (target <|> w.hooks.bound) with - | queue
    · refine ⟨w, told, fun level ↦ (apply_enqueue _ target hook).trans ?_⟩
      rw [show (w.atLevel before told level).hooks = w.hooks from rfl, hqueue]
    · obtain ⟨u, told', hu⟩ := ignoresLevel_push queue hook target.isSome w before told
      refine ⟨u, told', fun level ↦ (apply_enqueue _ target hook).trans ?_⟩
      rw [show (w.atLevel before told level).hooks = w.hooks from rfl, hqueue]
      exact hu level

theorem ignoresLevel_applyAll (effects : List Effect) :
    IgnoresLevel fun w : World σ ↦ w.applyAll effects := by
  induction effects with
  | nil => exact fun w before told ↦ ⟨w, told, fun _ ↦ rfl⟩
  | cons effect effects ih => exact (ignoresLevel_apply effect).comp ih

/-- What a hosted program has done is the same at every level. -/
theorem ignoresLevel_after (o : Outcome σ α) : IgnoresLevel fun w : World σ ↦ w.after o := by
  have hhost : IgnoresLevel fun w : World σ ↦ { w with host := o.state } :=
    fun w before told ↦ ⟨{ w with host := o.state }, told, fun _ ↦ rfl⟩
  exact hhost.comp (ignoresLevel_applyAll o.effects)

theorem ignoresLevel_emptied (exit : Exit σ) : IgnoresLevel exit.emptied := by
  intro w before told
  let u : World σ := { w with hooks := w.hooks.clear exit.queue }
  exact ⟨u, _, fun level ↦
    u.record_atLevel before told level (.taken exit.queue (w.hooks.pending exit.queue))⟩

end IgnoresLevel

/-- The two worlds are one world at two log levels. -/
def AtLevels (before : List Event) (level level' : Int) (w v : World σ) : Prop :=
  ∃ (u : World σ) (told : List Event), w = u.atLevel before told level ∧
    v = u.atLevel before told level'

variable {before : List Event} {level level' : Int}

theorem AtLevels.map {f : World σ → World σ} (hf : IgnoresLevel f) {w v : World σ}
    (h : AtLevels before level level' w v) : AtLevels before level level' (f w) (f v) := by
  obtain ⟨u, told, rfl, rfl⟩ := h
  obtain ⟨u', told', hu'⟩ := hf u before told
  exact ⟨u', told', hu' level, hu' level'⟩

/-- What the launcher does by itself does not depend on the level. -/
theorem link_atLevels (exit : Exit σ) (before : List Event) (level level' : Int) :
    Link exit (AtLevels (σ := σ) before level level') where
  host := by
    rintro _ _ ⟨u, told, rfl, rfl⟩
    rfl
  path := by
    rintro _ _ ⟨u, told, rfl, rfl⟩
    rfl
  pending := by
    rintro _ _ ⟨u, told, rfl, rfl⟩
    rfl
  record _ _ _ h := h.map (ignoresLevel_record _)
  emptied h := h.map (ignoresLevel_emptied exit)
  setPath path := by
    rintro _ _ ⟨u, told, rfl, rfl⟩
    exact ⟨{ u with path }, told, rfl, rfl⟩
  setArguments arguments := by
    rintro _ _ ⟨u, told, rfl, rfl⟩
    exact ⟨{ u with arguments }, told, rfl, rfl⟩

end World

open World

/-- Neither does what hosted programs do. -/
theorem Hosted.alike_atLevels (p : Hosted σ α) (before : List Event) (level level' : Int) :
    p.Alike (AtLevels before level level') p := by
  rintro _ _ ⟨u, told, rfl, rfl⟩
  exact ⟨rfl, AtLevels.map (ignoresLevel_after (p u.hooks.bound.isSome u.host)) ⟨u, told, rfl, rfl⟩⟩

namespace Run

open Session

variable {before : List Event} {level level' : Int}

theorem alike_bindQueue (queue : Option QueueId) :
    Alike (AtLevels (σ := σ) before level level') (bindQueue queue) (bindQueue queue) := by
  rintro _ _ ⟨u, told, rfl, rfl⟩
  exact .ended (.ok u.hooks.bound) ⟨u.rebound queue, told, rfl, rfl⟩

theorem alike_withBound (queue : QueueId) {p : Session σ (Option Plan)}
    (h : Alike (AtLevels before level level') p p) :
    Alike (AtLevels before level level') (withBound queue p) (withBound queue p) := by
  refine (alike_bindQueue (some queue)).bind fun previous ↦ h.attempt.bind fun result ↦ ?_
  match result with
  | .ok (some plan) =>
    refine Alike.bind (alike_update ?_) fun _ ↦ Alike.bind (alike_update ?_) fun _ ↦
      alike_pure (some plan)
    · rintro _ _ ⟨u, told, rfl, rfl⟩
      exact ⟨{ u with shutdowns := u.shutdowns ++ [⟨queue, previous⟩] }, told, rfl, rfl⟩
    · exact fun hwv ↦ hwv.map (ignoresLevel_record .shutdownPlanned)
  | .ok none => exact (alike_bindQueue previous).bind fun _ ↦ alike_pure none
  | .error failure => exact (alike_bindQueue previous).bind fun _ ↦ alike_raise failure

/-- **A run comes to the same end at two levels.** -/
theorem alike_main (c : Collaborators σ) (exit : Exit σ) (arguments : List String) :
    Alike (AtLevels before level level') (main c exit arguments) (main c exit arguments) := by
  have hrecord : ∀ (e : Event) {w v : World σ}, AtLevels before level level' w v →
      AtLevels before level level' (w.record e) (v.record e) :=
    fun e _ _ h ↦ h.map (ignoresLevel_record e)
  have hbody : Alike (AtLevels before level level') (body c exit arguments)
      (body c (exit.calling exit.call) arguments) :=
    alike_body (link_atLevels exit before level level') (fun _ ↦ rfl) rfl
      (fun rest ↦ (c.publish rest).alike_atLevels before level level')
      (fun plan ↦ (Dispatch.plan c plan).alike_atLevels before level level')
      (fun hook status ↦ (exit.call hook status).alike_atLevels before level level')
      (hrecord .aborted) (fun line _ _ h ↦ hrecord (.errorShown line) h) arguments
  exact alike_withBound exit.queue hbody

/-- The callback for the end of the process, too, comes to the same end at two levels. -/
theorem alike_shutdown (exit : Exit σ) (callback : Shutdown) :
    Alike (AtLevels before level level') (shutdown exit callback) (shutdown exit callback) := by
  let exit' : Exit σ := { exit with queue := callback.queue }
  have hdrain : Alike (AtLevels before level level') (exit'.drain Status.success)
      (exit'.drain Status.success) :=
    Exit.alike_drainWithin (link_atLevels exit' before level level')
      (fun hook status ↦ (exit'.call hook status).alike_atLevels before level level')
      Status.success exit'.passes
  refine hdrain.attempt.bind fun result ↦ (alike_bindQueue callback.previous).bind fun _ ↦ ?_
  cases result with
  | error failure => exact alike_raise failure
  | ok _ => exact alike_pure ()

end Run

/-! ### Settings of the console command -/

/-- The worlds `v` and `v'` come from `w` by telling `told` and `told'`, and differ in nothing but the
notes among these and the log level. -/
structure World.SameButNotes (w : World σ) (told : List Event) (v : World σ) (told' : List Event)
    (v' : World σ) : Prop where
  trace : v.trace = w.trace ++ told
  trace' : v'.trace = w.trace ++ told'
  events : Event.withoutNotes told' = Event.withoutNotes told
  stdout : ∀ console : Console, console.stdout told' = console.stdout told
  host : v'.host = v.host
  hooks : v'.hooks = v.hooks
  path : v'.path = v.path
  arguments : v'.arguments = v.arguments
  shutdowns : v'.shutdowns = v.shutdowns

theorem World.sameButNotes_atLevel (w u : World σ) (told : List Event) (level level' : Int) :
    w.SameButNotes (Event.recordedAt level told) (u.atLevel w.log told level)
      (Event.recordedAt level' told) (u.atLevel w.log told level') where
  trace := u.trace_atLevel w.log told level
  trace' := u.trace_atLevel w.log told level'
  events := by rw [Event.withoutNotes_recordedAt, Event.withoutNotes_recordedAt]
  stdout console := by
    rw [← console.stdout_withoutNotes, Event.withoutNotes_recordedAt,
      ← console.stdout_withoutNotes (Event.recordedAt level told), Event.withoutNotes_recordedAt]
  host := rfl
  hooks := rfl
  path := rfl
  arguments := rfl
  shutdowns := rfl

/-- The same end at two levels is one that differs only in the notes that are recorded. -/
theorem World.same_of_linked (w : World σ) {level level' : Int}
    {first second : Option (Except Failure α × World σ)}
    (h : Linked (AtLevels w.log level level') first second) :
    (first = none ↔ second = none) ∧
    ∀ value v, first = some (value, v) →
      ∃ told v' told', second = some (value, v') ∧ w.SameButNotes told v told' v' ∧
        (LogLevel.debug < level → told = Event.withoutNotes told') := by
  cases h with
  | never => exact ⟨Iff.rfl, nofun⟩
  | ended value h =>
    obtain ⟨u, told, rfl, rfl⟩ := h
    refine ⟨⟨nofun, nofun⟩, ?_⟩
    rintro _ _ ⟨⟩
    refine ⟨_, _, _, rfl, w.sameButNotes_atLevel u told level level', fun hlevel ↦ ?_⟩
    rw [Event.recordedAt_of_debug_lt hlevel, Event.withoutNotes_recordedAt]

namespace Run

theorem linked_main (c : Collaborators σ) (exit : Exit σ) (arguments : List String) (w : World σ)
    (level level' : Int) :
    Linked (AtLevels w.log level level') (main c exit arguments { w with level })
      (main c exit arguments { w with level := level' }) := by
  have hstart : ∀ level, { w with level } = w.atLevel w.log [] level := by
    intro level
    rw [atLevel, Event.recordedAt_nil]
    rfl
  exact alike_main c exit arguments _ _ ⟨w, [], hstart level, hstart level'⟩

/-- **A run at two levels differs only in the notes that are recorded**, and above the level of notes
none are. -/
theorem main_same_at_levels (c : Collaborators σ) (exit : Exit σ) (arguments : List String)
    (w : World σ) (level level' : Int) :
    (main c exit arguments { w with level } = none ↔
      main c exit arguments { w with level := level' } = none) ∧
    ∀ value v, main c exit arguments { w with level } = some (value, v) →
      ∃ told v' told', main c exit arguments { w with level := level' } = some (value, v') ∧
        w.SameButNotes told v told' v' ∧
        (LogLevel.debug < level → told = Event.withoutNotes told') :=
  w.same_of_linked (linked_main c exit arguments w level level')

/-- The console command is a run at the level of its setting that hands no plan back. -/
theorem command_apply (c : Collaborators σ) (exit : Exit σ) (setting : Option String)
    (w : World σ) :
    command c exit setting w =
      (main c exit w.arguments { w with level := LogLevel.ofSetting setting }).map
        fun (value, v) ↦ (value.map fun _ ↦ (), v) := by
  refine (Session.bind_of_ok rfl).trans ((Session.bind_of_ok rfl).trans ?_)
  rcases hmain : main c exit w.arguments { w with level := LogLevel.ofSetting setting } with
    - | ⟨failure | plan, v⟩
  · exact Session.bind_of_none hmain
  · exact Session.bind_of_error hmain
  · exact Session.bind_of_ok hmain

theorem linked_command (c : Collaborators σ) (exit : Exit σ) (setting setting' : Option String)
    (w : World σ) :
    Linked (AtLevels w.log (LogLevel.ofSetting setting) (LogLevel.ofSetting setting'))
      (command c exit setting w) (command c exit setting' w) := by
  rw [command_apply, command_apply]
  exact (linked_main c exit w.arguments w _ _).map _

/-- **Logging does not change a run.** At any two settings of the log level the console command comes to
the same end, or to none. The events are the same but for notes, and so are standard output and
whatever else the process holds; the arguments that are left behind are the trailing ones if a plan was
read, and the ones from before otherwise. Above the level of notes, standard error is that of the other
setting without its notes. But for notes, all of this is as in a run without the command. -/
theorem command_same_at_levels (c : Collaborators σ) (exit : Exit σ)
    (setting setting' : Option String) (w : World σ) :
    (command c exit setting w = none ↔ command c exit setting' w = none) ∧
    (command c exit setting w = none ↔ main c exit w.arguments w = none) ∧
    ∀ result v, command c exit setting w = some (result, v) →
      v.arguments =
        (Argv.parse (c.surroundings w.host) w.arguments {} w.path).1.trailing w.arguments ∧
      (∃ told v' told', command c exit setting' w = some (result, v') ∧
        w.SameButNotes told v told' v' ∧
        (LogLevel.debug < LogLevel.ofSetting setting →
          Console.plain.stderr told = Console.plain.stderr (Event.withoutNotes told'))) ∧
      ∃ told value v' told', main c exit w.arguments w = some (value, v') ∧
        result = value.map (fun _ ↦ ()) ∧ w.SameButNotes told v told' v' ∧
        Console.plain.stderr (Event.withoutNotes told) =
          Console.plain.stderr (Event.withoutNotes told') := by
  have hsettings := main_same_at_levels c exit w.arguments w (LogLevel.ofSetting setting)
    (LogLevel.ofSetting setting')
  have hplain := main_same_at_levels c exit w.arguments w (LogLevel.ofSetting setting) w.level
  rw [command_apply, command_apply, Option.map_eq_none_iff, Option.map_eq_none_iff]
  refine ⟨hsettings.1, hplain.1, ?_⟩
  rintro result v h
  obtain ⟨⟨value, _⟩, hmain, ⟨⟩⟩ := Option.map_eq_some_iff.1 h
  have harguments := arguments_of_main hmain
  refine ⟨harguments, ?_, ?_⟩
  · obtain ⟨told, v', told', hmain', hsame, hnotes⟩ := hsettings.2 value v hmain
    refine ⟨told, v', told', by rw [hmain']; rfl, hsame, fun hlevel ↦ ?_⟩
    rw [hnotes hlevel]
  · obtain ⟨told, v', told', hmain', hsame, -⟩ := hplain.2 value v hmain
    exact ⟨told, value, v', told', hmain', rfl, hsame, by rw [hsame.events]⟩

/-- A run of the relay makes notes, which are printed if the setting asks for them. -/
theorem command_relay_same_at_levels : ∃ v v',
    command relayHost Exit.relay none { host := (), arguments := ["-e", "baton", "x"] } =
      some (.ok (), v) ∧
    command relayHost Exit.relay (some "debug ") { host := (), arguments := ["-e", "baton", "x"] } =
      some (.ok (), v') ∧
    v.arguments = ["x"] ∧ v'.arguments = ["x"] ∧
    Console.plain.stderr v'.trace ≠ Console.plain.stderr v.trace ∧
    Console.plain.stderr v.trace = Console.plain.stderr (Event.withoutNotes v'.trace) := by
  let w : World Unit := { host := (), arguments := ["-e", "baton", "x"] }
  have hquiet : (command relayHost Exit.relay none w).map (fun (result, v) ↦
      (result, Console.plain.stderr v.trace)) =
        some (.ok (), "Traceback (most recent call last):\nValueError: no baton\n") := by
    decide +kernel
  have hnotes : (command relayHost Exit.relay (some "debug ") w).map (fun (_, v) ↦
      decide (Console.plain.stderr v.trace =
        "Traceback (most recent call last):\nValueError: no baton\n")) = some false := by
    decide +kernel
  have htrailing : (Argv.parse (relayHost.surroundings w.host) w.arguments {} w.path).1.trailing
      w.arguments = ["x"] := by decide +kernel
  obtain ⟨⟨result, v⟩, hcommand, hvalues⟩ := Option.map_eq_some_iff.1 hquiet
  obtain ⟨rfl, hprints⟩ := Prod.mk.inj hvalues
  obtain ⟨-, -, hends⟩ := command_same_at_levels relayHost Exit.relay none (some "debug ") w
  obtain ⟨harguments, ⟨told, v', told', hcommand', hsame, hstderr⟩, -⟩ := hends _ v hcommand
  rw [htrailing] at harguments
  rw [hcommand'] at hnotes
  -- nothing has been told before
  obtain rfl : v.trace = told := hsame.trace
  obtain rfl : v'.trace = told' := hsame.trace'
  refine ⟨v, v', hcommand, hcommand', harguments, hsame.arguments.trans harguments, ?_,
    hstderr (by decide)⟩
  rw [hprints]
  exact of_decide_eq_false (Option.some.inj hnotes)

/-- **Neither does it change what follows a run.** At any two settings the console command leaves the
same callbacks for the end of the process, and these come to the same end, or to none. From the start
of the command to the end of the callbacks, the events are the same but for notes. -/
theorem callbacks_same_at_levels (c : Collaborators σ) (exit : Exit σ)
    (setting setting' : Option String) {w v : World σ} {result : Except Failure Unit}
    (h : command c exit setting w = some (result, v)) :
    ∃ v', command c exit setting' w = some (result, v') ∧ v'.shutdowns = v.shutdowns ∧
      let ended := Session.each (shutdown exit) v.shutdowns v
      let ended' := Session.each (shutdown exit) v'.shutdowns v'
      (ended = none ↔ ended' = none) ∧
      ∀ value u, ended = some (value, u) →
        ∃ told u' told', ended' = some (value, u') ∧ w.SameButNotes told u told' u' ∧
          (LogLevel.debug < LogLevel.ofSetting setting → told = Event.withoutNotes told') := by
  have hlinked := linked_command c exit setting setting' w
  rw [h] at hlinked
  generalize command c exit setting' w = second at hlinked ⊢
  cases hlinked with
  | @ended _ _ v' hlevels =>
    have hshutdowns : v'.shutdowns = v.shutdowns := by
      obtain ⟨u, told, rfl, rfl⟩ := hlevels
      rfl
    refine ⟨v', rfl, hshutdowns, ?_⟩
    rw [hshutdowns]
    exact w.same_of_linked (Session.alike_each (alike_shutdown exit) v.shutdowns v v' hlevels)

end Run

end Launcher
