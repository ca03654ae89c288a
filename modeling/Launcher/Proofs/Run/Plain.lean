import Launcher.Proofs.Run.Catchable
import Launcher.Run

/-!
# Runs without a boundary

A **plain run** reads the command line, hands over the trailing arguments and runs the plan, with no
boundary around any of it (`Run.plain`). It always has a result, and what it adds to the story are
the events of commands: it calls no hook, announces and reports nothing, halts nothing and leaves no
callback behind (`World.Proceeds`).
-/

namespace Launcher

/-- Whether an event belongs to the end of a run. -/
def Event.isEnding : Event → Bool
  | .hookCalled _ _ => true
  | .aborted => true
  | .reported _ => true
  | .halted _ => true
  | .shutdownPlanned => true
  | _ => false

namespace World

variable {σ α : Type}

/-- `w'` comes from `w` by telling `told`, where no event belongs to the end of a run. The queues
have grown by the hooks that `told` tells of. -/
structure Proceeds (w : World σ) (told : List Event) (w' : World σ) : Prop where
  grown : w.Extends (fun q ↦ told.filterMap (Event.queued? q)) told w'
  running : ∀ e ∈ told, e.isEnding = false

theorem Proceeds.refl (w : World σ) : w.Proceeds [] w where
  grown := Extends.refl w
  running _ h := nomatch h

theorem Proceeds.trans {u v w : World σ} {told told' : List Event} (h : u.Proceeds told v)
    (h' : v.Proceeds told' w) : u.Proceeds (told ++ told') w where
  grown := by
    have hgrown := h.grown.trans h'.grown
    simpa only [← List.filterMap_append] using hgrown
  running e he := by
    rcases List.mem_append.1 he with he | he
    · exact h.running e he
    · exact h'.running e he

/-- A reading that only looks at the end of a run finds nothing. -/
theorem Proceeds.filterMap_eq_nil {β : Type} {w w' : World σ} {told : List Event}
    (h : w.Proceeds told w') {f : Event → Option β} (hf : ∀ e, e.isEnding = false → f e = none) :
    told.filterMap f = [] :=
  List.filterMap_eq_nil_iff.2 fun e he ↦ hf e (h.running e he)

/-- No hook is called. -/
theorem Proceeds.called {w w' : World σ} {told : List Event} (h : w.Proceeds told w') :
    told.filterMap Event.called? = [] :=
  h.filterMap_eq_nil fun e he ↦ by cases e <;> first | rfl | cases he

/-- Nothing is halted. -/
theorem Proceeds.halted {w w' : World σ} {told : List Event} (h : w.Proceeds told w') :
    told.filterMap Event.halted? = [] :=
  h.filterMap_eq_nil fun e he ↦ by cases e <;> first | rfl | cases he

/-- Only the queues, the callbacks and the events matter. -/
theorem Proceeds.congr {w w' v : World σ} {told : List Event} (h : w.Proceeds told w')
    (hhooks : v.hooks = w'.hooks) (hshutdowns : v.shutdowns = w'.shutdowns)
    (hlog : v.log = w'.log) : w.Proceeds told v where
  grown := by
    refine ⟨?_, hshutdowns.trans h.grown.shutdowns, fun q ↦ ?_, ?_⟩
    · rw [hhooks, h.grown.bound]
    · rw [hhooks, h.grown.pending]
    · rw [← h.grown.story, story, story, trace, trace, hlog]
  running := h.running

/-- Recording an event that neither belongs to the end of a run nor queues a hook. -/
theorem proceeds_record (w : World σ) {e : Event} (hrunning : e.isEnding = false)
    (hqueued : ∀ q, e.queued? q = none) :
    w.Proceeds ([e].filter fun e ↦ !e.isQuiet) (w.record e) := by
  have hnil : ∀ q, ([e].filter fun e ↦ !e.isQuiet).filterMap (Event.queued? q) = [] := by
    intro q
    refine List.filterMap_eq_nil_iff.2 fun e' he' ↦ ?_
    obtain rfl := List.mem_singleton.1 (List.mem_filter.1 he').1
    exact hqueued q
  refine ⟨by simpa only [hnil] using w.extends_record e, fun e' he' ↦ ?_⟩
  obtain rfl := List.mem_singleton.1 (List.mem_filter.1 he').1
  exact hrunning

theorem proceeds_after (w : World σ) (o : Outcome σ α) :
    w.Proceeds (Effect.storyOf w.hooks.bound o.effects) (w.after o) where
  grown := by
    have hext := w.extends_after o
    simpa only [Effect.filterMap_queued?_storyOf] using hext
  running e he := by
    obtain ⟨hosted, rfl⟩ | ⟨queue, hook, named, rfl⟩ := Effect.exists_of_mem_storyOf he
    · rfl
    · rfl

end World

theorem Event.filter_map_of_quiet {β : Type} {f : β → Event} (h : ∀ b, (f b).isQuiet = true)
    (l : List β) : ((l.map f).filter fun e ↦ !e.isQuiet) = [] := by
  refine List.filter_eq_nil_iff.2 fun e he ↦ ?_
  obtain ⟨b, -, rfl⟩ := List.mem_map.1 he
  simp [h b]

theorem Event.filter_map_of_loud {β : Type} {f : β → Event} (h : ∀ b, (f b).isQuiet = false)
    (l : List β) : ((l.map f).filter fun e ↦ !e.isQuiet) = l.map f := by
  refine List.filter_eq_self.2 fun e he ↦ ?_
  obtain ⟨b, -, rfl⟩ := List.mem_map.1 he
  simp [h b]

/-- Recording an event for each member of a list. -/
theorem Session.proceeds_each {σ β : Type} {f : β → Event} (hrunning : ∀ b, (f b).isEnding = false)
    (hqueued : ∀ b q, (f b).queued? q = none) (l : List β) (w : World σ) :
    ∃ v, w.Proceeds ((l.map f).filter fun e ↦ !e.isQuiet) v ∧ v.host = w.host ∧
      Session.each (fun b ↦ Session.record (f b)) l w = some (.ok (), v) := by
  refine ⟨_, ?_, w.host_recordAll (l.map f), Session.each_record_map f l w⟩
  induction l generalizing w with
  | nil => exact .refl w
  | cons b l ih =>
    have hfirst := w.proceeds_record (hrunning b) (hqueued b)
    have hrest := hfirst.trans (ih (w.record (f b)))
    rwa [← List.filter_append] at hrest

namespace Run

variable {σ : Type} {c : Collaborators σ}

/-- A run without a boundary around it. -/
def plain (c : Collaborators σ) (arguments : List String) : Session σ Plan := do
  let (plan, rest) ← read c arguments
  publish c rest
  execute c plan

/-- Reading in a session tells how often the version is shown. -/
theorem read_apply (c : Collaborators σ) (arguments : List String) (w : World σ) :
    ∃ v, w.Proceeds (List.replicate (Argv.parse (c.surroundings w.host) arguments {}
          w.path).1.versionReports (.versionShown c.version)) v ∧
      v.host = w.host ∧
      read c arguments w =
        some ((Argv.parse (c.surroundings w.host) arguments {} w.path).1.handBack.map
          fun rest ↦ ((Argv.parse (c.surroundings w.host) arguments {} w.path).2.plan, rest), v) := by
  rcases hparse : Argv.parse (c.surroundings w.host) arguments {} w.path with ⟨ending, p⟩
  have hpath : w.Proceeds [] { w with path := p.path } := (World.Proceeds.refl w).congr rfl rfl rfl
  obtain ⟨u, hnotes, huhost, hu⟩ := Session.proceeds_each (f := .noted) (fun _ ↦ rfl)
    (fun _ _ ↦ rfl) p.notes { w with path := p.path }
  have htake : takeOver p w = some (.ok (), u) := hu
  obtain ⟨v, hversions, hvhost, hv⟩ := Session.proceeds_each (f := .versionShown) (fun _ ↦ rfl)
    (fun _ _ ↦ rfl) (List.replicate ending.versionReports c.version) u
  refine ⟨v, ?_, hvhost.trans huhost, ?_⟩
  · have htold := (hpath.trans hnotes).trans hversions
    -- the notes are bookkeeping
    rwa [Event.filter_map_of_quiet fun _ ↦ rfl, Event.filter_map_of_loud fun _ ↦ rfl,
      List.map_replicate] at htold
  -- the world, the notes, the version, and then what reading hands back
  · refine (Session.bind_of_ok (show Session.world w = some (.ok w, w) from rfl)).trans ?_
    rw [hparse]
    refine (Session.bind_of_ok htake).trans ?_
    refine (Session.bind_of_ok hv).trans ?_
    cases ending with
    | finished rest => rfl
    | versionRequested => rfl

/-- Handing over the trailing arguments in a session. -/
theorem publish_apply (hpublish : ∀ rest bound s, (c.publish rest bound s).result = .ok ())
    (rest : List String) (w : World σ) :
    ∃ v, w.Proceeds (.published rest :: Effect.storyOf w.hooks.bound
          (c.publish rest w.hooks.bound.isSome w.host).effects) v ∧
      v.host = (c.publish rest w.hooks.bound.isSome w.host).state ∧
      publish c rest w = some (.ok (), v) := by
  have hrecord := w.proceeds_record (e := .published rest) rfl (fun _ ↦ rfl)
  let u : World σ := { w.record (.published rest) with arguments := rest }
  have hhand : w.Proceeds [.published rest] u := hrecord.congr rfl rfl rfl
  have hhost : u.host = w.host := w.host_record _
  have hhooks : u.hooks = w.hooks := w.hooks_record _
  have hprogram := u.proceeds_after (c.publish rest w.hooks.bound.isSome w.host)
  rw [hhooks] at hprogram
  refine ⟨_, hhand.trans hprogram, u.host_after _, ?_⟩
  refine (Session.bind_of_ok rfl).trans ((Session.bind_of_ok rfl).trans ?_)
  rw [Session.perform_apply]
  show some (_, u.after (c.publish rest u.hooks.bound.isSome u.host)) = _
  rw [hhost, hhooks]
  exact congrArg (fun result ↦ some (result, _)) (hpublish rest _ _)

/-- The error lines of a plan that has ended with `result`. -/
def errorLines (result : Except Failure (List String)) : List String := result.toOption.getD []

/-- How a run ends without a boundary, if its plan has ended with `result`: error lines turn the end
of the plan into a request to terminate. -/
def plainEnding (plan : Plan) (result : Except Failure (List String)) : Except Failure Plan :=
  match result with
  | .error failure => .error failure
  | .ok lines => if lines.isEmpty then .ok plan else .error (termination Status.generalError)

theorem plainEnding_of_ok {plan plan' : Plan} {result : Except Failure (List String)}
    (h : plainEnding plan result = .ok plan') : plan' = plan := by
  rcases result with failure | lines
  · cases h
  · rw [plainEnding] at h
    split_ifs at h
    cases h
    rfl

/-- A failure that escapes is one of the plan. -/
theorem plainEnding_of_escapes {plan : Plan} {result : Except Failure (List String)}
    {failure : Failure} (h : plainEnding plan result = .error failure)
    (hescapes : failure.cause.escapes = true) : result = .error failure := by
  rcases result with failure' | lines
  · cases h
    rfl
  · rw [plainEnding] at h
    split_ifs at h
    cases h
    cases hescapes

/-- Running a plan in a session. -/
theorem execute_apply (c : Collaborators σ) (plan : Plan) (w : World σ) :
    ∃ v, w.Proceeds (Effect.storyOf w.hooks.bound
          (Dispatch.plan c plan w.hooks.bound.isSome w.host).effects ++
        (errorLines (Dispatch.plan c plan w.hooks.bound.isSome w.host).result).map .errorShown) v ∧
      execute c plan w =
        some (plainEnding plan (Dispatch.plan c plan w.hooks.bound.isSome w.host).result, v) := by
  have hperform := Session.perform_apply (Dispatch.plan c plan) w
  have hdispatch := w.proceeds_after (Dispatch.plan c plan w.hooks.bound.isSome w.host)
  rcases hresult : (Dispatch.plan c plan w.hooks.bound.isSome w.host).result with failure | errors
  · rw [hresult] at hperform
    exact ⟨_, hdispatch.trans (.refl _), Session.bind_of_error hperform⟩
  · rw [hresult] at hperform
    obtain ⟨v, hshown, -, hv⟩ := Session.proceeds_each (f := .errorShown) (fun _ ↦ rfl)
      (fun _ _ ↦ rfl) errors (w.after (Dispatch.plan c plan w.hooks.bound.isSome w.host))
    rw [Event.filter_map_of_loud fun _ ↦ rfl] at hshown
    refine ⟨v, hdispatch.trans hshown, (Session.bind_of_ok hperform).trans ?_⟩
    rw [plainEnding]
    cases errors with
    | nil =>
      cases hv
      rfl
    | cons line errors => exact Session.bind_of_ok hv

/-- A run without a boundary that reads a plan publishes the trailing arguments and runs the plan. -/
theorem plain_finished (hpublish : ∀ rest bound s, (c.publish rest bound s).result = .ok ())
    {arguments rest : List String} {p : Argv.Progress} {w : World σ}
    (hparse : Argv.parse (c.surroundings w.host) arguments {} w.path = (.finished rest, p)) :
    ∃ published outcome v, published = c.publish rest w.hooks.bound.isSome w.host ∧
      outcome = Dispatch.plan c p.plan w.hooks.bound.isSome published.state ∧
      w.Proceeds (.published rest :: Effect.storyOf w.hooks.bound published.effects ++
        (Effect.storyOf w.hooks.bound outcome.effects ++
          (errorLines outcome.result).map .errorShown)) v ∧
      plain c arguments w = some (plainEnding p.plan outcome.result, v) := by
  obtain ⟨u, hread, huhost, hu⟩ := read_apply c arguments w
  rw [hparse] at hread hu
  obtain ⟨v, hpublished, hvhost, hv⟩ := publish_apply hpublish rest u
  obtain ⟨v', hexecuted, hv'⟩ := execute_apply c p.plan v
  rw [huhost, hread.grown.bound] at hpublished hvhost
  rw [hpublished.grown.bound, hread.grown.bound, hvhost] at hexecuted hv'
  refine ⟨_, _, v', rfl, rfl, (hread.trans hpublished).trans hexecuted, ?_⟩
  exact (Session.bind_of_ok hu).trans ((Session.bind_of_ok hv).trans hv')

/-- A run without a boundary always has a result. The plan it returns is the one that was read, and a
failure that escapes is one of dispatch. -/
theorem plain_proceeds (hpublish : ∀ rest bound s, (c.publish rest bound s).result = .ok ())
    (arguments : List String) (w : World σ) :
    ∃ result told v, w.Proceeds told v ∧ plain c arguments w = some (result, v) ∧
      (∀ plan, result = .ok plan → ∃ rest p,
        Argv.parse (c.surroundings w.host) arguments {} w.path = (.finished rest, p) ∧
          plan = p.plan) ∧
      ∀ failure, result = .error failure → failure.cause.escapes = true →
        ∃ plan bound s, (Dispatch.plan c plan bound s).result = .error failure := by
  rcases hparse : Argv.parse (c.surroundings w.host) arguments {} w.path with ⟨ending, p⟩
  cases ending with
  | versionRequested =>
    obtain ⟨u, hread, -, hu⟩ := read_apply c arguments w
    rw [hparse] at hu
    refine ⟨_, _, u, hread, Session.bind_of_error hu, nofun, ?_⟩
    rintro _ ⟨⟩ ⟨⟩
  | finished rest =>
    obtain ⟨published, outcome, v, -, rfl, hproceeds, hv⟩ := plain_finished hpublish hparse
    refine ⟨_, _, v, hproceeds, hv, fun plan hplan ↦ ⟨rest, p, rfl, plainEnding_of_ok hplan⟩, ?_⟩
    exact fun failure hfailure hescapes ↦
      ⟨p.plan, _, published.state, plainEnding_of_escapes hfailure hescapes⟩

/-- **A run without a boundary** always has a result, and no event of it belongs to the end of a run.
The plan it returns is the one that was read, and its failures are caught by a boundary. -/
theorem plain_apply (hc : c.Catchable)
    (hpublish : ∀ rest bound s, (c.publish rest bound s).result = .ok ()) (arguments : List String)
    (w : World σ) :
    ∃ result told v, w.Proceeds told v ∧ plain c arguments w = some (result, v) ∧
      (∀ plan, result = .ok plan → ∃ rest p,
        Argv.parse (c.surroundings w.host) arguments {} w.path = (.finished rest, p) ∧
          plan = p.plan) ∧
      ∀ failure, result = .error failure → failure.cause.escapes = false := by
  obtain ⟨result, told, v, hproceeds, hplain, hok, hescapes⟩ := plain_proceeds hpublish arguments w
  refine ⟨result, told, v, hproceeds, hplain, hok, fun failure hfailure ↦ ?_⟩
  by_contra h
  obtain ⟨plan, bound, s, hdispatch⟩ := hescapes failure hfailure (Bool.not_eq_false _ ▸ h)
  exact h (Dispatch.catchable_plan hc plan bound s failure hdispatch)

end Run

end Launcher
