import Launcher.Proofs.Exit.Ledger
import Launcher.Proofs.Run.Ending

/-!
# The binding around a run

While a run is going on, its queue is the bound one. So a program that puts a hook into the bound
queue finds one, whenever it does so (`Run.main_whileBound`), and the hook comes into the queue of
the run and into no other (`World.RunsWith`).

Behind the run the binding is again what it was before, however the run has ended. If the process
stays alive, the binding waits for the callback for the end of the process, which lets it return
when the queue has been drained (`Run.binding_returns`).
-/

namespace Launcher

variable {σ α β : Type}

/-! ### Programs that find a queue -/

namespace Hosted

/-- The program as it runs while a queue is bound, whether one is bound or not. -/
def whileBound (p : Hosted σ α) : Hosted σ α := fun _ s ↦ p true s

/-- Two programs are the same while a queue is bound. -/
def SameWhileBound (p q : Hosted σ α) : Prop := ∀ s, p true s = q true s

theorem sameWhileBound (p : Hosted σ α) : p.SameWhileBound p.whileBound := fun _ ↦ rfl

theorem SameWhileBound.refl (p : Hosted σ α) : p.SameWhileBound p := fun _ ↦ rfl

theorem SameWhileBound.bind {p q : Hosted σ α} {f g : α → Hosted σ β} (h : p.SameWhileBound q)
    (hfg : ∀ a, (f a).SameWhileBound (g a)) : (p >>= f).SameWhileBound (q >>= g) := by
  intro s
  rw [bind_eq_andThen, bind_eq_andThen]
  rcases hq : (q true s).result with failure | a
  · have hp : (p true s).result = .error failure := h s ▸ hq
    rw [andThen_apply_of_error hp, andThen_apply_of_error hq, h s]
  · have hp : (p true s).result = .ok a := h s ▸ hq
    rw [andThen_apply_of_ok hp, andThen_apply_of_ok hq, h s, hfg a]

theorem SameWhileBound.ite {P : Prop} [Decidable P] {p p' q q' : Hosted σ α}
    (hp : p.SameWhileBound p') (hq : q.SameWhileBound q') :
    (if P then p else q).SameWhileBound (if P then p' else q') := by
  split
  · exact hp
  · exact hq

theorem SameWhileBound.each {f g : α → Hosted σ Unit} (h : ∀ a, (f a).SameWhileBound (g a))
    (as : List α) : (each f as).SameWhileBound (each g as) := by
  induction as with
  | nil => exact fun _ ↦ rfl
  | cons a as ih => exact (h a).bind fun _ ↦ ih

end Hosted

/-- The collaborators as they are while a queue is bound. -/
def Collaborators.whileBound (c : Collaborators σ) : Collaborators σ where
  files := { c.files with
    ensureDirectory := fun path ↦ (c.files.ensureDirectory path).whileBound }
  place := c.place
  eval expression := (c.eval expression).whileBound
  requireFile path := (c.requireFile path).whileBound
  loadFiles files := (c.loadFiles files).whileBound
  startApplication name := (c.startApplication name).whileBound
  compileFiles files output settings announce :=
    (c.compileFiles files output settings announce).whileBound
  nodeIsAlive := c.nodeIsAlive
  setCookie value := (c.setCookie value).whileBound
  publish arguments := (c.publish arguments).whileBound
  version := c.version

/-- The end of a run whose hooks are as they are while a queue is bound. -/
def Exit.whileBound (exit : Exit σ) : Exit σ :=
  exit.calling fun hook status ↦ (exit.call hook status).whileBound

namespace Dispatch

variable (c : Collaborators σ) (plan : Plan)

/-- A command looks at the state of the programs, and then it goes on in the same way. -/
theorem sameWhileBound_command (command : Command) :
    (Dispatch.command c plan command).SameWhileBound
      (Dispatch.command c.whileBound plan command) := by
  cases command with
  | eval expression => exact fun _ ↦ rfl
  | app name => exact fun _ ↦ rfl
  | unknown value => exact fun _ ↦ rfl
  | cookie value =>
    exact (Hosted.SameWhileBound.refl Hosted.get).bind fun s ↦
      Hosted.SameWhileBound.ite (fun _ ↦ rfl) fun _ ↦ rfl
  | script name =>
    refine (Hosted.SameWhileBound.refl Hosted.get).bind fun s ↦ ?_
    have hfind : findScript c.whileBound s name = findScript c s name := rfl
    rw [hfind]
    cases findScript c s name <;> exact fun _ ↦ rfl
  | file path =>
    exact (Hosted.SameWhileBound.refl Hosted.get).bind fun s ↦
      Hosted.SameWhileBound.ite (fun _ ↦ rfl) fun _ ↦ rfl
  | require pattern =>
    have hrequire : ∀ path, (Dispatch.require c path).SameWhileBound
        (Dispatch.require c.whileBound path) := fun _ _ ↦ rfl
    exact (Hosted.SameWhileBound.refl Hosted.get).bind fun s ↦
      Hosted.SameWhileBound.ite (fun _ ↦ rfl)
        ((Hosted.SameWhileBound.each hrequire (regularFiles c s pattern)).bind fun _ _ ↦ rfl)
  | parallelRequire pattern =>
    exact (Hosted.SameWhileBound.refl Hosted.get).bind fun s ↦
      Hosted.SameWhileBound.ite (fun _ ↦ rfl) fun _ ↦ rfl
  | compile patterns =>
    refine Hosted.SameWhileBound.bind (fun _ ↦ rfl) fun _ ↦ ?_
    exact (Hosted.SameWhileBound.refl Hosted.get).bind fun s ↦
      Hosted.SameWhileBound.ite (fun _ ↦ rfl) (Hosted.SameWhileBound.ite (fun _ ↦ rfl) fun _ ↦ rfl)

theorem sameWhileBound_commands (commands : List Command) :
    (Dispatch.commands c plan commands).SameWhileBound
      (Dispatch.commands c.whileBound plan commands) := by
  induction commands with
  | nil => exact fun _ ↦ rfl
  | cons command commands ih =>
    refine Hosted.SameWhileBound.bind (fun _ ↦ rfl) fun _ ↦ ?_
    refine (sameWhileBound_command c plan command).bind fun _ ↦ ?_
    exact ih.bind fun _ _ ↦ rfl

theorem sameWhileBound_plan :
    (Dispatch.plan c plan).SameWhileBound (Dispatch.plan c.whileBound plan) :=
  (sameWhileBound_commands c plan plan.commands).bind fun _ _ ↦ rfl

end Dispatch

/-! ### Runs with a bound queue -/

/-- The event moves hooks only with regard to `queue`: it takes them out of no other queue, and a
hook for the bound queue has come into this one. -/
def Event.BelongsTo (queue : QueueId) (e : Event) : Prop :=
  Exit.TakesFrom queue e ∧ ∀ q hook, e = .queued q hook false → q = queue

theorem Event.belongsTo_of_movesHooks {e : Event} (h : e.movesHooks = false) (queue : QueueId) :
    e.BelongsTo queue := by
  refine ⟨fun q hooks he ↦ ?_, fun q hook he ↦ ?_⟩ <;> (subst he; cases h)

theorem Effect.belongsTo_event {queue : QueueId} {effect : Effect} {e : Event}
    (h : effect.event? (some queue) = some e) : e.BelongsTo queue := by
  refine ⟨Exit.takesFrom_event h, fun q hook he ↦ ?_⟩
  subst he
  rcases effect with hosted | ⟨- | target, hook⟩ <;> cases h
  rfl

namespace World

/-- `w'` comes from `w` without a change of the binding and of the callbacks. If `queue` is bound,
then hooks have moved only with regard to it, but for those put into a queue by its name. -/
structure RunsWith (queue : QueueId) (w w' : World σ) : Prop where
  bound : w'.hooks.bound = w.hooks.bound
  shutdowns : w'.shutdowns = w.shutdowns
  tells : w.hooks.bound = some queue → w.Tells (Event.BelongsTo queue) w'

theorem RunsWith.of_record (queue : QueueId) (w : World σ) {e : Event} (h : e.movesHooks = false) :
    w.RunsWith queue (w.record e) where
  bound := by rw [hooks_record]
  shutdowns := (w.extends_record e).shutdowns
  tells _ := w.tells_record h (Event.belongsTo_of_movesHooks h queue)

theorem course_runsWith (exit : Exit σ) : Course exit (RunsWith (σ := σ) exit.queue) := by
  have htells : Course exit (World.Tells (Event.BelongsTo exit.queue)) := by
    refine course_tells (fun e he ↦ ?_) fun hooks ↦ ⟨?_, nofun⟩
    · exact Event.belongsTo_of_movesHooks (Event.movesHooks_of_isPlain he) exit.queue
    · rintro q _ ⟨⟩
      rfl
  exact {
    refl := fun w ↦ ⟨rfl, rfl, fun _ ↦ htells.refl w⟩
    trans := fun h h' ↦ ⟨h'.bound.trans h.bound, h'.shutdowns.trans h.shutdowns, fun hbound ↦
      (h.tells hbound).trans (h'.tells (h.bound.trans hbound))⟩
    record := fun w e he ↦ .of_record exit.queue w (Event.movesHooks_of_isPlain he)
    emptied := fun w ↦ ⟨Exit.bound_emptied exit w, Exit.shutdowns_emptied exit w, fun _ ↦
      htells.emptied w⟩
    setPath := fun w path ↦ ⟨rfl, rfl, fun _ ↦ htells.setPath w path⟩
    setArguments := fun w arguments ↦ ⟨rfl, rfl, fun _ ↦ htells.setArguments w arguments⟩ }

end World

/-- Whatever a hosted program does, the hooks that it puts into the bound queue come there. -/
theorem Hosted.runsWith (queue : QueueId) (p : Hosted σ α) :
    p.KeepsTo (World.RunsWith queue) := by
  intro w
  have hext := w.extends_after (p w.hooks.bound.isSome w.host)
  refine ⟨hext.bound, hext.shutdowns, fun hbound ↦ w.tells_after _ fun effect _ e he ↦ ?_⟩
  rw [hbound] at he
  exact Effect.belongsTo_event he

/-- While a queue is bound, programs that are then the same go alike. -/
theorem Hosted.SameWhileBound.alike {exit : Exit σ} {p q : Hosted σ α} (h : p.SameWhileBound q)
    {u : World σ} (hu : u.hooks.bound = some exit.queue) :
    p.Alike (World.Since (World.RunsWith exit.queue) u) q := by
  rintro _ w ⟨rfl, hw⟩
  have hbound : w.hooks.bound.isSome = true := by rw [hw.bound, hu]; rfl
  rw [hbound, h w.host]
  refine ⟨rfl, rfl, (World.course_runsWith exit).trans hw ?_⟩
  have hafter := Hosted.runsWith exit.queue q w
  rwa [hbound] at hafter

namespace Run

variable {c : Collaborators σ} {exit : Exit σ} {arguments : List String}

/-- Inside the binding of its queue it does not matter for a run what programs do without one. -/
theorem body_whileBound {u : World σ} (hu : u.hooks.bound = some exit.queue) :
    body c.whileBound exit.whileBound arguments u = body c exit arguments u := by
  have hR := World.course_runsWith exit
  have hsurroundings : ∀ s, c.whileBound.surroundings s = c.surroundings s := fun _ ↦ rfl
  have halike : Session.Alike (World.Since (World.RunsWith exit.queue) u)
      (body c exit arguments) (body c.whileBound exit.whileBound arguments) :=
    alike_body (hR.link u) hsurroundings rfl (fun rest ↦ (c.publish rest).sameWhileBound.alike hu)
      (fun plan ↦ (Dispatch.sameWhileBound_plan c plan).alike hu)
      (fun hook status ↦ (exit.call hook status).sameWhileBound.alike hu)
      (hR.since fun w ↦ .of_record exit.queue w rfl)
      (fun line _ _ h ↦ hR.since (fun w ↦ .of_record exit.queue w rfl) h) arguments
  exact (halike u u ⟨rfl, hR.refl u⟩).eq_of_since

theorem withBound_congr {queue : QueueId} {p q : Session σ (Option Plan)} {w : World σ}
    (h : p (w.rebound (some queue)) = q (w.rebound (some queue))) :
    withBound queue p w = withBound queue q w := by
  have hattempt : Session.attempt p (w.rebound (some queue)) =
      Session.attempt q (w.rebound (some queue)) := by
    rw [Session.attempt, Session.attempt, h]
  exact Session.bind_congr hattempt _

/-- **In a run every program finds a queue to put hooks into.** It does not matter what programs
would do without one. -/
theorem main_whileBound (c : Collaborators σ) (exit : Exit σ) (arguments : List String)
    (w : World σ) :
    main c.whileBound exit.whileBound arguments w = main c exit arguments w :=
  withBound_congr (body_whileBound rfl)

/-! ### The binding returns -/

/-- The binding is again the one from before. If there was none, then no hook can be put into the
bound queue, and the attempt changes nothing. -/
def Returned (previous : Option QueueId) (w : World σ) : Prop :=
  w.hooks.bound = previous ∧ (previous = none → ∀ hook,
    Session.perform (Hosted.atExit hook) w = some (.error Hosted.outsideRun, w))

theorem returned_rebound (w : World σ) (previous : Option QueueId) :
    Returned previous (w.rebound previous) := by
  refine ⟨rfl, ?_⟩
  rintro rfl hook
  rfl

/-- However a step ends, the binding is then `previous`. -/
theorem rebinding_apply {p : Session σ α} {w u : World σ} {result : Except Failure α}
    (previous : Option QueueId) (h : p w = some (result, u)) :
    Session.rebinding previous p w = some (result, u.rebound previous) := by
  refine (Session.bind_of_ok (Session.attempt_of_some h)).trans ((Session.bind_of_ok rfl).trans ?_)
  cases result with
  | error failure => rfl
  | ok a => rfl

theorem exists_of_rebinding {p : Session σ α} {w w' : World σ} {result : Except Failure α}
    {previous : Option QueueId} (h : Session.rebinding previous p w = some (result, w')) :
    ∃ u, p w = some (result, u) ∧ w' = u.rebound previous := by
  rcases hp : p w with - | ⟨result', u⟩
  · have hnone : Session.attempt p w = none := by
      rw [Session.attempt, hp]
      rfl
    cases (Session.bind_of_none hnone).symm.trans h
  · cases (rebinding_apply previous hp).symm.trans h
    exact ⟨u, rfl, rfl⟩

/-- A run from `w` has left the process alive in `w'`: the binding is left to a callback. -/
structure Lingers (exit : Exit σ) (w w' : World σ) : Prop where
  bound : w'.hooks.bound = some exit.queue
  shutdowns : w'.shutdowns = w.shutdowns ++ [⟨exit.queue, w.hooks.bound⟩]
  /-- Programs do not change the binding. -/
  stays : ∀ later v, w'.Proceeds later v → v.hooks.bound = some exit.queue
  /-- In the callback, hooks find the queue of the run to put hooks into, and come there. When it
  has been drained, the binding returns. -/
  drained : ∀ v : World σ, v.hooks.bound = some exit.queue →
    shutdown exit.whileBound ⟨exit.queue, w.hooks.bound⟩ v =
      shutdown exit ⟨exit.queue, w.hooks.bound⟩ v ∧
    ∀ result u, shutdown exit ⟨exit.queue, w.hooks.bound⟩ v = some (result, u) →
      v.Tells (Event.BelongsTo exit.queue) u ∧ u.hooks.pending exit.queue = [] ∧
        Returned w.hooks.bound u
  /-- The binding would also return if the drain failed. -/
  rebinds : ∀ (drain : Session σ Unit) (v : World σ) result u, drain v = some (result, u) →
    Session.rebinding w.hooks.bound drain v = some (result, u.rebound w.hooks.bound)

/-- The callback drains its queue while it is bound, and then the binding returns. -/
theorem drained_of_shutdown (callback : Shutdown) {v : World σ}
    (hv : v.hooks.bound = some callback.queue) :
    shutdown exit.whileBound callback v = shutdown exit callback v ∧
      ∀ result u, shutdown exit callback v = some (result, u) →
        v.Tells (Event.BelongsTo callback.queue) u ∧ u.hooks.pending callback.queue = [] ∧
          Returned callback.previous u := by
  let exit' : Exit σ := { exit with queue := callback.queue }
  have hR := World.course_runsWith exit'
  constructor
  · have halike := Exit.alike_drainWithin (hR.link v)
      (fun hook status ↦ (exit'.call hook status).sameWhileBound.alike hv) Status.success
      exit'.passes
    have hdrain := (halike v v ⟨rfl, hR.refl v⟩).eq_of_since
    exact Session.bind_congr (by rw [Session.attempt, Session.attempt]; exact congrArg _ hdrain) _
  · intro result u hu
    obtain ⟨u', hdrain, rfl⟩ := exists_of_rebinding hu
    obtain ⟨-, told, calls, hempties⟩ := Exit.empties_of_drainWithin hdrain
    have hruns := Exit.passes_drainWithin hR (fun _ _ ↦ Hosted.runsWith callback.queue _) _ _ v _ u'
      hdrain
    exact ⟨(hruns.tells hv).trans (u'.tells_rebound _), hempties.pending, returned_rebound u' _⟩

/-- **The binding of exit hooks returns, whatever happens.** In a run, every program that puts a
hook into the bound queue finds one: the run does not depend on what programs would do without. The
hook comes into the queue of the run. If the run halts or a failure escapes from it, then the
binding is again the one from before. If the process stays alive, the binding stays with the run
until the callback has drained its queue, and then it returns. This holds whatever the programs do
that the run calls; questions to the collaborators are answered and do nothing (`Collaborators`). -/
theorem binding_returns (c : Collaborators σ) (exit : Exit σ) (arguments : List String)
    (w : World σ) :
    main c.whileBound exit.whileBound arguments w = main c exit arguments w ∧
      ∀ result w', main c exit arguments w = some (result, w') →
        w.Tells (Event.BelongsTo exit.queue) w' ∧
        ((∀ plan, result ≠ .ok (some plan)) →
          Returned w.hooks.bound w' ∧ w'.shutdowns = w.shutdowns) ∧
        ((∃ plan, result = .ok (some plan)) → Lingers exit w w') := by
  refine ⟨main_whileBound c exit arguments w, fun result w' hmain ↦ ?_⟩
  obtain ⟨v, hbody, hend⟩ := exists_body_of_main hmain
  have hruns := passes_body (World.course_runsWith exit) (fun _ _ ↦ Hosted.runsWith exit.queue _)
    (fun _ ↦ Hosted.runsWith exit.queue _) (fun _ ↦ Hosted.runsWith exit.queue _)
    (fun w ↦ .of_record exit.queue w rfl) (fun w _ ↦ .of_record exit.queue w rfl) arguments
    _ _ _ hbody
  have htells := (w.tells_rebound (some exit.queue)).trans
    (hruns.tells rfl)
  rcases hend with ⟨plan, rfl, rfl⟩ | ⟨hstops, rfl⟩
  · let callback : Shutdown := ⟨exit.queue, w.hooks.bound⟩
    have hplanned :=
      { v with shutdowns := v.shutdowns ++ [callback] }.extends_record .shutdownPlanned
    have hbound : (planned exit w.hooks.bound v).hooks.bound = some exit.queue :=
      hplanned.bound.trans hruns.bound
    refine ⟨htells.trans (v.tells_planned exit _ (Event.belongsTo_of_movesHooks rfl _)),
      fun hstops ↦ absurd rfl (hstops plan), fun _ ↦ ⟨hbound, ?_, fun later v' hlater ↦
        hlater.grown.bound.trans hbound, fun _ ↦ drained_of_shutdown callback,
        fun drain v' result u' hdrain ↦ rebinding_apply _ hdrain⟩⟩
    exact hplanned.shutdowns.trans (congrArg (· ++ [callback]) hruns.shutdowns)
  · refine ⟨htells.trans (v.tells_rebound _), fun _ ↦ ⟨returned_rebound v _, hruns.shutdowns⟩, ?_⟩
    rintro ⟨plan, rfl⟩
    exact absurd rfl (hstops plan)

/-- A run that stays alive, with nothing bound before, and then the callback. -/
theorem binding_of_relay_returns : ∃ plan w' u,
    main relayHost Exit.relay ["--no-halt", "-e", "baton"] { host := () } =
      some (.ok (some plan), w') ∧ w'.hooks.bound = some 0 ∧ w'.hooks.pending 0 = ["first"] ∧
    shutdown Exit.relay ⟨0, none⟩ w' = some (.ok (), u) ∧ u.hooks.pending 0 = [] ∧
      ∀ hook, Session.perform (Hosted.atExit hook) u = some (.error Hosted.outsideRun, u) := by
  have hends : ((main relayHost Exit.relay ["--no-halt", "-e", "baton"] { host := () }).bind
      fun (result, w') ↦ (shutdown Exit.relay ⟨0, none⟩ w').map fun (result', _) ↦
        ((result.toOption.bind id).isSome, result'.toOption.isSome, w'.hooks.pending 0)) =
      some (true, true, ["first"]) := by decide +kernel
  obtain ⟨⟨result, w'⟩, hmain, hcallback⟩ := Option.bind_eq_some_iff.1 hends
  obtain ⟨⟨result', u⟩, hshutdown, hvalues⟩ := Option.map_eq_some_iff.1 hcallback
  simp only [Prod.mk.injEq] at hvalues
  obtain ⟨plan, rfl⟩ : ∃ plan, result = .ok (some plan) := by
    match result, hvalues.1 with
    | .ok (some plan), _ => exact ⟨plan, rfl⟩
  obtain rfl : result' = .ok () := by
    match result', hvalues.2.1 with
    | .ok (), _ => rfl
  obtain ⟨-, -, hlingers⟩ := (binding_returns relayHost Exit.relay ["--no-halt", "-e", "baton"]
    { host := () }).2 _ w' hmain
  have halive := hlingers ⟨plan, rfl⟩
  obtain ⟨-, hempty, -, hreturned⟩ := (halive.drained w' halive.bound).2 _ u hshutdown
  exact ⟨plan, w', u, hmain, halive.bound, hvalues.2.2, hshutdown, hempty, hreturned rfl⟩

end Run

end Launcher
