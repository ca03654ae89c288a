import Launcher.Proofs.Exit.Drain
import Launcher.Run

/-!
# Sessions that go alike

Two sessions go **alike** with regard to a relation between their worlds if, from related worlds on,
they come to the same end in related worlds, or both come to none (`Session.Alike`). Steps that are
put together of alike steps are alike.

A relation is a **link** if it does not mind that both sides do the same of what the launcher does
by itself: make an event, empty the queue, change the search path or the arguments (`Link`). So if
hosted programs go alike, then so do the boundary and all that happens inside of it
(`Run.alike_body`).

The two sessions may be one and the same. A relation between an earlier and a later world that each
step of the launcher keeps to (`Course`) makes a link of a session with itself; hence a run keeps to
it if its hosted programs do (`Run.keeps_body`).
-/

namespace Launcher

variable {σ α β : Type}

/-- Whether an event is made by the launcher itself, and is neither about hooks in queues nor one of
the messages for which a run is looked at: error lines and the notice that it was aborted. -/
def Event.isPlain : Event → Bool
  | .hosted _ => false
  | .queued _ _ _ => false
  | .taken _ _ => false
  | .aborted => false
  | .errorShown _ => false
  | _ => true

/-- Two sessions have come to the same end in worlds that are related by `L`, or both to none. -/
inductive Linked (L : World σ → World σ → Prop) :
    Option (Except Failure α × World σ) → Option (Except Failure α × World σ) → Prop
  | never : Linked L none none
  | ended (result : Except Failure α) {w v : World σ} (h : L w v) :
    Linked L (some (result, w)) (some (result, v))

/-- Linked ends stay linked if the same is made of both results. -/
theorem Linked.map {L : World σ → World σ → Prop} {first second : Option (Except Failure α × World σ)}
    (h : Linked L first second) (f : Except Failure α → Except Failure β) :
    Linked L (first.map fun (result, w) ↦ (f result, w))
      (second.map fun (result, w) ↦ (f result, w)) := by
  cases h with
  | never => exact .never
  | ended result h => exact .ended (f result) h

/-- From worlds related by `L`, two programs end with the same result and leave related worlds. -/
def Hosted.Alike (L : World σ → World σ → Prop) (p q : Hosted σ α) : Prop :=
  ∀ w v : World σ, L w v →
    (p w.hooks.bound.isSome w.host).result = (q v.hooks.bound.isSome v.host).result ∧
      L (w.after (p w.hooks.bound.isSome w.host)) (v.after (q v.hooks.bound.isSome v.host))

namespace Session

/-- From worlds related by `L` on, two steps come to the same end in related worlds, or both to
none. -/
def Alike (L : World σ → World σ → Prop) (p q : Session σ α) : Prop :=
  ∀ w v, L w v → Linked L (p w) (q v)

variable {L : World σ → World σ → Prop}

theorem alike_pure (a : α) : Alike L (pure a : Session σ α) (pure a) :=
  fun _ _ h ↦ .ended (.ok a) h

theorem alike_raise (failure : Failure) :
    Alike L (raise failure : Session σ α) (raise failure) :=
  fun _ _ h ↦ .ended (.error failure) h

theorem alike_update {f g : World σ → World σ} (h : ∀ {w v}, L w v → L (f w) (g v)) :
    Alike L (update f) (update g) :=
  fun _ _ hwv ↦ .ended (.ok ()) (h hwv)

theorem alike_perform {p q : Hosted σ α} (h : p.Alike L q) : Alike L (perform p) (perform q) := by
  intro w v hwv
  obtain ⟨hresult, hafter⟩ := h w v hwv
  rw [perform_apply, perform_apply, hresult]
  exact .ended _ hafter

theorem Alike.attempt {p q : Session σ α} (h : Alike L p q) :
    Alike L (Session.attempt p) (Session.attempt q) := by
  intro w v hwv
  have hlinked := h w v hwv
  rw [Session.attempt, Session.attempt]
  generalize p w = first at hlinked ⊢
  generalize q v = second at hlinked ⊢
  cases hlinked with
  | never => exact .never
  | ended result h => exact .ended (.ok result) h

theorem Alike.bind {p q : Session σ α} {f g : α → Session σ β} (h : Alike L p q)
    (hfg : ∀ a, Alike L (f a) (g a)) : Alike L (p >>= f) (q >>= g) := by
  intro w v hwv
  have hlinked := h w v hwv
  show Linked L (andThen p f w) (andThen q g v)
  rw [andThen, andThen]
  generalize p w = first at hlinked ⊢
  generalize q v = second at hlinked ⊢
  cases hlinked with
  | never => exact .never
  | ended result h =>
    cases result with
    | error failure => exact .ended (.error failure) h
    | ok a => exact hfg a _ _ h

theorem alike_each {f g : β → Session σ Unit} (h : ∀ b, Alike L (f b) (g b)) (bs : List β) :
    Alike L (each f bs) (each g bs) := by
  induction bs with
  | nil => exact alike_pure ()
  | cons b bs ih => exact (h b).bind fun _ ↦ ih

end Session

/-- A relation between the worlds of two sessions that is kept if both do the same of what the
launcher does by itself while it runs with the queue of `exit`. -/
structure Link (exit : Exit σ) (L : World σ → World σ → Prop) : Prop where
  host : ∀ {w v}, L w v → v.host = w.host
  path : ∀ {w v}, L w v → v.path = w.path
  pending : ∀ {w v}, L w v → v.hooks.pending exit.queue = w.hooks.pending exit.queue
  record : ∀ {e : Event}, e.isPlain = true → ∀ {w v}, L w v → L (w.record e) (v.record e)
  emptied : ∀ {w v}, L w v → L (exit.emptied w) (exit.emptied v)
  setPath : ∀ (path : SearchPath) {w v}, L w v → L { w with path } { v with path }
  setArguments : ∀ (arguments : List String) {w v}, L w v →
    L { w with arguments } { v with arguments }

namespace Link

open Session

variable {exit : Exit σ} {L : World σ → World σ → Prop} (hL : Link exit L)
include hL

theorem alike_record {e : Event} (h : e.isPlain = true) :
    Alike L (Session.record e) (Session.record e) :=
  alike_update fun hwv ↦ hL.record h hwv

theorem alike_each_record {f : β → Event} (h : ∀ b, (f b).isPlain = true) (bs : List β) :
    Alike L (each (fun b ↦ Session.record (f b)) bs) (each (fun b ↦ Session.record (f b)) bs) :=
  alike_each (fun b ↦ hL.alike_record (h b)) bs

theorem alike_flush : Alike L (flush exit.queue) (flush exit.queue) := by
  intro w v hwv
  show Linked L (some (.ok (w.hooks.pending exit.queue), exit.emptied w))
    (some (.ok (v.hooks.pending exit.queue), exit.emptied v))
  rw [hL.pending hwv]
  exact .ended _ (hL.emptied hwv)

end Link

/-! ### The boundary -/

namespace Exit

open Session

/-- The same end of a run with other programs behind the hooks. -/
def calling (exit : Exit σ) (call : Hook → Int → Hosted σ Unit) : Exit σ := { exit with call }

variable {exit : Exit σ} {call : Hook → Int → Hosted σ Unit} {L : World σ → World σ → Prop}
  (hL : Link exit L)
include hL

variable (call) in
theorem alike_halt (status : Int) :
    Alike L (exit.halt status) ((exit.calling call).halt status) := by
  have hsame : (exit.calling call).halt status = exit.halt status := rfl
  rw [hsame, halt]
  split
  · exact hL.alike_record rfl
  · exact (hL.alike_record rfl).bind fun _ ↦ alike_raise _
  · exact alike_raise _

variable (hcall : ∀ hook status, (exit.call hook status).Alike L (call hook status))
include hcall

theorem alike_callHook (status : Int) (hook : Hook) :
    Alike L (exit.callHook status hook) ((exit.calling call).callHook status hook) := by
  refine (hL.alike_record rfl).bind fun _ ↦ ?_
  refine (alike_perform (hcall hook status)).attempt.bind fun result ↦ ?_
  cases result with
  | ok _ => exact alike_pure ()
  | error failure => exact hL.alike_record rfl

theorem alike_drainWithin (status : Int) (n : Nat) :
    Alike L (exit.drainWithin status n) ((exit.calling call).drainWithin status n) := by
  induction n with
  | zero => exact fun _ _ _ ↦ .never
  | succ n ih =>
    refine hL.alike_flush.bind fun hooks ↦ ?_
    split
    · exact alike_pure ()
    · exact (hL.alike_record rfl).bind fun _ ↦
        (alike_each (alike_callHook hL hcall status) hooks).bind fun _ ↦ ih

theorem alike_finish (status : Int) :
    Alike L (exit.finish status) ((exit.calling call).finish status) :=
  (alike_drainWithin hL hcall status exit.passes).bind fun _ ↦ alike_halt call hL status

theorem alike_fail (failure : Failure) :
    Alike L (exit.fail failure) ((exit.calling call).fail failure) :=
  (alike_drainWithin hL hcall _ exit.passes).bind fun _ ↦
    (hL.alike_record rfl).bind fun _ ↦ alike_halt call hL _

variable (haborted : ∀ {w v}, L w v → L (w.record .aborted) (v.record .aborted))
include haborted

theorem alike_settle (announcing : Bool) (failure : Failure) :
    Alike L (exit.settle announcing failure) ((exit.calling call).settle announcing failure) := by
  rw [settle, settle]
  split
  · exact alike_finish hL hcall _
  · dsimp only
    split
    · exact (alike_update fun hwv ↦ haborted hwv).bind fun _ ↦ alike_finish hL hcall _
    · exact alike_finish hL hcall _
  · exact alike_fail hL hcall failure
  · exact alike_raise failure

/-- Two boundaries go alike around alike actions. -/
theorem alike_guarded (halt announcing : Bool) {action action' : Session σ α}
    (h : Alike L action action') :
    Alike L (exit.guarded halt announcing action)
      ((exit.calling call).guarded halt announcing action') := by
  refine h.attempt.bind fun result ↦ ?_
  cases result with
  | error failure =>
    exact (alike_settle hL hcall haborted announcing failure).bind fun _ ↦ alike_pure none
  | ok a =>
    dsimp only
    split
    · exact (alike_finish hL hcall _).bind fun _ ↦ alike_pure none
    · exact alike_pure (some a)

end Exit

/-! ### The run -/

namespace Run

open Session

/-- What is left to do when a command line has been parsed. -/
def reading (version : String) (parsed : Argv.Ending × Argv.Progress) :
    Session σ (Plan × List String) := do
  takeOver parsed.2
  each (fun version ↦ Session.record (.versionShown version))
    (List.replicate parsed.1.versionReports version)
  match parsed.1.handBack with
  | .ok rest => pure (parsed.2.plan, rest)
  | .error failure => raise failure

theorem read_eq_reading (c : Collaborators σ) (arguments : List String) (w : World σ) :
    read c arguments w =
      reading c.version (Argv.parse (c.surroundings w.host) arguments {} w.path) w :=
  rfl

variable {exit : Exit σ} {call : Hook → Int → Hosted σ Unit} {L : World σ → World σ → Prop}
  {c c' : Collaborators σ} (hL : Link exit L)
include hL

theorem alike_reading (version : String) (parsed : Argv.Ending × Argv.Progress) :
    Alike L (reading version parsed) (reading version parsed) := by
  refine Alike.bind ?_ fun _ ↦ ?_
  · exact (alike_update fun hwv ↦ hL.setPath parsed.2.path hwv).bind fun _ ↦
      hL.alike_each_record (f := .noted) (fun _ ↦ rfl) parsed.2.notes
  · refine (hL.alike_each_record (f := .versionShown) (fun _ ↦ rfl) _).bind fun _ ↦ ?_
    split
    · exact alike_pure _
    · exact alike_raise _

/-- Two runs read alike if they see the same. -/
theorem alike_read (hsurroundings : ∀ s, c'.surroundings s = c.surroundings s)
    (hversion : c'.version = c.version) (arguments : List String) :
    Alike L (read c arguments) (read c' arguments) := by
  intro w v hwv
  rw [read_eq_reading, read_eq_reading, hsurroundings, hversion, hL.host hwv, hL.path hwv]
  exact alike_reading hL _ _ w v hwv

theorem alike_publish {rest : List String} (hpublish : (c.publish rest).Alike L (c'.publish rest)) :
    Alike L (publish c rest) (publish c' rest) :=
  (hL.alike_record rfl).bind fun _ ↦
    (alike_update fun hwv ↦ hL.setArguments rest hwv).bind fun _ ↦ alike_perform hpublish

omit hL in
theorem alike_execute
    (hshown : ∀ (line : String) {w v}, L w v → L (w.record (.errorShown line))
      (v.record (.errorShown line)))
    {plan : Plan} (hplan : (Dispatch.plan c plan).Alike L (Dispatch.plan c' plan)) :
    Alike L (execute c plan) (execute c' plan) := by
  refine (alike_perform hplan).bind fun errors ↦ ?_
  split
  · exact alike_pure plan
  · exact (alike_each (fun line ↦ alike_update fun hwv ↦ hshown line hwv) errors).bind fun _ ↦
      alike_raise _

/-- **Two runs go alike inside the binding of their queue** if they see the same and their hosted
programs go alike. -/
theorem alike_body (hsurroundings : ∀ s, c'.surroundings s = c.surroundings s)
    (hversion : c'.version = c.version)
    (hpublish : ∀ rest, (c.publish rest).Alike L (c'.publish rest))
    (hplan : ∀ plan, (Dispatch.plan c plan).Alike L (Dispatch.plan c' plan))
    (hcall : ∀ hook status, (exit.call hook status).Alike L (call hook status))
    (haborted : ∀ {w v}, L w v → L (w.record .aborted) (v.record .aborted))
    (hshown : ∀ (line : String) {w v}, L w v → L (w.record (.errorShown line))
      (v.record (.errorShown line)))
    (arguments : List String) :
    Alike L (body c exit arguments) (body c' (exit.calling call) arguments) := by
  refine (Exit.alike_guarded hL hcall haborted false true
    (alike_read hL hsurroundings hversion arguments)).bind fun read? ↦ ?_
  match read? with
  | none => exact alike_pure none
  | some (plan, rest) =>
    exact (alike_publish hL (hpublish rest)).bind fun _ ↦
      Exit.alike_guarded hL hcall haborted plan.halt true (alike_execute hshown (hplan plan))

end Run

/-! ### One session beside itself -/

/-- However the program is run in a session, it keeps to `R`. -/
def Hosted.KeepsTo (R : World σ → World σ → Prop) (p : Hosted σ α) : Prop :=
  ∀ w : World σ, R w (w.after (p w.hooks.bound.isSome w.host))

/-- However the step ends, it keeps to `R`. -/
def Session.Passes (R : World σ → World σ → Prop) (p : Session σ α) : Prop :=
  ∀ w result w', p w = some (result, w') → R w w'

theorem Session.Passes.bind {R : World σ → World σ → Prop} {p : Session σ α}
    {f : α → Session σ β} (hp : p.Passes R) (hf : ∀ a, (f a).Passes R)
    (htrans : ∀ {u v w}, R u v → R v w → R u w) : (p >>= f).Passes R := by
  intro w result w' h
  obtain ⟨failure, hfails, -⟩ | ⟨a, v, hreturns, hrest⟩ := bind_cases h
  · exact hp w _ w' hfails
  · exact htrans (hp w _ v hreturns) (hf a v result w' hrest)

/-- A relation between an earlier and a later world that is kept by what the launcher does by itself
while it runs with the queue of `exit`. -/
structure Course (exit : Exit σ) (R : World σ → World σ → Prop) : Prop where
  refl : ∀ w, R w w
  trans : ∀ {u v w}, R u v → R v w → R u w
  record : ∀ (w : World σ) {e : Event}, e.isPlain = true → R w (w.record e)
  emptied : ∀ w, R w (exit.emptied w)
  setPath : ∀ (w : World σ) (path : SearchPath), R w { w with path }
  setArguments : ∀ (w : World σ) (arguments : List String), R w { w with arguments }

/-- The two worlds are the same, and come from `u` in a way that keeps to `R`. -/
def World.Since (R : World σ → World σ → Prop) (u w v : World σ) : Prop := v = w ∧ R u w

theorem Linked.eq_of_since {R : World σ → World σ → Prop} {u : World σ}
    {x y : Option (Except Failure α × World σ)} (h : Linked (World.Since R u) x y) : y = x := by
  cases h with
  | never => rfl
  | ended result h =>
    obtain ⟨rfl, -⟩ := h
    rfl

namespace Course

variable {exit : Exit σ} {R : World σ → World σ → Prop} (hR : Course exit R)
include hR

/-- What both sides do alike keeps to `R`. -/
theorem since {f : World σ → World σ} (hf : ∀ w, R w (f w)) {u w v : World σ}
    (h : World.Since R u w v) : World.Since R u (f w) (f v) := by
  obtain ⟨rfl, h⟩ := h
  exact ⟨rfl, hR.trans h (hf _)⟩

theorem link (u : World σ) : Link exit (World.Since R u) where
  host h := congrArg World.host h.1
  path h := congrArg World.path h.1
  pending h := congrArg (fun w : World σ ↦ w.hooks.pending exit.queue) h.1
  record he _ _ h := hR.since (fun w ↦ hR.record w he) h
  emptied h := hR.since hR.emptied h
  setPath path _ _ h := hR.since (fun w ↦ hR.setPath w path) h
  setArguments arguments _ _ h := hR.since (fun w ↦ hR.setArguments w arguments) h

theorem alike_of_keepsTo {p : Hosted σ α} (h : p.KeepsTo R) (u : World σ) :
    p.Alike (World.Since R u) p := by
  rintro _ w ⟨rfl, hw⟩
  exact ⟨rfl, rfl, hR.trans hw (h w)⟩

theorem passes_iff {p : Session σ α} :
    p.Passes R ↔ ∀ u, Session.Alike (World.Since R u) p p := by
  constructor
  · rintro h u _ w ⟨rfl, hw⟩
    rcases hp : p w with - | ⟨result, w'⟩
    · exact .never
    · exact .ended result ⟨rfl, hR.trans hw (h w result w' hp)⟩
  · intro h w result w' hp
    have hends := h w w w ⟨rfl, hR.refl w⟩
    rw [hp] at hends
    cases hends with
    | ended _ h => exact h.2

theorem passes_pure (a : α) : (pure a : Session σ α).Passes R :=
  hR.passes_iff.2 fun _ ↦ Session.alike_pure a

theorem passes_raise (failure : Failure) : (Session.raise failure : Session σ α).Passes R :=
  hR.passes_iff.2 fun _ ↦ Session.alike_raise failure

theorem passes_attempt {p : Session σ α} (h : p.Passes R) : (Session.attempt p).Passes R :=
  hR.passes_iff.2 fun u ↦ (hR.passes_iff.1 h u).attempt

theorem passes_bind {p : Session σ α} {f : α → Session σ β} (hp : p.Passes R)
    (hf : ∀ a, (f a).Passes R) : (p >>= f).Passes R :=
  hp.bind hf hR.trans

end Course

namespace Session

variable {exit : Exit σ} {R : World σ → World σ → Prop}

theorem passes_of_apply {p : Session σ α} {result : World σ → Except Failure α}
    {f : World σ → World σ} (h : ∀ w, p w = some (result w, f w)) (hf : ∀ w, R w (f w)) :
    p.Passes R := by
  intro w result' w' hw
  rw [h] at hw
  cases hw
  exact hf w

theorem passes_perform {p : Hosted σ α} (h : p.KeepsTo R) : (perform p).Passes R :=
  passes_of_apply (fun w ↦ perform_apply p w) h

end Session

/-! A course that the hosted programs keep to is kept by the steps of a run. -/

section Passes

variable {c : Collaborators σ} {exit : Exit σ} {R : World σ → World σ → Prop}
  (hR : Course exit R)
include hR

theorem Exit.passes_halt (status : Int) : (exit.halt status).Passes R :=
  hR.passes_iff.2 fun u ↦ alike_halt exit.call (hR.link u) status

theorem Run.passes_read (arguments : List String) : (read c arguments).Passes R :=
  hR.passes_iff.2 fun u ↦ alike_read (hR.link u) (fun _ ↦ rfl) rfl arguments

theorem Run.passes_publish {rest : List String} (hpublish : (c.publish rest).KeepsTo R) :
    (publish c rest).Passes R :=
  hR.passes_iff.2 fun u ↦ alike_publish (hR.link u) (hR.alike_of_keepsTo hpublish u)

theorem Run.passes_execute (hshown : ∀ (w : World σ) line, R w (w.record (.errorShown line)))
    {plan : Plan} (hplan : (Dispatch.plan c plan).KeepsTo R) : (execute c plan).Passes R :=
  hR.passes_iff.2 fun u ↦ alike_execute (fun line _ _ h ↦ hR.since (fun w ↦ hshown w line) h)
    (hR.alike_of_keepsTo hplan u)

variable (hcall : ∀ hook status, (exit.call hook status).KeepsTo R)
include hcall

theorem Exit.passes_drainWithin (status : Int) (n : Nat) :
    (exit.drainWithin status n).Passes R :=
  hR.passes_iff.2 fun u ↦ alike_drainWithin (hR.link u)
    (fun hook status ↦ hR.alike_of_keepsTo (hcall hook status) u) status n

theorem Exit.passes_finish (status : Int) : (exit.finish status).Passes R :=
  hR.passes_iff.2 fun u ↦ alike_finish (hR.link u)
    (fun hook status ↦ hR.alike_of_keepsTo (hcall hook status) u) status

theorem Exit.passes_fail (failure : Failure) : (exit.fail failure).Passes R :=
  hR.passes_iff.2 fun u ↦ alike_fail (hR.link u)
    (fun hook status ↦ hR.alike_of_keepsTo (hcall hook status) u) failure

theorem Exit.passes_settle (haborted : ∀ w : World σ, R w (w.record .aborted)) (announcing : Bool)
    (failure : Failure) : (exit.settle announcing failure).Passes R :=
  hR.passes_iff.2 fun u ↦ alike_settle (hR.link u)
    (fun hook status ↦ hR.alike_of_keepsTo (hcall hook status) u) (hR.since haborted) announcing
    failure

/-- Inside the binding of its queue a run keeps to a course that its hosted programs keep to. -/
theorem Run.passes_body (hpublish : ∀ rest, (c.publish rest).KeepsTo R)
    (hplan : ∀ plan, (Dispatch.plan c plan).KeepsTo R)
    (haborted : ∀ w : World σ, R w (w.record .aborted))
    (hshown : ∀ (w : World σ) line, R w (w.record (.errorShown line))) (arguments : List String) :
    (body c exit arguments).Passes R :=
  hR.passes_iff.2 fun u ↦ alike_body (hR.link u) (fun _ ↦ rfl) rfl
    (fun rest ↦ hR.alike_of_keepsTo (hpublish rest) u)
    (fun plan ↦ hR.alike_of_keepsTo (hplan plan) u)
    (fun hook status ↦ hR.alike_of_keepsTo (hcall hook status) u) (hR.since haborted)
    (fun line _ _ h ↦ hR.since (fun w ↦ hshown w line) h) arguments

end Passes

end Launcher
