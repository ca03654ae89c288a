import Launcher.Session

/-!
# The story of a session

What a session leaves behind that others can see. The **story** of a world is its trace without
bookkeeping, that is without diagnostic notes and without the record of hooks taken out of queues;
so it does not depend on the log level.

A hosted program adds to the story what it emits and the hooks it queues, and nothing else: it calls
no hook, reports no failure and halts nothing (`exists_of_mem_storyOf`). To the queues it only adds
hooks (`World.extends_after`), and the rest of the process it leaves alone (`World.keeps_after`).
-/

namespace Launcher

namespace Event

/-- Whether an event is bookkeeping. -/
def isQuiet : Event → Bool
  | .noted _ => true
  | .hosted (.noted _) => true
  | .taken _ _ => true
  | _ => false

/-- The hook and the status of a call. -/
def called? : Event → Option (Hook × Int)
  | .hookCalled hook status => some (hook, status)
  | _ => none

/-- The hook that was put into `queue`. -/
def queued? (queue : QueueId) : Event → Option Hook
  | .queued q hook _ => if q = queue then some hook else none
  | _ => none

/-- The failure that was reported. -/
def reported? : Event → Option Failure
  | .reported failure => some failure
  | _ => none

/-- The status that the process was halted with. -/
def halted? : Event → Option Int
  | .halted status => some status
  | _ => none

theorem isQuiet_of_note {event : Event} (h : event.note?.isSome = true) : event.isQuiet = true := by
  unfold note? at h
  split at h
  · rfl
  · rfl
  · cases h

end Event

/-! ### Effects of hosted programs -/

namespace Effect

/-- The hook that an effect puts into `queue` while `bound` is bound. -/
def hook? (queue : QueueId) (bound : Option QueueId) : Effect → Option Hook
  | .event _ => none
  | .enqueue target hook => if (target <|> bound) = some queue then some hook else none

/-- The event of an effect while `bound` is bound. A hook for the bound queue is lost if there is
none. -/
def event? (bound : Option QueueId) : Effect → Option Event
  | .event e => some (.hosted e)
  | .enqueue target hook => (target <|> bound).map fun queue ↦ .queued queue hook target.isSome

/-- What effects add to the story. -/
def storyOf (bound : Option QueueId) (effects : List Effect) : List Event :=
  (effects.filterMap (event? bound)).filter fun e ↦ !e.isQuiet

variable {bound : Option QueueId}

theorem storyOf_cons (effect : Effect) (effects : List Effect) :
    storyOf bound (effect :: effects) =
      (effect.event? bound).toList.filter (fun e ↦ !e.isQuiet) ++ storyOf bound effects := by
  rw [storyOf, storyOf, List.filterMap_cons, ← List.filter_append]
  cases effect.event? bound <;> rfl

/-- What effects add to the story comes from a program or is a hook queued. -/
theorem exists_of_mem_storyOf {effects : List Effect} {e : Event} (h : e ∈ storyOf bound effects) :
    (∃ hosted, e = .hosted hosted) ∨ ∃ queue hook named, e = .queued queue hook named := by
  obtain ⟨effect, -, he⟩ := List.mem_filterMap.1 (List.mem_filter.1 h).1
  cases effect with
  | event hosted => exact Or.inl ⟨hosted, (Option.some.inj he).symm⟩
  | enqueue target hook =>
    obtain ⟨queue, -, rfl⟩ := Option.map_eq_some_iff.1 he
    exact Or.inr ⟨queue, hook, target.isSome, rfl⟩

/-- A reading of the story that passes over programs and queued hooks finds nothing. -/
theorem filterMap_storyOf_eq_nil {α : Type} {f : Event → Option α}
    (hhosted : ∀ hosted, f (.hosted hosted) = none)
    (hqueued : ∀ queue hook named, f (.queued queue hook named) = none) (effects : List Effect) :
    (storyOf bound effects).filterMap f = [] := by
  refine List.filterMap_eq_nil_iff.2 fun e h ↦ ?_
  obtain ⟨hosted, rfl⟩ | ⟨queue, hook, named, rfl⟩ := exists_of_mem_storyOf h
  · exact hhosted hosted
  · exact hqueued queue hook named

/-- The story tells every hook that effects put into a queue. -/
theorem filterMap_queued?_storyOf (queue : QueueId) (effects : List Effect) :
    (storyOf bound effects).filterMap (Event.queued? queue) =
      effects.filterMap (hook? queue bound) := by
  induction effects with
  | nil => rfl
  | cons effect effects ih =>
    rw [storyOf_cons, List.filterMap_append, ih]
    cases effect with
    | event hosted =>
      show ([Event.hosted hosted].filter _).filterMap _ ++ effects.filterMap _ = _
      cases he : (Event.hosted hosted).isQuiet <;> simp only [List.filter, he] <;> rfl
    | enqueue target hook =>
      rcases ht : (target <|> bound) with - | q
      · simp [event?, hook?, ht]
      · by_cases hq : q = queue <;> simp [event?, hook?, ht, hq, Event.isQuiet, Event.queued?]

end Effect

/-! ### Worlds -/

namespace World

variable {σ α : Type}

/-- The events so far without bookkeeping. -/
def story (w : World σ) : List Event := w.trace.filter fun e ↦ !e.isQuiet

/-- `w'` comes from `w` by putting `queued q` into each queue `q` and telling `told`. -/
structure Extends (w : World σ) (queued : QueueId → List Hook) (told : List Event)
    (w' : World σ) : Prop where
  bound : w'.hooks.bound = w.hooks.bound
  shutdowns : w'.shutdowns = w.shutdowns
  pending : ∀ q, w'.hooks.pending q = w.hooks.pending q ++ queued q
  story : w'.story = w.story ++ told

theorem Extends.refl (w : World σ) : w.Extends (fun _ ↦ []) [] w where
  bound := rfl
  shutdowns := rfl
  pending _ := (List.append_nil _).symm
  story := (List.append_nil _).symm

theorem Extends.trans {u v w : World σ} {queued queued' : QueueId → List Hook}
    {told told' : List Event} (h : u.Extends queued told v) (h' : v.Extends queued' told' w) :
    u.Extends (fun q ↦ queued q ++ queued' q) (told ++ told') w where
  bound := h'.bound.trans h.bound
  shutdowns := h'.shutdowns.trans h.shutdowns
  pending q := by rw [h'.pending, h.pending, List.append_assoc]
  story := by rw [h'.story, h.story, List.append_assoc]

/-- What hosted programs cannot change. -/
structure Keeps (w w' : World σ) : Prop where
  path : w'.path = w.path
  arguments : w'.arguments = w.arguments
  level : w'.level = w.level

theorem Keeps.refl (w : World σ) : w.Keeps w := ⟨rfl, rfl, rfl⟩

theorem Keeps.trans {u v w : World σ} (h : u.Keeps v) (h' : v.Keeps w) : u.Keeps w where
  path := h'.path.trans h.path
  arguments := h'.arguments.trans h.arguments
  level := h'.level.trans h.level

/-! #### Recording an event -/

@[simp]
theorem host_record (w : World σ) (e : Event) : (w.record e).host = w.host := by
  unfold record
  split <;> rfl

@[simp]
theorem hooks_record (w : World σ) (e : Event) : (w.record e).hooks = w.hooks := by
  unfold record
  split <;> rfl

theorem keeps_record (w : World σ) (e : Event) : w.Keeps (w.record e) := by
  unfold record
  split <;> exact ⟨rfl, rfl, rfl⟩

theorem story_record (w : World σ) (e : Event) :
    (w.record e).story = w.story ++ [e].filter fun e ↦ !e.isQuiet := by
  rw [story, trace_record]
  split
  · next h =>
    have hquiet := Event.isQuiet_of_note ((Bool.and_eq_true _ _).mp h).1
    simp [story, hquiet]
  · rw [List.filter_append]
    rfl

theorem extends_record (w : World σ) (e : Event) :
    w.Extends (fun _ ↦ []) ([e].filter fun e ↦ !e.isQuiet) (w.record e) where
  bound := by rw [hooks_record]
  shutdowns := by
    unfold record
    split <;> rfl
  pending q := by rw [hooks_record, List.append_nil]
  story := story_record w e

/-- The world with more events. -/
def recordAll (w : World σ) (events : List Event) : World σ := events.foldl record w

theorem host_recordAll (w : World σ) (events : List Event) : (w.recordAll events).host = w.host := by
  induction events generalizing w with
  | nil => rfl
  | cons e events ih => exact (ih (w.record e)).trans (host_record w e)

theorem keeps_recordAll (w : World σ) (events : List Event) : w.Keeps (w.recordAll events) := by
  induction events generalizing w with
  | nil => exact Keeps.refl w
  | cons e events ih => exact (keeps_record w e).trans (ih (w.record e))

theorem extends_recordAll (w : World σ) (events : List Event) :
    w.Extends (fun _ ↦ []) (events.filter fun e ↦ !e.isQuiet) (w.recordAll events) := by
  induction events generalizing w with
  | nil => exact Extends.refl w
  | cons e events ih =>
    have h := (extends_record w e).trans (ih (w.record e))
    rwa [← List.filter_append] at h

/-! #### Effects of hosted programs -/

theorem keeps_push (w : World σ) (q : QueueId) (hook : Hook) (named : Bool) :
    w.Keeps (w.push q hook named) :=
  have h := keeps_record { w with hooks := w.hooks.push q hook } (.queued q hook named)
  ⟨h.path, h.arguments, h.level⟩

theorem extends_push (w : World σ) (queue : QueueId) (hook : Hook) (named : Bool) :
    w.Extends (fun q ↦ if queue = q then [hook] else []) [.queued queue hook named]
      (w.push queue hook named) := by
  have h := extends_record { w with hooks := w.hooks.push queue hook } (.queued queue hook named)
  refine ⟨h.bound, h.shutdowns, fun q ↦ ?_, h.story⟩
  rw [push, hooks_record]
  show (w.hooks.setPending queue _).pending q = _
  by_cases hq : queue = q
  · rw [hq, if_pos rfl, HookTable.pending_setPending_self]
  · rw [if_neg hq, List.append_nil, HookTable.pending_setPending_of_ne _ _ (Ne.symm hq)]

theorem apply_enqueue (w : World σ) (target : Option QueueId) (hook : Hook) :
    w.apply (.enqueue target hook) =
      match target <|> w.hooks.bound with
      | some queue => w.push queue hook target.isSome
      | none => w := by
  cases target with
  | some queue => rfl
  | none =>
    rcases h : w.hooks.bound with - | queue <;> simp only [apply, h] <;> rfl

theorem host_apply (w : World σ) (effect : Effect) : (w.apply effect).host = w.host := by
  cases effect with
  | event hosted => exact host_record w _
  | enqueue target hook =>
    rw [apply_enqueue]
    split
    · exact host_record _ _
    · rfl

theorem keeps_apply (w : World σ) (effect : Effect) : w.Keeps (w.apply effect) := by
  cases effect with
  | event hosted => exact keeps_record w _
  | enqueue target hook =>
    rw [apply_enqueue]
    split
    · exact keeps_push w _ hook _
    · exact Keeps.refl w

theorem extends_apply (w : World σ) (effect : Effect) :
    w.Extends (fun q ↦ (effect.hook? q w.hooks.bound).toList)
      ((effect.event? w.hooks.bound).toList.filter fun e ↦ !e.isQuiet) (w.apply effect) := by
  cases effect with
  | event hosted => exact extends_record w _
  | enqueue target hook =>
    rw [apply_enqueue]
    rcases ht : (target <|> w.hooks.bound) with - | queue
    · simpa [Effect.hook?, Effect.event?, ht] using Extends.refl w
    · have h := extends_push w queue hook target.isSome
      refine ⟨h.bound, h.shutdowns, fun q ↦ (h.pending q).trans ?_, h.story.trans ?_⟩
      · by_cases hq : queue = q <;> simp [Effect.hook?, ht, hq]
      · simp [Effect.event?, ht, Event.isQuiet]

theorem host_applyAll (w : World σ) (effects : List Effect) :
    (w.applyAll effects).host = w.host := by
  induction effects generalizing w with
  | nil => rfl
  | cons effect effects ih => exact (ih (w.apply effect)).trans (host_apply w effect)

theorem keeps_applyAll (w : World σ) (effects : List Effect) : w.Keeps (w.applyAll effects) := by
  induction effects generalizing w with
  | nil => exact Keeps.refl w
  | cons effect effects ih => exact (keeps_apply w effect).trans (ih (w.apply effect))

/-- **What hosted programs add**: their hooks to the queues and their events to the story. -/
theorem extends_applyAll (w : World σ) (effects : List Effect) :
    w.Extends (fun q ↦ effects.filterMap (Effect.hook? q w.hooks.bound))
      (Effect.storyOf w.hooks.bound effects) (w.applyAll effects) := by
  induction effects generalizing w with
  | nil => exact Extends.refl w
  | cons effect effects ih =>
    have h := extends_apply w effect
    have h' := h.trans (ih (w.apply effect))
    rw [h.bound, ← Effect.storyOf_cons] at h'
    refine ⟨h'.bound, h'.shutdowns, fun q ↦ (h'.pending q).trans ?_, h'.story⟩
    rw [List.filterMap_cons]
    cases effect.hook? q w.hooks.bound <;> rfl

/-- The world after a hosted program. -/
def after (w : World σ) (o : Outcome σ α) : World σ := { w with host := o.state }.applyAll o.effects

theorem host_after (w : World σ) (o : Outcome σ α) : (w.after o).host = o.state :=
  host_applyAll _ _

theorem keeps_after (w : World σ) (o : Outcome σ α) : w.Keeps (w.after o) :=
  have h := keeps_applyAll { w with host := o.state } o.effects
  ⟨h.path, h.arguments, h.level⟩

theorem extends_after (w : World σ) (o : Outcome σ α) :
    w.Extends (fun q ↦ o.effects.filterMap (Effect.hook? q w.hooks.bound))
      (Effect.storyOf w.hooks.bound o.effects) (w.after o) :=
  have h := extends_applyAll { w with host := o.state } o.effects
  ⟨h.bound, h.shutdowns, h.pending, h.story⟩

end World

namespace Session

variable {σ α β : Type}

/-! ### Steps -/

theorem perform_apply (p : Hosted σ α) (w : World σ) :
    perform p w = some ((p w.hooks.bound.isSome w.host).result,
      w.after (p w.hooks.bound.isSome w.host)) :=
  rfl

theorem each_record (events : List Event) (w : World σ) :
    each record events w = some (.ok (), w.recordAll events) := by
  induction events generalizing w with
  | nil => rfl
  | cons e events ih => exact ih (w.record e)

theorem each_record_map (f : β → Event) (l : List β) (w : World σ) :
    each (fun b ↦ record (f b)) l w = some (.ok (), w.recordAll (l.map f)) := by
  induction l generalizing w with
  | nil => rfl
  | cons b l ih => exact ih (w.record (f b))

theorem bind_congr {p q : Session σ α} {w v : World σ} (h : p w = q v) (f : α → Session σ β) :
    (p >>= f) w = (q >>= f) v := by
  show andThen p f w = andThen q f v
  rw [andThen, andThen, h]

theorem bind_of_ok {p : Session σ α} {f : α → Session σ β} {w v : World σ} {a : α}
    (h : p w = some (.ok a, v)) : (p >>= f) w = f a v := by
  show andThen p f w = _
  rw [andThen, h]

theorem bind_of_error {p : Session σ α} {f : α → Session σ β} {w v : World σ} {failure : Failure}
    (h : p w = some (.error failure, v)) : (p >>= f) w = some (.error failure, v) := by
  show andThen p f w = _
  rw [andThen, h]

theorem bind_of_none {p : Session σ α} {f : α → Session σ β} {w : World σ} (h : p w = none) :
    (p >>= f) w = none := by
  show andThen p f w = _
  rw [andThen, h]

/-- How one step after another comes to a result. -/
theorem bind_cases {p : Session σ α} {f : α → Session σ β} {w w' : World σ}
    {result : Except Failure β} (h : (p >>= f) w = some (result, w')) :
    (∃ failure, p w = some (.error failure, w') ∧ result = .error failure) ∨
      ∃ a v, p w = some (.ok a, v) ∧ f a v = some (result, w') := by
  rcases hp : p w with - | ⟨failure | a, v⟩
  · cases (bind_of_none hp).symm.trans h
  · cases (bind_of_error hp).symm.trans h
    exact .inl ⟨failure, rfl, rfl⟩
  · exact .inr ⟨a, v, rfl, (bind_of_ok hp).symm.trans h⟩

theorem attempt_of_some {p : Session σ α} {w v : World σ} {result : Except Failure α}
    (h : p w = some (result, v)) : attempt p w = some (.ok result, v) := by
  rw [attempt, h]
  rfl

end Session

end Launcher
