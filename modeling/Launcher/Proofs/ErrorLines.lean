import Launcher.Console
import Launcher.Proofs.Story

/-!
# Error lines

Which error lines a session shows (`World.Shows`), and what that looks like on standard error: each
is printed as a line of its own, in the order in which they are shown, and whatever else is printed
there are whole lines, too (`Console.continues_of_shows`).

A step is **silent** if it shows no error line, however it ends. Steps that are made of silent ones
are silent, whatever hosted programs they run.
-/

namespace Launcher

variable {σ α β : Type}

/-- The error line that was shown. -/
def Event.errorShown? : Event → Option String
  | .errorShown line => some line
  | _ => none

/-! ### Error lines that a world has gained -/

namespace World

/-- `w'` comes from `w` by going on, and `lines` are the error lines shown on the way, in order. -/
def Shows (w : World σ) (lines : List String) (w' : World σ) : Prop :=
  ∃ told, w'.trace = w.trace ++ told ∧ told.filterMap Event.errorShown? = lines

theorem Shows.refl (w : World σ) : w.Shows [] w :=
  ⟨[], (List.append_nil _).symm, rfl⟩

theorem Shows.trans {u v w : World σ} {lines lines' : List String} (h : u.Shows lines v)
    (h' : v.Shows lines' w) : u.Shows (lines ++ lines') w := by
  obtain ⟨told, hv, rfl⟩ := h
  obtain ⟨told', hw, rfl⟩ := h'
  exact ⟨told ++ told', by rw [hw, hv, List.append_assoc], List.filterMap_append⟩

/-- What has been shown is determined. -/
theorem Shows.unique {w w' : World σ} {lines lines' : List String} (h : w.Shows lines w')
    (h' : w.Shows lines' w') : lines = lines' := by
  obtain ⟨told, htold, rfl⟩ := h
  obtain ⟨told', htold', rfl⟩ := h'
  rw [List.append_cancel_left (htold.symm.trans htold')]

theorem shows_of_log_eq {w v : World σ} (h : v.log = w.log) : w.Shows [] v :=
  ⟨[], by rw [trace, trace, h, List.append_nil], rfl⟩

theorem shows_record (w : World σ) (e : Event) : w.Shows e.errorShown?.toList (w.record e) := by
  rw [Shows, trace_record]
  split
  · next h =>
    -- a note shows nothing, recorded or not
    have hnote : e.errorShown? = none := by
      cases e with
      | errorShown line => simp [Event.note?] at h
      | _ => rfl
    exact ⟨[], (List.append_nil _).symm, by rw [hnote]; rfl⟩
  · refine ⟨[e], rfl, ?_⟩
    rw [List.filterMap_cons]
    cases e.errorShown? <;> rfl

theorem shows_apply (w : World σ) (effect : Effect) : w.Shows [] (w.apply effect) := by
  cases effect with
  | event hosted => exact w.shows_record (.hosted hosted)
  | enqueue target hook =>
    rw [apply_enqueue]
    split
    · exact (shows_of_log_eq rfl).trans (shows_record _ (.queued _ hook _))
    · exact Shows.refl w

theorem shows_applyAll (w : World σ) (effects : List Effect) : w.Shows [] (w.applyAll effects) := by
  induction effects generalizing w with
  | nil => exact Shows.refl w
  | cons effect effects ih => exact (w.shows_apply effect).trans (ih (w.apply effect))

/-- Hosted programs show no error line. -/
theorem shows_after (w : World σ) (o : Outcome σ α) : w.Shows [] (w.after o) :=
  (shows_of_log_eq rfl).trans (shows_applyAll { w with host := o.state } o.effects)

end World

/-! ### Error lines that a step shows -/

namespace Session

/-- However the step ends from `w`, the error lines it shows are `lines`. -/
def Shows (p : Session σ α) (w : World σ) (lines : List String) : Prop :=
  ∀ result w', p w = some (result, w') → w.Shows lines w'

/-- The step shows no error line. -/
def Silent (p : Session σ α) : Prop := ∀ w, p.Shows w []

theorem shows_of_eq_some {p : Session σ α} {w v : World σ} {result : Except Failure α}
    {lines : List String} (h : p w = some (result, v)) (hv : w.Shows lines v) :
    p.Shows w lines := by
  intro result' w' hw'
  rw [h] at hw'
  cases hw'
  exact hv

/-- A step that always ends, and then shows nothing. -/
theorem silent_of_apply {p : Session σ α} {result : World σ → Except Failure α}
    {f : World σ → World σ} (h : ∀ w, p w = some (result w, f w))
    (hf : ∀ w : World σ, w.Shows [] (f w)) : p.Silent :=
  fun w ↦ shows_of_eq_some (h w) (hf w)

theorem silent_pure (a : α) : (pure a : Session σ α).Silent :=
  silent_of_apply (fun _ ↦ rfl) World.Shows.refl

theorem silent_raise (failure : Failure) : (raise failure : Session σ α).Silent :=
  silent_of_apply (fun _ ↦ rfl) World.Shows.refl

theorem silent_update {f : World σ → World σ} (h : ∀ w : World σ, w.Shows [] (f w)) :
    (update f).Silent :=
  silent_of_apply (fun _ ↦ rfl) h

theorem silent_record {e : Event} (h : e.errorShown? = none) :
    (record e : Session σ Unit).Silent :=
  silent_update fun w ↦ by simpa [h] using w.shows_record e

theorem silent_bindQueue (queue : Option QueueId) :
    (bindQueue queue : Session σ (Option QueueId)).Silent :=
  silent_of_apply (fun _ ↦ rfl) fun _ ↦ World.shows_of_log_eq rfl

theorem silent_flush (queue : QueueId) : (flush queue : Session σ (List Hook)).Silent :=
  silent_of_apply (fun _ ↦ rfl) fun w ↦
    (World.shows_of_log_eq (w := w) rfl).trans
      (World.shows_record { w with hooks := w.hooks.clear queue } (.taken queue _))

/-- What comes before a silent step is all that is shown. -/
theorem Shows.bind_silent {p : Session σ α} {f : α → Session σ β} {w : World σ}
    {lines : List String} (hp : p.Shows w lines) (hf : ∀ a, (f a).Silent) :
    (p >>= f).Shows w lines := by
  intro result w' h
  rcases hw : p w with - | ⟨failure | a, v⟩
  · rw [bind_of_none hw] at h
    cases h
  · rw [bind_of_error hw] at h
    cases h
    exact hp _ _ hw
  · rw [bind_of_ok hw] at h
    simpa using (hp _ _ hw).trans (hf a v _ _ h)

theorem Silent.bind {p : Session σ α} {f : α → Session σ β} (hp : p.Silent)
    (hf : ∀ a, (f a).Silent) : (p >>= f).Silent :=
  fun w ↦ (hp w).bind_silent hf

/-- What comes behind a step that returns and shows nothing is all that is shown. -/
theorem shows_bind_of_ok {p : Session σ α} {f : α → Session σ β} {w v : World σ} {a : α}
    {lines : List String} (hp : p w = some (.ok a, v)) (hv : w.Shows [] v)
    (hf : (f a).Shows v lines) : (p >>= f).Shows w lines := by
  intro result w' h
  rw [bind_of_ok hp] at h
  exact hv.trans (hf _ _ h)

theorem Shows.attempt {p : Session σ α} {w : World σ} {lines : List String} (h : p.Shows w lines) :
    (attempt p).Shows w lines := by
  intro result w' hw'
  obtain ⟨⟨result', v⟩, hv, heq⟩ := Option.map_eq_some_iff.1 hw'
  cases heq
  exact h _ _ hv

/-- Recording an event for each member of a list. -/
theorem exists_each_record {f : β → Event} (l : List β) (w : World σ) :
    ∃ v, each (fun b ↦ record (f b)) l w = some (.ok (), v) ∧ v.host = w.host ∧
      v.hooks = w.hooks ∧ w.Shows (l.filterMap fun b ↦ (f b).errorShown?) v := by
  induction l generalizing w with
  | nil => exact ⟨w, rfl, rfl, rfl, World.Shows.refl w⟩
  | cons b l ih =>
    obtain ⟨v, hv, hhost, hhooks, hshows⟩ := ih (w.record (f b))
    refine ⟨v, hv, hhost.trans (w.host_record _), hhooks.trans (w.hooks_record _), ?_⟩
    have h := (w.shows_record (f b)).trans hshows
    rw [List.filterMap_cons]
    cases he : (f b).errorShown? <;> rwa [he] at h

end Session

/-! ### On standard error -/

namespace Console

/-- The text is empty or ends a line. -/
def Whole (text : String) : Prop := text = "" ∨ ∃ line, text = line ++ "\n"

/-- The text holds the lines in order, each as a line of its own. What stands before, between and
behind them are whole lines. -/
inductive Prints : List String → String → Prop
  | nil {text : String} : Whole text → Prints [] text
  | cons {before line after : String} {lines : List String} :
    Whole before → Prints lines after → Prints (line :: lines) (before ++ (line ++ "\n" ++ after))

/-- Standard error has gone on from `before` to `after` and holds the lines since. -/
def Continues (lines : List String) (before after : String) : Prop :=
  Whole before ∧ ∃ text, after = before ++ text ∧ Prints lines text

theorem Whole.append {a b : String} (ha : Whole a) (hb : Whole b) : Whole (a ++ b) := by
  rcases hb with rfl | ⟨line, rfl⟩
  · rwa [String.append_empty]
  · exact Or.inr ⟨a ++ line, String.append_assoc.symm⟩

theorem Prints.append_left {lines : List String} {a text : String} (ha : Whole a)
    (h : Prints lines text) : Prints lines (a ++ text) := by
  cases h with
  | nil htext => exact .nil (ha.append htext)
  | cons hbefore hafter =>
    rw [← String.append_assoc]
    exact .cons (ha.append hbefore) hafter

theorem whole_printText (console : Console) (text : String) : Whole (console.printText text) :=
  Or.inr ⟨text, rfl⟩

theorem whole_failureText (console : Console) (failure : Failure) :
    Whole (console.failureText failure) := by
  refine (whole_printText console _).append ?_
  split
  · split
    · exact Or.inl rfl
    · exact whole_printText console _
  · exact Or.inl rfl

/-- Every event prints whole lines on standard error. -/
theorem whole_errText (console : Console) (e : Event) : Whole (console.errText e) := by
  cases e with
  | hosted hosted =>
    cases hosted with
    | noted note => exact Or.inr ⟨_, rfl⟩
    | _ => exact Or.inl rfl
  | noted note => exact Or.inr ⟨_, rfl⟩
  | aborted =>
    obtain ⟨rich⟩ := console
    cases rich with
    | false => exact Or.inr ⟨_, rfl⟩
    | true => exact Or.inr ⟨"\nAborted by user.", by decide +kernel⟩
  | reported failure => exact whole_failureText console failure
  | errorShown line => exact whole_printText console line
  | _ => exact Or.inl rfl

theorem stderr_cons (console : Console) (e : Event) (events : List Event) :
    console.stderr (e :: events) = console.errText e ++ console.stderr events :=
  String.join_cons

theorem stderr_append (console : Console) (events events' : List Event) :
    console.stderr (events ++ events') = console.stderr events ++ console.stderr events' := by
  induction events with
  | nil => exact (String.empty_append).symm
  | cons e events ih => rw [List.cons_append, stderr_cons, stderr_cons, ih, String.append_assoc]

theorem whole_stderr (console : Console) (events : List Event) : Whole (console.stderr events) := by
  induction events with
  | nil => exact Or.inl rfl
  | cons e events ih =>
    rw [stderr_cons]
    exact (whole_errText console e).append ih

theorem prints_stderr (console : Console) (events : List Event) :
    Prints (events.filterMap Event.errorShown?) (console.stderr events) := by
  induction events with
  | nil => exact .nil (Or.inl rfl)
  | cons e events ih =>
    rw [stderr_cons, List.filterMap_cons]
    cases e with
    | errorShown line =>
      have h : Prints (line :: events.filterMap Event.errorShown?)
          ("" ++ (line ++ "\n" ++ console.stderr events)) := .cons (Or.inl rfl) ih
      rwa [String.empty_append] at h
    | _ => exact ih.append_left (whole_errText console _)

/-- **Error lines that a session shows are printed**, each as a line of its own. -/
theorem continues_of_shows (console : Console) {w w' : World σ} {lines : List String}
    (h : w.Shows lines w') :
    Continues lines (console.stderr w.trace) (console.stderr w'.trace) := by
  obtain ⟨told, htold, rfl⟩ := h
  refine ⟨whole_stderr console w.trace, console.stderr told, ?_, prints_stderr console told⟩
  rw [htold, stderr_append]

end Console

end Launcher
