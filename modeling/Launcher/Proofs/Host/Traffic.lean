import Launcher.Proofs.Host.OneRun
import Mathlib.Logic.Relation

/-!
# Requiring files concurrently

What is one step for a program alone may be several where programs run side by side: to require a
file is to look whether it counts as required and to mark it, which is done under a lock, and then
to run it. Hosted code is a **routine** here, steps with requirements in between, and each
**thread** carries out one. Threads take their steps in any order, and new ones may begin at any
time (`Traffic.Step`).

However the steps interleave, a file is marked by the first thread that requires it, and that thread
runs it. So the files that are run and those that a thread is about to run are the files required,
each once (`Sound.account`); whether the run then returns or raises makes no difference.
-/

namespace Launcher.Host

variable {σ α β : Type}

/-! ### Routines -/

/-- Code that acts in steps and requires files in between. What follows a step depends on what it
has seen, and what follows a requirement on how it has ended. -/
inductive Routine (σ α : Type) : Type
  | done (result : Except Failure α)
  | step (act : Hosted σ Unit) (next : Bool → σ → Routine σ α)
  | require (path : String) (next : Except Failure Unit → Routine σ α)

namespace Routine

/-- One routine after another, which is told how the first has ended. -/
def andThen : Routine σ α → (Except Failure α → Routine σ β) → Routine σ β
  | done result, rest => rest result
  | step act next, rest => step act fun bound s ↦ (next bound s).andThen rest
  | require path next, rest => require path fun result ↦ (next result).andThen rest

/-- A hosted program as a single step. -/
def ofHosted (p : Hosted σ α) : Routine σ α :=
  step (fun bound s ↦ ⟨.ok (), (p bound s).state, (p bound s).effects⟩)
    fun bound s ↦ done (p bound s).result

/-- The hosted program that carries out a routine while nothing else runs. -/
def whole (server : CodeServer σ) : Routine σ α → Hosted σ α
  | done result => fun _ s ↦ ⟨result, s, []⟩
  | step act next => fun bound s ↦
    let later := (next bound s).whole server bound (act bound s).state
    ⟨later.result, later.state, (act bound s).effects ++ later.effects⟩
  | require path next =>
    (Hosted.attempt (server.requireFile path)).andThen fun result ↦ (next result).whole server

theorem whole_ofHosted (server : CodeServer σ) (p : Hosted σ α) :
    (ofHosted p).whole server = p := by
  funext bound s
  simp only [ofHosted, whole, List.append_nil]

/-- Every step runs no file by itself, and leaves the required files to the code server. -/
def Discreet (required : Slot σ (List String)) : Routine σ α → Prop
  | done _ => True
  | step act next => act.Discreet required ∧ ∀ bound s, (next bound s).Discreet required
  | require _ next => ∀ result, (next result).Discreet required

theorem discreet_require (required : Slot σ (List String)) (path : String) :
    (require path done : Routine σ Unit).Discreet required :=
  fun _ ↦ trivial

theorem Discreet.ofHosted {required : Slot σ (List String)} {p : Hosted σ α}
    (h : p.Discreet required) :
    (Routine.ofHosted p).Discreet required :=
  ⟨⟨h.keeps, h.runs⟩, fun _ _ ↦ trivial⟩

theorem Discreet.andThen {required : Slot σ (List String)} {routine : Routine σ α}
    {rest : Except Failure α → Routine σ β} (h : routine.Discreet required)
    (hrest : ∀ result, (rest result).Discreet required) :
    (routine.andThen rest).Discreet required := by
  induction routine with
  | done result => exact hrest result
  | step act next ih => exact ⟨h.1, fun bound s ↦ ih bound s (h.2 bound s)⟩
  | require path next ih => exact fun result ↦ ih result (h result)

end Routine

/-! ### Threads -/

/-- Where a thread stands. -/
inductive Thread (σ : Type) : Type
  | running (routine : Routine σ Unit)
  /-- The file at an absolute path has been marked, and is about to be run. -/
  | entering (path : String) (next : Except Failure Unit → Routine σ Unit)

namespace Thread

/-- A thread that is about to require a file. -/
def requiring (path : String) : Thread σ := running (.require path .done)

/-- The file that the thread is about to run. -/
def entering? : Thread σ → Option String
  | running _ => none
  | entering path _ => some path

/-- How the thread has ended. -/
def result? : Thread σ → Option (Except Failure Unit)
  | running (.done result) => some result
  | _ => none

/-- What the thread has still to do runs no file by itself. -/
def Discreet (required : Slot σ (List String)) : Thread σ → Prop
  | running routine => routine.Discreet required
  | entering _ next => ∀ result, (next result).Discreet required

/-- One step of a thread, with the files that it requires and what it makes of the session. `code`
is the code of the file at an absolute path. -/
inductive Move (server : CodeServer σ) (code : String → Routine σ Unit) (bound : Bool) :
    σ → Thread σ → List String → List Effect → σ → Thread σ → Prop
  /-- Take one step of the code. -/
  | act (s : σ) (act : Hosted σ Unit) (next : Bool → σ → Routine σ Unit) :
    Move server code bound s (running (.step act next)) [] (act bound s).effects
      (act bound s).state (running (next bound s))
  /-- The file counts as required, and is passed over. -/
  | pass {s : σ} {path : String} (next : Except Failure Unit → Routine σ Unit)
      (h : Path.absolute server.directory path ∈ server.required.get s) :
    Move server code bound s (running (.require path next))
      [Path.absolute server.directory path]
      [.event (.noted (.alreadyRequired (Path.absolute server.directory path)))] s
      (running (next (.ok ())))
  /-- The file is new, and is marked. -/
  | mark {s : σ} {path : String} (next : Except Failure Unit → Routine σ Unit)
      (h : Path.absolute server.directory path ∉ server.required.get s) :
    Move server code bound s (running (.require path next))
      [Path.absolute server.directory path] []
      (server.entered (Path.absolute server.directory path) s)
      (entering (Path.absolute server.directory path) next)
  /-- Begin to run the file that has been marked. -/
  | enter (s : σ) (path : String) (next : Except Failure Unit → Routine σ Unit) :
    Move server code bound s (entering path next) []
      [.event (.noted (.requiring path)), .event (.ran path)] s
      (running ((code path).andThen next))

variable {server : CodeServer σ} {code : String → Routine σ Unit} {bound : Bool} {s s' : σ}
  {thread thread' : Thread σ} {requests : List String} {effects : List Effect}

/-- No thread waits for another: one that has not ended can take a step. -/
theorem exists_move (thread : Thread σ) (hthread : thread.result? = none) (bound : Bool) (s : σ) :
    ∃ requests effects s' thread', Move server code bound s thread requests effects s' thread' := by
  match thread with
  | running (.done result) => cases hthread
  | running (.step act next) => exact ⟨_, _, _, _, .act s act next⟩
  | running (.require path next) =>
    by_cases h : Path.absolute server.directory path ∈ server.required.get s
    · exact ⟨_, _, _, _, .pass next h⟩
    · exact ⟨_, _, _, _, .mark next h⟩
  | entering path next => exact ⟨_, _, _, _, .enter s path next⟩

/-- A thread that has marked a file goes on with the code of the file. -/
theorem Move.of_entering {path : String} {next : Except Failure Unit → Routine σ Unit}
    (h : Move server code bound s (entering path next) requests effects s' thread') :
    requests = [] ∧ thread' = running ((code path).andThen next) := by
  cases h
  exact ⟨rfl, rfl⟩

theorem Move.discreet
    (hcode : ∀ path, thread.entering? = some path → (code path).Discreet server.required)
    (h : Move server code bound s thread requests effects s' thread')
    (hthread : thread.Discreet server.required) : thread'.Discreet server.required := by
  cases h with
  | act act next => exact hthread.2 bound s
  | pass next h => exact hthread _
  | mark next h => exact hthread
  | enter path next => exact (hcode path rfl).andThen hthread

/-- The files required in a step count as required afterwards, and no other does that did not. -/
theorem Move.mem_required (h : Move server code bound s thread requests effects s' thread')
    (hthread : thread.Discreet server.required) (path : String) :
    path ∈ server.required.get s' ↔ path ∈ server.required.get s ∨ path ∈ requests := by
  cases h with
  | act act next => rw [hthread.1.keeps, or_iff_left List.not_mem_nil]
  | pass next h =>
    rw [List.mem_singleton]
    exact ⟨.inl, fun hpath ↦ hpath.elim id fun heq ↦ heq ▸ h⟩
  | mark next h => rw [CodeServer.entered, Slot.update, Slot.get_set, List.mem_append]
  | enter path next => rw [or_iff_left List.not_mem_nil]

/-- Only a thread that has not ended takes a step. -/
theorem Move.result?_eq_none (h : Move server code bound s thread requests effects s' thread') :
    thread.result? = none := by
  cases h <;> rfl

/-- A step runs no file, or the file that the thread was about to run. -/
theorem Move.ranIn_eq (h : Move server code bound s thread requests effects s' thread')
    (hthread : thread.Discreet server.required) :
    ranIn effects = [] ∨ ∃ path, thread.entering? = some path ∧ ranIn effects = [path] := by
  cases h with
  | act act next => exact .inl (hthread.1.runs bound s)
  | pass next h => exact .inl rfl
  | mark next h => exact .inl rfl
  | enter path next => exact .inr ⟨path, rfl, rfl⟩

/-- **A step accounts for its file**: a file that is required for the first time is marked, and a
file that is run has been. -/
theorem Move.account (h : Move server code bound s thread requests effects s' thread')
    (hthread : thread.Discreet server.required) (path : String) :
    (ranIn effects).count path + thread'.entering?.toList.count path =
      thread.entering?.toList.count path +
        if path ∈ requests ∧ path ∉ server.required.get s then 1 else 0 := by
  cases h with
  | act act next =>
    rw [hthread.1.runs, if_neg fun h ↦ List.not_mem_nil h.1]
    rfl
  | pass next h =>
    rw [if_neg fun hpath ↦ hpath.2 (List.mem_singleton.1 hpath.1 ▸ h)]
    rfl
  | mark next h =>
    rename_i asked
    have hnew : path ∈ [Path.absolute server.directory asked] ∧ path ∉ server.required.get s ↔
        Path.absolute server.directory asked = path := by
      rw [List.mem_singleton]
      exact ⟨fun hpath ↦ hpath.1.symm, fun heq ↦ ⟨heq.symm, heq ▸ h⟩⟩
    simp only [hnew, entering?, Option.toList, ranIn_nil, List.count_nil, List.count_singleton,
      beq_iff_eq]
  | enter path next =>
    rw [if_neg fun h ↦ List.not_mem_nil h.1]
    rfl

end Thread

/-! ### Traffic -/

/-- Threads at work on a common state, with the files required so far, by their absolute paths, and
all that has been made of the session. -/
structure Traffic (σ : Type) where
  state : σ
  threads : List (Thread σ) := []
  requests : List String := []
  effects : List Effect := []

namespace Traffic

/-- One of the threads takes a step. -/
inductive Advance (server : CodeServer σ) (code : String → Routine σ Unit) :
    Traffic σ → Traffic σ → Prop
  | move {bound : Bool} {s s' : σ} {thread thread' : Thread σ} {requests : List String}
      {effects : List Effect} (front rear : List (Thread σ)) (requests₀ : List String)
      (effects₀ : List Effect) (h : thread.Move server code bound s requests effects s' thread') :
    Advance server code ⟨s, front ++ thread :: rear, requests₀, effects₀⟩
      ⟨s', front ++ thread' :: rear, requests₀ ++ requests, effects₀ ++ effects⟩

/-- The traffic with one more thread. -/
def spawn (t : Traffic σ) (routine : Routine σ Unit) : Traffic σ :=
  { t with threads := t.threads ++ [.running routine] }

/-- A new thread begins, or one of the threads takes a step. -/
inductive Step (server : CodeServer σ) (code : String → Routine σ Unit) :
    Traffic σ → Traffic σ → Prop
  | spawn (t : Traffic σ) {routine : Routine σ Unit} (h : routine.Discreet server.required) :
    Step server code t (t.spawn routine)
  | advance {t t' : Traffic σ} (h : t.Advance server code t') : Step server code t t'

/-- The files that threads are about to run. -/
def entering (t : Traffic σ) : List String := t.threads.filterMap Thread.entering?

/-- Traffic that set out when the files `before` counted as required. -/
structure Sound (server : CodeServer σ) (before : List String) (t : Traffic σ) : Prop where
  discreet : ∀ thread ∈ t.threads, thread.Discreet server.required
  mem_required : ∀ path, path ∈ server.required.get t.state ↔ path ∈ before ∨ path ∈ t.requests
  account : ∀ path, (ranIn t.effects).count path + t.entering.count path =
    if path ∈ t.requests ∧ path ∉ before then 1 else 0

variable {server : CodeServer σ} {code : String → Routine σ Unit} {before : List String}
  {s : σ} {t t' : Traffic σ}

theorem count_entering (front rear : List (Thread σ)) (thread : Thread σ) (path : String) :
    ((front ++ thread :: rear).filterMap Thread.entering?).count path =
      (front.filterMap Thread.entering?).count path + thread.entering?.toList.count path +
        (rear.filterMap Thread.entering?).count path := by
  rw [List.filterMap_append, List.filterMap_cons, List.count_append, Nat.add_assoc]
  cases thread.entering? with
  | none => rw [Option.toList, List.count_nil, Nat.zero_add]
  | some marked => exact congrArg _ (List.count_append : ([marked] ++ _).count path = _)

theorem sound_start (server : CodeServer σ) (s : σ) :
    Sound server (server.required.get s) { state := s } where
  discreet := nofun
  mem_required _ := (or_iff_left List.not_mem_nil).symm
  account _ := (if_neg fun h ↦ List.not_mem_nil h.1).symm

theorem Sound.spawn (h : Sound server before t) {routine : Routine σ Unit}
    (hroutine : routine.Discreet server.required) : Sound server before (t.spawn routine) where
  discreet thread hthread := by
    rcases List.mem_append.1 hthread with hold | hnew
    · exact h.discreet thread hold
    · rw [List.mem_singleton.1 hnew]
      exact hroutine
  mem_required := h.mem_required
  account path := by
    have hentering : (t.spawn routine).entering = t.entering :=
      List.filterMap_append.trans (List.append_nil _)
    rw [hentering]
    exact h.account path

theorem Sound.advance (hcode : ∀ path ∈ t.entering, (code path).Discreet server.required)
    (h : Sound server before t) (hadvance : t.Advance server code t') : Sound server before t' := by
  cases hadvance with
  | @move bound s s' thread thread' requests effects front rear requests₀ effects₀ hmove =>
    have hthread : thread.Discreet server.required := h.discreet thread (by simp)
    refine ⟨fun other hother ↦ ?_, fun path ↦ ?_, fun path ↦ ?_⟩
    · rcases List.mem_append.1 hother with hfront | hrest
      · exact h.discreet other (List.mem_append_left _ hfront)
      · rcases List.mem_cons.1 hrest with rfl | hrear
        · refine hmove.discreet (fun path hpath ↦ hcode path ?_) hthread
          exact List.mem_filterMap.2 ⟨thread, by simp, hpath⟩
        · exact h.discreet other (List.mem_append_right _ (List.mem_cons_of_mem _ hrear))
    · rw [hmove.mem_required hthread, h.mem_required, List.mem_append, or_assoc]
    · have hold := h.account path
      have hnew := hmove.account hthread path
      have hrequests : (if path ∈ requests₀ ++ requests ∧ path ∉ before then 1 else 0) =
          (if path ∈ requests₀ ∧ path ∉ before then 1 else 0) +
            if path ∈ requests ∧ path ∉ server.required.get s then 1 else 0 := by
        simp only [List.mem_append, h.mem_required]
        grind
      simp only [entering, count_entering, ranIn_append, List.count_append] at hold ⊢
      omega

theorem Sound.step (hcode : ∀ path, (code path).Discreet server.required)
    (h : Sound server before t) (hstep : Step server code t t') : Sound server before t' := by
  cases hstep with
  | spawn hroutine => exact h.spawn hroutine
  | advance hadvance => exact h.advance (fun path _ ↦ hcode path) hadvance

theorem Sound.run (hcode : ∀ path, (code path).Discreet server.required)
    (h : Sound server before t) (hrun : Relation.ReflTransGen (Step server code) t t') :
    Sound server before t' := by
  induction hrun with
  | refl => exact h
  | tail _ hstep ih => exact ih.step hcode hstep

/-- All threads have ended. -/
def Finished (t : Traffic σ) : Prop := ∀ thread ∈ t.threads, thread.result?.isSome

instance (t : Traffic σ) : Decidable t.Finished :=
  inferInstanceAs (Decidable (∀ thread ∈ t.threads, thread.result?.isSome))

theorem Finished.entering (h : t.Finished) : t.entering = [] := by
  refine List.filterMap_eq_nil_iff.2 fun thread hthread ↦ ?_
  have hended := h thread hthread
  match thread with
  | .running _ => rfl
  | .entering _ _ => cases hended

/-- **When all threads have ended**, every file that was required has been run once, unless it
counted as required before. -/
theorem Sound.count_of_finished (h : Sound server before t) (hfinished : t.Finished)
    (path : String) :
    (ranIn t.effects).count path = if path ∈ t.requests ∧ path ∉ before then 1 else 0 := by
  rw [← h.account, hfinished.entering, List.count_nil, Nat.add_zero]

theorem Sound.mem_ran (h : Sound server before t) (hfinished : t.Finished) (path : String) :
    path ∈ ranIn t.effects ↔ path ∈ t.requests ∧ path ∉ before := by
  rw [← List.count_pos_iff, h.count_of_finished hfinished]
  split_ifs with hnew
  · exact iff_of_true Nat.one_pos hnew
  · exact iff_of_false (Nat.lt_irrefl 0) hnew

theorem Sound.runOnce (h : Sound server before t) (hfinished : t.Finished) :
    RunOnce before (ranIn t.effects) (server.required.get t.state) := by
  refine ⟨fun path hpath ↦ ((h.mem_ran hfinished path).1 hpath).2,
    List.nodup_iff_count.2 fun path ↦ ?_, fun path ↦ ?_⟩
  · rw [h.count_of_finished hfinished]
    split_ifs <;> omega
  · rw [h.mem_required, h.mem_ran hfinished]
    tauto

end Traffic

end Launcher.Host
