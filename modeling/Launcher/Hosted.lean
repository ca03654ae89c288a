import Launcher.Event

/-!
# Hosted programs

A hosted program runs on a state of its own. It returns a value or fails, and it may print, make
other events, and queue exit hooks. It sees of the session only whether some queue is bound to
receive the hooks. So it can be anything at all, and still neither the search path nor the binding
nor the end of the process are within its reach.
-/

namespace Launcher

/-- What a hosted program does to the session. -/
inductive Effect
  | event (event : HostedEvent)
  /-- Put a hook into a queue, the bound one if none is named. -/
  | enqueue (queue : Option QueueId) (hook : Hook)
  deriving DecidableEq, Repr

/-- What is left after a hosted program has run. -/
structure Outcome (σ α : Type) where
  result : Except Failure α
  state : σ
  effects : List Effect

/-- A program on states `σ` that may return a value in `α`. The first argument tells whether a
queue of exit hooks is bound. -/
def Hosted (σ α : Type) : Type := Bool → σ → Outcome σ α

namespace Hosted

variable {σ τ α β : Type}

/-- The program that returns `a` at once. -/
def ret (a : α) : Hosted σ α := fun _ s ↦ ⟨.ok a, s, []⟩

/-- One program after another. -/
def andThen (p : Hosted σ α) (f : α → Hosted σ β) : Hosted σ β := fun bound s ↦
  let first := p bound s
  match first.result with
  | .error failure => ⟨.error failure, first.state, first.effects⟩
  | .ok a =>
    let second := f a bound first.state
    ⟨second.result, second.state, first.effects ++ second.effects⟩

instance : Monad (Hosted σ) where
  pure := ret
  bind := andThen

/-- Fail. -/
def raise (failure : Failure) : Hosted σ α := fun _ s ↦ ⟨.error failure, s, []⟩

/-- Run a program and return how it ended. -/
def attempt (p : Hosted σ α) : Hosted σ (Except Failure α) := fun bound s ↦
  let outcome := p bound s
  ⟨.ok outcome.result, outcome.state, outcome.effects⟩

/-- The current state. -/
def get : Hosted σ σ := fun _ s ↦ ⟨.ok s, s, []⟩

/-- Change the state. -/
def modify (f : σ → σ) : Hosted σ Unit := fun _ s ↦ ⟨.ok (), f s, []⟩

/-- Make an event. -/
def emit (event : HostedEvent) : Hosted σ Unit := fun _ s ↦ ⟨.ok (), s, [.event event]⟩

/-- Print a line. -/
def print (line : String) : Hosted σ Unit := emit (.printed line)

/-- Make a diagnostic note. -/
def note (note : Note) : Hosted σ Unit := emit (.noted note)

/-- Put a hook into a queue by its number. -/
def enqueue (queue : QueueId) (hook : Hook) : Hosted σ Unit := fun _ s ↦
  ⟨.ok (), s, [.enqueue (some queue) hook]⟩

/-- The failure of queueing a hook while no run is going on. -/
def outsideRun : Failure :=
  { cause := .standard .runtimeError "at_exit() called outside a runtime-cli invocation" }

/-- Put a hook into the bound queue. -/
def atExit (hook : Hook) : Hosted σ Unit := fun bound s ↦
  if bound then ⟨.ok (), s, [.enqueue none hook]⟩ else ⟨.error outsideRun, s, []⟩

/-- Run a program for every member of a list. -/
def each (f : α → Hosted σ Unit) : List α → Hosted σ Unit
  | [] => ret ()
  | a :: as => andThen (f a) fun _ ↦ each f as

/-! ### Laws -/

@[simp] theorem pure_apply (a : α) (bound : Bool) (s : σ) :
    (pure a : Hosted σ α) bound s = ⟨.ok a, s, []⟩ := rfl

theorem bind_eq_andThen (p : Hosted σ α) (f : α → Hosted σ β) : (p >>= f) = p.andThen f := rfl

theorem andThen_apply_of_ok {p : Hosted σ α} {f : α → Hosted σ β} {bound : Bool} {s : σ} {a : α}
    (h : (p bound s).result = .ok a) :
    p.andThen f bound s =
      ⟨(f a bound (p bound s).state).result, (f a bound (p bound s).state).state,
        (p bound s).effects ++ (f a bound (p bound s).state).effects⟩ := by
  simp [andThen, h]

theorem andThen_apply_of_error {p : Hosted σ α} {f : α → Hosted σ β} {bound : Bool} {s : σ}
    {failure : Failure} (h : (p bound s).result = .error failure) :
    p.andThen f bound s = ⟨.error failure, (p bound s).state, (p bound s).effects⟩ := by
  simp [andThen, h]

theorem get_andThen_apply (f : σ → Hosted σ α) (bound : Bool) (s : σ) :
    get.andThen f bound s = f s bound s :=
  rfl

theorem attempt_andThen_apply (p : Hosted σ α) (f : Except Failure α → Hosted σ β) (bound : Bool)
    (s : σ) : (attempt p).andThen f bound s =
      ⟨(f (p bound s).result bound (p bound s).state).result,
        (f (p bound s).result bound (p bound s).state).state,
        (p bound s).effects ++ (f (p bound s).result bound (p bound s).state).effects⟩ :=
  rfl

/-- A program whose value is changed. -/
theorem andThen_pure_apply (p : Hosted σ α) (f : α → β) (bound : Bool) (s : σ) :
    p.andThen (fun a ↦ pure (f a)) bound s =
      ⟨(p bound s).result.map f, (p bound s).state, (p bound s).effects⟩ := by
  rcases h : (p bound s).result with failure | a
  · rw [andThen_apply_of_error h]
    rfl
  · rw [andThen_apply_of_ok h, pure_apply, List.append_nil]
    rfl

end Hosted

/-- A part of a larger state that can be read and replaced. -/
structure Slot (σ τ : Type) where
  get : σ → τ
  set : τ → σ → σ
  get_set : ∀ (t : τ) (s : σ), get (set t s) = t
  set_get : ∀ s : σ, set (get s) s = s
  set_set : ∀ (t u : τ) (s : σ), set t (set u s) = set t s

/-- Change a part of a state. -/
def Slot.update {σ τ : Type} (slot : Slot σ τ) (f : τ → τ) (s : σ) : σ := slot.set (f (slot.get s)) s

end Launcher
