import Launcher.Proofs.Dispatch.Calls

/-!
# Commands in turn

A plan executes its commands one after another, and an error line never stops it. What is executed
is all commands or, if a call of one of them raises a failure, those up to and with that one; each
is executed once, from the state that the one before has left (`InTurn`). So a plan can be cut
anywhere: running two lists of commands as one comes to running the one and then the other
(`plan_keeps_order`).
-/

namespace Launcher.Dispatch

variable {σ : Type} {c : Collaborators σ} {plan : Plan} {bound : Bool}

/-- Commands have been executed from the state `s` to the state `s'`, each from the state that the
one before has left, and each with the answer of its calls. -/
inductive InTurn (c : Collaborators σ) (plan : Plan) (bound : Bool) :
    σ → List (Execution σ) → σ → Prop
  | nil (s : σ) : InTurn c plan bound s [] s
  | cons {s s' : σ} {command : Command} {rest : List (Execution σ)} :
    InTurn c plan bound (answer c plan bound command s).state rest s' →
      InTurn c plan bound s (⟨command, answer c plan bound command s⟩ :: rest) s'

/-- All of `list` has been executed, and no call has raised a failure. -/
structure Completes (list : List Command) (executions : List (Execution σ)) : Prop where
  commands : executions.map Execution.command = list
  returns : ∀ execution ∈ executions, execution.failure? = none

/-- A call of a command has raised `failure`, or the command is a value that is none. -/
def Raised (c : Collaborators σ) (plan : Plan) (bound : Bool) (command : Command) (s : σ)
    (failure : Failure) : Prop :=
  (calls c plan bound command s).findSome? Call.raised? = some failure ∨
    ∃ value, command = .unknown value ∧ failure = notACommand value

/-- Some commands of `list` have been executed without a failure, and then one that has raised
`failure`. -/
def Stops (c : Collaborators σ) (plan : Plan) (bound : Bool) (s : σ) (list : List Command)
    (executions : List (Execution σ)) (failure : Failure) : Prop :=
  ∃ front command later done before,
    list = front ++ command :: later ∧
    executions = done ++ [⟨command, answer c plan bound command before⟩] ∧
    Completes front done ∧ InTurn c plan bound s done before ∧
    Raised c plan bound command before failure

theorem verdict_eq_error_iff {command : Command} {s : σ} {failure : Failure} :
    verdict c plan bound command s = .error failure ↔ Raised c plan bound command s failure := by
  have hending : ending (objection? c plan bound command s) (calls c plan bound command s) =
      .error failure ↔ (calls c plan bound command s).findSome? Call.raised? = some failure := by
    rw [ending]
    rcases (calls c plan bound command s).findSome? Call.raised? with - | other
    · constructor <;> intro h <;> cases h
    · exact ⟨fun h ↦ congrArg some (Except.error.inj h), fun h ↦ congrArg _ (Option.some.inj h)⟩
  have hknown : (∀ value, command ≠ .unknown value) →
      ((calls c plan bound command s).findSome? Call.raised? = some failure ↔
        Raised c plan bound command s failure) := by
    refine fun hne ↦ ⟨.inl, ?_⟩
    rintro (h | ⟨value, hvalue, -⟩)
    · exact h
    · exact absurd hvalue (hne value)
  cases command with
  | unknown value =>
    refine ⟨fun h ↦ .inr ⟨value, rfl, (Except.error.inj h).symm⟩, fun h ↦ ?_⟩
    rcases h with h | ⟨_, heq, rfl⟩
    · cases h
    · cases heq
      rfl
  | _ => exact hending.trans (hknown fun _ h ↦ Command.noConfusion h)

/-! ### What is executed -/

theorem InTurn.executed (list : List Command) (s : σ) :
    InTurn c plan bound s (executed c plan bound list s)
      (commands c plan list bound s).state := by
  induction list generalizing s with
  | nil => exact .nil s
  | cons first rest ih =>
    have hfirst := command_eq_answer c plan bound first s
    rcases h : (command c plan first bound s).result with failure | line?
    · rw [commands_eq_summary, executed_cons_of_error h, hfirst]
      exact .cons (.nil _)
    · have hrest := ih (command c plan first bound s).state
      rw [commands_cons_of_ok h, executed_cons_of_ok h]
      rw [hfirst] at hrest ⊢
      exact .cons hrest

theorem Completes.nil : Completes [] ([] : List (Execution σ)) where
  commands := rfl
  returns := List.forall_mem_nil _

/-- One command more in front of those that have all been executed. -/
theorem Completes.cons {first : Command} {o : Outcome σ (Option String)} {line? : Option String}
    (h : o.result = .ok line?) {list : List Command} {executions : List (Execution σ)}
    (hrest : Completes list executions) : Completes (first :: list) (⟨first, o⟩ :: executions) where
  commands := congrArg (first :: ·) hrest.commands
  returns execution hmem := by
    rcases List.mem_cons.1 hmem with rfl | hmem
    · rw [Execution.failure?, h]
    · exact hrest.returns execution hmem

/-- **All commands are executed, or those up to the first that raises a failure.** -/
theorem completes_or_stops (list : List Command) (s : σ) :
    (Completes list (executed c plan bound list s) ∧
      conclusion (executed c plan bound list s) =
        .ok ((executed c plan bound list s).filterMap Execution.line?)) ∨
    ∃ failure, Stops c plan bound s list (executed c plan bound list s) failure ∧
      conclusion (executed c plan bound list s) = .error failure := by
  induction list generalizing s with
  | nil => exact .inl ⟨.nil, rfl⟩
  | cons first rest ih =>
    have hfirst := command_eq_answer c plan bound first s
    rcases h : (command c plan first bound s).result with failure | line?
    · refine .inr ⟨failure, ⟨[], first, rest, [], s, rfl, ?_, .nil, .nil s, ?_⟩, ?_⟩
      · rw [executed_cons_of_error h, hfirst]
        rfl
      · rw [← verdict_eq_error_iff, ← h, hfirst]
        rfl
      · rw [executed_cons_of_error h]
        exact conclusion_cons_of_error h []
    · rw [executed_cons_of_ok h, conclusion_cons_of_ok h]
      rcases ih (command c plan first bound s).state with ⟨hcompletes, hlines⟩ |
        ⟨failure, ⟨front, last, later, done, before, rfl, hdone, hfront, hturn, hraised⟩, herror⟩
      · refine .inl ⟨.cons h hcompletes, ?_⟩
        have hline : Execution.line? ⟨first, command c plan first bound s⟩ = line? := by
          rw [Execution.line?, h]
        rw [hlines, List.filterMap_cons, hline]
        cases line? <;> rfl
      · refine .inr ⟨failure, ⟨first :: front, last, later, ⟨first, _⟩ :: done, before, rfl, ?_,
          .cons h hfront, ?_, hraised⟩, ?_⟩
        · rw [hdone]
          rfl
        · rw [hfirst] at hturn ⊢
          exact .cons hturn
        · rw [herror]
          rfl

/-! ### Cutting a plan -/

/-- What a command does does not depend on the other commands, nor on the errors of reading. -/
theorem commands_congr (c : Collaborators σ) (plan : Plan) (all : List Command)
    (errors : List String) (list : List Command) :
    commands c { plan with commands := all, errors := errors } list = commands c plan list := by
  induction list with
  | nil => rfl
  | cons first rest ih =>
    have hfirst : command c { plan with commands := all, errors := errors } first =
        command c plan first := by cases first <;> rfl
    rw [commands, commands, hfirst, ih]

/-- What is left when commands that end with `later` follow on those that end with `first`, unless
these have failed. -/
def follow (first later : Outcome σ (List String)) : Outcome σ (List String) :=
  match first.result with
  | .ok lines => ⟨later.result.map (lines ++ ·), later.state, first.effects ++ later.effects⟩
  | .error _ => first

theorem follow_of_ok {first : Outcome σ (List String)} {lines : List String}
    (h : first.result = .ok lines) (later : Outcome σ (List String)) :
    follow first later =
      ⟨later.result.map (lines ++ ·), later.state, first.effects ++ later.effects⟩ := by
  rw [follow, h]

theorem follow_of_error {first : Outcome σ (List String)} {failure : Failure}
    (h : first.result = .error failure) (later : Outcome σ (List String)) :
    follow first later = first := by
  rw [follow, h]

theorem map_append_map (lines lines' : List String) (result : Except Failure (List String)) :
    (result.map (lines' ++ ·)).map (lines ++ ·) = result.map ((lines ++ lines') ++ ·) := by
  cases result with
  | error failure => rfl
  | ok more => exact congrArg Except.ok (List.append_assoc lines lines' more).symm

/-- **Running two lists of commands as one is running the one and then the other.** -/
theorem commands_append (front later : List Command) (s : σ) :
    commands c plan (front ++ later) bound s = follow (commands c plan front bound s)
      (commands c plan later bound (commands c plan front bound s).state) := by
  induction front generalizing s with
  | nil =>
    have hnil : commands c plan [] bound s = ⟨.ok [], s, []⟩ := rfl
    rw [hnil, follow_of_ok rfl, List.nil_append]
    rcases h : commands c plan later bound s with ⟨failure | lines, state, effects⟩ <;> rfl
  | cons first rest ih =>
    rcases h : (command c plan first bound s).result with failure | line?
    · have herror := commands_cons_of_error h rest
      rw [follow_of_error herror, commands_eq_summary, commands_eq_summary, List.cons_append,
        executed_cons_of_error h, executed_cons_of_error h]
    · rw [List.cons_append, commands_cons_of_ok h, ih, commands_cons_of_ok h]
      rcases hrest : (commands c plan rest bound (command c plan first bound s).state).result with
        failure | lines
      · rw [follow_of_error hrest, follow_of_error (by rfl), hrest]
      · rw [follow_of_ok hrest, follow_of_ok (by rfl), map_append_map, List.append_assoc]

theorem plan_apply (c : Collaborators σ) (plan : Plan) (bound : Bool) (s : σ) :
    Dispatch.plan c plan bound s =
      ⟨(commands c plan plan.commands bound s).result.map (plan.errors ++ ·),
        (commands c plan plan.commands bound s).state,
        (commands c plan plan.commands bound s).effects⟩ :=
  Hosted.andThen_pure_apply _ _ bound s

/-- **Dispatch keeps the order and never stops early.** A plan executes its commands in turn, and
has their effects and no others. If no call raises a failure, all commands have been executed, and
the plan returns the errors of reading and then the error lines of the commands in order. Otherwise
it raises the first failure that a call raises, and the commands up to and with the one that made
the call have been executed. And a plan can be cut: if the first part returns, then the second runs
from the state that it has left, and effects and error lines are put together; if it fails, then
that is all. The calls may do whatever they like; the questions about files that choose between them
are answered from the state, as everywhere (`FileSystem`). -/
theorem plan_keeps_order (c : Collaborators σ) (plan : Plan) (bound : Bool) (s : σ) :
    (∃ executions,
      InTurn c plan bound s executions (Dispatch.plan c plan bound s).state ∧
      (Dispatch.plan c plan bound s).effects = executions.flatMap Execution.effects ∧
      ((Completes plan.commands executions ∧ (Dispatch.plan c plan bound s).result =
          .ok (plan.errors ++ executions.filterMap Execution.line?)) ∨
        ∃ failure, Stops c plan bound s plan.commands executions failure ∧
          (Dispatch.plan c plan bound s).result = .error failure)) ∧
    ∀ front later : List Command,
      Dispatch.plan c { plan with commands := front ++ later } bound s =
        follow (Dispatch.plan c { plan with commands := front } bound s)
          (Dispatch.plan c { plan with commands := later, errors := [] } bound
            (Dispatch.plan c { plan with commands := front } bound s).state) := by
  refine ⟨⟨executed c plan bound plan.commands s, ?_, plan_effects c plan bound s, ?_⟩,
    fun front later ↦ ?_⟩
  · rw [plan_apply]
    exact .executed plan.commands s
  · rw [plan_result]
    rcases completes_or_stops plan.commands s with ⟨hcompletes, hlines⟩ | ⟨failure, hstops, herror⟩
    · exact .inl ⟨hcompletes, by rw [hlines]; rfl⟩
    · exact .inr ⟨failure, hstops, by rw [herror]; rfl⟩
  · simp only [plan_apply, commands_congr c plan]
    rw [commands_append]
    rcases h : (commands c plan front bound s).result with failure | lines
    · rw [follow_of_error h, follow_of_error (by rfl), h]
    · rw [follow_of_ok h, follow_of_ok (by rfl)]
      dsimp only
      rw [map_append_map, map_append_map, List.append_nil]

end Launcher.Dispatch
