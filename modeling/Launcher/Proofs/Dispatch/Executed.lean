import Launcher.Dispatch

/-!
# The commands that a plan executes

A plan executes its commands in order, each from the state that the one before has left, up to the
first that fails (`Dispatch.executed`). Running the commands comes to what these executions say
(`commands_eq_summary`): it ends with the failure of the one that failed, or else with the error
lines of all of them, in order; it leaves the state that the last one has left; and it has their
effects and no others.
-/

namespace Launcher.Dispatch

variable {σ : Type}

/-- A command that has been executed, and what was left after it. -/
structure Execution (σ : Type) where
  command : Command
  outcome : Outcome σ (Option String)

namespace Execution

/-- The error line of a command that returned with one. -/
def line? (execution : Execution σ) : Option String :=
  match execution.outcome.result with
  | .ok line? => line?
  | .error _ => none

/-- The failure of a command that did not return. -/
def failure? (execution : Execution σ) : Option Failure :=
  match execution.outcome.result with
  | .ok _ => none
  | .error failure => some failure

/-- The effects of a command, behind the note that it is run. -/
def effects (execution : Execution σ) : List Effect :=
  .event (.noted (.runningCommand execution.command)) :: execution.outcome.effects

end Execution

/-- The commands that are executed from the state `s` on: all of them, or those up to the first that
fails. -/
def executed (c : Collaborators σ) (plan : Plan) (bound : Bool) :
    List Command → σ → List (Execution σ)
  | [], _ => []
  | first :: rest, s =>
    let outcome := command c plan first bound s
    ⟨first, outcome⟩ ::
      match outcome.result with
      | .ok _ => executed c plan bound rest outcome.state
      | .error _ => []

/-- How executions end: with the first failure, or else with all error lines. -/
def conclusion (executions : List (Execution σ)) : Except Failure (List String) :=
  match executions.findSome? Execution.failure? with
  | some failure => .error failure
  | none => .ok (executions.filterMap Execution.line?)

/-- What executions from the state `s` on come to. -/
def summary (s : σ) (executions : List (Execution σ)) : Outcome σ (List String) where
  result := conclusion executions
  state := executions.foldl (fun _ execution ↦ execution.outcome.state) s
  effects := executions.flatMap Execution.effects

theorem conclusion_cons_of_ok {execution : Execution σ} {line? : Option String}
    (h : execution.outcome.result = .ok line?) (executions : List (Execution σ)) :
    conclusion (execution :: executions) =
      (conclusion executions).map fun lines ↦ line?.toList ++ lines := by
  have hfailure : execution.failure? = none := by rw [Execution.failure?, h]
  have hline : execution.line? = line? := by rw [Execution.line?, h]
  rw [conclusion, conclusion, List.findSome?_cons, hfailure, List.filterMap_cons, hline]
  cases executions.findSome? Execution.failure? <;> cases line? <;> rfl

theorem conclusion_cons_of_error {execution : Execution σ} {failure : Failure}
    (h : execution.outcome.result = .error failure) (executions : List (Execution σ)) :
    conclusion (execution :: executions) = .error failure := by
  have hfailure : execution.failure? = some failure := by rw [Execution.failure?, h]
  rw [conclusion, List.findSome?_cons, hfailure]

theorem summary_cons_of_ok {execution : Execution σ} {line? : Option String}
    (h : execution.outcome.result = .ok line?) (s : σ) (executions : List (Execution σ)) :
    summary s (execution :: executions) =
      ⟨(summary execution.outcome.state executions).result.map fun lines ↦ line?.toList ++ lines,
        (summary execution.outcome.state executions).state,
        execution.effects ++ (summary execution.outcome.state executions).effects⟩ := by
  rw [summary, conclusion_cons_of_ok h, List.flatMap_cons]
  rfl

theorem summary_singleton_of_error {execution : Execution σ} {failure : Failure}
    (h : execution.outcome.result = .error failure) (s : σ) :
    summary s [execution] = ⟨.error failure, execution.outcome.state, execution.effects⟩ := by
  rw [summary, conclusion_cons_of_error h, List.flatMap_singleton]
  rfl

section Running

variable {c : Collaborators σ} {plan : Plan} {bound : Bool}

theorem executed_cons_of_ok {first : Command} {s : σ} {line? : Option String}
    (h : (command c plan first bound s).result = .ok line?) (rest : List Command) :
    executed c plan bound (first :: rest) s =
      ⟨first, command c plan first bound s⟩ ::
        executed c plan bound rest (command c plan first bound s).state := by
  simp only [executed, h]

theorem executed_cons_of_error {first : Command} {s : σ} {failure : Failure}
    (h : (command c plan first bound s).result = .error failure) (rest : List Command) :
    executed c plan bound (first :: rest) s = [⟨first, command c plan first bound s⟩] := by
  simp only [executed, h]

/-- **Running commands comes to what the executed ones say.** -/
theorem commands_eq_summary (c : Collaborators σ) (plan : Plan) (bound : Bool)
    (list : List Command) (s : σ) :
    commands c plan list bound s = summary s (executed c plan bound list s) := by
  induction list generalizing s with
  | nil => rfl
  | cons first rest ih =>
    let behind (line? : Option String) : Hosted σ (List String) :=
      (commands c plan rest).andThen fun lines ↦ pure (line?.toList ++ lines)
    -- a note, then the command, then the rest
    have hrun : commands c plan (first :: rest) bound s =
        ⟨((command c plan first).andThen behind bound s).result,
          ((command c plan first).andThen behind bound s).state,
          .event (.noted (.runningCommand first)) ::
            ((command c plan first).andThen behind bound s).effects⟩ := rfl
    rw [hrun]
    rcases h : (command c plan first bound s).result with failure | line?
    · have hsummary : summary s [⟨first, command c plan first bound s⟩] = _ :=
        summary_singleton_of_error h s
      rw [Hosted.andThen_apply_of_error h, executed_cons_of_error h, hsummary]
      rfl
    · have hsummary (executions : List (Execution σ)) :
          summary s (⟨first, command c plan first bound s⟩ :: executions) = _ :=
        summary_cons_of_ok h s executions
      have hbehind : behind line? bound (command c plan first bound s).state = _ :=
        Hosted.andThen_pure_apply _ _ _ _
      rw [Hosted.andThen_apply_of_ok h, executed_cons_of_ok h, hsummary, hbehind, ih]
      rfl

theorem commands_cons_of_ok {first : Command} {s : σ} {line? : Option String}
    (h : (command c plan first bound s).result = .ok line?) (rest : List Command) :
    commands c plan (first :: rest) bound s =
      ⟨(commands c plan rest bound (command c plan first bound s).state).result.map fun lines ↦
          line?.toList ++ lines,
        (commands c plan rest bound (command c plan first bound s).state).state,
        Execution.effects ⟨first, command c plan first bound s⟩ ++
          (commands c plan rest bound (command c plan first bound s).state).effects⟩ := by
  rw [commands_eq_summary, executed_cons_of_ok h, commands_eq_summary]
  exact summary_cons_of_ok h s _

theorem commands_cons_of_error {first : Command} {s : σ} {failure : Failure}
    (h : (command c plan first bound s).result = .error failure) (rest : List Command) :
    (commands c plan (first :: rest) bound s).result = .error failure := by
  rw [commands_eq_summary, executed_cons_of_error h]
  exact conclusion_cons_of_error h []

/-- If commands return, none of those executed has failed. -/
theorem findSome?_failure?_of_ok {list : List Command} {s : σ} {lines : List String}
    (h : (commands c plan list bound s).result = .ok lines) :
    (executed c plan bound list s).findSome? Execution.failure? = none := by
  rw [commands_eq_summary] at h
  rcases hfind : (executed c plan bound list s).findSome? Execution.failure? with - | failure
  · rfl
  · simp [summary, conclusion, hfind] at h

/-- Behind commands that return the others are executed. -/
theorem executed_append {front : List Command} {s : σ} {lines : List String}
    (h : (commands c plan front bound s).result = .ok lines) (later : List Command) :
    executed c plan bound (front ++ later) s = executed c plan bound front s ++
      executed c plan bound later (commands c plan front bound s).state := by
  induction front generalizing s lines with
  | nil => rfl
  | cons first rest ih =>
    rcases hfirst : (command c plan first bound s).result with failure | line?
    · rw [commands_cons_of_error hfirst] at h
      cases h
    · rw [commands_cons_of_ok hfirst] at h ⊢
      rcases hrest : (commands c plan rest bound (command c plan first bound s).state).result
        with failure | lines'
      · rw [hrest] at h
        cases h
      · rw [List.cons_append, executed_cons_of_ok hfirst, executed_cons_of_ok hfirst, ih hrest]
        rfl

/-- Running a plan puts the errors of reading in front. -/
theorem plan_result (c : Collaborators σ) (plan : Plan) (bound : Bool) (s : σ) :
    (Dispatch.plan c plan bound s).result =
      (conclusion (executed c plan bound plan.commands s)).map fun lines ↦ plan.errors ++ lines := by
  have hplan : Dispatch.plan c plan bound s = _ :=
    Hosted.andThen_pure_apply (commands c plan plan.commands) (fun lines ↦ plan.errors ++ lines)
      bound s
  rw [hplan, commands_eq_summary]
  rfl

theorem plan_effects (c : Collaborators σ) (plan : Plan) (bound : Bool) (s : σ) :
    (Dispatch.plan c plan bound s).effects =
      (executed c plan bound plan.commands s).flatMap Execution.effects := by
  have hplan : Dispatch.plan c plan bound s = _ :=
    Hosted.andThen_pure_apply (commands c plan plan.commands) (fun lines ↦ plan.errors ++ lines)
      bound s
  rw [hplan, commands_eq_summary]
  rfl

end Running

end Launcher.Dispatch
