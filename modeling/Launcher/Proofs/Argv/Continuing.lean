import Launcher.Proofs.Argv.Shape

/-!
# Reading into a plan that holds something

A command line may be read into a plan that holds something already. What is read goes behind what the
plan holds, and otherwise makes no difference, as long as the plan evaluates no expression: that is the
only thing a reading wants to know about the plan before the tokens end. Then the compiler mode asks
for the sources once more, and compiles those that the plan held before with the others.

The main statement compares the reading into a plan with the one into a blank plan
(`parse_continues_plan`).
-/

namespace Launcher

namespace Plan

/-- What a plan holds, and behind it what another one does. -/
def append (base own : Plan) : Plan where
  output := own.output
  commands := base.commands ++ own.commands
  sources := base.sources ++ own.sources
  halt := base.halt && own.halt
  compilerOptions := base.compilerOptions ++ own.compilerOptions
  errors := base.errors ++ own.errors
  verbose := base.verbose || own.verbose

/-- No command of a plan compiles sources. -/
def CompilesNothing (plan : Plan) : Prop := ∀ patterns, .compile patterns ∉ plan.commands

/-- A plan that continues `base` by what a reading into a blank plan has put into `own`. -/
structure Continues (base own whole : Plan) : Prop where
  output : whole.output = own.output
  sources : whole.sources = base.sources ++ own.sources
  halt : whole.halt = (base.halt && own.halt)
  compilerOptions : whole.compilerOptions = base.compilerOptions ++ own.compilerOptions
  errors : whole.errors = base.errors ++ own.errors
  verbose : whole.verbose = (base.verbose || own.verbose)
  /-- The commands of the reading go behind those of `base`. If the last of them compiles the sources
  of the reading, then it compiles those of `base`, too. -/
  commands :
    whole.commands = base.commands ++ own.commands ∧ own.CompilesNothing ∨
    ∃ front, own.commands = front ++ [.compile own.sources] ∧
      (∀ patterns, .compile patterns ∉ front) ∧
      whole.commands = base.commands ++ front ++ [.compile (base.sources ++ own.sources)]

theorem append_blank (base : Plan) : base.append { output := base.output } = base := by
  simp [append]

theorem hasEval_append {base : Plan} (h : base.hasEval = false) (own : Plan) :
    (base.append own).hasEval = own.hasEval := by
  unfold hasEval at h ⊢
  rw [append, List.any_append, h, Bool.false_or]

theorem hasEval_eq_false_iff {plan : Plan} :
    plan.hasEval = false ↔ ∀ expression, .eval expression ∉ plan.commands := by
  rw [hasEval_eq, List.any_eq_false]
  constructor
  · intro h expression hmem
    exact h _ hmem rfl
  · intro h command hmem
    cases command with
    | eval expression => exact absurd hmem (h expression)
    | _ => exact Bool.false_ne_true

theorem continues_append (base : Plan) {own : Plan} (h : own.CompilesNothing) :
    base.Continues own (base.append own) :=
  ⟨rfl, rfl, rfl, rfl, rfl, rfl, .inl ⟨rfl, h⟩⟩

end Plan

namespace Argv

variable {s : Surroundings} {mode : Mode} {base own plan : Plan} {item : Item}

/-! ### Items -/

/-- Items do not see what the plan held before. -/
theorem Item.pace_append (h : base.hasEval = false) (mode : Mode) (own : Plan) (item : Item) :
    item.pace mode (base.append own) = item.pace mode own := by
  cases item with
  | bareFlag token flag => cases flag <;> rfl
  | valuedFlag token flag value => cases flag <;> rfl
  | bare token =>
    cases mode with
    | top => rw [pace, pace, Plan.hasEval_append h]
    | compiler => rfl
    | interactive => rfl
  | _ => rfl

theorem Item.plan_append (s : Surroundings) (mode : Mode) (item : Item) (base own : Plan) :
    item.plan s mode (base.append own) = base.append (item.plan s mode own) := by
  cases item with
  | bareFlag token flag => cases flag <;> simp [Item.plan, Plan.append]
  | valuedFlag token flag value => cases flag <;> simp [Item.plan, Plan.append]
  | bareOption token option => cases option <;> simp [Item.plan, Plan.append]
  | _ => simp [Item.plan, Plan.append]

theorem Item.command?_ne_compile (mode : Mode) (item : Item) (patterns : List String) :
    item.command? mode ≠ some (.compile patterns) := by
  cases item with
  | valuedFlag token flag value => cases flag <;> nofun
  | valuedOption token option value => cases option <;> nofun
  | bare token => cases mode <;> nofun
  | _ => nofun

/-- No item compiles sources. -/
theorem Item.compilesNothing (h : own.CompilesNothing) :
    (item.plan s mode own).CompilesNothing := by
  intro patterns hmem
  rcases List.mem_append.1 hmem with hmem | hmem
  · exact h patterns hmem
  · exact item.command?_ne_compile mode patterns (Option.mem_toList.1 hmem)

theorem Mode.continues_close (mode : Mode) (base : Plan) (h : own.CompilesNothing) :
    base.Continues (mode.close own) (mode.close (base.append own)) := by
  by_cases hmode : mode = .compiler
  · rw [close, close, if_pos hmode, if_pos hmode]
    exact ⟨rfl, rfl, rfl, rfl, rfl, rfl, .inr ⟨own.commands, rfl, h, rfl⟩⟩
  · rw [close, close, if_neg hmode, if_neg hmode]
    exact base.continues_append h

/-- **Reading into a plan and into a blank one.** -/
theorem readItems_append_plan (s : Surroundings) (mode : Mode) (tokens : List String) (own : Plan)
    (path : SearchPath) (heval : base.hasEval = false) (hown : own.CompilesNothing) :
    let r := readItems s mode tokens own path
    let whole := readItems s mode tokens (base.append own) path
    whole.items = r.items ∧ whole.rest = r.rest ∧ whole.path = r.path ∧
      base.Continues r.plan whole.plan := by
  -- along the reading into the blank plan, which compiles nothing before the tokens end
  fun_induction readItems s mode tokens own path with
  | case1 mode own path =>
    rw [readItems_nil]
    exact ⟨rfl, rfl, rfl, mode.continues_close base hown⟩
  | case2 mode own path head rest item hpace =>
    rw [readItems, Item.pace_append heval, hpace]
    exact ⟨rfl, rfl, rfl, base.continues_append hown⟩
  | case3 mode own path head rest item hpace =>
    rw [readItems, Item.pace_append heval, hpace, Item.plan_append]
    exact ⟨rfl, rfl, rfl, base.continues_append (Item.compilesNothing hown)⟩
  | case4 mode own path head rest item next hpace ih =>
    rw [readItems, Item.pace_append heval, hpace, Item.plan_append]
    obtain ⟨hitems, hrest, hpath, hplan⟩ := ih (Item.compilesNothing hown)
    exact ⟨congrArg (item :: ·) hitems, hrest, hpath, hplan⟩

/-- **A reading only continues its plan.** Let a plan evaluate no expression. Then reading a command
line into it ends in the same way as reading it into a blank plan with the same output, with the same
search path, and what is read goes behind what the plan held. -/
theorem parse_continues_plan (s : Surroundings) (mode : Mode) (argv : List String) (base : Plan)
    (path : SearchPath) (heval : ∀ expression, .eval expression ∉ base.commands) :
    ∃ ending own whole,
      parseNamed s mode.name argv { output := base.output } path = .ok (ending, own) ∧
      parseNamed s mode.name argv base path = .ok (ending, whole) ∧
      whole.path = own.path ∧ base.Continues own.plan whole.plan := by
  have hown := read_agrees s mode argv { plan := { output := base.output }, path }
  have hwhole := read_agrees s mode argv { plan := base, path }
  obtain ⟨hitems, hrest, hpath, hcontinues⟩ :=
    readItems_append_plan s mode argv { output := base.output } path
      (Plan.hasEval_eq_false_iff.2 heval) (fun _ ↦ List.not_mem_nil)
  rw [Plan.append_blank] at hitems hrest hpath hcontinues
  have hending : (read s mode argv { plan := base, path }).1 =
      (read s mode argv { plan := { output := base.output }, path }).1 := by
    rw [hwhole.1, hown.1, Reading.ending, Reading.ending, hitems, hrest]
  refine ⟨_, _, (read s mode argv { plan := base, path }).2,
    parseNamed_name s mode argv { output := base.output } path, ?_, ?_, ?_⟩
  · rw [parseNamed_name, ← hending]
  · exact hwhole.2.2.trans (hpath.trans hown.2.2.symm)
  · rw [hown.2.1, hwhole.2.1]
    exact hcontinues

/-- Two sources, of which the plan held the first one before. -/
theorem parse_continues_sources :
    ∃ whole,
      parseNamed nowhere "compiler" ["b.py", "-x"]
        { commands := [.app "web"], sources := ["a.py"], halt := false, errors := ["early"] } {} =
          .ok (.finished [], whole) ∧
      whole.plan.commands = [.app "web", .compile ["a.py", "b.py"]] ∧
      whole.plan.errors = ["early", "-x : Unknown option"] ∧ whole.plan.halt = false := by
  have hread : (read nowhere .compiler ["b.py", "-x"] {}).1 = .finished [] ∧
      (read nowhere .compiler ["b.py", "-x"] {}).2.plan =
        { commands := [.compile ["b.py"]], sources := ["b.py"], errors := ["-x : Unknown option"] } := by
    decide +kernel
  obtain ⟨ending, own, whole, hown, hwhole, -, hcontinues⟩ :=
    parse_continues_plan nowhere .compiler ["b.py", "-x"]
      { commands := [.app "web"], sources := ["a.py"], halt := false, errors := ["early"] } {}
      (by simp)
  have hresult := Except.ok.inj ((parseNamed_name ..).symm.trans hown)
  rw [hresult] at hread
  obtain ⟨rfl, hplan⟩ : ending = .finished [] ∧ own.plan = _ := hread
  rw [hplan] at hcontinues
  refine ⟨whole, hwhole, ?_, hcontinues.errors, hcontinues.halt⟩
  rcases hcontinues.commands with ⟨-, hnone⟩ | ⟨front, hfront, -, hcommands⟩
  · exact absurd (List.mem_singleton_self _) (hnone ["b.py"])
  · have hnil : [] = front := List.append_inj_left' hfront rfl
    rw [hcommands, ← hnil]
    rfl

end Argv

end Launcher
