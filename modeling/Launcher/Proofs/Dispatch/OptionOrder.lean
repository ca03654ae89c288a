import Launcher.Proofs.Argv.CompilerMode
import Launcher.Proofs.Argv.Continuing
import Launcher.Proofs.Dispatch.Compiling
import Launcher.Proofs.Dispatch.Directory
import Mathlib.Data.List.Sort

/-!
# Where the options of the compiler stand

Running a plan asks its settings of the compiler for a map alone, in which of two values for one key
the later counts (`plan_congr`). A key has only one value that a flag of the compiler mode gives it,
so it makes no difference in which order the flags are given, nor how often
(`settings_append_congr`). What else a command line in compiler mode makes of a plan depends on the
items of each kind by themselves. So the place of the options among the sources and the other options
is of no importance to the run (`compiler_options_stand_anywhere`).
-/

namespace Launcher.Dispatch

open Argv

variable {σ : Type}

/-! ### Settings -/

theorem mem_keys_iff {options : List (String × Bool)} {key : String} :
    key ∈ options.map Prod.fst ↔ options.reverse.lookup key ≠ none := by
  constructor
  · intro hmem hnone
    obtain ⟨pair, hpair, rfl⟩ := List.mem_map.1 hmem
    exact absurd (List.lookup_eq_none_iff.1 hnone pair (List.mem_reverse.2 hpair)) (by simp)
  · intro hfound
    obtain ⟨value, hvalue⟩ := Option.ne_none_iff_exists'.1 hfound
    obtain ⟨before, after, rfl, -⟩ := lookup_reverse_eq_some_iff.1 hvalue
    simp

/-- **Settings are a map**: they only depend on the value that is found for each key from behind. -/
theorem settings_congr {first second : List (String × Bool)}
    (h : ∀ key, first.reverse.lookup key = second.reverse.lookup key) :
    settings first = settings second := by
  have hmem : ∀ key, key ∈ distinct (first.map Prod.fst) ↔ key ∈ distinct (second.map Prod.fst) := by
    intro key
    rw [mem_distinct, mem_distinct, mem_keys_iff, mem_keys_iff, h]
  have hperm : (distinct (first.map Prod.fst)).Perm (distinct (second.map Prod.fst)) :=
    (List.perm_ext_iff_of_nodup (nodup_distinct _) (nodup_distinct _)).2 hmem
  have hkeys : (distinct (first.map Prod.fst)).mergeSort (fun a b ↦ a ≤ b) =
      (distinct (second.map Prod.fst)).mergeSort fun a b ↦ a ≤ b := by
    refine List.Perm.eq_of_pairwise' (List.pairwise_mergeSort' (· ≤ ·) _)
      (List.pairwise_mergeSort' (· ≤ ·) _) ?_
    exact (List.mergeSort_perm _ _).trans (hperm.trans (List.mergeSort_perm _ _).symm)
  rw [settings, settings, hkeys]
  exact List.map_congr_left fun key _ ↦ by rw [h]

/-- If each key has one value only, then it is found wherever it stands. -/
theorem lookup_reverse_of_function {value : String → Bool} {pairs : List (String × Bool)}
    (h : ∀ pair ∈ pairs, pair.2 = value pair.1) (key : String) :
    pairs.reverse.lookup key = if key ∈ pairs.map Prod.fst then some (value key) else none := by
  split
  · next hmem =>
    obtain ⟨found, hfound⟩ := Option.ne_none_iff_exists'.1 (mem_keys_iff.1 hmem)
    obtain ⟨before, after, rfl, -⟩ := lookup_reverse_eq_some_iff.1 hfound
    have hvalue : found = value key := h _ (List.mem_append_right _ List.mem_cons_self)
    rw [hfound, hvalue]
  · next hmem => exact Decidable.not_not.1 (mem_keys_iff.not.1 hmem)

/-- **The order of further settings and their repetitions make no difference**, if each key has one
value only among them. -/
theorem settings_append_congr (base : List (String × Bool)) {value : String → Bool}
    {first second : List (String × Bool)} (hfirst : ∀ pair ∈ first, pair.2 = value pair.1)
    (hsecond : ∀ pair ∈ second, pair.2 = value pair.1)
    (hmem : ∀ pair, pair ∈ first ↔ pair ∈ second) :
    settings (base ++ first) = settings (base ++ second) := by
  have hkeys : ∀ key, key ∈ first.map Prod.fst ↔ key ∈ second.map Prod.fst := by
    intro key
    rw [List.mem_map, List.mem_map]
    exact exists_congr fun pair ↦ and_congr_left' (hmem pair)
  refine settings_congr fun key ↦ ?_
  rw [List.reverse_append, List.reverse_append, List.lookup_append, List.lookup_append,
    lookup_reverse_of_function hfirst, lookup_reverse_of_function hsecond]
  simp only [hkeys]

/-! ### Running a plan -/

/-- Two plans compile sources in the same way. -/
structure CompileAlike (first second : Plan) : Prop where
  output : first.output = second.output
  verbose : first.verbose = second.verbose
  settings : settings first.compilerOptions = settings second.compilerOptions

section Congr

variable {first second : Plan}

/-- What is called does not depend on anything else in the plan. -/
theorem CompileAlike.calls_eq (h : CompileAlike first second) (c : Collaborators σ) (bound : Bool)
    (command : Command) (s : σ) : calls c first bound command s = calls c second bound command s := by
  cases command with
  | compile patterns =>
    simp only [calls, compileCalls, h.output, h.verbose, h.settings]
  | _ => rfl

theorem CompileAlike.command_eq (h : CompileAlike first second) (c : Collaborators σ)
    (command : Command) : Dispatch.command c first command = Dispatch.command c second command := by
  cases command with
  | compile patterns =>
    show compile c first patterns = compile c second patterns
    rw [compile, compile, h.output, h.verbose, h.settings]
  | _ => rfl

/-- **Plans that ask for the same are run alike.** -/
theorem CompileAlike.plan_eq (h : CompileAlike first second) (c : Collaborators σ)
    (hcommands : first.commands = second.commands) (herrors : first.errors = second.errors) :
    Dispatch.plan c first = Dispatch.plan c second := by
  have hall : ∀ list, commands c first list = commands c second list := by
    intro list
    induction list with
    | nil => rfl
    | cons command rest ih => rw [commands, commands, h.command_eq, ih]
  rw [Dispatch.plan, Dispatch.plan, hall, hcommands, herrors]

end Congr

/-! ### Command lines in compiler mode -/

section Position

variable {first second : List Item}

/-- Items of the compiler mode that are the same but for their position make plans that compile
alike. -/
theorem compileAlike_withItems (h : SameButForPosition first second)
    (hfirst : ∀ item ∈ first, item.In .compiler) (hsecond : ∀ item ∈ second, item.In .compiler)
    (s : Surroundings) (base : Plan) :
    CompileAlike (withItems s base first) (withItems s base second) where
  output := congrArg (·.getD base.output) h.output
  verbose := congrArg (base.verbose || ·) h.any_isVerbose_eq
  settings := by
    have hvalue : ∀ items : List Item, (∀ item ∈ items, item.In .compiler) →
        ∀ pair ∈ items.filterMap Item.setting?, pair.2 = settingValue pair.1 := by
      rintro items hitems ⟨key, value⟩ hpair
      obtain ⟨item, hitem, hsetting⟩ := List.mem_filterMap.1 hpair
      exact (hitems item hitem).setting_eq hsetting
    exact settings_append_congr base.compilerOptions (hvalue first hfirst) (hvalue second hsecond)
      h.mem_settings

/-- No item compiles sources. -/
theorem compile_notMem_filterMap_command? (mode : Mode) (items : List Item)
    (patterns : List String) : .compile patterns ∉ items.filterMap (Item.command? mode) := by
  intro hmem
  obtain ⟨item, -, hcommand⟩ := List.mem_filterMap.1 hmem
  exact item.command?_ne_compile mode patterns hcommand

/-- **The options of the compiler may stand anywhere.** Let two command lines be read in compiler mode
into the same plan, both to the end, and let their items be the same but for the position and the
repetition of the flags of the compiler mode. Then both compile the same sources by one more command
at the end, every command makes the same calls of the collaborators, with the same output, settings
and announcements, and the two plans come to the same whatever the collaborators do. The search path
and the halting of the process are the same, too. -/
theorem compiler_options_stand_anywhere (c : Collaborators σ) (s : Surroundings)
    (argv₁ argv₂ : List String) (base : Plan) (path : SearchPath)
    (hread₁ : ReadOn (readItems s .compiler argv₁ base path).items)
    (hread₂ : ReadOn (readItems s .compiler argv₂ base path).items)
    (hsame : SameButForPosition (readItems s .compiler argv₁ base path).items
      (readItems s .compiler argv₂ base path).items) :
    ∃ p₁ p₂ front,
      parseNamed s "compiler" argv₁ base path = .ok (.finished [], p₁) ∧
      parseNamed s "compiler" argv₂ base path = .ok (.finished [], p₂) ∧
      p₁.path = p₂.path ∧ p₁.plan.halt = p₂.plan.halt ∧
      (∀ patterns, .compile patterns ∉ front) ∧
      p₁.plan.commands = base.commands ++ front ++ [.compile p₁.plan.sources] ∧
      p₂.plan.commands = p₁.plan.commands ∧
      (∀ bound command t, calls c p₁.plan bound command t = calls c p₂.plan bound command t) ∧
      ∀ bound t, Dispatch.plan c p₁.plan bound t = Dispatch.plan c p₂.plan bound t := by
  obtain ⟨p₁, hparse₁, hplan₁, hpath₁, hin₁⟩ := parseNamed_compiler hread₁
  obtain ⟨p₂, hparse₂, hplan₂, hpath₂, hin₂⟩ := parseNamed_compiler hread₂
  generalize (readItems s .compiler argv₁ base path).items = first at hsame hplan₁ hpath₁ hin₁
  generalize (readItems s .compiler argv₂ base path).items = second at hsame hplan₂ hpath₂ hin₂
  have hsources : (withItems s base second).sources = (withItems s base first).sources :=
    congrArg (fun tokens : List String ↦ base.sources ++ tokens.map s.sourcePattern) hsame.bare.symm
  have hfront : (withItems s base second).commands = (withItems s base first).commands :=
    congrArg (base.commands ++ ·) (hsame.commands_eq hin₁ hin₂).symm
  have hcommands : p₂.plan.commands = p₁.plan.commands := by
    rw [hplan₁, hplan₂, Plan.addCommand, Plan.addCommand, hfront, hsources]
  have herrors : p₁.plan.errors = p₂.plan.errors := by
    rw [hplan₁, hplan₂]
    exact congrArg (base.errors ++ ·) hsame.errors_eq
  have halike : CompileAlike p₁.plan p₂.plan := by
    rw [hplan₁, hplan₂]
    have halike := compileAlike_withItems hsame hin₁ hin₂ s base
    exact ⟨halike.output, halike.verbose, halike.settings⟩
  refine ⟨p₁, p₂, first.filterMap (Item.command? .compiler), hparse₁, hparse₂, ?_, ?_,
    compile_notMem_filterMap_command? .compiler first, ?_, hcommands,
    fun bound ↦ halike.calls_eq c bound, fun bound t ↦ ?_⟩
  · rw [hpath₁, hpath₂, hsame.directories_eq s]
  · rw [hplan₁, hplan₂]
    exact congrArg (base.halt && !·) hsame.any_isNoHalt_eq
  · rw [hplan₁]
    rfl
  · rw [halike.plan_eq c hcommands.symm herrors]

end Position

/-! ### Two command lines -/

/-- Flags among the sources, and an output that is set twice. -/
def scatteredLine : List String :=
  ["-o", "x", "--no-docs", "a.py", "-e", "1", "--warnings-as-errors", "-o", "out", "b.py"]

/-- Flags behind the sources, in another order, and one of them given twice. -/
def gatheredLine : List String :=
  ["-e", "1", "a.py", "b.py", "--warnings-as-errors", "--no-docs", "-o", "out",
    "--warnings-as-errors"]

theorem items_scatteredLine : (readItems nowhere .compiler scatteredLine {} {}).items =
    [.valuedFlag "-o" .output "x", .bareFlag "--no-docs" (.compilerOption "docs" false),
      .bare "a.py", .valuedOption "-e" .eval "1",
      .bareFlag "--warnings-as-errors" (.compilerOption "warnings_as_errors" true),
      .valuedFlag "-o" .output "out", .bare "b.py"] := by
  decide +kernel

theorem items_gatheredLine : (readItems nowhere .compiler gatheredLine {} {}).items =
    [.valuedOption "-e" .eval "1", .bare "a.py", .bare "b.py",
      .bareFlag "--warnings-as-errors" (.compilerOption "warnings_as_errors" true),
      .bareFlag "--no-docs" (.compilerOption "docs" false), .valuedFlag "-o" .output "out",
      .bareFlag "--warnings-as-errors" (.compilerOption "warnings_as_errors" true)] := by
  decide +kernel

/-- The settings are listed differently, and the plans are run alike. -/
theorem stageHost_options_stand_anywhere :
    ∃ p₁ p₂,
      parseNamed nowhere "compiler" scatteredLine {} {} = .ok (.finished [], p₁) ∧
      parseNamed nowhere "compiler" gatheredLine {} {} = .ok (.finished [], p₂) ∧
      p₁.plan.compilerOptions ≠ p₂.plan.compilerOptions ∧
      p₂.plan.commands = [.eval "1", .compile ["a.py", "b.py"]] ∧
      ∀ bound t, Dispatch.plan stageHost p₁.plan bound t = Dispatch.plan stageHost p₂.plan bound t := by
  have hread₁ : ReadOn (readItems nowhere .compiler scatteredLine {} {}).items := by
    rw [items_scatteredLine, ReadOn]
    decide
  have hread₂ : ReadOn (readItems nowhere .compiler gatheredLine {} {}).items := by
    rw [items_gatheredLine, ReadOn]
    decide
  have hsame : SameButForPosition (readItems nowhere .compiler scatteredLine {} {}).items
      (readItems nowhere .compiler gatheredLine {} {}).items := by
    rw [items_scatteredLine, items_gatheredLine]
    refine ⟨by decide, by decide, by decide, fun token flag ↦ ?_⟩
    simp only [List.mem_cons, reduceCtorEq, false_or, List.not_mem_nil, or_false]
    tauto
  obtain ⟨p₁, p₂, front, hparse₁, hparse₂, -, -, -, -, hcommands, -, hplan⟩ :=
    compiler_options_stand_anywhere stageHost nowhere scatteredLine gatheredLine {} {}
      hread₁ hread₂ hsame
  have hplans : (read nowhere .compiler scatteredLine {}).2.plan.compilerOptions ≠
        (read nowhere .compiler gatheredLine {}).2.plan.compilerOptions ∧
      (read nowhere .compiler gatheredLine {}).2.plan.commands =
        [.eval "1", .compile ["a.py", "b.py"]] := by
    decide +kernel
  have hresult₁ := Except.ok.inj ((parseNamed_name nowhere .compiler ..).symm.trans hparse₁)
  have hresult₂ := Except.ok.inj ((parseNamed_name nowhere .compiler ..).symm.trans hparse₂)
  rw [hresult₁, hresult₂] at hplans
  exact ⟨p₁, p₂, hparse₁, hparse₂, hplans.1, hplans.2, hplan⟩

end Launcher.Dispatch
