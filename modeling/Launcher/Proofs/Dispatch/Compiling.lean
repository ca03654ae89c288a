import Launcher.Proofs.Dispatch.Calls

/-!
# Compiling all or nothing

A command to compile names its sources by patterns, which may overlap, match something twice, or match
what is no regular file. It creates the output directory. Then it either calls the compiler, once, with
the regular files of all the patterns together, or there is a pattern without a regular file and the
compiler is not called (`compile_all_or_nothing`). Each file is handed over once, in the order of first
appearance, and the settings are those given last.
-/

namespace Launcher.Dispatch

variable {σ : Type}

/-! ### Settings -/

/-- A map of the keys in some pairs, each with the value of the last pair for it. -/
structure LastOfEach (map pairs : List (String × Bool)) : Prop where
  nodup_keys : (map.map Prod.fst).Nodup
  mem_iff : ∀ key value, (key, value) ∈ map ↔
    ∃ before after, pairs = before ++ (key, value) :: after ∧ key ∉ after.map Prod.fst

/-- Looking a key up from behind finds its last pair. -/
theorem lookup_reverse_eq_some_iff {pairs : List (String × Bool)} {key : String} {value : Bool} :
    pairs.reverse.lookup key = some value ↔
      ∃ before after, pairs = before ++ (key, value) :: after ∧ key ∉ after.map Prod.fst := by
  have hbehind : ∀ after : List (String × Bool),
      (∀ pair ∈ after.reverse, (key != pair.1) = true) ↔ key ∉ after.map Prod.fst := by
    intro after
    simp only [List.mem_reverse, bne_iff_ne, List.mem_map, not_exists, not_and]
    exact forall₂_congr fun pair _ ↦ ne_comm
  rw [List.lookup_eq_some_iff]
  constructor
  · rintro ⟨after, before, heq, hafter⟩
    refine ⟨before.reverse, after.reverse, ?_, (hbehind after.reverse).1 ?_⟩
    · simpa using congrArg List.reverse heq
    · rwa [List.reverse_reverse]
  · rintro ⟨before, after, rfl, hafter⟩
    exact ⟨after.reverse, before.reverse, by simp, (hbehind after).2 hafter⟩

theorem lastOfEach_settings (options : List (String × Bool)) :
    LastOfEach (settings options) options := by
  -- the keys are sorted, and each of them is looked up from behind
  have hperm := List.mergeSort_perm (distinct (options.map Prod.fst)) fun a b ↦ a ≤ b
  have hkeys : (settings options).map Prod.fst =
      (distinct (options.map Prod.fst)).mergeSort fun a b ↦ a ≤ b := by
    rw [settings, List.map_map]
    exact List.map_id _
  have hmem : ∀ key, key ∈ (distinct (options.map Prod.fst)).mergeSort (fun a b ↦ a ≤ b) ↔
      key ∈ options.map Prod.fst := fun key ↦ hperm.mem_iff.trans mem_distinct
  constructor
  · rw [hkeys]
    exact hperm.nodup_iff.2 (nodup_distinct _)
  · intro key value
    rw [← lookup_reverse_eq_some_iff, settings, List.mem_map]
    constructor
    · rintro ⟨other, hother, heq⟩
      obtain ⟨rfl, rfl⟩ := Prod.mk.inj heq
      rcases hlookup : options.reverse.lookup other with - | value
      · rw [List.lookup_eq_none_iff] at hlookup
        obtain ⟨pair, hpair, rfl⟩ := List.mem_map.1 ((hmem other).1 hother)
        exact absurd (hlookup pair (List.mem_reverse.2 hpair)) (by simp)
      · rfl
    · intro hlookup
      obtain ⟨before, after, rfl, -⟩ := lookup_reverse_eq_some_iff.1 hlookup
      exact ⟨key, (hmem key).2 (by simp), by rw [hlookup]; rfl⟩

/-! ### Files -/

/-- The regular files among what a pattern matches, as often as they are matched. -/
def regularMatches (c : Collaborators σ) (s : σ) (pattern : String) : List String :=
  (c.files.wildcard s pattern).filter (c.files.isRegular s)

section Files

variable (c : Collaborators σ) (s : σ) (patterns : List String)

theorem regularFiles_eq_distinct (pattern : String) :
    regularFiles c s pattern = distinct (regularMatches c s pattern) :=
  (distinct_filter _ _).symm

theorem firstAppearances_regularFiles (pattern : String) :
    FirstAppearances (regularFiles c s pattern) (regularMatches c s pattern) :=
  regularFiles_eq_distinct c s pattern ▸ firstAppearances_distinct _

theorem regularFiles_eq_nil_iff {pattern : String} :
    regularFiles c s pattern = [] ↔ regularMatches c s pattern = [] := by
  simp only [List.eq_nil_iff_forall_not_mem, regularFiles_eq_distinct, mem_distinct]

theorem firstAppearances_missing :
    FirstAppearances (missing c s patterns)
      (patterns.filter fun pattern ↦ regularMatches c s pattern = []) := by
  have hfilter : (patterns.filter fun pattern ↦ (regularFiles c s pattern).isEmpty) =
      patterns.filter fun pattern ↦ regularMatches c s pattern = [] := by
    refine List.filter_congr fun pattern _ ↦ ?_
    rw [Bool.eq_iff_iff, List.isEmpty_iff, regularFiles_eq_nil_iff, decide_eq_true_iff]
  rw [missing, hfilter]
  exact firstAppearances_distinct _

theorem matched_eq_distinct :
    matched c s patterns = distinct (patterns.flatMap (regularMatches c s)) := by
  have hdistinct : regularFiles c s = fun pattern ↦ distinct (regularMatches c s pattern) :=
    funext (regularFiles_eq_distinct c s)
  rw [matched, hdistinct, distinct_flatMap_distinct]

theorem firstAppearances_matched :
    FirstAppearances (matched c s patterns) (patterns.flatMap (regularMatches c s)) :=
  matched_eq_distinct c s patterns ▸ firstAppearances_distinct _

theorem missing_eq_nil_iff :
    missing c s patterns = [] ↔ ∀ pattern ∈ patterns, regularMatches c s pattern ≠ [] := by
  simp [List.eq_nil_iff_forall_not_mem, (firstAppearances_missing c s patterns).mem_iff]

/-- If every pattern has a regular file, there is none only if there is no pattern. -/
theorem matched_eq_nil_iff
    (h : ∀ pattern ∈ patterns, regularMatches c s pattern ≠ []) :
    matched c s patterns = [] ↔ patterns = [] := by
  constructor
  · intro hnil
    refine List.eq_nil_iff_forall_not_mem.2 fun pattern hpattern ↦ ?_
    obtain ⟨file, hfile⟩ := List.exists_mem_of_ne_nil _ (h pattern hpattern)
    have hmem := ((firstAppearances_matched c s patterns).mem_iff file).2
      (List.mem_flatMap.2 ⟨pattern, hpattern, hfile⟩)
    exact List.not_mem_nil (hnil ▸ hmem)
  · rintro rfl
    rfl

end Files

/-! ### The command -/

section Rest

variable {c : Collaborators σ} {plan : Plan} {patterns : List String} {s : σ}

theorem compileRest_of_missing (h : ∃ pattern ∈ patterns, regularMatches c s pattern = []) :
    compileRest c plan patterns s =
      pure (some ("No files matched pattern(s) " ++ ",".intercalate (missing c s patterns))) := by
  have hne : (missing c s patterns).isEmpty = false := by
    rw [List.isEmpty_eq_false_iff, ne_eq, missing_eq_nil_iff]
    exact fun hall ↦ h.elim fun pattern hpattern ↦ hall pattern hpattern.1 hpattern.2
  rw [compileRest, hne]
  exact if_pos rfl

theorem compileRest_nil :
    compileRest c plan [] s = pure (some "No files matched provided patterns") :=
  rfl

/-- If every pattern has a regular file, the compiler is called. -/
theorem compileRest_of_matched (h : ∀ pattern ∈ patterns, regularMatches c s pattern ≠ [])
    (hne : patterns ≠ []) :
    compileRest c plan patterns s =
      invoke (.compile (matched c s patterns) plan.output (settings plan.compilerOptions)
        plan.verbose) (c.compileFiles (matched c s patterns) plan.output
          (settings plan.compilerOptions)
          (if plan.verbose then some fun file ↦ Hosted.emit (.announced file) else none)) := by
  have hmatched : (matched c s patterns).isEmpty = false :=
    List.isEmpty_eq_false_iff.2 fun hnil ↦ hne ((matched_eq_nil_iff c s patterns h).1 hnil)
  rw [compileRest, (missing_eq_nil_iff c s patterns).2 h, hmatched]
  rfl

end Rest

/-- **Compiling is all or nothing.** Let `t` be the state that creating the output directory has
left. If that fails, so does the command. If some pattern has no regular file in `t`, the command
hands back the error line for all of those, and if there are no patterns another one; then nothing
else has happened. Otherwise there is one call of the compiler, with the regular files of all the
patterns, and the command ends as that does. -/
theorem compile_all_or_nothing (c : Collaborators σ) (plan : Plan) (bound : Bool)
    (patterns : List String) (s : σ) :
    let ensured := c.files.ensureDirectory plan.output bound s
    let t := ensured.state
    let before := .event (.asked (.ensureDirectory plan.output)) :: ensured.effects
    ∃ missing files options,
      FirstAppearances missing (patterns.filter fun pattern ↦ regularMatches c t pattern = []) ∧
      FirstAppearances files (patterns.flatMap (regularMatches c t)) ∧
      LastOfEach options plan.compilerOptions ∧
      let eachFile := if plan.verbose then some fun file ↦ Hosted.emit (.announced file) else none
      let call := c.compileFiles files plan.output options eachFile bound t
      command c plan (.compile patterns) bound s =
        match ensured.result with
        | .error failure => ⟨.error failure, t, before⟩
        | .ok () =>
          if ∃ pattern ∈ patterns, regularMatches c t pattern = [] then
            ⟨.ok (some ("No files matched pattern(s) " ++ ",".intercalate missing)), t, before⟩
          else if patterns = [] then ⟨.ok (some "No files matched provided patterns"), t, before⟩
          else ⟨call.result.map fun _ ↦ none, call.state, before ++
            .event (.asked (.compile files plan.output options plan.verbose)) :: call.effects⟩ := by
  intro ensured t before
  refine ⟨missing c t patterns, matched c t patterns, settings plan.compilerOptions,
    firstAppearances_missing c t patterns, firstAppearances_matched c t patterns,
    lastOfEach_settings _, ?_⟩
  intro eachFile call
  show compile c plan patterns bound s = _
  rcases h : ensured.result with failure | ⟨⟩
  · exact compile_apply_of_error c plan bound h
  · have hcompile : compile c plan patterns bound s =
        ⟨(compileRest c plan patterns t bound t).result,
          (compileRest c plan patterns t bound t).state,
          before ++ (compileRest c plan patterns t bound t).effects⟩ :=
      compile_apply_of_ok c plan bound h
    by_cases hmissing : ∃ pattern ∈ patterns, regularMatches c t pattern = []
    · rw [hcompile, compileRest_of_missing hmissing, Hosted.pure_apply, List.append_nil]
      exact (if_pos hmissing).symm
    · have hall : ∀ pattern ∈ patterns, regularMatches c t pattern ≠ [] :=
        fun pattern hpattern hnil ↦ hmissing ⟨pattern, hpattern, hnil⟩
      by_cases hnil : patterns = []
      · subst hnil
        rw [hcompile, compileRest_nil, Hosted.pure_apply, List.append_nil]
        rfl
      · rw [hcompile, compileRest_of_matched hall hnil, invoke_apply]
        simp only [if_neg hmissing, if_neg hnil]
        rfl

end Launcher.Dispatch
