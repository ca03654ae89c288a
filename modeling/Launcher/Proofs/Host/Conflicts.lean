import Launcher.Proofs.FileTree.Spelling
import Launcher.Proofs.Host.Compiled

/-!
# Conflicts of modules

Two sources for one module have the same target, and compiling one would overwrite what has become
of the other. Unless this is asked for, it does not happen (`Build.no_silent_overwrite`): before
anything is compiled, the check looks for two files with the same target and refuses them all if it
finds any (`checked_findConflict`). The failure names the first file whose target was taken, and the
file that had taken it.
-/

namespace Launcher.Host

variable {σ : Type} {output : String} {files : List String}

/-! ### The message -/

namespace Compiler

theorem notMem_moduleName (file : String) : '/' ∉ (moduleName file).toList := by
  have hname : '/' ∉ (Path.baseName file).toList := by
    rw [Path.baseName, String.toList_ofList]
    exact Path.not_mem_lastPart file.toList
  have hstem : (moduleName file).toList <+: (Path.baseName file).toList := by
    rw [moduleName, Path.splitExtension, String.toList_ofList]
    conv_rhs => rw [← Path.leadingPart_append_lastPart (Path.baseName file).toList]
    exact (List.prefix_append_right_inj _).2 (Path.splitExtensionChars_prefix _)
  exact fun hslash ↦ hname (hstem.subset hslash)

theorem baseName_target (output file : String) :
    Path.baseName (target output file) = moduleName file ++ ".pyc" := by
  have hslash : '/' ∉ (moduleName file ++ ".pyc").toList := by
    simp [notMem_moduleName]
  by_cases houtput : output = ""
  · have htarget : target output file = moduleName file ++ ".pyc" := by
      rw [target, houtput, Path.join, Path.joinChars, Path.isAbsoluteChars_of_notMem hslash]
      simp
    rw [htarget, Path.baseName, Path.lastPart_of_notMem hslash, String.ofList_toList]
  · exact Path.baseName_join houtput hslash

/-- Two sources have the same target exactly if they define the same module. -/
theorem target_eq_iff {file other : String} :
    target output file = target output other ↔ moduleName file = moduleName other := by
  refine ⟨fun htarget ↦ ?_, fun hname ↦ by rw [target, hname, target]⟩
  have hbase := congrArg Path.baseName htarget
  rw [baseName_target, baseName_target] at hbase
  exact (String.append_left_inj _).1 hbase

/-- The failure of a conflict names the module. -/
theorem conflict_target (file earlier output : String) :
    conflict file earlier (target output file) =
      { cause := .compilation
          (file ++ " and " ++ earlier ++ " both define module " ++ moduleName file)
          (some "Pass --ignore-module-conflict to overwrite.") } := by
  have hlength : (moduleName file ++ ".pyc").length - 4 = (moduleName file).toList.length := by
    rw [String.length_append, String.length_toList]
    exact Nat.add_sub_cancel _ 4
  have hname : String.ofList ((moduleName file ++ ".pyc").toList.take
      ((moduleName file ++ ".pyc").length - 4)) = moduleName file := by
    rw [hlength, String.toList_append, List.take_left, String.ofList_toList]
  rw [conflict, baseName_target, hname]

/-! ### The check -/

/-- What the check can find out about `files`. -/
inductive Checked (output : String) (files : List String) : Option Failure → Prop
  /-- All targets differ. -/
  | distinct (h : (files.map (target output)).Nodup) : Checked output files none
  /-- The target of `file` is that of `earlier`, and nothing like this comes before. -/
  | conflict {front rear : List String} {file earlier : String}
    (hfiles : files = front ++ file :: rear) (hfront : (front.map (target output)).Nodup)
    (hearlier : earlier ∈ front) (htarget : target output earlier = target output file) :
    Checked output files (some (conflict file earlier (target output file)))

/-- Files with their targets, the last one first. -/
def seenAfter (output : String) (before : List String) : List (String × String) :=
  (before.map fun file ↦ (target output file, file)).reverse

theorem seenAfter_concat (output : String) (before : List String) (file : String) :
    seenAfter output (before ++ [file]) = (target output file, file) :: seenAfter output before := by
  simp [seenAfter]

theorem of_lookup_seenAfter {before : List String} {path earlier : String}
    (h : (seenAfter output before).lookup path = some earlier) :
    earlier ∈ before ∧ target output earlier = path := by
  obtain ⟨front, rear, hseen, -⟩ := List.lookup_eq_some_iff.1 h
  have hmem : (path, earlier) ∈ seenAfter output before := by simp [hseen]
  simpa [seenAfter, and_comm] using hmem

theorem notMem_of_lookup_seenAfter {before : List String} {path : String}
    (h : (seenAfter output before).lookup path = none) : path ∉ before.map (target output) := by
  intro hmem
  obtain ⟨file, hfile, rfl⟩ := List.mem_map.1 hmem
  have hseen : (target output file, file) ∈ seenAfter output before := by
    simpa [seenAfter] using hfile
  simpa using List.lookup_eq_none_iff.1 h _ hseen

theorem checked_findConflict_append (before : List String)
    (hbefore : (before.map (target output)).Nodup) (files : List String) :
    Checked output (before ++ files) (findConflict output (seenAfter output before) files) := by
  induction files generalizing before with
  | nil => exact .distinct (by rwa [List.append_nil])
  | cons file files ih =>
    rw [findConflict]
    cases hlookup : (seenAfter output before).lookup (target output file) with
    | some earlier =>
      obtain ⟨hearlier, htarget⟩ := of_lookup_seenAfter hlookup
      exact .conflict rfl hbefore hearlier htarget
    | none =>
      have hnew : ((before ++ [file]).map (target output)).Nodup := by
        rw [List.map_append, List.map_singleton, ← List.concat_eq_append, List.nodup_concat]
        exact ⟨notMem_of_lookup_seenAfter hlookup, hbefore⟩
      rw [List.append_cons, ← seenAfter_concat]
      exact ih _ hnew

/-- **The check finds the first conflict**, if there is one. -/
theorem checked_findConflict (output : String) (files : List String) :
    Checked output files (findConflict output [] files) :=
  checked_findConflict_append [] .nil files

/-! ### Positions -/

/-- The file at `j` has the target of the earlier file at `i`. -/
def Clash (output : String) (files : List String) (i j : Nat) : Prop :=
  i < j ∧ j < files.length ∧
    (files.map (target output))[i]? = (files.map (target output))[j]?

theorem exists_clash_iff :
    (∃ i j, Clash output files i j) ↔ ¬(files.map (target output)).Nodup := by
  rw [List.nodup_iff_getElem?_ne_getElem?, List.length_map]
  simp only [Clash, ne_eq, not_forall, not_not, exists_prop]

/-- Different files clash exactly if two of them define one module. -/
theorem exists_clash_iff_moduleName (hfiles : files.Nodup) :
    (∃ i j, Clash output files i j) ↔
      ∃ file ∈ files, ∃ other ∈ files, file ≠ other ∧ moduleName file = moduleName other := by
  rw [exists_clash_iff, List.nodup_map_iff_inj_on hfiles]
  push Not
  simp only [target_eq_iff, ne_eq, and_comm]

/-- Files whose targets differ do not clash. -/
theorem eq_of_getElem?_eq {front rear : List String} {i j : Nat}
    (hfront : (front.map (target output)).Nodup) (hi : i < front.length) (hj : j < front.length)
    (h : ((front ++ rear).map (target output))[i]? = ((front ++ rear).map (target output))[j]?) :
    i = j := by
  rw [← List.length_map (target output)] at hi hj
  rw [List.map_append, List.getElem?_append_left hi, List.getElem?_append_left hj] at h
  exact (List.getElem?_inj hi hfront).1 h

/-- What a conflict says: the two files stand at the first position that clashes, and at the only
earlier one that it clashes with. -/
theorem Checked.exists_clash {failure : Failure} (h : Checked output files (some failure)) :
    ∃ i j file earlier, Clash output files i j ∧
      (∀ i' j', Clash output files i' j' → j ≤ j') ∧ (∀ i', Clash output files i' j → i' = i) ∧
      files[j]? = some file ∧ files[i]? = some earlier ∧
      failure = Compiler.conflict file earlier (target output file) := by
  cases h with
  | @conflict front rear file earlier hfiles hfront hearlier htarget =>
    obtain ⟨i, hearlier⟩ := List.mem_iff_getElem?.1 hearlier
    have hi : i < front.length := (List.getElem?_eq_some_iff.1 hearlier).1
    have hfile : files[front.length]? = some file := by simp [hfiles]
    have hearlier' : files[i]? = some earlier := by
      rw [hfiles, List.getElem?_append_left hi, hearlier]
    have hclash : Clash output files i front.length := by
      refine ⟨hi, by simp [hfiles], ?_⟩
      rw [List.getElem?_map, List.getElem?_map, hfile, hearlier', Option.map_some, Option.map_some,
        htarget]
    refine ⟨i, front.length, file, earlier, hclash, fun i' j' hclash' ↦ ?_, fun i' hclash' ↦ ?_,
      hfile, hearlier', rfl⟩
    · by_contra hlt
      have hj := Nat.lt_of_not_le hlt
      exact hclash'.1.ne (eq_of_getElem?_eq hfront (hclash'.1.trans hj) hj (hfiles ▸ hclash'.2.2))
    · exact eq_of_getElem?_eq hfront hclash'.1 hi (hfiles ▸ hclash'.2.2.trans hclash.2.2.symm)

end Compiler

/-! ### Where failures come from -/

/-- The failure has the hint of a conflict. -/
def IsConflict (failure : Failure) : Prop :=
  ∃ message, failure.cause = .compilation message (some "Pass --ignore-module-conflict to overwrite.")

namespace Build

variable {build : Build σ} {crew crew' : Crew σ} {s : σ} {o : Outcome σ Unit}

/-- Compiling one of the files, or the callback for it, may fail like this. -/
def MayFail (build : Build σ) (files : List String) (failure : Failure) : Prop :=
  ∃ file ∈ files, ∃ bound s, (build.compileOne file bound s).result = .error failure ∨
    (build.callBack file bound s).result = .error failure

theorem mayFail_step (horderly : build.Orderly files crew)
    (h : ∀ failure, crew.left? = some (.error failure) → build.MayFail files failure)
    (hstep : build.Step crew crew') :
    ∀ failure, crew'.left? = some (.error failure) → build.MayFail files failure := by
  cases hstep with
  | take | withdraw | finish => exact h
  | handOn bound hjobs =>
    intro failure hfailure
    refine ⟨_, horderly.mem_files hjobs, bound, crew.state, .inr ?_⟩
    rcases hresult : (build.callBack _ bound crew.state).result with other | value
    · rw [left?_handedOn_of_error hresult] at hfailure
      cases hfailure
      rfl
    · rw [left?_handedOn_of_ok hresult] at hfailure
      cases hfailure
  | fail hjobs =>
    intro failure hfailure
    cases hfailure
    obtain ⟨bound, s, hresult⟩ := horderly.exists_result_eq hjobs
    exact ⟨_, horderly.mem_files hjobs, bound, s, .inl hresult⟩
  | leave =>
    intro failure hfailure
    cases hfailure

/-- Unless the check refuses the files, a failure is that of a file. -/
theorem Compiles.mayFail (h : build.Compiles files s crew o) (hcheck : build.refusal? files = none)
    {failure : Failure} (hfailure : o.result = .error failure) : build.MayFail files failure := by
  obtain ⟨hsteps, hended, hleft⟩ := h.carriedOut_of_check hcheck
  have hstart : ∀ failure, (Crew.start files s).left? = some (.error failure) →
      build.MayFail files failure := by
    intro failure hfailure
    cases hfailure
  exact (orderly_start build files s).preserves mayFail_step hstart hsteps failure
    (hleft.trans (congrArg some hfailure))

/-! ### No silent overwrite -/

/-- No conflict is made up: neither the machinery nor the callback fails with one. -/
structure NoneMadeUp (build : Build σ) (files : List String) : Prop where
  machinery : ∀ file ∈ files, ∀ bound s failure,
    (build.machinery file bound s).result = .error failure ∨
      (build.machinery file bound s).result = .ok (some (.other failure)) → ¬IsConflict failure
  callBack : ∀ file ∈ files, ∀ bound s failure,
    (build.callBack file bound s).result = .error failure → ¬IsConflict failure

theorem NoneMadeUp.not_isConflict (h : build.NoneMadeUp files) {failure : Failure}
    (hmay : build.MayFail files failure) : ¬IsConflict failure := by
  obtain ⟨file, hfile, bound, s, hresult | hresult⟩ := hmay
  · rw [result_compileOne] at hresult
    match hended : (build.machinery file bound s).result with
    | .error other =>
      rw [hended] at hresult
      cases hresult
      exact h.machinery file hfile bound s _ (.inl hended)
    | .ok none =>
      rw [hended] at hresult
      cases hresult
    | .ok (some (.other other)) =>
      rw [hended] at hresult
      cases hresult
      exact h.machinery file hfile bound s other (.inr hended)
    | .ok (some (.source message)) =>
      -- a faulty source comes without a hint
      rw [hended] at hresult
      cases hresult
      rintro ⟨message', hconflict⟩
      cases hconflict
  · exact h.callBack file hfile bound s failure hresult

theorem checked_refusal? (hoption : build.settings.value "ignore_module_conflict" false = false)
    (files : List String) : Compiler.Checked build.output files (build.refusal? files) := by
  rw [refusal?, hoption]
  exact Compiler.checked_findConflict build.output files

/-- If files clash, then nothing happens but that the first conflict is reported. -/
theorem Compiles.of_clash (h : build.Compiles files s crew o)
    (hoption : build.settings.value "ignore_module_conflict" false = false)
    (hclash : ∃ i j, Compiler.Clash build.output files i j) :
    crew = .start [] s ∧ ∃ i j file earlier, Compiler.Clash build.output files i j ∧
      (∀ i' j', Compiler.Clash build.output files i' j' → j ≤ j') ∧
      (∀ i', Compiler.Clash build.output files i' j → i' = i) ∧
      files[j]? = some file ∧ files[i]? = some earlier ∧
      o = ⟨.error (Compiler.conflict file earlier (Compiler.target build.output file)), s, []⟩ := by
  have hchecked := checked_refusal? hoption files
  cases h with
  | refused hrefusal =>
    rw [hrefusal] at hchecked
    obtain ⟨i, j, file, earlier, hfirst, hleast, honly, hfile, hearlier, rfl⟩ :=
      hchecked.exists_clash
    exact ⟨rfl, i, j, file, earlier, hfirst, hleast, honly, hfile, hearlier, rfl⟩
  | carriedOut hrefusal =>
    rw [hrefusal] at hchecked
    cases hchecked with
    | distinct hdistinct => exact absurd hdistinct (Compiler.exists_clash_iff.1 hclash)

/-- If no files clash, then the crew does its work. -/
theorem refusal?_eq_none (hoption : build.settings.value "ignore_module_conflict" false = false)
    (hclash : ¬∃ i j, Compiler.Clash build.output files i j) : build.refusal? files = none := by
  have hchecked := checked_refusal? hoption files
  cases hrefusal : build.refusal? files with
  | none => rfl
  | some failure =>
    rw [hrefusal] at hchecked
    obtain ⟨i, j, _, _, hfirst, -⟩ := hchecked.exists_clash
    exact absurd ⟨i, j, hfirst⟩ hclash

/-- Files are refused exactly if some of them clash. -/
theorem Compiles.isConflict_iff (h : build.Compiles files s crew o)
    (hoption : build.settings.value "ignore_module_conflict" false = false)
    (hmadeUp : build.NoneMadeUp files) :
    (∃ failure, o.result = .error failure ∧ IsConflict failure) ↔
      ∃ i j, Compiler.Clash build.output files i j := by
  constructor
  · rintro ⟨failure, hfailure, hconflict⟩
    by_contra hclash
    exact hmadeUp.not_isConflict (h.mayFail (refusal?_eq_none hoption hclash) hfailure) hconflict
  · intro hclash
    obtain ⟨-, i, j, file, earlier, -, -, -, -, -, rfl⟩ := h.of_clash hoption hclash
    exact ⟨_, rfl, _, rfl⟩

/-- The targets that have been compiled to are those of different files of the list. -/
theorem Compiles.nodup_targets (h : build.Compiles files s crew o)
    (hlacks : build.Lacks Effect.compiled? files)
    (hclash : ¬∃ i j, Compiler.Clash build.output files i j) :
    ((compiledIn o.effects).map fun entry ↦ entry.2.1).Nodup := by
  have hfiles : (files.map (Compiler.target build.output)).Nodup := by
    rwa [Compiler.exists_clash_iff, not_not] at hclash
  have htargets : ((crew.compiled.map build.entry).map fun entry ↦ entry.2.1).Nodup := by
    rw [List.map_map]
    exact (h.compiled_sublist.map (Compiler.target build.output)).nodup hfiles
  exact ((h.recorded hlacks).map _).nodup_iff.2 htargets

/-- **Nothing is overwritten silently.** Unless conflicts are ignored, files with the same target are
refused before anything is compiled, and no others are. The failure names the first file whose target
is taken, and the only one before it that takes it. Files that are not refused are compiled to
targets of their own. -/
theorem no_silent_overwrite (build : Build σ) (files : List String) (s : σ)
    (hoption : build.settings.value "ignore_module_conflict" false = false)
    (hmadeUp : build.NoneMadeUp files) (hlacks : build.Lacks Effect.compiled? files) :
    (∀ bound, ∃ crew, build.Compiles files s crew (build.inTurn files bound s)) ∧
    ∀ crew o, build.Compiles files s crew o →
      ((∃ failure, o.result = .error failure ∧ IsConflict failure) ↔
        ∃ i j, Compiler.Clash build.output files i j) ∧
      ((∃ i j, Compiler.Clash build.output files i j) →
        crew.jobs = [] ∧ crew.calledBack = [] ∧
        ∃ i j file earlier, Compiler.Clash build.output files i j ∧
          (∀ i' j', Compiler.Clash build.output files i' j' → j ≤ j') ∧
          (∀ i', Compiler.Clash build.output files i' j → i' = i) ∧
          files[j]? = some file ∧ files[i]? = some earlier ∧
          o = ⟨.error
            { cause := .compilation
                (file ++ " and " ++ earlier ++ " both define module " ++ Compiler.moduleName file)
                (some "Pass --ignore-module-conflict to overwrite.") }, s, []⟩) ∧
      ((¬∃ failure, o.result = .error failure ∧ IsConflict failure) →
        (∀ entry ∈ compiledIn o.effects, ∃ file ∈ files, entry =
          (file, Compiler.target build.output file, Compiler.level build.settings)) ∧
        ((compiledIn o.effects).map fun entry ↦ entry.2.1).Nodup) := by
  refine ⟨(build.compiles_inTurn files · s), fun crew o h ↦ ?_⟩
  have hiff := h.isConflict_iff hoption hmadeUp
  refine ⟨hiff, fun hclash ↦ ?_, fun hnone ↦ ⟨fun entry hentry ↦ ?_, ?_⟩⟩
  · obtain ⟨rfl, i, j, file, earlier, hfirst, hleast, honly, hfile, hearlier, rfl⟩ :=
      h.of_clash hoption hclash
    rw [Compiler.conflict_target]
    exact ⟨rfl, rfl, i, j, file, earlier, hfirst, hleast, honly, hfile, hearlier, rfl⟩
  · obtain ⟨file, hfile, rfl⟩ := List.mem_map.1 ((h.recorded hlacks).subset hentry)
    exact ⟨file, h.compiled_sublist.subset hfile, rfl⟩
  · exact h.nodup_targets hlacks (mt hiff.2 hnone)

/-- Three workers and a machinery without errors. -/
def faultless : Build Unit where
  compiler := ⟨fun _ _ _ _ ↦ pure none⟩
  output := "out"
  settings := [("ignore_module_conflict", false)]
  eachFile := some fun file ↦ Hosted.emit (.announced file)
  workers := 3
  workers_pos := by decide

theorem no_silent_overwrite_faultless :
    Compiler.Clash "out" ["lib/a.py", "b.py", "src/a.pyw"] 0 2 ∧
    ∀ crew o, faultless.Compiles ["lib/a.py", "b.py", "src/a.pyw"] () crew o →
      crew.jobs = [] ∧ crew.calledBack = [] ∧
        ∃ failure, o.result = .error failure ∧ IsConflict failure := by
  have hclash : Compiler.Clash "out" ["lib/a.py", "b.py", "src/a.pyw"] 0 2 :=
    ⟨by decide, by decide, by decide +kernel⟩
  have hmadeUp : faultless.NoneMadeUp ["lib/a.py", "b.py", "src/a.pyw"] :=
    ⟨fun _ _ _ _ _ h ↦ (by rcases h with h | h <;> cases h), nofun⟩
  have hlacks : faultless.Lacks Effect.compiled? ["lib/a.py", "b.py", "src/a.pyw"] :=
    ⟨fun _ _ _ _ ↦ rfl, fun _ _ _ _ ↦ rfl⟩
  refine ⟨hclash, fun crew o h ↦ ?_⟩
  obtain ⟨hiff, hrefused, -⟩ :=
    (no_silent_overwrite faultless _ () rfl hmadeUp hlacks).2 crew o h
  obtain ⟨hjobs, hcalled, -⟩ := hrefused ⟨0, 2, hclash⟩
  exact ⟨hjobs, hcalled, hiff.2 ⟨0, 2, hclash⟩⟩

end Build

end Launcher.Host
