import Launcher.Proofs.Host.Compiled

/-!
# Compiling on any schedule

Workers start and end in an order that nobody plans. If what becomes of every file is fixed, then
the order does not matter (`Build.schedule_irrelevant`): the callbacks come for the files before the
first that fails, in the order of the list, and the failure of this file comes out, even if a later
file has failed at an earlier time. If no file fails, all are compiled, at the level that the settings
ask for.

What carries the proof is how far the results have been handed on (`HandedOn`), which the list and
the fixed results say, and the schedule does not.
-/

namespace Launcher.Host

variable {σ : Type}

/-- The files before a first one that lacks a property, and the rest. -/
theorem split_unique {α : Type} {p : α → Prop} {front front' rear rear' : List α} {a a' : α}
    (heq : front ++ a :: rear = front' ++ a' :: rear') (hfront : ∀ b ∈ front, p b)
    (hfront' : ∀ b ∈ front', p b) (ha : ¬p a) (ha' : ¬p a') : front = front' ∧ a = a' := by
  induction front generalizing front' with
  | nil =>
    cases front' with
    | nil => exact ⟨rfl, (List.cons.inj heq).1⟩
    | cons b front' =>
      obtain ⟨rfl, -⟩ := List.cons.inj heq
      exact absurd (hfront' a List.mem_cons_self) ha
  | cons b front ih =>
    cases front' with
    | nil =>
      obtain ⟨rfl, -⟩ := List.cons.inj heq
      exact absurd (hfront b List.mem_cons_self) ha'
    | cons b' front' =>
      obtain ⟨rfl, hrest⟩ := List.cons.inj heq
      obtain ⟨rfl, haa⟩ := ih hrest (fun c hc ↦ hfront c (List.mem_cons_of_mem _ hc))
        fun c hc ↦ hfront' c (List.mem_cons_of_mem _ hc)
      exact ⟨rfl, haa⟩

variable {verdict : String → Except Failure (Option CompileError)}
  {answer : String → Except Failure Unit} {files called front rear : List String} {file : String}
  {result : Except Failure Unit} {failure : Failure}

/-- The file compiles, and the callback for it returns. -/
def Passes (verdict : String → Except Failure (Option CompileError))
    (answer : String → Except Failure Unit) (file : String) : Prop :=
  verdict file = .ok none ∧ answer file = .ok ()

theorem ne_ok_of_failed (h : Compiler.resultOf (verdict file) = .error failure) :
    verdict file ≠ .ok none := by
  intro hok
  rw [hok] at h
  cases h

theorem not_passes_of_failed (h : Compiler.resultOf (verdict file) = .error failure) :
    ¬Passes verdict answer file :=
  fun hpasses ↦ ne_ok_of_failed h hpasses.1

theorem not_passes_of_raised (h : answer file = .error failure) : ¬Passes verdict answer file := by
  intro hpasses
  rw [hpasses.2] at h
  cases h

theorem resultOf_eq_ok_iff {ended : Except Failure (Option CompileError)} :
    Compiler.resultOf ended = .ok () ↔ ended = .ok none := by
  rcases ended with _ | _ | _ <;> simp [Compiler.resultOf]

/-- How far the results of `files` can have been handed on: with the files that have been called back
for, and what the handing on has ended with. -/
inductive HandedOn (verdict : String → Except Failure (Option CompileError))
    (answer : String → Except Failure Unit) (files : List String) :
    List String → Option (Except Failure Unit) → Prop
  | going {front rear : List String} (hfiles : files = front ++ rear)
    (hfront : ∀ file ∈ front, Passes verdict answer file) : HandedOn verdict answer files front none
  | all (h : ∀ file ∈ files, Passes verdict answer file) :
    HandedOn verdict answer files files (some (.ok ()))
  | failed {front rear : List String} {file : String} {failure : Failure}
    (hfiles : files = front ++ file :: rear) (hfront : ∀ file ∈ front, Passes verdict answer file)
    (hfile : Compiler.resultOf (verdict file) = .error failure) :
    HandedOn verdict answer files front (some (.error failure))
  | raised {front rear : List String} {file : String} {failure : Failure}
    (hfiles : files = front ++ file :: rear) (hfront : ∀ file ∈ front, Passes verdict answer file)
    (hfile : verdict file = .ok none) (hanswer : answer file = .error failure) :
    HandedOn verdict answer files (front ++ [file]) (some (.error failure))

namespace HandedOn

theorem passes (h : HandedOn verdict answer files called none) :
    ∀ file ∈ called, Passes verdict answer file := by
  cases h with
  | going hfiles hfront => exact hfront

/-- The handing on if all files pass. -/
theorem of_passes (h : HandedOn verdict answer files called (some result))
    (hall : ∀ file ∈ files, Passes verdict answer file) : called = files ∧ result = .ok () := by
  have hmem : ∀ {front rear : List String} {file : String}, files = front ++ file :: rear →
      Passes verdict answer file := fun hfiles ↦ hall _ (by simp [hfiles])
  cases h with
  | all => exact ⟨rfl, rfl⟩
  | failed hfiles hfront hfile => exact absurd (hmem hfiles) (not_passes_of_failed hfile)
  | raised hfiles hfront hfile hanswer => exact absurd (hmem hfiles) (not_passes_of_raised hanswer)

/-- The handing on if `file` is the first that does not pass. -/
theorem of_split (h : HandedOn verdict answer files called (some result))
    (hfiles : files = front ++ file :: rear) (hfront : ∀ file ∈ front, Passes verdict answer file)
    (hfile : ¬Passes verdict answer file) :
    (called = front ∧ verdict file ≠ .ok none ∧ Compiler.resultOf (verdict file) = result) ∨
    (called = front ++ [file] ∧ verdict file = .ok none ∧ answer file = result) := by
  cases h with
  | all hall => exact absurd (hall file (by simp [hfiles])) hfile
  | failed hfiles' hfront' hfile' =>
    obtain ⟨rfl, rfl⟩ := split_unique (hfiles'.symm.trans hfiles) hfront' hfront
      (not_passes_of_failed hfile') hfile
    exact .inl ⟨rfl, ne_ok_of_failed hfile', hfile'⟩
  | raised hfiles' hfront' hfile' hanswer =>
    obtain ⟨rfl, rfl⟩ := split_unique (hfiles'.symm.trans hfiles) hfront' hfront
      (not_passes_of_raised hanswer) hfile
    exact .inr ⟨rfl, hfile', hanswer⟩

/-- The failure of the first file that does not compile comes out. -/
theorem of_failed (h : HandedOn verdict answer files called (some result))
    (hfiles : files = front ++ file :: rear) (hfront : ∀ file ∈ front, Passes verdict answer file)
    (hfile : Compiler.resultOf (verdict file) = .error failure) :
    called = front ∧ result = .error failure := by
  obtain ⟨hcalled, -, hresult⟩ | ⟨-, hok, -⟩ :=
    h.of_split hfiles hfront (not_passes_of_failed hfile)
  · exact ⟨hcalled, hresult.symm.trans hfile⟩
  · exact absurd hok (ne_ok_of_failed hfile)

/-- The failure of the callback for the first file that does not pass comes out. -/
theorem of_raised (h : HandedOn verdict answer files called (some result))
    (hfiles : files = front ++ file :: rear) (hfront : ∀ file ∈ front, Passes verdict answer file)
    (hfile : verdict file = .ok none) (hanswer : answer file = .error failure) :
    called = front ++ [file] ∧ result = .error failure := by
  obtain ⟨-, hnot, -⟩ | ⟨hcalled, -, hresult⟩ :=
    h.of_split hfiles hfront (not_passes_of_raised hanswer)
  · exact absurd hfile hnot
  · exact ⟨hcalled, hresult.symm.trans hanswer⟩

end HandedOn

namespace Build

variable {build : Build σ} {crew crew' : Crew σ} {s : σ} {o : Outcome σ Unit}

/-- What the machinery and the callback end with does not depend on the state. -/
structure Fixed (build : Build σ) (files : List String)
    (verdict : String → Except Failure (Option CompileError))
    (answer : String → Except Failure Unit) : Prop where
  machinery : ∀ file ∈ files, ∀ bound s, (build.machinery file bound s).result = verdict file
  callBack : ∀ file ∈ files, ∀ bound s, (build.callBack file bound s).result = answer file

theorem Fixed.compileOne (hfixed : build.Fixed files verdict answer) (hfile : file ∈ files)
    (h : ∃ bound s, (build.compileOne file bound s).result = result) :
    Compiler.resultOf (verdict file) = result := by
  obtain ⟨bound, s, rfl⟩ := h
  rw [result_compileOne, hfixed.machinery file hfile]

theorem handedOn_step (hfixed : build.Fixed files verdict answer)
    (horderly : build.Orderly files crew)
    (h : HandedOn verdict answer files crew.calledBack crew.left?)
    (hstep : build.Step crew crew') :
    HandedOn verdict answer files crew'.calledBack crew'.left? := by
  cases hstep with
  | take | withdraw | finish => exact h
  | @handOn front rear file bound hjobs hnext hleft =>
    have hfiles := horderly.files_eq_append hjobs hnext
    have hcalled := (hleft ▸ h).passes
    have hfile : verdict file = .ok none := resultOf_eq_ok_iff.1
      (hfixed.compileOne (horderly.mem_files hjobs) (horderly.exists_result_eq hjobs))
    have hanswer := hfixed.callBack file (horderly.mem_files hjobs) bound crew.state
    rcases hresult : answer file with failure | value
    · rw [left?_handedOn_of_error (hanswer.trans hresult)]
      exact .raised hfiles hcalled hfile hresult
    · rw [left?_handedOn_of_ok (hanswer.trans hresult)]
      refine .going (hfiles.trans (List.append_cons _ _ _)) fun other hother ↦ ?_
      rcases List.mem_append.1 hother with hother | hother
      · exact hcalled other hother
      · exact List.mem_singleton.1 hother ▸ ⟨hfile, hresult⟩
  | fail hjobs hnext hleft =>
    exact .failed (horderly.files_eq_append hjobs hnext) (hleft ▸ h).passes
      (hfixed.compileOne (horderly.mem_files hjobs) (horderly.exists_result_eq hjobs))
  | leave hall hleft =>
    have hcalled : crew.calledBack = files :=
      horderly.called.eq_of_length (by rw [← hall, ← horderly.files_eq, List.length_map])
    rw [hcalled]
    exact .all (hcalled ▸ (hleft ▸ h).passes)

/-- **The schedule does not matter** to what becomes of files that pass the check, if what becomes of
each is fixed. Every schedule comes to its end, and compiling the files one after another is one of
them. If all files pass, all are compiled and called back for. Otherwise the callbacks come for the
files before the first that fails, and its failure comes out. Whatever is compiled goes into the
file of its module, and all of it at one level: the second if the settings turn documentation off,
else the first if they turn debugging information off, and else `-1`, which leaves it open. -/
theorem schedule_irrelevant (build : Build σ) (files : List String) (s : σ)
    (hcheck : build.refusal? files = none) (hfixed : build.Fixed files verdict answer)
    (hlacks : build.Lacks Effect.compiled? files) :
    let level : Int :=
      if build.settings.lookup "docs" = some false then 2
      else if build.settings.lookup "debug_info" = some false then 1
      else -1
    let recorded (compiled : List String) := compiled.map fun file ↦
      (file, Path.join build.output ((Path.splitExtension (Path.baseName file)).1 ++ ".pyc"), level)
    (WellFounded fun crew' crew ↦ build.Step crew crew') ∧
    (∀ crew, build.Steps (.start files s) crew →
      crew.Ended ∨ ∃ crew', build.Step crew crew') ∧
    (∀ bound, ∃ crew, build.Compiles files s crew (build.inTurn files bound s)) ∧
    ∀ crew o, build.Compiles files s crew o →
      (∃ compiled, compiled.Sublist files ∧ (compiledIn o.effects).Perm (recorded compiled)) ∧
      ((∀ file ∈ files, Passes verdict answer file) →
        o.result = .ok () ∧ crew.calledBack = files ∧
        (compiledIn o.effects).Perm (recorded files)) ∧
      ∀ front file rear, files = front ++ file :: rear →
        (∀ other ∈ front, Passes verdict answer other) →
        (∀ error, verdict file = .ok (some error) →
          crew.calledBack = front ∧ o.result = .error (Compiler.CompileError.failure error)) ∧
        (∀ message, verdict file = .ok (some (.source message)) →
          o.result = .error { cause := .compilation (Text.trim message) none }) ∧
        (∀ failure, verdict file = .error failure →
          crew.calledBack = front ∧ o.result = .error failure) ∧
        ∀ failure, verdict file = .ok none → answer file = .error failure →
          crew.calledBack = front ++ [file] ∧ o.result = .error failure := by
  intro level recorded
  have hrecorded : recorded = List.map build.entry :=
    funext fun _ ↦ List.map_congr_left fun file _ ↦ (build.entry_eq file).symm
  have hstart := orderly_start build files s
  refine ⟨build.wellFounded_step, fun crew hsteps ↦ ?_, (build.compiles_inTurn files · s),
    fun crew o h ↦ ?_⟩
  · by_cases hended : crew.Ended
    · exact .inl hended
    · exact .inr ((hstart.steps hsteps).exists_step hended)
  obtain ⟨hsteps, -, hleft⟩ := h.carriedOut_of_check hcheck
  have hhanded := hstart.preserves (handedOn_step hfixed) (.going rfl nofun) hsteps
  rw [hleft] at hhanded
  rw [hrecorded]
  refine ⟨⟨crew.compiled, h.compiled_sublist, h.recorded hlacks⟩, fun hall ↦ ?_,
    fun front file rear hfiles hfront ↦ ?_⟩
  · obtain ⟨hcalled, hresult⟩ := hhanded.of_passes hall
    exact ⟨hresult, hcalled, h.compiled_eq_of_ok hresult ▸ h.recorded hlacks⟩
  · have hfailed := fun error (h : verdict file = .ok (some error)) ↦
      hhanded.of_failed hfiles hfront (congrArg Compiler.resultOf h)
    exact ⟨hfailed, fun message h ↦ (hfailed _ h).2,
      fun failure h ↦ hhanded.of_failed hfiles hfront (congrArg Compiler.resultOf h),
      fun failure ↦ hhanded.of_raised hfiles hfront⟩

/-- A source with an error, and an interrupt at a later one. -/
def faultyVerdict (file : String) : Except Failure (Option CompileError) :=
  if file = "b.py" then .ok (some (.source " invalid syntax\n"))
  else if file = "c.py" then .error { cause := .interrupt }
  else .ok none

/-- Two workers that drop documentation, and a machinery that counts how often it is used. -/
def faulty : Build Nat where
  compiler := ⟨fun file _ _ _ _ used ↦ ⟨faultyVerdict file, used + 1, []⟩⟩
  output := "out"
  settings := [("debug_info", false), ("docs", false)]
  eachFile := some fun file ↦ Hosted.emit (.announced file)
  workers := 2
  workers_pos := by decide

/-- The interrupt may come first in time, and yet it is the error that comes out. Without the two
files all is compiled, at the level for no documentation. -/
theorem schedule_irrelevant_faulty :
    faulty.refusal? ["a.py", "b.py", "c.py"] = none ∧ faulty.refusal? ["a.py", "d.py"] = none ∧
    (∀ crew o, faulty.Compiles ["a.py", "b.py", "c.py"] 0 crew o →
      crew.calledBack = ["a.py"] ∧
      o.result = .error { cause := .compilation "invalid syntax" none }) ∧
    ∀ crew o, faulty.Compiles ["a.py", "d.py"] 0 crew o →
      o.result = .ok () ∧
      (compiledIn o.effects).Perm [("a.py", "out/a.pyc", 2), ("d.py", "out/d.pyc", 2)] := by
  have hcheck : faulty.refusal? ["a.py", "b.py", "c.py"] = none := by decide
  have hcheck' : faulty.refusal? ["a.py", "d.py"] = none := by decide
  have hfixed : ∀ files, faulty.Fixed files faultyVerdict fun _ ↦ .ok () :=
    fun _ ↦ ⟨fun _ _ _ _ ↦ rfl, fun _ _ _ _ ↦ rfl⟩
  have hlacks : ∀ files, faulty.Lacks Effect.compiled? files :=
    fun _ ↦ ⟨fun _ _ _ _ ↦ rfl, fun _ _ _ _ ↦ rfl⟩
  refine ⟨hcheck, hcheck', fun crew o h ↦ ?_, fun crew o h ↦ ?_⟩
  · obtain ⟨-, -, hfails⟩ :=
      (schedule_irrelevant faulty _ 0 hcheck (hfixed _) (hlacks _)).2.2.2 crew o h
    obtain ⟨hfailed, hsource, -⟩ :=
      hfails ["a.py"] "b.py" ["c.py"] rfl (List.forall_mem_singleton.2 ⟨rfl, rfl⟩)
    have htrim : Text.trim " invalid syntax\n" = "invalid syntax" := by decide
    exact ⟨(hfailed _ rfl).1, htrim ▸ hsource _ rfl⟩
  · obtain ⟨-, hpasses, -⟩ :=
      (schedule_irrelevant faulty _ 0 hcheck' (hfixed _) (hlacks _)).2.2.2 crew o h
    obtain ⟨hresult, -, hcompiled⟩ := hpasses
      (List.forall_mem_cons.2 ⟨⟨rfl, rfl⟩, List.forall_mem_singleton.2 ⟨rfl, rfl⟩⟩)
    have htarget : Path.join "out" ((Path.splitExtension (Path.baseName "a.py")).1 ++ ".pyc") =
        "out/a.pyc" := by decide
    have htarget' : Path.join "out" ((Path.splitExtension (Path.baseName "d.py")).1 ++ ".pyc") =
        "out/d.pyc" := by decide
    exact ⟨hresult, htarget ▸ htarget' ▸ hcompiled⟩

end Build

end Launcher.Host
