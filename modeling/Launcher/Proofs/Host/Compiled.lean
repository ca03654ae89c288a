import Launcher.Proofs.Host.Crew

/-!
# What a crew records

The compiler records every file that it has compiled, with the file's target and the level. Unless
the machinery or the callback make such records too, those of a crew are what its jobs say: one for
every file that has ended with success, and none besides (`Build.Compiles.recorded`). If compiling
ends well, these are all files (`Build.Compiles.compiled_eq_of_ok`). The callbacks
leave a record of their own if each of them announces its file, as it does for a dispatch: then what
is announced is what has been called back for (`Build.Compiles.announced`).
-/

namespace Launcher

variable {σ α β : Type}

/-- The file, target and level of a compilation. -/
def Effect.compiled? : Effect → Option (String × String × Int)
  | .event (.compiled file target level) => some (file, target, level)
  | _ => none

/-- The file that is announced. -/
def Effect.announced? : Effect → Option String
  | .event (.announced file) => some file
  | _ => none

/-- What has been compiled, in order. -/
def compiledIn (effects : List Effect) : List (String × String × Int) :=
  effects.filterMap Effect.compiled?

/-- The files that have been announced, in order. -/
def announcedIn (effects : List Effect) : List String := effects.filterMap Effect.announced?

/-- A program that never has an effect of some kind. -/
def Hosted.Lacks (kind? : Effect → Option β) (p : Hosted σ α) : Prop :=
  ∀ bound s, (p bound s).effects.filterMap kind? = []

namespace Host

theorem Settings.not_value_true_iff {settings : Settings} {key : String} :
    (!settings.value key true) = true ↔ settings.lookup key = some false := by
  rw [Settings.value]
  rcases settings.lookup key with - | - | - <;> decide

/-- The level by what is set: only a setting that is turned off changes it. -/
theorem Compiler.level_eq (settings : Settings) :
    Compiler.level settings =
      if settings.lookup "docs" = some false then 2
      else if settings.lookup "debug_info" = some false then 1
      else -1 := by
  simp only [Compiler.level, Settings.not_value_true_iff]

/-- What becomes of a compilation, if the machinery ends like this. -/
def Compiler.resultOf : Except Failure (Option CompileError) → Except Failure Unit
  | .ok none => .ok ()
  | .ok (some error) => .error (Compiler.CompileError.failure error)
  | .error failure => .error failure

/-- Whether a job has ended with success. -/
def Job.succeeded (job : Job) : Bool :=
  match job.phase with
  | .ended (.ok _) => true
  | _ => false

/-- The files of the jobs that have ended with success. -/
def succeededIn (jobs : List Job) : List String := (jobs.filter Job.succeeded).map Job.file

theorem succeededIn_append (jobs jobs' : List Job) :
    succeededIn (jobs ++ jobs') = succeededIn jobs ++ succeededIn jobs' := by
  rw [succeededIn, List.filter_append, List.map_append, succeededIn, succeededIn]

theorem succeededIn_cons (job : Job) (jobs : List Job) :
    succeededIn (job :: jobs) = succeededIn [job] ++ succeededIn jobs :=
  succeededIn_append [job] jobs

/-- The files that a crew has compiled, in the order of the list. -/
def Crew.compiled (crew : Crew σ) : List String := succeededIn crew.jobs

namespace Build

variable (build : Build σ)

/-- What is recorded of a file. -/
def entry (file : String) : String × String × Int :=
  (file, Compiler.target build.output file, Compiler.level build.settings)

/-- A file is compiled to the bytecode of its module, at the level by what is set. -/
theorem entry_eq (file : String) :
    build.entry file =
      (file, Path.join build.output ((Path.splitExtension (Path.baseName file)).1 ++ ".pyc"),
        if build.settings.lookup "docs" = some false then 2
        else if build.settings.lookup "debug_info" = some false then 1
        else -1) := by
  rw [entry, Compiler.level_eq]
  rfl

/-- What is asked of the machinery for a file. -/
def machinery (file : String) : Hosted σ (Option CompileError) :=
  build.compiler.compile file (Compiler.target build.output file) (Compiler.level build.settings)
    (build.settings.value "warnings_as_errors" false)

/-- Neither the machinery nor the callback has effects of some kind. -/
structure Lacks (kind? : Effect → Option β) (files : List String) : Prop where
  machinery : ∀ file ∈ files, (build.machinery file).Lacks kind?
  callBack : ∀ file ∈ files, (build.callBack file).Lacks kind?

/-! ### Compiling one file -/

/-- What follows when the machinery returns. -/
def conclude (file : String) : Option CompileError → Hosted σ Unit
  | some error => Hosted.raise (Compiler.CompileError.failure error)
  | none => Hosted.emit (.compiled file (Compiler.target build.output file)
      (Compiler.level build.settings))

theorem compileOne_eq (file : String) :
    build.compileOne file = (build.machinery file).andThen (build.conclude file) := by
  refine congrArg (build.machinery file).andThen (funext fun error? ↦ ?_)
  cases error? <;> rfl

theorem result_compileOne (file : String) (bound : Bool) (s : σ) :
    (build.compileOne file bound s).result =
      Compiler.resultOf (build.machinery file bound s).result := by
  rw [compileOne_eq]
  rcases h : (build.machinery file bound s).result with failure | error?
  · rw [Hosted.andThen_apply_of_error h]
    rfl
  · rw [Hosted.andThen_apply_of_ok h]
    cases error? <;> rfl

/-- The record of a compilation with this result. -/
def record (file : String) : Except Failure Unit → List Effect
  | .ok _ => [.event (.compiled file (Compiler.target build.output file)
      (Compiler.level build.settings))]
  | .error _ => []

theorem effects_compileOne (file : String) (bound : Bool) (s : σ) :
    (build.compileOne file bound s).effects = (build.machinery file bound s).effects ++
      build.record file (build.compileOne file bound s).result := by
  rw [result_compileOne, compileOne_eq]
  rcases h : (build.machinery file bound s).result with failure | error?
  · rw [Hosted.andThen_apply_of_error h]
    exact (List.append_nil _).symm
  · rw [Hosted.andThen_apply_of_ok h]
    cases error? <;> rfl

variable {build} {crew crew' : Crew σ} {files : List String} {s : σ} {o : Outcome σ Unit}

/-! ### The compiled files -/

/-- A file is recorded when its compilation has succeeded. -/
theorem compiledIn_compileOne {file : String} (h : (build.machinery file).Lacks Effect.compiled?)
    (bound : Bool) (s : σ) : compiledIn (build.compileOne file bound s).effects =
      (succeededIn [⟨file, .ended (build.compileOne file bound s).result⟩]).map build.entry := by
  rw [effects_compileOne, compiledIn, List.filterMap_append, h bound s]
  cases (build.compileOne file bound s).result <;> rfl

/-- What has been recorded is what has been compiled. -/
def Recorded (build : Build σ) (crew : Crew σ) : Prop :=
  (compiledIn crew.effects).Perm (crew.compiled.map build.entry)

theorem recorded_start (build : Build σ) (files : List String) (s : σ) :
    build.Recorded (.start files s) := by
  have hnone : (jobsOf .waiting files).filter Job.succeeded = [] := by
    refine List.filter_eq_nil_iff.2 fun job hjob ↦ ?_
    rw [Job.succeeded, phase_of_mem_jobsOf hjob]
    exact Bool.false_ne_true
  rw [Recorded, Crew.compiled, Crew.start, succeededIn, hnone]
  exact .nil

/-- A change of one job, told by whether it has succeeded. -/
theorem compiled_eq {front rear : List Job} {job : Job} (hjobs : crew.jobs = front ++ job :: rear) :
    crew.compiled = succeededIn front ++ (succeededIn [job] ++ succeededIn rear) := by
  rw [Crew.compiled, hjobs, succeededIn_append, succeededIn_cons]

theorem Recorded.step (h : build.Recorded crew) (horderly : build.Orderly files crew)
    (hlacks : build.Lacks Effect.compiled? files) (hstep : build.Step crew crew') :
    build.Recorded crew' := by
  cases hstep with
  | take hjobs | withdraw hjobs =>
    rw [Recorded, compiled_eq hjobs] at h
    rw [Recorded, compiled_eq rfl]
    exact h
  | @finish front rear file bound hjobs =>
    have hbefore : (compiledIn crew.effects).Perm
        ((succeededIn front).map build.entry ++ (succeededIn rear).map build.entry) := by
      rwa [Recorded, compiled_eq hjobs, List.map_append] at h
    rw [Recorded, compiled_eq rfl, finished, compiledIn, List.filterMap_append, ← compiledIn,
      ← compiledIn, compiledIn_compileOne (hlacks.machinery _ (horderly.mem_files hjobs)),
      List.map_append, List.map_append]
    -- the new entry stands behind the others, and its file may stand before some of theirs
    exact ((hbefore.append_right _).trans (.of_eq (List.append_assoc _ _ _))).trans
      (List.perm_append_comm.append_left _)
  | handOn bound hjobs hnext hleft =>
    have hnone := hlacks.callBack _ (horderly.mem_files hjobs) bound crew.state
    rw [Recorded, handedOn, compiledIn, List.filterMap_append, hnone, List.append_nil]
    exact h
  | fail | leave => exact h

/-- **What is recorded is what has been compiled**, each file as often as it stands in the list. -/
theorem Compiles.recorded (h : build.Compiles files s crew o)
    (hlacks : build.Lacks Effect.compiled? files) :
    (compiledIn o.effects).Perm (crew.compiled.map build.entry) := by
  cases h with
  | refused => exact .nil
  | carriedOut hrefusal hsteps =>
    exact (orderly_start build files s).preserves (fun horderly h ↦ h.step horderly hlacks)
      (recorded_start build files s) hsteps

/-- Whatever has been compiled is in the list, and not more often than there. -/
theorem Compiles.compiled_sublist (h : build.Compiles files s crew o) :
    crew.compiled.Sublist files := by
  cases h with
  | refused => exact List.nil_sublist _
  | carriedOut hrefusal hsteps =>
    have hfiles := ((orderly_start build files s).steps hsteps).files_eq
    exact hfiles ▸ List.filter_sublist.map Job.file

/-- The files that have been called back for have been compiled. If the handing on has ended well,
these are all. -/
structure Acknowledged (crew : Crew σ) : Prop where
  succeeded : ∀ job ∈ crew.jobs.take crew.calledBack.length, job.succeeded
  all : crew.left? = some (.ok ()) → crew.jobs.length = crew.calledBack.length

/-- The first jobs stay the same if they have succeeded and the one that changes has not. -/
theorem take_changed {front rear : List Job} {old new : Job} {n : Nat}
    (h : ∀ job ∈ (front ++ old :: rear).take n, job.succeeded) (hold : ¬old.succeeded) :
    (front ++ new :: rear).take n = (front ++ old :: rear).take n := by
  have hle : n ≤ front.length := by
    refine Nat.le_of_not_lt fun hlt ↦ hold (h old ?_)
    refine List.mem_take_iff_getElem.2 ⟨front.length, ?_, by simp⟩
    rw [List.length_append, List.length_cons]
    omega
  rw [List.take_append_of_le_length hle, List.take_append_of_le_length hle]

theorem Acknowledged.step (h : Acknowledged crew) (hstep : build.Step crew crew') :
    Acknowledged crew' := by
  -- a job that changes has not succeeded, so it has not been called back for
  have hchanged : ∀ {front rear : List Job} {old new : Job}, crew.jobs = front ++ old :: rear →
      ¬old.succeeded → (∀ job ∈ (front ++ new :: rear).take crew.calledBack.length, job.succeeded) ∧
        (front ++ new :: rear).length = crew.jobs.length := by
    intro front rear old new hjobs hold
    have hsucceeded := h.succeeded
    rw [hjobs] at hsucceeded
    refine ⟨?_, by simp [hjobs]⟩
    rwa [take_changed hsucceeded hold]
  cases hstep with
  | take hjobs | withdraw hjobs | finish _ hjobs =>
    obtain ⟨hsucceeded, hlength⟩ := hchanged hjobs (by simp [Job.succeeded])
    exact ⟨hsucceeded, fun hleft ↦ hlength.trans (h.all hleft)⟩
  | @handOn front rear file bound hjobs hnext hleft =>
    have htake : crew.jobs.take (crew.calledBack ++ [file]).length =
        crew.jobs.take crew.calledBack.length ++ [⟨file, .ended (.ok ())⟩] := by
      rw [List.length_append, List.length_singleton, hjobs, ← hnext, List.take_left,
        List.take_length_add_append, List.take_succ_cons, List.take_zero]
    refine ⟨?_, fun hended ↦ ?_⟩
    · show ∀ job ∈ crew.jobs.take (crew.calledBack ++ [file]).length, job.succeeded
      rw [htake]
      exact List.forall_mem_append.2 ⟨h.succeeded, List.forall_mem_singleton.2 rfl⟩
    · rcases hanswer : (build.callBack file bound crew.state).result with failure | value
      · rw [left?_handedOn_of_error hanswer] at hended
        cases hended
      · rw [left?_handedOn_of_ok hanswer] at hended
        cases hended
  | fail => exact ⟨h.succeeded, nofun⟩
  | leave hall => exact ⟨h.succeeded, fun _ ↦ hall⟩

/-- If compiling ends well, every file has been compiled. -/
theorem Compiles.compiled_eq_of_ok (h : build.Compiles files s crew o) (hok : o.result = .ok ()) :
    crew.compiled = files := by
  cases h with
  | refused => cases hok
  | carriedOut hrefusal hsteps hended hleft =>
    have horderly := orderly_start build files s
    have hstart : Acknowledged (Crew.start files s) := ⟨nofun, nofun⟩
    have hacknowledged := horderly.preserves (fun _ h ↦ h.step) hstart hsteps
    have hsucceeded := hacknowledged.succeeded
    rw [← hacknowledged.all (hleft.trans (congrArg some hok)), List.take_length] at hsucceeded
    rw [Crew.compiled, succeededIn, List.filter_eq_self.2 hsucceeded,
      (horderly.steps hsteps).files_eq]

/-! ### The announced files -/

theorem announcedIn_compileOne {file : String} (h : (build.machinery file).Lacks Effect.announced?)
    (bound : Bool) (s : σ) : announcedIn (build.compileOne file bound s).effects = [] := by
  rw [effects_compileOne, announcedIn, List.filterMap_append, h bound s]
  cases (build.compileOne file bound s).result <;> rfl

theorem announced_step (hmachinery : ∀ file ∈ files, (build.machinery file).Lacks Effect.announced?)
    (heach : build.eachFile = some fun file ↦ Hosted.emit (.announced file))
    (horderly : build.Orderly files crew) (h : announcedIn crew.effects = crew.calledBack)
    (hstep : build.Step crew crew') : announcedIn crew'.effects = crew'.calledBack := by
  cases hstep with
  | finish bound hjobs =>
    have hnone := announcedIn_compileOne (hmachinery _ (horderly.mem_files hjobs)) bound crew.state
    rw [finished, announcedIn, List.filterMap_append, ← announcedIn, ← announcedIn, hnone,
      List.append_nil, h]
  | handOn bound hjobs hnext hleft =>
    rw [handedOn, callBack, heach, announcedIn, List.filterMap_append, ← announcedIn, h]
    rfl
  | take | withdraw | fail | leave => exact h

/-- **What is announced is what has been called back for**, if this is all that the callback does. -/
theorem Compiles.announced (h : build.Compiles files s crew o)
    (hmachinery : ∀ file ∈ files, (build.machinery file).Lacks Effect.announced?)
    (heach : build.eachFile = some fun file ↦ Hosted.emit (.announced file)) :
    announcedIn o.effects = crew.calledBack := by
  cases h with
  | refused => rfl
  | carriedOut hrefusal hsteps =>
    exact (orderly_start build files s).preserves (announced_step hmachinery heach) rfl hsteps

end Build

end Host

end Launcher
