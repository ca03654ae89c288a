import Mathlib.Logic.Relation
import Launcher.Host.Compiler

/-!
# A crew that compiles

Files can be compiled by a crew of workers. All of them wait at first, in the order of the list. A
free worker takes the first one that waits, and some time later its compilation ends. Meanwhile the
results are handed on in the order of the list: a success is called back for, the first failure ends
the handing on. Files that still wait then are withdrawn, unless a worker is faster. The crew is left
when no file waits and no worker is at work.

The steps of workers and of the handing on may come in any order (`Build.Step`), but they come to an
end (`Build.wellFounded_step`), and the crew never gets stuck before
(`Build.Orderly.exists_step`). Compiling the files one after another is one of the things that a crew
may do (`Build.compiles_inTurn`).
-/

namespace Launcher.Host

variable {σ : Type}

/-- What is asked of a crew, apart from the files. -/
structure Build (σ : Type) where
  compiler : Compiler σ
  output : String
  settings : Settings
  eachFile : Option (String → Hosted σ Unit)
  workers : Nat
  workers_pos : 0 < workers

/-- How far a file has come. -/
inductive Phase
  | waiting
  | running
  | ended (result : Except Failure Unit)
  | withdrawn

/-- Whether a file waits for a worker. -/
def Phase.isWaiting : Phase → Bool
  | waiting => true
  | _ => false

/-- Whether a worker is at work on a file. -/
def Phase.isRunning : Phase → Bool
  | running => true
  | _ => false

/-- Whether nothing will become of a file any more. -/
def Phase.isOver : Phase → Bool
  | ended _ => true
  | withdrawn => true
  | _ => false

theorem Phase.eq_running {phase : Phase} (h : phase.isRunning) : phase = .running := by
  cases phase with
  | running => rfl
  | _ => cases h

/-- A file and how far it has come. -/
structure Job where
  file : String
  phase : Phase

/-- Files that have all come as far. -/
def jobsOf (phase : Phase) (files : List String) : List Job := files.map fun file ↦ ⟨file, phase⟩

theorem map_file_jobsOf (phase : Phase) (files : List String) :
    (jobsOf phase files).map Job.file = files := by
  simp [jobsOf, Function.comp_def]

theorem phase_of_mem_jobsOf {phase : Phase} {files : List String} {job : Job}
    (h : job ∈ jobsOf phase files) : job.phase = phase := by
  obtain ⟨file, -, rfl⟩ := List.mem_map.1 h
  rfl

/-- The state of a crew. -/
structure Crew (σ : Type) where
  /-- All files, in the order of the list. -/
  jobs : List Job
  state : σ
  effects : List Effect := []
  /-- The files that have been called back for, in order. -/
  calledBack : List String := []
  /-- What the handing on of results has ended with, if it has. -/
  left? : Option (Except Failure Unit) := none

namespace Crew

/-- All files wait. -/
def start (files : List String) (s : σ) : Crew σ where
  jobs := jobsOf .waiting files
  state := s

/-- The number of workers that are at work. -/
def busy (crew : Crew σ) : Nat := crew.jobs.countP (·.phase.isRunning)

/-- No worker is at work or has something to do, and the handing on of results has ended. -/
structure Ended (crew : Crew σ) : Prop where
  idle : ∀ job ∈ crew.jobs, job.phase.isOver
  left : crew.left?.isSome

/-- The number of steps that a crew still takes at most. -/
def effort (crew : Crew σ) : Nat :=
  crew.jobs.countP (·.phase.isWaiting) + crew.jobs.countP (!·.phase.isOver) +
    (crew.jobs.length - crew.calledBack.length) + crew.left?.elim 1 fun _ ↦ 0

end Crew

namespace Build

variable (build : Build σ)

/-- Compile one file. -/
def compileOne (file : String) : Hosted σ Unit :=
  build.compiler.compileOne build.output build.settings file

/-- Call back for a file. -/
def callBack (file : String) : Hosted σ Unit :=
  match build.eachFile with
  | some f => f file
  | none => pure ()

/-- What the check before everything else finds. -/
def refusal? (files : List String) : Option Failure :=
  if build.settings.value "ignore_module_conflict" false then none
  else Compiler.findConflict build.output [] files

/-- Compile files without a crew. -/
def inTurn (files : List String) : Hosted σ Unit :=
  build.compiler.compileFiles files build.output build.settings build.eachFile

/-- The crew after the compilation of a file has ended. -/
def finished (bound : Bool) (crew : Crew σ) (front : List Job) (file : String)
    (rear : List Job) : Crew σ :=
  let o := build.compileOne file bound crew.state
  { crew with
    jobs := front ++ ⟨file, .ended o.result⟩ :: rear
    state := o.state
    effects := crew.effects ++ o.effects }

/-- The crew after a file has been called back for. A failure of the callback ends the handing on
of results. -/
def handedOn (bound : Bool) (crew : Crew σ) (file : String) : Crew σ :=
  let o := build.callBack file bound crew.state
  { crew with
    state := o.state
    effects := crew.effects ++ o.effects
    calledBack := crew.calledBack ++ [file]
    left? := match o.result with
      | .ok () => none
      | .error failure => some (.error failure) }

/-- A step of a crew. -/
inductive Step : Crew σ → Crew σ → Prop
  /-- A free worker takes the first file that waits. -/
  | take {crew : Crew σ} {front rear : List Job} {file : String}
    (hjobs : crew.jobs = front ++ ⟨file, .waiting⟩ :: rear)
    (hfirst : ∀ job ∈ front, job.phase ≠ .waiting) (hfree : crew.busy < build.workers) :
    Step crew { crew with jobs := front ++ ⟨file, .running⟩ :: rear }
  /-- The compilation of a file ends. -/
  | finish {crew : Crew σ} {front rear : List Job} {file : String} (bound : Bool)
    (hjobs : crew.jobs = front ++ ⟨file, .running⟩ :: rear) :
    Step crew (build.finished bound crew front file rear)
  /-- The next result is a success. -/
  | handOn {crew : Crew σ} {front rear : List Job} {file : String} (bound : Bool)
    (hjobs : crew.jobs = front ++ ⟨file, .ended (.ok ())⟩ :: rear)
    (hnext : front.length = crew.calledBack.length) (hleft : crew.left? = none) :
    Step crew (build.handedOn bound crew file)
  /-- The next result is a failure. -/
  | fail {crew : Crew σ} {front rear : List Job} {file : String} {failure : Failure}
    (hjobs : crew.jobs = front ++ ⟨file, .ended (.error failure)⟩ :: rear)
    (hnext : front.length = crew.calledBack.length) (hleft : crew.left? = none) :
    Step crew { crew with left? := some (.error failure) }
  /-- All results have been handed on. -/
  | leave {crew : Crew σ} (hall : crew.jobs.length = crew.calledBack.length)
    (hleft : crew.left? = none) : Step crew { crew with left? := some (.ok ()) }
  /-- A file that still waits is withdrawn because of a failure. -/
  | withdraw {crew : Crew σ} {front rear : List Job} {file : String} {failure : Failure}
    (hjobs : crew.jobs = front ++ ⟨file, .waiting⟩ :: rear)
    (hleft : crew.left? = some (.error failure)) :
    Step crew { crew with jobs := front ++ ⟨file, .withdrawn⟩ :: rear }

/-- Any number of steps of a crew. -/
def Steps : Crew σ → Crew σ → Prop := Relation.ReflTransGen build.Step

/-- Compiling `files` from the state `s` may leave a crew like this with the outcome `o`. If there
is a conflict, the crew does not start. -/
inductive Compiles (files : List String) (s : σ) : Crew σ → Outcome σ Unit → Prop
  | refused {failure : Failure} (hrefusal : build.refusal? files = some failure) :
    Compiles files s (.start [] s) ⟨.error failure, s, []⟩
  | carriedOut {crew : Crew σ} {result : Except Failure Unit}
    (hrefusal : build.refusal? files = none) (hsteps : build.Steps (.start files s) crew)
    (hended : crew.Ended) (hleft : crew.left? = some result) :
    Compiles files s crew ⟨result, crew.state, crew.effects⟩

variable {build} {crew crew' : Crew σ} {files : List String} {s : σ}

/-- Files that have passed the check are given to the crew. -/
theorem Compiles.carriedOut_of_check {o : Outcome σ Unit} (h : build.Compiles files s crew o)
    (hcheck : build.refusal? files = none) :
    build.Steps (.start files s) crew ∧ crew.Ended ∧ crew.left? = some o.result := by
  cases h with
  | refused hrefusal =>
    rw [hcheck] at hrefusal
    cases hrefusal
  | carriedOut hrefusal hsteps hended hleft => exact ⟨hsteps, hended, hleft⟩

section Fields

variable {bound : Bool} {front rear : List Job} {file : String} {result : Except Failure Unit}
  {failure : Failure}

theorem jobs_finished (h : (build.compileOne file bound crew.state).result = result) :
    (build.finished bound crew front file rear).jobs = front ++ ⟨file, .ended result⟩ :: rear := by
  rw [finished, h]

theorem left?_handedOn_of_ok (h : (build.callBack file bound crew.state).result = .ok ()) :
    (build.handedOn bound crew file).left? = none := by
  simp only [handedOn, h]

theorem left?_handedOn_of_error
    (h : (build.callBack file bound crew.state).result = .error failure) :
    (build.handedOn bound crew file).left? = some (.error failure) := by
  simp only [handedOn, h]

end Fields

/-! ### Coming to an end -/

theorem Step.effort_lt (h : build.Step crew crew') : crew'.effort < crew.effort := by
  cases h with
  | take hjobs | finish _ hjobs | withdraw hjobs =>
    simp only [Crew.effort, finished, hjobs, List.countP_append, List.countP_cons,
      List.length_append, List.length_cons, Phase.isWaiting, Phase.isOver, Bool.not_true,
      Bool.not_false, Bool.false_eq_true, if_true, if_false]
    omega
  | handOn bound hjobs hnext hleft =>
    have hlength : crew.calledBack.length < crew.jobs.length := by
      rw [hjobs, ← hnext]
      simp
    simp only [Crew.effort, handedOn, hleft, List.length_append, List.length_singleton]
    cases (build.callBack _ bound crew.state).result <;> simp only [Option.elim] <;> omega
  | fail hjobs hnext hleft | leave hnext hleft =>
    simp only [Crew.effort, hleft, Option.elim]
    omega

/-- **No crew takes steps forever.** -/
theorem wellFounded_step (build : Build σ) :
    WellFounded fun crew' crew ↦ build.Step crew crew' :=
  Subrelation.wf (fun h ↦ h.effort_lt) (measure Crew.effort).wf

/-! ### Never getting stuck -/

/-- The jobs are those of the files, and have ended as the files do. The callbacks have come in the
order of the files, and nothing has been withdrawn without a failure. -/
structure Orderly (build : Build σ) (files : List String) (crew : Crew σ) : Prop where
  files_eq : crew.jobs.map Job.file = files
  ended : ∀ job ∈ crew.jobs, ∀ result, job.phase = .ended result →
    ∃ bound s, (build.compileOne job.file bound s).result = result
  called : crew.calledBack <+: files
  withdrawn : ∀ job ∈ crew.jobs, job.phase = .withdrawn →
    ∃ failure, crew.left? = some (.error failure)

theorem orderly_start (build : Build σ) (files : List String) (s : σ) :
    build.Orderly files (.start files s) where
  files_eq := map_file_jobsOf .waiting files
  ended job hjob result hphase := by
    rw [phase_of_mem_jobsOf hjob] at hphase
    cases hphase
  called := List.nil_prefix
  withdrawn job hjob hphase := by
    rw [phase_of_mem_jobsOf hjob] at hphase
    cases hphase

/-- A job of a crew in which one job has changed. -/
theorem mem_of_mem_changed {front rear : List Job} {old new job : Job}
    (hjobs : crew.jobs = front ++ old :: rear) (h : job ∈ front ++ new :: rear) :
    job = new ∨ job ∈ crew.jobs := by
  rw [hjobs]
  rcases List.mem_append.1 h with hfront | hrest
  · exact .inr (List.mem_append_left _ hfront)
  · exact (List.mem_cons.1 hrest).imp_right fun hrear ↦
      List.mem_append_right _ (List.mem_cons_of_mem _ hrear)

theorem map_file_changed {front rear : List Job} {file : String} {old new : Phase}
    (hjobs : crew.jobs = front ++ ⟨file, old⟩ :: rear) :
    (front ++ ⟨file, new⟩ :: rear).map Job.file = crew.jobs.map Job.file := by
  rw [hjobs]
  simp

namespace Orderly

variable {front rear : List Job} {job : Job} {file : String} {phase : Phase}

theorem mem_files (h : build.Orderly files crew) (hjobs : crew.jobs = front ++ job :: rear) :
    job.file ∈ files := by
  rw [← h.files_eq, hjobs]
  simp

/-- The files before the next result are those that have been called back for. -/
theorem map_file_eq (h : build.Orderly files crew) (hjobs : crew.jobs = front ++ job :: rear)
    (hnext : front.length = crew.calledBack.length) : front.map Job.file = crew.calledBack := by
  have hfiles : files = front.map Job.file ++ (job :: rear).map Job.file := by
    rw [← List.map_append, ← hjobs, h.files_eq]
  rw [List.prefix_iff_eq_take.1 h.called, hfiles, ← hnext, List.take_left' (List.length_map _)]

theorem files_eq_append (h : build.Orderly files crew) (hjobs : crew.jobs = front ++ job :: rear)
    (hnext : front.length = crew.calledBack.length) :
    files = crew.calledBack ++ job.file :: rear.map Job.file := by
  rw [← h.map_file_eq hjobs hnext, ← h.files_eq, hjobs, List.map_append, List.map_cons]

/-- A file whose result is there has ended with it. -/
theorem exists_result_eq {result : Except Failure Unit} (h : build.Orderly files crew)
    (hjobs : crew.jobs = front ++ ⟨file, .ended result⟩ :: rear) :
    ∃ bound s, (build.compileOne file bound s).result = result :=
  h.ended ⟨file, .ended result⟩ (by simp [hjobs]) result rfl

/-- A job changes, but is neither ended nor withdrawn by that. -/
theorem changed {new : Phase} (h : build.Orderly files crew)
    (hjobs : crew.jobs = front ++ ⟨file, phase⟩ :: rear)
    (hended : ∀ result, new = .ended result →
      ∃ bound s, (build.compileOne file bound s).result = result)
    (hwithdrawn : new = .withdrawn → ∃ failure, crew.left? = some (.error failure)) :
    build.Orderly files { crew with jobs := front ++ ⟨file, new⟩ :: rear } where
  files_eq := (map_file_changed hjobs).trans h.files_eq
  ended job hjob result hphase := by
    rcases mem_of_mem_changed hjobs hjob with rfl | hold
    · exact hended result hphase
    · exact h.ended job hold result hphase
  called := h.called
  withdrawn job hjob hphase := by
    rcases mem_of_mem_changed hjobs hjob with rfl | hold
    · exact hwithdrawn hphase
    · exact h.withdrawn job hold hphase

theorem step (h : build.Orderly files crew) (hstep : build.Step crew crew') :
    build.Orderly files crew' := by
  -- nothing has been withdrawn as long as the handing on goes on
  have hwithdrawn : crew.left? = none → ∀ job ∈ crew.jobs, job.phase ≠ .withdrawn := by
    intro hleft job hjob hphase
    obtain ⟨failure, hfailure⟩ := h.withdrawn job hjob hphase
    rw [hleft] at hfailure
    cases hfailure
  cases hstep with
  | take hjobs => exact h.changed hjobs nofun nofun
  | withdraw hjobs hleft => exact h.changed hjobs nofun fun _ ↦ ⟨_, hleft⟩
  | finish bound hjobs =>
    have hchanged := h.changed hjobs (fun result hresult ↦ ⟨bound, crew.state, Phase.ended.inj hresult⟩)
      nofun
    exact ⟨hchanged.files_eq, hchanged.ended, hchanged.called, hchanged.withdrawn⟩
  | handOn bound hjobs hnext hleft =>
    refine ⟨h.files_eq, h.ended, ?_, fun job hjob hphase ↦ absurd hphase (hwithdrawn hleft job hjob)⟩
    rw [h.files_eq_append hjobs hnext]
    exact ⟨_, (List.append_cons _ _ _).symm⟩
  | fail hjobs hnext hleft | leave hall hleft =>
    exact ⟨h.files_eq, h.ended, h.called,
      fun job hjob hphase ↦ absurd hphase (hwithdrawn hleft job hjob)⟩

theorem steps (h : build.Orderly files crew) (hsteps : build.Steps crew crew') :
    build.Orderly files crew' := by
  induction hsteps with
  | refl => exact h
  | tail _ hstep ih => exact ih.step hstep

/-- What the steps of orderly crews preserve, holds after any number of them. -/
theorem preserves {P : Crew σ → Prop}
    (hstep : ∀ {crew crew'}, build.Orderly files crew → P crew → build.Step crew crew' → P crew')
    (horderly : build.Orderly files crew) (h : P crew) (hsteps : build.Steps crew crew') :
    P crew' := by
  induction hsteps with
  | refl => exact h
  | tail hbefore hlast ih => exact hstep (horderly.steps hbefore) ih hlast

end Orderly

/-- The first member with a property. -/
theorem exists_first {α : Type} (p : α → Prop) {list : List α} {a : α} (ha : a ∈ list) (h : p a) :
    ∃ front b rear, list = front ++ b :: rear ∧ p b ∧ ∀ c ∈ front, ¬p c := by
  induction list with
  | nil => cases ha
  | cons b list ih =>
    by_cases hb : p b
    · exact ⟨[], b, list, rfl, hb, nofun⟩
    · obtain ⟨front, c, rear, rfl, hc, hfront⟩ :=
        ih ((List.mem_cons.1 ha).resolve_left fun hab ↦ hb (hab ▸ h))
      exact ⟨b :: front, c, rear, rfl, hc, List.forall_mem_cons.2 ⟨hb, hfront⟩⟩

/-- Files that are not over are being compiled, or the next of them can be. -/
theorem exists_step_of_not_over {job : Job} (hjob : job ∈ crew.jobs)
    (hover : job.phase.isOver = false) : ∃ crew', build.Step crew crew' := by
  by_cases hbusy : ∃ job ∈ crew.jobs, job.phase = .running
  · obtain ⟨⟨file, phase⟩, hrunning, rfl⟩ := hbusy
    obtain ⟨front, rear, hjobs⟩ := List.append_of_mem hrunning
    exact ⟨_, .finish false hjobs⟩
  · have hwaiting : job.phase = .waiting := by
      cases hphase : job.phase with
      | waiting => rfl
      | running => exact absurd ⟨job, hjob, hphase⟩ hbusy
      | ended _ | withdrawn => simp [hphase, Phase.isOver] at hover
    obtain ⟨front, ⟨file, phase⟩, rear, hjobs, rfl, hfirst⟩ :=
      exists_first (fun job : Job ↦ job.phase = .waiting) hjob hwaiting
    have hfree : crew.busy = 0 := by
      refine List.countP_eq_zero.2 fun job hjob hrunning ↦ hbusy ⟨job, hjob, ?_⟩
      exact Phase.eq_running hrunning
    exact ⟨_, .take hjobs hfirst (hfree ▸ build.workers_pos)⟩

/-- **A crew never gets stuck** before it can be left. -/
theorem Orderly.exists_step (h : build.Orderly files crew) (hended : ¬crew.Ended) :
    ∃ crew', build.Step crew crew' := by
  by_cases hover : ∀ job ∈ crew.jobs, job.phase.isOver
  · have hleft : crew.left? = none := by
      rw [← Option.not_isSome_iff_eq_none]
      exact fun hleft ↦ hended ⟨hover, hleft⟩
    have hlength : crew.calledBack.length ≤ crew.jobs.length := by
      rw [← List.length_map Job.file, h.files_eq]
      exact h.called.length_le
    rcases Nat.eq_or_lt_of_le hlength with heq | hlt
    · exact ⟨_, .leave heq.symm hleft⟩
    -- the next result is there
    obtain ⟨front, ⟨file, phase⟩, rear, hjobs, hnext⟩ :
        ∃ front job rear, crew.jobs = front ++ job :: rear ∧ front.length = crew.calledBack.length :=
      ⟨_, _, _, (List.take_append_drop _ _).symm.trans
        (congrArg _ (List.drop_eq_getElem_cons hlt)), List.length_take_of_le hlength⟩
    have hjob : (⟨file, phase⟩ : Job) ∈ crew.jobs := by simp [hjobs]
    match phase with
    | .waiting | .running => cases hover _ hjob
    | .ended (.ok ()) => exact ⟨_, .handOn false hjobs hnext hleft⟩
    | .ended (.error failure) => exact ⟨_, .fail hjobs hnext hleft⟩
    | .withdrawn =>
      obtain ⟨failure, hfailure⟩ := h.withdrawn _ hjob rfl
      rw [hleft] at hfailure
      cases hfailure
  · obtain ⟨job, hjob, hnot⟩ : ∃ job ∈ crew.jobs, job.phase.isOver = false := by
      simpa using hover
    exact exists_step_of_not_over hjob hnot

/-! ### One after another -/

theorem compileAll_cons (build : Build σ) (file : String) (files : List String) :
    build.compiler.compileAll build.output build.settings build.eachFile (file :: files) =
      (build.compileOne file).andThen fun _ ↦ (build.callBack file).andThen fun _ ↦
        build.compiler.compileAll build.output build.settings build.eachFile files := by
  rw [Compiler.compileAll, compileOne, callBack]
  cases build.eachFile <;> rfl

theorem forall_mem_concat {front : List Job} {last : Job}
    (hfront : ∀ job ∈ front, job.phase.isOver) (hlast : last.phase.isOver) :
    ∀ job ∈ front ++ [last], job.phase.isOver :=
  List.forall_mem_append.2 ⟨hfront, List.forall_mem_singleton.2 hlast⟩

/-- A crew that has nothing else to do compiles a file in one go. -/
theorem steps_compileOne (build : Build σ) (bound : Bool) {file : String} {files : List String}
    {front : List Job} (hjobs : crew.jobs = front ++ jobsOf .waiting (file :: files))
    (hover : ∀ job ∈ front, job.phase.isOver) :
    build.Steps crew (build.finished bound crew front file (jobsOf .waiting files)) := by
  have hfirst : ∀ job ∈ front, job.phase ≠ .waiting := by
    intro job hjob hphase
    have hnot := hover job hjob
    rw [hphase] at hnot
    cases hnot
  have hfree : crew.busy = 0 := by
    refine List.countP_eq_zero.2 fun job hjob hrunning ↦ ?_
    rw [hjobs] at hjob
    rcases List.mem_append.1 hjob with hjob | hjob
    · have hnot := hover job hjob
      rw [Phase.eq_running hrunning] at hnot
      cases hnot
    · rw [phase_of_mem_jobsOf hjob] at hrunning
      cases hrunning
  exact .head (.take hjobs hfirst (hfree ▸ build.workers_pos)) (.single (.finish bound rfl))

/-- What is left of a crew whose other files are withdrawn after a failure. -/
theorem exists_ended_of_failure (build : Build σ) {files : List String} {crew : Crew σ}
    {front : List Job} {failure : Failure} (hjobs : crew.jobs = front ++ jobsOf .waiting files)
    (hover : ∀ job ∈ front, job.phase.isOver) (hleft : crew.left? = some (.error failure)) :
    ∃ crew', build.Steps crew crew' ∧ crew'.Ended ∧ crew'.left? = some (.error failure) ∧
      crew'.state = crew.state ∧ crew'.effects = crew.effects := by
  induction files generalizing crew front with
  | nil =>
    rw [jobsOf, List.map_nil, List.append_nil] at hjobs
    exact ⟨crew, .refl, ⟨hjobs ▸ hover, hleft ▸ rfl⟩, hleft, rfl, rfl⟩
  | cons file files ih =>
    have hstep : build.Step crew
        { crew with jobs := front ++ ⟨file, .withdrawn⟩ :: jobsOf .waiting files } :=
      .withdraw hjobs hleft
    have hjobs' : Crew.jobs
        { crew with jobs := front ++ ⟨file, .withdrawn⟩ :: jobsOf .waiting files } =
        front ++ [⟨file, .withdrawn⟩] ++ jobsOf .waiting files :=
      List.append_cons _ _ _
    obtain ⟨crew', hsteps, hrest⟩ := ih hjobs' (forall_mem_concat hover rfl) hleft
    exact ⟨crew', .head hstep hsteps, hrest⟩

/-- What is left of a crew in which every file waits until those before it are dealt with. -/
theorem exists_ended (build : Build σ) (bound : Bool) {files : List String} {crew : Crew σ}
    {front : List Job} (hjobs : crew.jobs = front ++ jobsOf .waiting files)
    (hover : ∀ job ∈ front, job.phase.isOver)
    (hnext : front.length = crew.calledBack.length) (hleft : crew.left? = none) :
    ∃ crew', build.Steps crew crew' ∧ crew'.Ended ∧
      let o := build.compiler.compileAll build.output build.settings build.eachFile files bound
        crew.state
      crew'.left? = some o.result ∧ crew'.state = o.state ∧
        crew'.effects = crew.effects ++ o.effects := by
  induction files generalizing crew front with
  | nil =>
    rw [jobsOf, List.map_nil, List.append_nil] at hjobs
    refine ⟨_, .single (.leave (hjobs ▸ hnext) hleft), ⟨hjobs ▸ hover, rfl⟩, rfl, rfl, ?_⟩
    exact (List.append_nil _).symm
  | cons file files ih =>
    rw [compileAll_cons]
    have hcompiled := steps_compileOne build bound hjobs hover
    rcases hresult : (build.compileOne file bound crew.state).result with failure | value
    · have hended : (build.finished bound crew front file (jobsOf .waiting files)).jobs =
          front ++ ⟨file, .ended (.error failure)⟩ :: jobsOf .waiting files :=
        jobs_finished hresult
      have hfailed := hcompiled.tail (.fail hended hnext hleft)
      have hjobs' : Crew.jobs { build.finished bound crew front file (jobsOf .waiting files) with
          left? := some (.error failure) } =
          front ++ [⟨file, .ended (.error failure)⟩] ++ jobsOf .waiting files :=
        hended.trans (List.append_cons _ _ _)
      obtain ⟨crew', hsteps, hrest⟩ :=
        exists_ended_of_failure build hjobs' (forall_mem_concat hover rfl) rfl
      rw [Hosted.andThen_apply_of_error hresult]
      exact ⟨crew', hfailed.trans hsteps, hrest⟩
    · have hended : (build.finished bound crew front file (jobsOf .waiting files)).jobs =
          front ++ ⟨file, .ended (.ok ())⟩ :: jobsOf .waiting files :=
        jobs_finished hresult
      have hcalled := hcompiled.tail (.handOn bound hended hnext hleft)
      have hjobs' : (build.handedOn bound
          (build.finished bound crew front file (jobsOf .waiting files)) file).jobs =
          front ++ [⟨file, .ended (.ok ())⟩] ++ jobsOf .waiting files :=
        hended.trans (List.append_cons _ _ _)
      rw [Hosted.andThen_apply_of_ok hresult]
      rcases hanswer : (build.callBack file bound
          (build.compileOne file bound crew.state).state).result with failure | value
      · obtain ⟨crew', hsteps, hended, hleft', hstate, heffects⟩ :=
          exists_ended_of_failure build hjobs' (forall_mem_concat hover rfl)
            (left?_handedOn_of_error hanswer)
        rw [Hosted.andThen_apply_of_error hanswer]
        exact ⟨crew', hcalled.trans hsteps, hended, hleft', hstate,
          heffects.trans (List.append_assoc _ _ _)⟩
      · obtain ⟨crew', hsteps, hended, hleft', hstate, heffects⟩ :=
          ih hjobs' (forall_mem_concat hover rfl) (by simp [handedOn, finished, hnext])
            (left?_handedOn_of_ok hanswer)
        rw [Hosted.andThen_apply_of_ok hanswer]
        exact ⟨crew', hcalled.trans hsteps, hended, hleft', hstate, heffects.trans
          ((List.append_assoc _ _ _).trans (List.append_assoc _ _ _))⟩

theorem inTurn_of_refused {failure : Failure} (h : build.refusal? files = some failure) :
    build.inTurn files = Hosted.raise failure := by
  rw [refusal?] at h
  rw [inTurn, Compiler.compileFiles, h]

theorem inTurn_of_passed (h : build.refusal? files = none) : build.inTurn files =
    build.compiler.compileAll build.output build.settings build.eachFile files := by
  rw [refusal?] at h
  rw [inTurn, Compiler.compileFiles, h]

/-- **Compiling the files one after another** is what a crew may do. -/
theorem compiles_inTurn (build : Build σ) (files : List String) (bound : Bool) (s : σ) :
    ∃ crew, build.Compiles files s crew (build.inTurn files bound s) := by
  cases hrefusal : build.refusal? files with
  | some failure =>
    rw [inTurn_of_refused hrefusal]
    exact ⟨_, .refused hrefusal⟩
  | none =>
    have hjobs : (Crew.start files s).jobs = [] ++ jobsOf .waiting files := rfl
    obtain ⟨crew, hsteps, hended, hleft, hstate, heffects⟩ :=
      exists_ended build bound hjobs nofun rfl rfl
    have hcarried := Compiles.carriedOut hrefusal hsteps hended hleft
    rw [hstate, heffects] at hcarried
    rw [inTurn_of_passed hrefusal]
    exact ⟨crew, hcarried⟩

end Build

end Launcher.Host
