import Launcher.Rehearsal
import Launcher.Proofs.Host.OneRunHost
import Launcher.Proofs.Run.Passage

/-!
# Files run once in a run

However many threads require files, and in whatever order they take their steps, the files that
count as required are those that have been required, and each has been run once when the threads
have ended (`files_run_once`). A run of the launcher over the default host requires files one after
another, through a pool of workers, and from the files that run; so it runs no file twice either, by
whatever commands the file is named.
-/

namespace Launcher

variable {σ α : Type}

/-- The file that was run. -/
def Event.ran? : Event → Option String
  | .hosted (.ran path) => some path
  | _ => none

namespace World

variable {required : Slot σ (List String)}

/-- `w'` comes from `w` by going on, and the files that were run on the way were run once. -/
def RunsFiles (required : Slot σ (List String)) (w w' : World σ) : Prop :=
  ∃ told, w'.trace = w.trace ++ told ∧
    RunOnce (required.get w.host) (told.filterMap Event.ran?) (required.get w'.host)

theorem exists_trace_record (w : World σ) (e : Event) :
    ∃ told, (w.record e).trace = w.trace ++ told ∧ told.filterMap Event.ran? = e.ran?.toList := by
  rw [trace_record]
  split
  · next h =>
    -- a note runs no file, recorded or not
    have hnote : e.ran? = none := by
      cases e with
      | hosted hosted =>
        cases hosted with
        | ran path => simp [Event.note?] at h
        | _ => rfl
      | _ => rfl
    exact ⟨[], (List.append_nil _).symm, by rw [hnote]; rfl⟩
  · refine ⟨[e], rfl, ?_⟩
    rw [List.filterMap_cons]
    cases e.ran? <;> rfl

theorem exists_trace_apply (w : World σ) (effect : Effect) :
    ∃ told, (w.apply effect).trace = w.trace ++ told ∧
      told.filterMap Event.ran? = effect.ran?.toList := by
  cases effect with
  | event hosted =>
    obtain ⟨told, htold, hran⟩ := exists_trace_record w (.hosted hosted)
    refine ⟨told, htold, hran.trans ?_⟩
    cases hosted <;> rfl
  | enqueue target hook =>
    rw [apply_enqueue]
    split
    · exact exists_trace_record { w with hooks := _ } (.queued _ hook _)
    · exact ⟨[], (List.append_nil _).symm, rfl⟩

theorem exists_trace_applyAll (w : World σ) (effects : List Effect) :
    ∃ told, (w.applyAll effects).trace = w.trace ++ told ∧
      told.filterMap Event.ran? = ranIn effects := by
  induction effects generalizing w with
  | nil => exact ⟨[], (List.append_nil _).symm, rfl⟩
  | cons effect effects ih =>
    obtain ⟨first, hfirst, hran⟩ := exists_trace_apply w effect
    obtain ⟨rest, hrest, hran'⟩ := ih (w.apply effect)
    refine ⟨first ++ rest, ?_, ?_⟩
    · rw [← List.append_assoc, ← hfirst]
      exact hrest
    · rw [List.filterMap_append, hran, hran', ranIn, ranIn, List.filterMap_cons]
      cases effect.ran? <;> rfl

theorem passage_runsFiles (required : Slot σ (List String)) : Passage (RunsFiles required) where
  refl w := ⟨[], (List.append_nil _).symm, .refl _⟩
  trans := by
    rintro u v w ⟨told, htold, h⟩ ⟨told', htold', h'⟩
    refine ⟨told ++ told', by rw [htold', htold, List.append_assoc], ?_⟩
    rw [List.filterMap_append]
    exact h.trans h'
  aside {w v} hhost hlog := ⟨[], by rw [trace, trace, hlog, List.append_nil], hhost ▸ .refl _⟩
  record w e h := by
    obtain ⟨told, htold, hran⟩ := exists_trace_record w e
    have hnone : e.ran? = none := by
      cases e with
      | hosted hosted => exact absurd rfl (h hosted)
      | _ => rfl
    refine ⟨told, htold, ?_⟩
    rw [hran, hnone, host_record]
    exact .refl _

end World

/-- A program that runs files once does so in a session. -/
theorem Hosted.RunsOnce.keepsTo {required : Slot σ (List String)} {p : Hosted σ α}
    (h : p.RunsOnce required) : p.KeepsTo (World.RunsFiles required) := by
  intro w
  obtain ⟨told, htold, hran⟩ := World.exists_trace_applyAll
    { w with host := (p w.hooks.bound.isSome w.host).state } (p w.hooks.bound.isSome w.host).effects
  refine ⟨told, htold, ?_⟩
  rw [hran, World.host_after]
  exact h _ _

namespace Run

open Host Relation

/-- **A file is run at most once.** However threads that require files take their steps, a file
counts as required if it did before or has been required since. A file that is required for the
first time is run once or about to be, and no other is; when all threads have ended, each has been
run once, whether the run has returned or raised; and a thread that has not ended never has to wait
for another. To require one file without a look at the steps is one thread that takes its steps by
itself. So no run over the default host runs a file twice, or one that was required before, and the
files that it runs are those that count as required afterwards and did not before. -/
theorem files_run_once (server : CodeServer σ) (code : String → Routine σ Unit)
    (hcode : ∀ path, (code path).Discreet server.required) :
    (∀ (s : σ) (t : Traffic σ), ReflTransGen (Traffic.Step server code) { state := s } t →
      (∀ path, path ∈ server.required.get t.state ↔
        path ∈ server.required.get s ∨ path ∈ t.requests) ∧
      (∀ path, (ranIn t.effects).count path + t.entering.count path =
        if path ∈ t.requests ∧ path ∉ server.required.get s then 1 else 0) ∧
      (t.Finished → ∀ path, (ranIn t.effects).count path =
        if path ∈ t.requests ∧ path ∉ server.required.get s then 1 else 0) ∧
      ∀ thread ∈ t.threads, thread.result? = none → ∀ bound, ∃ requests effects s' thread',
        thread.Move server code bound t.state requests effects s' thread') ∧
    (server.RunsCode code → ∀ path bound s,
      Thread.Carries server code bound s (.requiring path) (server.requireFile path bound s)
        (.running (.done (server.requireFile path bound s).result))) ∧
    ∀ (language : Host.Language σ) (memory : Memory σ) (files : FileSystem σ) (place : Place)
      (loader : List String → Hosted σ Unit) (workers : Nat) (exit : Exit σ)
      (arguments : List String)
      (w : World σ) (value : Except Failure (Option Plan)) (w' : World σ),
      language.GoesThrough memory files server code → place.directory = server.directory →
      (∀ names bound s, Loads server code workers names s (loader names bound s)) →
      (∀ hook status, Through server (exit.call hook status)) →
      main (language.hostLoading memory files place loader) exit arguments w = some (value, w') →
        w.RunsFiles server.required w' := by
  refine ⟨fun s t hrun ↦ ?_, fun hlink path bound s ↦ carries_requiring hlink path bound s, ?_⟩
  · have hsound := (Traffic.sound_start server s).run hcode hrun
    exact ⟨hsound.mem_required, hsound.account, fun hfinished ↦ hsound.count_of_finished hfinished,
      fun thread _ hthread bound ↦ thread.exists_move hthread bound t.state⟩
  · intro language memory files place loader workers exit arguments w value w' h hplace
      hloader hcall hmain
    have hhost := h.runsOnce hplace hloader
    exact passes_main (World.passage_runsFiles server.required)
      (fun rest ↦ (hhost.publish rest).keepsTo)
      (fun plan ↦ (Dispatch.runsOnce_plan hhost plan).keepsTo)
      (fun hook status ↦ ((hcall hook status).runsOnce h.runsCode hcode).keepsTo)
      arguments w value w' hmain

end Run

/-! ### Rehearsals -/

namespace Rehearsal

open Host Hosted

variable {required : Slot Stage (List String)}

theorem discreet_perform (action : Action) : action.perform.Discreet required := by
  obtain ⟨print, atExit, failure⟩ := action
  have hhooks : ∀ p : Act Unit, p.Discreet required →
      (Hosted.each Hosted.atExit atExit >>= fun _ ↦ p).Discreet required :=
    fun _ hp ↦ (discreet_each discreet_atExit atExit).bind fun _ ↦ hp
  have hend : (failure.elim (pure ()) Hosted.raise : Act Unit).Discreet required := by
    cases failure with
    | none => exact discreet_pure ()
    | some failure => exact discreet_raise failure
  cases print <;> cases failure
  · exact hhooks _ hend
  · exact hhooks _ hend
  · exact (discreet_emit rfl).bind fun _ ↦ hhooks _ hend
  · exact (discreet_emit rfl).bind fun _ ↦ hhooks _ hend

theorem discreet_cues (cues : Cues) (key : String) : (cues.perform key).Discreet required :=
  discreet_perform _

theorem discreet_call (script : Script) (queue : QueueId) (hook : Hook) (status : Int) :
    (script.call queue hook status).Discreet Stage.requiredSlot := by
  rw [Script.call]
  split
  · exact discreet_pure ()
  · have hmodify :
        (Hosted.modify fun s : Stage ↦ { s with hookRuns := hook :: s.hookRuns }).Discreet
          Stage.requiredSlot := discreet_modify fun _ ↦ rfl
    refine hmodify.bind fun _ ↦ discreet_get.bind fun s ↦ ?_
    dsimp only
    split
    · exact (discreet_each (discreet_enqueue queue) _).bind fun _ ↦ discreet_perform _
    · exact discreet_perform _

theorem discreet_load (script : Script) (version name : String) :
    ((script.language version).load name).Discreet required := by
  rw [Script.language]
  dsimp only
  split
  · exact discreet_raise _
  · exact discreet_pure _

theorem discreet_start {script : Script} {version name : String} {bound : Bool} {s : Stage}
    {app : Application Stage} {start : Hosted Stage Unit}
    (happ : ((script.language version).load name bound s).result = .ok app)
    (hstart : app.start = some start) : start.Discreet required := by
  rw [Script.language] at happ
  dsimp only at happ
  cases hfailure : ((script.modules.lookup name).getD {}).failure with
  | some failure =>
    rw [hfailure] at happ
    cases happ
  | none =>
    rw [hfailure] at happ
    cases happ
    obtain ⟨action, -, rfl⟩ := Option.map_eq_some_iff.1 hstart
    exact discreet_perform action

theorem discreet_compile (script : Script) (version file target : String) (level : Int)
    (strict : Bool) :
    ((script.language version).compile file target level strict).Discreet Stage.requiredSlot := by
  rw [Script.language]
  dsimp only
  cases ((script.sources.lookup file).getD {}).error? strict with
  | none => exact discreet_pure _
  | some message =>
    have hmodify : (Hosted.modify fun s : Stage ↦ { s with compileFailed := true }).Discreet
        Stage.requiredSlot := discreet_modify fun _ ↦ rfl
    exact hmodify.bind fun _ ↦ discreet_pure _

/-- The code server of a rehearsal. -/
def Script.codeServer (script : Script) (version directory : String) : CodeServer Stage :=
  (script.language version).codeServer Stage.memory directory

/-- The code of a file in a rehearsal is a single step. -/
def Script.code (script : Script) (path : String) : Routine Stage Unit :=
  .ofHosted (script.require.perform path)

theorem Script.runsCode (script : Script) (version directory : String) :
    (script.codeServer version directory).RunsCode script.code :=
  fun _ ↦ (Routine.whole_ofHosted _ _).symm

/-- **The programs of a rehearsal** require files through the code server, whatever the script. -/
theorem Script.goesThrough (script : Script) (version directory : String) {files : FileSystem Stage}
    (hfiles : ∀ path, (files.ensureDirectory path).Discreet Stage.requiredSlot) :
    (script.language version).GoesThrough Stage.memory files (script.codeServer version directory)
      script.code where
  server_eq := rfl
  runsCode := script.runsCode version directory
  discreet _ := .ofHosted (discreet_cues _ _)
  eval expression := through_of_discreet (discreet_cues _ expression)
  load name := through_of_discreet (discreet_load script version name)
  start _ _ _ _ _ happ hstart := through_of_discreet (discreet_start happ hstart)
  compile file target level strict :=
    through_of_discreet (discreet_compile script version file target level strict)
  ensureDirectory path := through_of_discreet (hfiles path)
  started _ _ := rfl
  node _ _ := rfl

/-! ### Two threads and a run -/

/-- A file that prints, and one that fails. -/
def pair : Script where
  require := [("/work/a", { print := some "a" }), ("/work/b", { failure := some Language.missing })]

/-- The files of the pair. -/
def pairTable : Table where
  files := ["a", "./a", "b"]
  matching := [("*", ["b", "a"])]

/-- The place of the pair. -/
def pairPlace : Place := { directory := "/work", home := none, userHome := fun _ ↦ none }

/-- The code server of the pair. -/
def pairServer : CodeServer Stage := pair.codeServer launcherVersion pairPlace.directory

/-- The default host over the pair. -/
def pairHost : Collaborators Stage :=
  (pair.language launcherVersion).host Stage.memory pairTable.fileSystem pairPlace

/-- The first of two threads has passed over the file that fails, and the second has run it. -/
def pairTraffic : Traffic Stage where
  state := { required := ["/work/b"] }
  threads := [.running (.done (.ok ())), .running (.done (.error Language.missing))]
  requests := ["/work/b", "/work/b"]
  effects := [.event (.noted (.alreadyRequired "/work/b")), .event (.noted (.requiring "/work/b")),
    .event (.ran "/work/b")]

/-- The second thread marks the file, the first one comes upon the mark, and then the second one
runs the file. -/
theorem reaches_pairTraffic :
    Relation.ReflTransGen (Traffic.Step pairServer pair.code) { state := {} } pairTraffic := by
  let marked : Stage := { required := ["/work/b"] }
  let first : Thread Stage := .requiring "b"
  let notes : List Effect := [.event (.noted (.alreadyRequired "/work/b"))]
  let after : Thread Stage := .running (.done (.ok ()))
  have hmark : (Thread.requiring "./b").Move pairServer pair.code true {} ["/work/b"] [] marked
      (.entering "/work/b" .done) := by
    have habsolute : Path.absolute pairServer.directory "./b" = "/work/b" := by decide +kernel
    exact habsolute ▸ .mark .done nofun
  have hpass : first.Move pairServer pair.code true marked ["/work/b"] notes marked after := by
    have habsolute : Path.absolute pairServer.directory "b" = "/work/b" := by decide +kernel
    exact habsolute ▸ .pass .done (habsolute ▸ List.mem_singleton_self _)
  have hrun : Thread.Moves pairServer pair.code true marked (.entering "/work/b" .done) []
      [.event (.noted (.requiring "/work/b")), .event (.ran "/work/b")] marked
      (.running (.done (.error Language.missing))) :=
    .head (.enter marked "/work/b" .done) (.head (.act marked _ _) (.refl _ _))
  refine .head (.spawn _ (Routine.discreet_require _ "b")) ?_
  refine .head (.spawn _ (Routine.discreet_require _ "./b")) ?_
  refine .head (.advance (.move [first] [] [] [] hmark)) ?_
  refine .head (.advance (.move [] [.entering "/work/b" .done] ["/work/b"] [] hpass)) ?_
  exact (hrun.advance [after] [] ["/work/b", "/work/b"] notes).lift id fun _ _ h ↦ .advance h

/-- The failing file has been run once, and a run that names the other file three times runs it
once. -/
theorem pair_files_run_once : ∃ value w',
    pairTraffic.Finished ∧ (ranIn pairTraffic.effects).count "/work/b" = 1 ∧
    Run.main pairHost (pair.exit 0 .recording) ["-r", "a", "-pr", "a", "./a"] { host := {} } =
      some (value, w') ∧
    ({ host := {} } : World Stage).RunsFiles Stage.requiredSlot w' ∧
    w'.host.required = ["/work/a"] := by
  have hthrough : (pair.language launcherVersion).GoesThrough Stage.memory
      pairTable.fileSystem pairServer pair.code := pair.goesThrough _ _ fun _ ↦ discreet_pure ()
  obtain ⟨hthreads, -, hmain⟩ := Run.files_run_once pairServer pair.code hthrough.discreet
  have hfinished : pairTraffic.Finished := by decide
  obtain ⟨-, -, hcount, -⟩ := hthreads _ _ reaches_pairTraffic
  have hrun : (Run.main pairHost (pair.exit 0 .recording) ["-r", "a", "-pr", "a", "./a"]
      { host := {} }).map (fun r ↦ r.2.host.required) = some ["/work/a"] := by decide +kernel
  obtain ⟨⟨value, w'⟩, hvalue, hrequired⟩ := Option.map_eq_some_iff.1 hrun
  refine ⟨value, w', hfinished, hcount hfinished "/work/b", hvalue, ?_, hrequired⟩
  exact hmain _ Stage.memory pairTable.fileSystem pairPlace pairServer.loadFiles 1
    (pair.exit 0 .recording) _ _ value w' hthrough rfl
    (loads_loadFiles hthrough.runsCode Nat.one_pos)
    (fun hook status ↦ through_of_discreet (discreet_call pair 0 hook status)) hvalue

end Rehearsal

end Launcher
