import Launcher.Host.Language
import Launcher.Proofs.Dispatch.Raising

/-!
# The default host under watch

The hosted code that the default host runs is expressions, files, and the code of applications. A host
that keeps a record of it (`Language.watchedHost`) runs as the one that does not, and the first code
to fail fails whatever runs it, an application aside (`obeys_watchedHost`). Of several files that are
run together, all are run, and the first that fails counts (`findSome?_runAll`).
-/

namespace Launcher

variable {σ : Type}

/-- The same files, with a record beside the state. -/
def FileSystem.beside (files : FileSystem σ) : FileSystem (σ × List (Deed σ)) where
  wildcard s := files.wildcard s.1
  isRegular s := files.isRegular s.1
  isDirectory s := files.isDirectory s.1
  findExecutable s := files.findExecutable s.1
  isBatchPlatform s := files.isBatchPlatform s.1
  ensureDirectory path := Hosted.unwatched (files.ensureDirectory path)

/-- Code that fails whatever runs it: an expression or a file. -/
theorem findSome?_singleton_ending {code : Code} {s : σ} {failure? : Option Failure}
    (hcode : (∃ text, code = .expression text) ∨ ∃ path, code = .file path) :
    ([⟨code, s, failure?⟩] : List (Deed σ)).findSome? Deed.ending? = failure?.map .error := by
  rcases hcode with ⟨text, rfl⟩ | ⟨path, rfl⟩
  · rw [List.findSome?_singleton]
    rfl
  · rw [List.findSome?_singleton]
    rfl

theorem failsFirst_of_eq {deeds : List (Deed σ)} {failure? : Option Failure}
    (h : deeds.findSome? Deed.ending? = failure?.map .error) : FailsFirst deeds failure? := by
  intro ending hending
  obtain ⟨failure, hfailure, rfl⟩ := Option.map_eq_some_iff.1 (h.symm.trans hending)
  exact ⟨failure, hfailure, rfl⟩

namespace Host

/-- Where the default host keeps what it remembers, with a record beside the state. -/
def Memory.beside (memory : Memory σ) : Memory (σ × List (Deed σ)) :=
  ⟨memory.required.beside, memory.started.beside, memory.node.beside⟩

/-! ### Files -/

namespace CodeServer

/-- A code server whose files are watched. -/
def watched (server : CodeServer σ) : CodeServer (σ × List (Deed σ)) where
  required := server.required.beside
  directory := server.directory
  run path := Hosted.watch (.file path) (server.run path)

/-- The state in which a file is run: it counts as required already. -/
def entered (server : CodeServer σ) (absolute : String) (s : σ) : σ :=
  server.required.update (· ++ [absolute]) s

/-- Run a new file, behind the notes that it is run. -/
def enter (server : CodeServer σ) (absolute : String) : Hosted σ Unit := fun bound s ↦
  ⟨(server.run absolute bound (server.entered absolute s)).result,
    (server.run absolute bound (server.entered absolute s)).state,
    .event (.noted (.requiring absolute)) :: .event (.ran absolute) ::
      (server.run absolute bound (server.entered absolute s)).effects⟩

theorem requireFile_apply (server : CodeServer σ) (path : String) (bound : Bool) (s : σ) :
    server.requireFile path bound s =
      if Path.absolute server.directory path ∈ server.required.get s then
        Hosted.note (.alreadyRequired (Path.absolute server.directory path)) bound s
      else server.enter (Path.absolute server.directory path) bound s := by
  rw [requireFile, Hosted.bind_eq_andThen, Hosted.get_andThen_apply]
  split_ifs <;> rfl

/-- What is done when a file is required: it is run, if it is new. -/
def requires (server : CodeServer σ) (path : String) (bound : Bool) (s : σ) : List (Deed σ) :=
  if Path.absolute server.directory path ∈ server.required.get s then []
  else [⟨.file (Path.absolute server.directory path),
    server.entered (Path.absolute server.directory path) s,
    (server.requireFile path bound s).failure?⟩]

theorem watched_requireFile_apply (server : CodeServer σ) (path : String) (bound : Bool) (s : σ)
    (record : List (Deed σ)) : server.watched.requireFile path bound (s, record) =
      (server.requireFile path bound s).beside (record ++ server.requires path bound s) := by
  rw [requires, requireFile_apply, requireFile_apply]
  by_cases h : Path.absolute server.directory path ∈ server.required.get s
  · have h' : Path.absolute server.watched.directory path ∈
        server.watched.required.get (s, record) := h
    rw [if_pos h, if_pos h', if_pos h, List.append_nil]
    rfl
  · have h' : Path.absolute server.watched.directory path ∉
        server.watched.required.get (s, record) := h
    rw [if_neg h, if_neg h', if_neg h]
    rfl

theorem deeds_requireFile (server : CodeServer σ) (path : String) (bound : Bool) (s : σ) :
    (server.watched.requireFile path).deeds bound s = server.requires path bound s :=
  Hosted.deeds_eq_of_beside (server.watched_requireFile_apply path bound s)

theorem records_requireFile (server : CodeServer σ) (path : String) :
    (server.watched.requireFile path).Records (server.requireFile path) := by
  intro bound s record
  rw [deeds_requireFile, watched_requireFile_apply]

/-- Requiring a file fails if and only if its code does. -/
theorem findSome?_requires (server : CodeServer σ) (path : String) (bound : Bool) (s : σ) :
    (server.requires path bound s).findSome? Deed.ending? =
      (server.requireFile path bound s).failure?.map .error := by
  rw [requires]
  split_ifs with h
  · rw [requireFile_apply, if_pos h]
    rfl
  · exact findSome?_singleton_ending (.inr ⟨_, rfl⟩)

/-! ### Several files together -/

/-- The first of two failures, the earlier one being that of a program. -/
def firstFailure (result : Except Failure Unit) (later : Option Failure) : Option Failure :=
  match result with
  | .ok _ => later
  | .error failure => some failure

theorem runAll_cons {τ : Type} (p : Hosted τ Unit) (ps : List (Hosted τ Unit)) :
    runAll (p :: ps) = (Hosted.attempt p).andThen fun result ↦
      (runAll ps).andThen fun later ↦ pure (firstFailure result later) := by
  rw [runAll, Hosted.bind_eq_andThen]
  congr 1
  funext result
  rw [Hosted.bind_eq_andThen]
  congr 1
  funext later
  cases result <;> rfl

theorem records_runAll (server : CodeServer σ) (paths : List String) :
    (runAll (paths.map server.watched.requireFile)).Records
      (runAll (paths.map server.requireFile)) := by
  induction paths with
  | nil => exact .pure none
  | cons path paths ih =>
    rw [List.map_cons, List.map_cons, runAll_cons, runAll_cons]
    exact (server.records_requireFile path).attempt.andThen fun _ ↦ ih.andThen fun _ ↦ .pure _

/-- **Files that are run together are all run**, and the first failure among them is handed back. -/
theorem findSome?_runAll (server : CodeServer σ) (paths : List String) (bound : Bool) (s : σ) :
    ∃ first?, (runAll (paths.map server.requireFile) bound s).result = .ok first? ∧
      ((runAll (paths.map server.watched.requireFile)).deeds bound s).findSome? Deed.ending? =
        first?.map .error := by
  induction paths generalizing s with
  | nil => exact ⟨none, rfl, rfl⟩
  | cons path paths ih =>
    obtain ⟨first?, hresult, hending⟩ := ih (server.requireFile path bound s).state
    have hrest : ∀ result : Except Failure Unit,
        ((runAll (paths.map server.watched.requireFile)).andThen fun later ↦
          pure (firstFailure result later)).Records
            ((runAll (paths.map server.requireFile)).andThen fun later ↦
              pure (firstFailure result later)) :=
      fun result ↦ (server.records_runAll paths).andThen fun _ ↦ .pure _
    refine ⟨firstFailure (server.requireFile path bound s).result first?, ?_, ?_⟩
    · rw [List.map_cons, runAll_cons, Hosted.attempt_andThen_apply, Hosted.andThen_pure_apply,
        hresult]
      rfl
    · have hattempt : (Hosted.attempt (server.requireFile path) bound s).result =
          .ok (server.requireFile path bound s).result := rfl
      have hfirst : (Hosted.attempt (server.watched.requireFile path)).deeds bound s =
          server.requires path bound s := server.deeds_requireFile path bound s
      rw [List.map_cons, runAll_cons,
        (server.records_requireFile path).attempt.deeds_andThen_of_ok hrest hattempt,
        Hosted.deeds_andThen_pure, hfirst, List.findSome?_append, findSome?_requires,
        Outcome.failure?]
      cases (server.requireFile path bound s).result with
      | ok _ => exact hending
      | error failure => rfl

theorem obeys_requireFile (server : CodeServer σ) (path : String) :
    (server.watched.requireFile path).Obeys FailsFirst (server.requireFile path) where
  records := server.records_requireFile path
  law bound s := by
    rw [deeds_requireFile]
    exact failsFirst_of_eq (server.findSome?_requires path bound s)

/-- What comes of the first failure. -/
def failWith {τ : Type} : Option Failure → Hosted τ Unit
  | none => pure ()
  | some failure => Hosted.raise failure

theorem failWith_apply {τ : Type} (first? : Option Failure) (bound : Bool) (s : τ) :
    failWith first? bound s = ⟨first?.elim (.ok ()) .error, s, []⟩ := by
  cases first? <;> rfl

theorem loadFiles_eq {τ : Type} (server : CodeServer τ) (paths : List String) :
    server.loadFiles paths = (runAll (paths.map server.requireFile)).andThen failWith :=
  rfl

theorem records_failWith (first? : Option Failure) :
    (failWith first? : Hosted (σ × List (Deed σ)) Unit).Records (failWith first?) := by
  cases first? with
  | none => exact .pure ()
  | some failure => exact (Hosted.Obeys.raise lawful_failsFirst failure).records

theorem obeys_loadFiles (server : CodeServer σ) (paths : List String) :
    (server.watched.loadFiles paths).Obeys FailsFirst (server.loadFiles paths) where
  records := by
    rw [loadFiles_eq, loadFiles_eq]
    exact (server.records_runAll paths).andThen records_failWith
  law bound s := by
    obtain ⟨first?, hresult, hending⟩ := server.findSome?_runAll paths bound s
    have hnone : ∀ s' : σ,
        (failWith first? : Hosted (σ × List (Deed σ)) Unit).deeds bound s' = [] := by
      intro s'
      rw [Hosted.deeds, failWith_apply]
    rw [loadFiles_eq, loadFiles_eq, Hosted.andThen_apply_of_ok hresult,
      (server.records_runAll paths).deeds_andThen_of_ok records_failWith hresult, hnone,
      List.append_nil, failWith_apply]
    refine failsFirst_of_eq (hending.trans ?_)
    cases first? <;> rfl

end CodeServer

/-! ### Compiling -/

namespace Compiler

variable {law : List (Deed σ) → Option Failure → Prop}

/-- A compiler with a record beside the state. What it does is no deed. -/
def beside (compiler : Compiler σ) : Compiler (σ × List (Deed σ)) :=
  ⟨fun file target level strict ↦ Hosted.unwatched (compiler.compile file target level strict)⟩

theorem obeys_compileOne (hlaw : Lawful law) (compiler : Compiler σ) (output : String)
    (settings : Settings) (file : String) :
    (compiler.beside.compileOne output settings file).Obeys law
      (compiler.compileOne output settings file) := by
  refine .bind hlaw (.unwatched hlaw _) fun error? ↦ ?_
  cases error? with
  | none => exact .emit hlaw _
  | some error => exact .raise hlaw _

/-- Announcing compiled files, or not. -/
def announcement {τ : Type} (announce : String → HostedEvent) (announcing : Bool) :
    Option (String → Hosted τ Unit) :=
  if announcing then some fun file ↦ Hosted.emit (announce file) else none

theorem obeys_compileAll (hlaw : Lawful law) (compiler : Compiler σ) (output : String)
    (settings : Settings) (announce : String → HostedEvent) (announcing : Bool)
    (files : List String) :
    (compiler.beside.compileAll output settings (announcement announce announcing) files).Obeys law
      (compiler.compileAll output settings (announcement announce announcing) files) := by
  induction files with
  | nil => exact .pure hlaw ()
  | cons file files ih =>
    refine .bind hlaw (obeys_compileOne hlaw compiler output settings file) fun _ ↦ ?_
    cases announcing with
    | true => exact .bind hlaw (.emit hlaw _) fun _ ↦ ih
    | false => exact .bind hlaw (.pure hlaw ()) fun _ ↦ ih

theorem obeys_compileFiles (hlaw : Lawful law) (compiler : Compiler σ) (files : List String)
    (output : String) (settings : Settings) (announce : String → HostedEvent) (announcing : Bool) :
    (compiler.beside.compileFiles files output settings (announcement announce announcing)).Obeys law
      (compiler.compileFiles files output settings (announcement announce announcing)) := by
  rw [compileFiles, compileFiles]
  split
  · exact .raise hlaw _
  · exact obeys_compileAll hlaw compiler output settings announce announcing files

end Compiler

/-! ### The host -/

namespace Language

/-- A language whose code is watched. -/
def watched (language : Language σ) : Language (σ × List (Deed σ)) where
  version := language.version
  eval expression := Hosted.watch (.expression expression) (language.eval expression)
  run path := Hosted.watch (.file path) (language.run path)
  catalogue := language.catalogue
  load name := (Hosted.watch (.body name) (language.load name)).andThen fun app ↦
    pure (app.watched name)
  compile file target level strict := Hosted.unwatched (language.compile file target level strict)

/-- The default host over watched code. -/
def watchedHost (language : Language σ) (memory : Memory σ) (files : FileSystem σ) (place : Place) :
    Collaborators (σ × List (Deed σ)) :=
  language.watched.host memory.beside files.beside place

/-- **The default host keeps a record of its code.** Whatever it runs fails with the first code that
fails in it; and starting an application reports every failure of its code. -/
theorem obeys_watchedHost (language : Language σ) (memory : Memory σ) (files : FileSystem σ)
    (place : Place) : (language.watchedHost memory files place).Obeys FailsFirst
      (language.host memory files place) where
  wildcard _ _ := rfl
  isRegular _ _ := rfl
  findExecutable _ _ := rfl
  isBatchPlatform _ _ := rfl
  nodeIsAlive _ _ := rfl
  ensureDirectory _ := .unwatched lawful_failsFirst _
  eval expression := .watch fun _ _ ↦
    failsFirst_of_eq (findSome?_singleton_ending (.inl ⟨expression, rfl⟩))
  requireFile path := (language.codeServer memory place.directory).obeys_requireFile path
  loadFiles paths := (language.codeServer memory place.directory).obeys_loadFiles paths
  startApplication name := (language.applications memory).obeys_start name
  compileFiles paths output options announce announcing :=
    language.compiler.obeys_compileFiles lawful_failsFirst paths output options announce announcing
  setCookie _ := .of_beside lawful_failsFirst fun _ _ _ ↦ rfl

end Language

end Host

end Launcher
