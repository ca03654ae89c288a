import Launcher.Host.Language
import Launcher.Proofs.Host.Watched
import Launcher.Proofs.Host.Pool

/-!
# The default host runs files once

Dispatch runs files once if all that it turns to does (`Dispatch.runsOnce_plan`). All that the
default host offers does, if the programs of its language require files through the code server and
its loader is a pool (`Language.Pooled.runsOnce`).
-/

namespace Launcher

variable {σ α β : Type} {required : Slot σ (List String)}

/-- Whatever a run turns to runs files once. A compiler may also do what the callback does that it
is given. -/
structure Collaborators.RunsOnce (required : Slot σ (List String))
    (c : Collaborators σ) : Prop where
  ensureDirectory : ∀ path, (c.files.ensureDirectory path).RunsOnce required
  eval : ∀ expression, (c.eval expression).RunsOnce required
  requireFile : ∀ path, (c.requireFile path).RunsOnce required
  loadFiles : ∀ files, (c.loadFiles files).RunsOnce required
  startApplication : ∀ name, (c.startApplication name).RunsOnce required
  compileFiles : ∀ files output options callback?,
    (∀ callback, callback? = some callback → ∀ file, (callback file).RunsOnce required) →
      (c.compileFiles files output options callback?).RunsOnce required
  setCookie : ∀ value, (c.setCookie value).RunsOnce required
  publish : ∀ rest, (c.publish rest).RunsOnce required

namespace Hosted

theorem runsOnce_pure (a : α) : (pure a : Hosted σ α).RunsOnce required :=
  (discreet_pure a).runsOnce

theorem runsOnce_raise (failure : Failure) : (raise failure : Hosted σ α).RunsOnce required :=
  (discreet_raise failure).runsOnce

theorem runsOnce_emit {event : HostedEvent} (h : (Effect.event event).ran? = none) :
    (emit event : Hosted σ Unit).RunsOnce required :=
  (discreet_emit h).runsOnce

end Hosted

open Hosted

namespace Dispatch

variable {c : Collaborators σ}

theorem runsOnce_ask (request : Request) {p : Hosted σ Unit} (h : p.RunsOnce required) :
    (ask request p).RunsOnce required :=
  (runsOnce_emit rfl).andThen fun _ ↦ h

theorem runsOnce_invoke (request : Request) {p : Hosted σ Unit} (h : p.RunsOnce required) :
    (invoke request p).RunsOnce required :=
  (runsOnce_ask request h).bind fun _ ↦ runsOnce_pure none

theorem runsOnce_require (hc : c.RunsOnce required) (path : String) :
    (require c path).RunsOnce required :=
  runsOnce_ask _ (hc.requireFile path)

theorem runsOnce_app (hc : c.RunsOnce required) (name : String) :
    (app c name).RunsOnce required := by
  refine (runsOnce_ask _ (hc.startApplication name)).attempt.bind fun result ↦ ?_
  cases result with
  | ok _ => exact runsOnce_pure none
  | error failure =>
    dsimp only
    split
    · exact runsOnce_pure _
    · exact runsOnce_raise failure

theorem runsOnce_compile (hc : c.RunsOnce required) (plan : Plan) (patterns : List String) :
    (compile c plan patterns).RunsOnce required := by
  refine (runsOnce_ask _ (hc.ensureDirectory _)).bind fun _ ↦ RunsOnce.get_bind fun s ↦ ?_
  split
  · exact runsOnce_pure _
  split
  · exact runsOnce_pure _
  refine runsOnce_invoke _ (hc.compileFiles _ _ _ _ fun callback hcallback file ↦ ?_)
  -- the only callback is the one that announces a file
  split at hcallback
  · cases hcallback
    exact runsOnce_emit rfl
  · cases hcallback

theorem runsOnce_command (hc : c.RunsOnce required) (plan : Plan) (command : Command) :
    (Dispatch.command c plan command).RunsOnce required := by
  cases command with
  | cookie value =>
    refine RunsOnce.get_bind fun s ↦ ?_
    split
    · exact runsOnce_invoke _ (hc.setCookie value)
    · exact runsOnce_pure _
  | eval expression => exact runsOnce_invoke _ (hc.eval expression)
  | app name => exact runsOnce_app hc name
  | script name =>
    refine RunsOnce.get_bind fun s ↦ ?_
    split
    · exact runsOnce_pure _
    · exact (runsOnce_require hc _).bind fun _ ↦ runsOnce_pure none
  | file path =>
    refine RunsOnce.get_bind fun s ↦ ?_
    split
    · exact (runsOnce_require hc path).bind fun _ ↦ runsOnce_pure none
    · exact runsOnce_pure _
  | require pattern =>
    refine RunsOnce.get_bind fun s ↦ ?_
    dsimp only
    split
    · exact runsOnce_pure _
    · exact (runsOnce_each (runsOnce_require hc) _).bind fun _ ↦ runsOnce_pure none
  | parallelRequire pattern =>
    refine RunsOnce.get_bind fun s ↦ ?_
    dsimp only
    split
    · exact runsOnce_pure _
    · exact runsOnce_invoke _ (hc.loadFiles _)
  | compile patterns => exact runsOnce_compile hc plan patterns
  | unknown value => exact runsOnce_raise _

theorem runsOnce_commands (hc : c.RunsOnce required) (plan : Plan) (commands : List Command) :
    (Dispatch.commands c plan commands).RunsOnce required := by
  induction commands with
  | nil => exact runsOnce_pure []
  | cons first rest ih =>
    refine (runsOnce_emit rfl).bind fun _ ↦ ?_
    refine (runsOnce_command hc plan first).bind fun error ↦ ?_
    exact ih.bind fun errors ↦ runsOnce_pure _

/-- **Running a plan runs files once**, if all that it turns to does. -/
theorem runsOnce_plan (hc : c.RunsOnce required) (plan : Plan) :
    (Dispatch.plan c plan).RunsOnce required :=
  (runsOnce_commands hc plan plan.commands).bind fun _ ↦ runsOnce_pure _

end Dispatch

namespace Host

/-! ### Compiling -/

namespace Compiler

theorem runsOnce_compileOne {compiler : Compiler σ}
    (h : ∀ file target level strict, (compiler.compile file target level strict).RunsOnce required)
    (output : String) (settings : Settings) (file : String) :
    (compiler.compileOne output settings file).RunsOnce required := by
  refine (h _ _ _ _).bind fun error? ↦ ?_
  cases error? with
  | none => exact runsOnce_emit rfl
  | some error => exact runsOnce_raise _

theorem runsOnce_compileAll {compiler : Compiler σ}
    (h : ∀ file target level strict, (compiler.compile file target level strict).RunsOnce required)
    (output : String) (settings : Settings) {callback? : Option (String → Hosted σ Unit)}
    (hcallback : ∀ callback, callback? = some callback → ∀ file, (callback file).RunsOnce required)
    (files : List String) :
    (compiler.compileAll output settings callback? files).RunsOnce required := by
  induction files with
  | nil => exact runsOnce_pure ()
  | cons file files ih =>
    refine (runsOnce_compileOne h output settings file).bind fun _ ↦ ?_
    cases callback? with
    | none => exact (runsOnce_pure ()).bind fun _ ↦ ih
    | some callback => exact (hcallback callback rfl file).bind fun _ ↦ ih

theorem runsOnce_compileFiles {compiler : Compiler σ}
    (h : ∀ file target level strict, (compiler.compile file target level strict).RunsOnce required)
    (files : List String) (output : String) (settings : Settings)
    {callback? : Option (String → Hosted σ Unit)}
    (hcallback : ∀ callback, callback? = some callback →
      ∀ file, (callback file).RunsOnce required) :
    (compiler.compileFiles files output settings callback?).RunsOnce required := by
  rw [compileFiles]
  split
  · exact runsOnce_raise _
  · exact runsOnce_compileAll h output settings hcallback files

end Compiler

/-! ### Applications -/

namespace Applications

/-- Loading modules, starting them and remembering them runs files once. -/
structure RunsOnce (required : Slot σ (List String)) (apps : Applications σ) : Prop where
  load : ∀ name, (apps.load name).RunsOnce required
  start : ∀ name bound s app start, (apps.load name bound s).result = .ok app →
    app.start = some start → start.RunsOnce required
  apart : ∀ names s, required.get (apps.started.set names s) = required.get s

variable {apps : Applications σ}

theorem runsOnce_loadOrFail (h : apps.RunsOnce required) (name : String) :
    (apps.loadOrFail name).RunsOnce required := by
  have hload : (apps.loadAny name).RunsOnce required := by
    rw [loadAny]
    split_ifs
    · exact h.load name
    · exact runsOnce_raise _
  refine hload.attempt.bind fun result ↦ ?_
  cases result with
  | ok app => exact runsOnce_pure app
  | error failure =>
    dsimp only
    split_ifs
    · exact runsOnce_raise _
    · exact runsOnce_raise _

theorem runsOnce_call {name : String} {app : Application σ}
    (h : ∀ start, app.start = some start → start.RunsOnce required) :
    (call name app).RunsOnce required := by
  rw [call]
  split
  · next start hstart =>
    have hcall : ((emit (.started name)).andThen fun _ ↦ start).RunsOnce required :=
      (runsOnce_emit rfl).andThen fun _ ↦ h start hstart
    refine hcall.attempt.bind fun result ↦ ?_
    cases result with
    | ok _ => exact runsOnce_pure ()
    | error failure =>
      dsimp only
      split_ifs
      · exact runsOnce_raise _
      · exact runsOnce_raise _
  · exact runsOnce_pure ()

theorem runsOnce_remember (h : apps.RunsOnce required) (name : String) :
    (apps.remember name).RunsOnce required :=
  (runsOnce_emit rfl).andThen fun _ ↦ (discreet_modify fun _ ↦ h.apart _ _).runsOnce

theorem RunsOnce.startWithin (h : apps.RunsOnce required) (starting : List String) (name : String) :
    (apps.startWithin starting name).RunsOnce required := by
  -- by induction on how many modules are left
  induction hn : (apps.remaining starting).length using Nat.strongRecOn
    generalizing starting name with
  | ind n ih =>
    intro bound s
    rw [startWithin_apply]
    split_ifs with hstarted hstarting
    · exact .refl _
    · exact .refl _
    · refine (runsOnce_loadOrFail h name).andThen_of_ok (fun bound' s' app happ ↦ ?_) bound s
      obtain ⟨hmem, hloaded⟩ := load_of_loadOrFail happ
      have hless := length_remaining_lt hmem hstarting
      refine (runsOnce_each (fun dependency ↦ ih _ (hn ▸ hless) _ dependency rfl) _).andThen
        fun _ ↦ ?_
      exact (runsOnce_call fun start hstart ↦
          h.start name bound' s' app start hloaded hstart).andThen
        fun _ ↦ runsOnce_remember h name

end Applications

/-! ### The host -/

namespace Language

/-- The programs of a language require files through the code server, and what else the host
remembers is apart from the required files. `code` is the code of the files. -/
structure GoesThrough (language : Language σ) (memory : Memory σ) (files : FileSystem σ)
    (server : CodeServer σ) (code : String → Routine σ Unit) : Prop where
  server_eq : language.codeServer memory server.directory = server
  runsCode : server.RunsCode code
  discreet : ∀ path, (code path).Discreet server.required
  eval : ∀ expression, Through server (language.eval expression)
  load : ∀ name, Through server (language.load name)
  start : ∀ name bound s app start, (language.load name bound s).result = .ok app →
    app.start = some start → Through server start
  compile : ∀ file target level strict, Through server (language.compile file target level strict)
  ensureDirectory : ∀ path, Through server (files.ensureDirectory path)
  started : ∀ names s, memory.required.get (memory.started.set names s) = memory.required.get s
  node : ∀ node s, memory.required.get (memory.node.set node s) = memory.required.get s

/-- The default host, with a loader of its own. -/
def hostLoading (language : Language σ) (memory : Memory σ) (files : FileSystem σ) (place : Place)
    (loader : List String → Hosted σ Unit) : Collaborators σ :=
  { language.host memory files place with loadFiles := loader }

variable {language : Language σ} {memory : Memory σ} {files : FileSystem σ} {place : Place}
  {server : CodeServer σ} {code : String → Routine σ Unit} {workers : Nat}
  {loader : List String → Hosted σ Unit}

/-- **The default host runs files once**, if its programs require files through the code server and
its loader is a pool. -/
theorem GoesThrough.runsOnce (h : language.GoesThrough memory files server code)
    (hplace : place.directory = server.directory)
    (hloader : ∀ names bound s, Loads server code workers names s (loader names bound s)) :
    (language.hostLoading memory files place loader).RunsOnce server.required := by
  have hthrough : ∀ {α : Type} {p : Hosted σ α}, Through server p → p.RunsOnce server.required :=
    fun hp ↦ hp.runsOnce h.runsCode h.discreet
  have hserver : language.codeServer memory place.directory = server := hplace ▸ h.server_eq
  have hrequired : server.required = memory.required := h.server_eq ▸ rfl
  have happs : (language.applications memory).RunsOnce server.required := {
    load := fun name ↦ hthrough (h.load name)
    start := fun name bound s app start happ hstart ↦
      hthrough (h.start name bound s app start happ hstart)
    apart := hrequired ▸ h.started }
  exact {
    ensureDirectory := fun path ↦ hthrough (h.ensureDirectory path)
    eval := fun expression ↦ hthrough (h.eval expression)
    requireFile := fun path ↦ hthrough (by
      show Through server ((language.codeServer memory place.directory).requireFile path)
      rw [hserver]
      exact through_requireFile path)
    loadFiles := fun names bound s ↦ (hloader names bound s).runOnce h.discreet
    startApplication := fun name ↦ happs.startWithin [] name
    compileFiles := fun names output options _ hcallback ↦ Compiler.runsOnce_compileFiles
      (fun file target level strict ↦ hthrough (h.compile file target level strict))
      names output options hcallback
    setCookie := fun value ↦ (discreet_modify fun s ↦ by
      rw [hrequired]
      exact h.node _ s).runsOnce
    publish := fun _ ↦ runsOnce_pure () }

end Language

end Host

end Launcher
