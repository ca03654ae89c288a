import Launcher.Proofs.Dispatch.Compiling
import Launcher.Proofs.Dispatch.Directory
import Launcher.Proofs.FileTree.LastName
import Launcher.Proofs.Host.Conflicts

/-!
# Spellings of a source

A file can be spelled in many ways, such as `a.py` and `./a.py`, and different patterns may lead to
different spellings. What a command to compile hands over is told apart by the spelling, and so is
what conflicts: two spellings of a file are two sources for its module. Hence a run does right by
the files (`RightByFiles`) if each of them comes in one spelling, or if a conflict is there anyway;
and if the compiler is called, then only if (`compile_tells_sources_by_spelling`).
-/

namespace Launcher.Dispatch

open Host

variable {σ α : Type} {c : Collaborators σ} {plan : Plan} {patterns : List String} {bound : Bool}
  {s : σ} {directory : String} {files : List String}

/-! ### Files and their spellings -/

/-- No file is spelled in two ways. Two paths spell one file if they have one absolute path, seen
from the working directory. -/
def OneSpelling (directory : String) (files : List String) : Prop :=
  ∀ file ∈ files, ∀ other ∈ files,
    Path.absolute directory file = Path.absolute directory other → file = other

/-- Two different files define one module. -/
def ModuleShared (directory : String) (files : List String) : Prop :=
  ∃ file ∈ files, ∃ other ∈ files,
    Path.absolute directory file ≠ Path.absolute directory other ∧
      Compiler.moduleName file = Compiler.moduleName other

/-- Two spellings have one module name. -/
def ModuleDoubled (files : List String) : Prop :=
  ∃ file ∈ files, ∃ other ∈ files,
    file ≠ other ∧ Compiler.moduleName file = Compiler.moduleName other

/-- A conflict is reported. -/
def Refused (o : Outcome σ α) : Prop := ∃ failure, o.result = .error failure ∧ IsConflict failure

/-- The absolute paths of the compiled files. -/
def compiledPaths (directory : String) (effects : List Effect) : List String :=
  (compiledIn effects).map fun entry ↦ Path.absolute directory entry.1

/-- The command does right by files, however they are spelled: it reports a conflict only if two of
them define one module, compiles none of them twice, and all of them if it succeeds. -/
structure RightByFiles (directory : String) (files : List String)
    (o : Outcome σ (Option String)) : Prop where
  refused : Refused o → ModuleShared directory files
  once : (compiledPaths directory o.effects).Nodup
  all : o.result = .ok none →
    ∀ file ∈ files, Path.absolute directory file ∈ compiledPaths directory o.effects

theorem OneSpelling.nodup_map (h : OneSpelling directory files) (hfiles : files.Nodup) :
    (files.map (Path.absolute directory)).Nodup :=
  (List.nodup_map_iff_inj_on hfiles).2 h

/-- If no file is spelled in two ways, then two spellings for one module are those of two files. -/
theorem OneSpelling.moduleShared (h : OneSpelling directory files)
    (hdoubled : ModuleDoubled files) : ModuleShared directory files := by
  obtain ⟨file, hfile, other, hother, hne, hmodule⟩ := hdoubled
  exact ⟨file, hfile, other, hother, fun hpath ↦ hne (h file hfile other hother hpath), hmodule⟩

/-- Two files are spelled differently. -/
theorem ModuleShared.moduleDoubled (h : ModuleShared directory files) : ModuleDoubled files := by
  obtain ⟨file, hfile, other, hother, hpath, hmodule⟩ := h
  exact ⟨file, hfile, other, hother, fun heq ↦ hpath (heq ▸ rfl), hmodule⟩

/-- **A file in two spellings stands for its module twice**, if the spellings end in names. -/
theorem moduleDoubled_of_not_oneSpelling
    (hnames : ∀ file ∈ files, FileTree.IsName (Path.baseName file))
    (h : ¬OneSpelling directory files) : ModuleDoubled files := by
  simp only [OneSpelling, not_forall] at h
  obtain ⟨file, hfile, other, hother, hpath, hne⟩ := h
  have hname := congrArg Path.baseName hpath
  rw [Path.baseName_absolute (hnames file hfile), Path.baseName_absolute (hnames other hother)]
    at hname
  refine ⟨file, hfile, other, hother, hne, ?_⟩
  rw [Compiler.moduleName, hname, Compiler.moduleName]

/-! ### The compiler behind a dispatch -/

/-- What a plan asks of a crew. -/
def buildOf (compiler : Compiler σ) (workers : Nat) (hworkers : 0 < workers) (plan : Plan) :
    Build σ where
  compiler := compiler
  output := plan.output
  settings := settings plan.compilerOptions
  eachFile := if plan.verbose then some fun file ↦ Hosted.emit (.announced file) else none
  workers := workers
  workers_pos := hworkers

/-- The collaborators compile as a crew may do it. -/
def CompilesAs (c : Collaborators σ) (build : Build σ) : Prop :=
  ∀ files bound s, ∃ crew, build.Compiles files s crew
    (c.compileFiles files build.output build.settings build.eachFile bound s)

/-- A program that neither reports a conflict nor records a compilation. -/
structure Modest (p : Hosted σ α) : Prop where
  noConflict : ∀ bound s, ¬Refused (p bound s)
  noRecord : p.Lacks Effect.compiled?

/-- A machinery that leaves conflicts and records to the compiler around it. -/
structure ModestMachinery (compiler : Compiler σ) : Prop where
  modest : ∀ file target level strict, Modest (compiler.compile file target level strict)
  noOther : ∀ file target level strict bound s failure,
    (compiler.compile file target level strict bound s).result = .ok (some (.other failure)) →
      ¬IsConflict failure

section Crew

variable {compiler : Compiler σ} {workers : Nat} {hworkers : 0 < workers}

/-- Announcing a file returns, and it records no compilation. -/
theorem callBack_buildOf (file : String) (bound : Bool) (s : σ) :
    ((buildOf compiler workers hworkers plan).callBack file bound s).result = .ok () ∧
    compiledIn ((buildOf compiler workers hworkers plan).callBack file bound s).effects = [] := by
  rw [Build.callBack, buildOf]
  cases plan.verbose <;> exact ⟨rfl, rfl⟩

theorem ModestMachinery.noneMadeUp (h : ModestMachinery compiler) :
    (buildOf compiler workers hworkers plan).NoneMadeUp files where
  machinery _ _ bound s failure hended := by
    rcases hended with hfailed | hother
    · exact fun hconflict ↦ (h.modest _ _ _ _).noConflict bound s ⟨failure, hfailed, hconflict⟩
    · exact h.noOther _ _ _ _ bound s failure hother
  callBack file _ bound s failure hfailed := by
    rw [(callBack_buildOf file bound s).1] at hfailed
    cases hfailed

theorem ModestMachinery.lacks (h : ModestMachinery compiler) :
    (buildOf compiler workers hworkers plan).Lacks Effect.compiled? files where
  machinery _ _ := (h.modest _ _ _ _).noRecord
  callBack file _ bound s := (callBack_buildOf file bound s).2

end Crew

section Build

variable {build : Build σ} {crew : Crew σ} {call : Outcome σ Unit}

/-- The compiled files, by their absolute paths. -/
theorem compiledPaths_perm (h : build.Compiles files s crew call)
    (hlacks : build.Lacks Effect.compiled? files) :
    (compiledPaths directory call.effects).Perm (crew.compiled.map (Path.absolute directory)) := by
  have hpaths : (crew.compiled.map build.entry).map (fun entry ↦ Path.absolute directory entry.1) =
      crew.compiled.map (Path.absolute directory) :=
    List.map_map
  exact hpaths ▸ (h.recorded hlacks).map _

/-- If a conflict is reported, nothing is compiled. -/
theorem compiledIn_eq_nil_of_refused (h : build.Compiles files s crew call)
    (hoption : build.settings.value "ignore_module_conflict" false = false)
    (hmadeUp : build.NoneMadeUp files) (hrefused : Refused call) :
    compiledIn call.effects = [] := by
  obtain ⟨-, _, _, _, _, -, -, -, -, -, rfl⟩ :=
    h.of_clash hoption ((h.isConflict_iff hoption hmadeUp).1 hrefused)
  rfl

end Build

/-! ### The way to the compiler -/

/-- The command gets to the compiler: the output directory is there, and each of the patterns has a
regular file. -/
def ReachesCompiler (c : Collaborators σ) (plan : Plan) (patterns : List String) (bound : Bool)
    (s : σ) : Prop :=
  let ensured := c.files.ensureDirectory plan.output bound s
  ensured.result = .ok () ∧ patterns ≠ [] ∧
    ∀ pattern ∈ patterns, regularMatches c ensured.state pattern ≠ []

theorem compiledIn_ask (request : Request) (effects : List Effect) :
    compiledIn (.event (.asked request) :: effects) = compiledIn effects :=
  rfl

theorem compiledIn_append (effects effects' : List Effect) :
    compiledIn (effects ++ effects') = compiledIn effects ++ compiledIn effects' :=
  List.filterMap_append

/-- A command that gets to the compiler ends as the compiler does. -/
theorem command_of_reaches (h : ReachesCompiler c plan patterns bound s)
    (hensure : Modest (c.files.ensureDirectory plan.output)) :
    let t := (c.files.ensureDirectory plan.output bound s).state
    let eachFile := if plan.verbose then some fun file ↦ Hosted.emit (.announced file) else none
    let call := c.compileFiles (matched c t patterns) plan.output (settings plan.compilerOptions)
      eachFile bound t
    let o := command c plan (.compile patterns) bound s
    o.result = call.result.map (fun _ ↦ none) ∧ compiledIn o.effects = compiledIn call.effects := by
  intro t eachFile call o
  obtain ⟨hok, hne, hall⟩ := h
  have hcommand : o = _ := compile_apply_of_ok c plan bound hok
  rw [compileRest_of_matched hall hne, invoke_apply] at hcommand
  have hnone : compiledIn (c.files.ensureDirectory plan.output bound s).effects = [] :=
    hensure.noRecord bound s
  rw [hcommand]
  refine ⟨rfl, ?_⟩
  rw [List.cons_append, compiledIn_ask, compiledIn_append, hnone, List.nil_append, compiledIn_ask]

/-- A command that does not get to the compiler neither reports a conflict nor succeeds, and
compiles nothing. -/
theorem command_of_not_reaches (h : ¬ReachesCompiler c plan patterns bound s)
    (hensure : Modest (c.files.ensureDirectory plan.output)) :
    let o := command c plan (.compile patterns) bound s
    ¬Refused o ∧ o.result ≠ .ok none ∧ compiledIn o.effects = [] := by
  intro o
  have hnone : compiledIn (c.files.ensureDirectory plan.output bound s).effects = [] :=
    hensure.noRecord bound s
  rcases hensured : (c.files.ensureDirectory plan.output bound s).result with failure | ⟨⟩
  · have hcommand : o = _ := compile_apply_of_error c plan bound hensured
    rw [hcommand]
    refine ⟨fun ⟨other, hother, hconflict⟩ ↦ ?_, nofun, hnone⟩
    obtain rfl : failure = other := Except.error.inj hother
    exact hensure.noConflict bound s ⟨failure, hensured, hconflict⟩
  · have hcommand : o = _ := compile_apply_of_ok c plan bound hensured
    have hline : ∃ line, compileRest c plan patterns
        (c.files.ensureDirectory plan.output bound s).state = pure (some line) := by
      by_cases hmissing : ∃ pattern ∈ patterns,
          regularMatches c (c.files.ensureDirectory plan.output bound s).state pattern = []
      · exact ⟨_, compileRest_of_missing hmissing⟩
      · push Not at hmissing
        have hnil : patterns = [] := by
          by_contra hne
          exact h ⟨hensured, hne, hmissing⟩
        subst hnil
        exact ⟨_, compileRest_nil⟩
    obtain ⟨line, hline⟩ := hline
    rw [hline, Hosted.pure_apply, List.append_nil] at hcommand
    rw [hcommand]
    exact ⟨nofun, nofun, hnone⟩

/-! ### What becomes of the files -/

section Ending

variable {build : Build σ} {crew : Crew σ} {call : Outcome σ Unit} {o : Outcome σ (Option String)}

/-- A command that ends as a call does reports a conflict exactly if the call does. -/
theorem refused_iff_of_map (h : o.result = call.result.map fun _ ↦ none) :
    Refused o ↔ Refused call := by
  rw [Refused, Refused, h]
  cases call.result <;> simp [Except.map]

theorem result_eq_ok_iff_of_map (h : o.result = call.result.map fun _ ↦ none) :
    o.result = .ok none ↔ call.result = .ok () := by
  rw [h]
  cases call.result <;> simp [Except.map]

/-- Different spellings are refused exactly if two of them have one module name. -/
theorem refused_iff_moduleDoubled (h : build.Compiles files s crew call) (hfiles : files.Nodup)
    (hoption : build.settings.value "ignore_module_conflict" false = false)
    (hmadeUp : build.NoneMadeUp files) : Refused call ↔ ModuleDoubled files :=
  (h.isConflict_iff hoption hmadeUp).trans (Compiler.exists_clash_iff_moduleName hfiles)

variable (h : build.Compiles files s crew call) (hfiles : files.Nodup)
  (hlacks : build.Lacks Effect.compiled? files)
  (hresult : o.result = call.result.map fun _ ↦ none)
  (heffects : compiledIn o.effects = compiledIn call.effects)
include h hfiles hlacks hresult heffects

/-- If each file has one spelling, or the files conflict anyway, the command does right by them. -/
theorem rightByFiles_of_compiles
    (hoption : build.settings.value "ignore_module_conflict" false = false)
    (hmadeUp : build.NoneMadeUp files)
    (hspelling : OneSpelling directory files ∨ ModuleShared directory files) :
    RightByFiles directory files o := by
  have hmodule := refused_iff_moduleDoubled h hfiles hoption hmadeUp
  have hpaths : compiledPaths directory o.effects = compiledPaths directory call.effects :=
    congrArg (List.map _) heffects
  constructor
  · intro hrefused
    have hclash := hmodule.1 ((refused_iff_of_map hresult).1 hrefused)
    exact hspelling.elim (fun hone ↦ hone.moduleShared hclash) id
  · rw [hpaths]
    rcases hspelling with hone | hshared
    · refine (compiledPaths_perm h hlacks).nodup_iff.2 ?_
      exact (h.compiled_sublist.map _).nodup (hone.nodup_map hfiles)
    · have hnone := compiledIn_eq_nil_of_refused h hoption hmadeUp (hmodule.2 hshared.moduleDoubled)
      rw [compiledPaths, hnone]
      exact .nil
  · intro hok file hfile
    have hall := h.compiled_eq_of_ok ((result_eq_ok_iff_of_map hresult).1 hok)
    rw [hpaths, (compiledPaths_perm h hlacks).mem_iff, hall]
    exact List.mem_map_of_mem hfile

end Ending

/-- **The sources of a command to compile are told apart by their spelling.** Let `files` be the
regular files of all patterns, each spelling once. Unless conflicts are ignored, the command reports
one exactly if it gets to the compiler and two of the spellings have one module name, and then it
compiles nothing. So it does right by the files if each of them has one spelling, or if two of them
do define one module. If it gets to the compiler and the spellings end in names, then only if. -/
theorem compile_tells_sources_by_spelling (c : Collaborators σ) (compiler : Compiler σ)
    (workers : Nat) (hworkers : 0 < workers) (plan : Plan)
    (hcompiles : CompilesAs c (buildOf compiler workers hworkers plan))
    (hmachinery : ModestMachinery compiler) (hensure : Modest (c.files.ensureDirectory plan.output))
    (hoption :
      Settings.value (settings plan.compilerOptions) "ignore_module_conflict" false = false)
    (directory : String) (patterns : List String) (bound : Bool) (s : σ) :
    let t := (c.files.ensureDirectory plan.output bound s).state
    let files := matched c t patterns
    let o := command c plan (.compile patterns) bound s
    FirstAppearances files (patterns.flatMap (regularMatches c t)) ∧
    (Refused o ↔ ReachesCompiler c plan patterns bound s ∧ ModuleDoubled files) ∧
    (Refused o → compiledIn o.effects = []) ∧
    (OneSpelling directory files ∨ ModuleShared directory files → RightByFiles directory files o) ∧
    (ReachesCompiler c plan patterns bound s →
      (∀ file ∈ files, FileTree.IsName (Path.baseName file)) →
      (RightByFiles directory files o ↔
        OneSpelling directory files ∨ ModuleShared directory files)) := by
  intro t files o
  refine ⟨firstAppearances_matched c t patterns, ?_⟩
  by_cases hreaches : ReachesCompiler c plan patterns bound s
  · have hnodup : files.Nodup := nodup_distinct _
    obtain ⟨hresult, heffects⟩ := command_of_reaches hreaches hensure
    obtain ⟨crew, hcrew⟩ := hcompiles files bound t
    have hmadeUp : (buildOf compiler workers hworkers plan).NoneMadeUp files :=
      hmachinery.noneMadeUp
    have hrefused : Refused o ↔ ModuleDoubled files := (refused_iff_of_map hresult).trans
      (refused_iff_moduleDoubled hcrew hnodup hoption hmadeUp)
    have hright : OneSpelling directory files ∨ ModuleShared directory files →
        RightByFiles directory files o :=
      rightByFiles_of_compiles hcrew hnodup hmachinery.lacks hresult heffects hoption hmadeUp
    refine ⟨hrefused.trans (iff_and_self.2 fun _ ↦ hreaches), fun hconflict ↦ ?_, hright,
      fun _ hnames ↦ ⟨fun hdoes ↦ ?_, hright⟩⟩
    · rw [heffects]
      exact compiledIn_eq_nil_of_refused hcrew hoption hmadeUp
        ((refused_iff_of_map hresult).1 hconflict)
    · by_cases hone : OneSpelling directory files
      · exact .inl hone
      · exact .inr (hdoes.refused (hrefused.2 (moduleDoubled_of_not_oneSpelling hnames hone)))
  · obtain ⟨hconflict, hsuccess, hnone⟩ := command_of_not_reaches hreaches hensure
    have hright : RightByFiles directory files o :=
      ⟨fun hrefused ↦ absurd hrefused hconflict, by rw [compiledPaths, hnone]; exact .nil,
        fun hok ↦ absurd hok hsuccess⟩
    exact ⟨iff_of_false hconflict fun h ↦ hreaches h.1, fun hrefused ↦ absurd hrefused hconflict,
      fun _ ↦ hright, fun h ↦ absurd h hreaches⟩

/-! ### One file on a stage -/

section Stage

open Rehearsal

/-- Local files report failures of the file system only, and record nothing. -/
theorem modest_ensureDirectory (shell : Shell) (tree : Slot σ FileTree) (path : String) :
    Modest ((localFiles shell tree).ensureDirectory path) := by
  have hensure : ∀ bound s, ∃ t, (localFiles shell tree).ensureDirectory path bound s =
      ⟨.ok (), t, []⟩ ∨ ∃ e culprit, (localFiles shell tree).ensureDirectory path bound s =
        ⟨.error { cause := .file e culprit }, t, []⟩ := by
    intro bound s
    refine ⟨tree.set ((tree.get s).ensureDirectory path).2 s, ?_⟩
    simp only [localFiles, Hosted.bind_eq_andThen, Hosted.get_andThen_apply]
    rcases ((tree.get s).ensureDirectory path).1 with - | ⟨e, culprit⟩
    · exact .inl rfl
    · exact .inr ⟨e, culprit, rfl⟩
  constructor
  · rintro bound s ⟨failure, hfailure, message, hconflict⟩
    obtain ⟨t, ho | ⟨e, culprit, ho⟩⟩ := hensure bound s
    · rw [ho] at hfailure
      cases hfailure
    · rw [ho] at hfailure
      obtain rfl := Except.error.inj hfailure
      cases hconflict
  · intro bound s
    obtain ⟨t, ho | ⟨e, culprit, ho⟩⟩ := hensure bound s <;>
      rw [ho] <;> rfl

/-- A scripted source has an error of its own, or none. -/
theorem modestMachinery_language (script : Script) (version : String) :
    ModestMachinery (script.language version).compiler := by
  have hcompile : ∀ file target level strict bound s,
      ∃ (message? : Option String) (t : Stage),
        (script.language version).compiler.compile file target level strict bound s =
          ⟨.ok (message?.map .source), t, []⟩ := by
    intro file target level strict bound s
    simp only [Language.compiler, Script.language]
    cases ((script.sources.lookup file).getD {}).error? strict with
    | none => exact ⟨none, s, rfl⟩
    | some message => exact ⟨some message, _, rfl⟩
  constructor
  · intro file target level strict
    refine ⟨fun bound s ⟨failure, hfailure, _⟩ ↦ ?_, fun bound s ↦ ?_⟩ <;>
      obtain ⟨message?, t, ho⟩ := hcompile file target level strict bound s
    · rw [ho] at hfailure
      cases hfailure
    · rw [ho]
      rfl
  · intro file target level strict bound s failure hother
    obtain ⟨message?, t, ho⟩ := hcompile file target level strict bound s
    rw [ho] at hother
    cases message? <;> cases hother

/-- A pattern that names a local file literally matches what it says. -/
theorem regularMatches_of_isRegular {shell : Shell} {tree : Slot σ FileTree}
    (hfiles : c.files = localFiles shell tree) {path : String} (h : (tree.get s).isRegular path)
    (hname : FileTree.IsName (Path.baseName path)) (hliteral : Glob.isPattern path.toList = false) :
    regularMatches c s path = [path] := by
  have hwildcard : (localFiles shell tree).wildcard s path = [path] :=
    FileTree.wildcard_of_isRegular h hname hliteral
  rw [regularMatches, hfiles, hwildcard]
  exact List.filter_eq_self.2 (List.forall_mem_singleton.2 h)

/-- One source. -/
def lone : FileTree := ⟨[(["", "a.py"], .file false)]⟩

theorem isRegular_lone : ∀ path ∈ ["a.py", "./a.py"], lone.isRegular path := by
  have hplain : FileTree.parts "a.py" = ["a.py"] := by decide
  have hdotted : FileTree.parts "./a.py" = [".", "a.py"] := by decide
  have hleads : lone.Leads FileTree.linkLimit FileTree.workingPlace ["a.py"] FileTree.linkLimit
      ["", "a.py"] :=
    .down rfl (by decide) (by decide) rfl nofun (.done _ _)
  refine List.forall_mem_cons.2 ⟨?_, List.forall_mem_singleton.2 ?_⟩ <;>
    refine FileTree.isRegular_iff.2
      ⟨FileTree.linkLimit, ["", "a.py"], false, ⟨by decide, ?_⟩, rfl⟩
  · rw [hplain]
    exact hleads
  · rw [hdotted]
    exact .stay rfl (.inr rfl) hleads

theorem regularMatches_lone :
    ∀ path ∈ ["a.py", "./a.py"], regularMatches stageHost { tree := lone } path = [path] := by
  have hspelled : ∀ path ∈ ["a.py", "./a.py"],
      FileTree.IsName (Path.baseName path) ∧ Glob.isPattern path.toList = false := by
    decide
  exact fun path hpath ↦ regularMatches_of_isRegular rfl (isRegular_lone path hpath)
    (hspelled path hpath).1 (hspelled path hpath).2

theorem absolute_lone : ∀ path ∈ ["a.py", "./a.py"], Path.absolute "/work" path = "/work/a.py" := by
  decide

theorem not_moduleShared_lone : ¬ModuleShared "/work" ["a.py", "./a.py"] :=
  fun ⟨file, hfile, other, hother, hpath, _⟩ ↦
    hpath ((absolute_lone file hfile).trans (absolute_lone other hother).symm)

theorem ensureDirectory_lone :
    (stageHost.files.ensureDirectory (Plan.output {}) false { tree := lone }).result = .ok () ∧
    (stageHost.files.ensureDirectory (Plan.output {}) false { tree := lone }).state =
      { tree := lone } := by
  have hensure : stageHost.files.ensureDirectory (Plan.output {}) false { tree := lone } = _ :=
    ensureDirectory_here_apply rfl
  exact ⟨congrArg Outcome.result hensure, congrArg Outcome.state hensure⟩

/-- One worker of the compiler on the stage, with the options of an empty plan. -/
def stageBuild : Build Stage :=
  buildOf (({} : Script).language launcherVersion).compiler 1 Nat.one_pos {}

theorem compilesAs_stageBuild : CompilesAs stageHost stageBuild :=
  fun files bound s ↦ stageBuild.compiles_inTurn files bound s

theorem noOption_stageBuild : stageBuild.settings.value "ignore_module_conflict" false = false := by
  simp [stageBuild, buildOf, settings, distinct, Settings.value]

section Patterns

variable (h : ∀ pattern ∈ patterns, pattern ∈ ["a.py", "./a.py"])
include h

theorem matched_lone : matched stageHost { tree := lone } patterns = distinct patterns := by
  have hmatches : patterns.flatMap (regularMatches stageHost { tree := lone }) =
      patterns.flatMap fun pattern ↦ [pattern] :=
    List.flatMap_congr fun pattern hpattern ↦ regularMatches_lone pattern (h pattern hpattern)
  rw [matched_eq_distinct, hmatches, List.flatMap_singleton']

theorem reachesCompiler_lone (hne : patterns ≠ []) :
    ReachesCompiler stageHost {} patterns false { tree := lone } := by
  refine ⟨ensureDirectory_lone.1, hne, fun pattern hpattern ↦ ?_⟩
  have hmatches := regularMatches_lone pattern (h pattern hpattern)
  rw [← ensureDirectory_lone.2] at hmatches
  rw [hmatches]
  exact List.cons_ne_nil _ _

end Patterns

/-- Named twice in one spelling, a source is compiled once. In two spellings it is refused. -/
theorem lone_tells_sources_by_spelling :
    let run patterns := command stageHost {} (.compile patterns) false { tree := lone }
    RightByFiles "/work" ["a.py"] (run ["a.py", "a.py"]) ∧
    Refused (run ["a.py", "./a.py"]) ∧
    ¬RightByFiles "/work" ["a.py", "./a.py"] (run ["a.py", "./a.py"]) := by
  intro run
  have htells := fun patterns ↦ compile_tells_sources_by_spelling stageHost _ 1 Nat.one_pos {}
    compilesAs_stageBuild (modestMachinery_language {} _) (modest_ensureDirectory _ _ _)
    noOption_stageBuild "/work" patterns false { tree := lone }
  have hspelled : ∀ pattern ∈ ["a.py", "./a.py"], pattern ∈ ["a.py", "./a.py"] := fun _ ↦ id
  obtain ⟨-, -, -, hright, -⟩ := htells ["a.py", "a.py"]
  obtain ⟨-, hrefused, -⟩ := htells ["a.py", "./a.py"]
  rw [ensureDirectory_lone.2, matched_lone (by decide)] at hright
  rw [ensureDirectory_lone.2, matched_lone hspelled] at hrefused
  have hdoubled : ModuleDoubled ["a.py", "./a.py"] :=
    ⟨"a.py", by decide, "./a.py", by decide, by decide, by decide⟩
  have hconflict := hrefused.2 ⟨reachesCompiler_lone hspelled (by decide), hdoubled⟩
  refine ⟨hright (.inl ?_), hconflict, fun h ↦ not_moduleShared_lone (h.refused hconflict)⟩
  intro file hfile other hother _
  rw [List.mem_singleton.1 hfile, List.mem_singleton.1 hother]

/-- **A source in two spellings conflicts with itself.** No other file defines its module. -/
theorem compile_refuses_one_source :
    let files := ["a.py", "./a.py"]
    let o := command stageHost {} (.compile files) false { tree := lone }
    matched stageHost { tree := lone } files = files ∧
    (∀ file ∈ files, Path.absolute "/work" file = "/work/a.py") ∧
    o.result = .error
      { cause := .compilation "./a.py and a.py both define module a"
          (some "Pass --ignore-module-conflict to overwrite.") } ∧
    Refused o ∧ ¬ModuleShared "/work" files := by
  intro files o
  have hspelled : ∀ pattern ∈ files, pattern ∈ ["a.py", "./a.py"] := fun _ ↦ id
  have hmatched : matched stageHost { tree := lone } files = files := matched_lone hspelled
  have hrefusal : stageBuild.refusal? files =
      some (Compiler.conflict "./a.py" "a.py" "./a.pyc") := by
    rw [Build.refusal?, noOption_stageBuild]
    rfl
  have hconflict : Compiler.conflict "./a.py" "a.py" "./a.pyc" =
      { cause := .compilation "./a.py and a.py both define module a"
          (some "Pass --ignore-module-conflict to overwrite.") } := by
    decide
  have hresult : o.result = _ := (command_of_reaches (reachesCompiler_lone hspelled (by decide))
    (modest_ensureDirectory _ _ _)).1
  rw [ensureDirectory_lone.2, hmatched] at hresult
  have hcall : (stageBuild.inTurn files false { tree := lone }).result = .error _ :=
    congrArg (fun p ↦ (p false { tree := lone }).result) (Build.inTurn_of_refused hrefusal)
  have ho : o.result = .error _ := hresult.trans (congrArg (Except.map fun _ ↦ none) hcall)
  exact ⟨hmatched, absolute_lone, hconflict ▸ ho, ⟨_, ho, _, rfl⟩, not_moduleShared_lone⟩

end Stage

end Launcher.Dispatch
