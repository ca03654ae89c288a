import Launcher.Proofs.Argv.Batch
import Launcher.Proofs.Dispatch.Calls
import Launcher.Proofs.FileTree.Naming
import Launcher.Proofs.FileTree.Sources
import Launcher.Rehearsal

/-!
# Compiling a directory

In compiler mode a token that names a directory is read as the pattern for the sources below it, and
the compiler is handed the regular files that the pattern matches. The name of the directory is a
part of the pattern. If it is literal, these are the sources below the directory, each once
(`compile_directory_of_literal`), in any tree that is put together from paths
(`mem_regularFiles_ofList_iff`). If it is not, it need not even match itself, and the sources are
missed (`compile_misses_bracketed_directory`).
-/

namespace Launcher

open Argv FileTree

variable {σ : Type}

/-! ### Reading a directory -/

/-- A single bare token in compiler mode makes a plan of one command, with the pattern that it
stands for. -/
theorem Argv.parseNamed_compiler_bare (s : Surroundings) {token : String}
    (hbare : isFlag token = false) (path : SearchPath) :
    parseNamed s "compiler" [token] {} path =
      .ok (.finished [], { plan := { commands := [.compile [s.sourcePattern token]],
                                     sources := [s.sourcePattern token] }, path }) := by
  have hdash : ∀ flag, isFlag flag = true → token ≠ flag := by
    rintro flag hflag rfl
    exact Bool.false_ne_true (hbare.symm.trans hflag)
  have hflag : Mode.compiler.flag? token = none := by
    rw [Mode.flag?] <;> exact hdash _ (by decide)
  have hstep : ∀ p, step s .compiler token [] p =
      .next .compiler [] (p.mapPlan (·.addSource (s.sourcePattern token))) := by
    intro p
    rw [step_of_no_flag (hdash _ (by decide)) hflag, otherStep, if_neg (by simp [hbare])]
    rfl
  have hmode : Mode.ofName? "compiler" = some .compiler := rfl
  rw [parseNamed, hmode]
  simp only [read_of_step_next (hstep _)]
  rw [Argv.read]
  rfl

/-! ### Local files -/

namespace FileTree

/-- The working directory is where it is. -/
theorem locate_here (t : FileTree) : t.locate "." = .ok workingPlace :=
  locate_eq_ok_iff.2 ⟨linkLimit, by decide, .stay rfl (.inr rfl) (.done _ _)⟩

/-- The working directory does not have to be created. -/
theorem ensureDirectory_here (t : FileTree) : t.ensureDirectory "." = (none, t) := by
  have hdir : t.isDirectory "." = true :=
    isDirectory_iff.2 ⟨_, _, ⟨by decide, .stay rfl (.inr rfl) (.done _ _)⟩, rfl⟩
  have hmake : t.makeDirectory "." = .error .exists := by
    have hentry : t.locateEntry (withoutEndSlashes ".") = .ok workingPlace := t.locate_here
    rw [makeDirectory, hentry]
    rfl
  have hname : splitName "." = ("", ".") := by decide
  have hensure : t.ensureDirectory "." = ensureWithin (1 + 1) "." t := rfl
  have habove : "".isEmpty = true := rfl
  rw [hensure, ensureWithin, hname]
  simp only [habove, Bool.true_or, if_true, ensureLast, hmake, hdir]

theorem mem_wildcard_iff {t : FileTree} {pattern path : String} :
    path ∈ t.wildcard pattern ↔ path ∈ t.search pattern :=
  List.mem_mergeSort

end FileTree

namespace Dispatch

variable {c : Collaborators σ} {shell : Host.Shell} {tree : Slot σ FileTree} {bound : Bool} {s : σ}

theorem nodup_regularFiles (c : Collaborators σ) (s : σ) (pattern : String) :
    (regularFiles c s pattern).Nodup :=
  (nodup_distinct _).filter _

theorem ensureDirectory_here_apply (hfiles : c.files = Host.localFiles shell tree) :
    c.files.ensureDirectory "." bound s = ⟨.ok (), s, []⟩ := by
  rw [hfiles]
  simp only [Host.localFiles, Hosted.bind_eq_andThen, Hosted.get_andThen_apply,
    ensureDirectory_here]
  exact congrArg (Outcome.mk (.ok ()) · []) (tree.set_get s)

/-- Compiling what one pattern matches. -/
theorem compileRest_singleton (plan : Plan) (pattern : String) :
    compileRest c plan [pattern] s =
      if regularFiles c s pattern = [] then
        pure (some ("No files matched pattern(s) " ++ pattern))
      else invoke (.compile (regularFiles c s pattern) plan.output (settings plan.compilerOptions)
        plan.verbose) (c.compileFiles (regularFiles c s pattern) plan.output
          (settings plan.compilerOptions)
          (if plan.verbose then some fun file ↦ Hosted.emit (.announced file) else none)) := by
  have hmatched : matched c s [pattern] = regularFiles c s pattern := by
    rw [matched, List.flatMap_singleton, distinct_of_nodup (nodup_regularFiles c s pattern)]
  rw [compileRest, hmatched, missing, List.filter_singleton]
  by_cases hnil : regularFiles c s pattern = []
  · rw [hnil, if_pos rfl]
    rfl
  · rw [if_neg hnil, List.isEmpty_eq_false_iff.2 hnil]
    rfl

/-- Running the command for one pattern, if the output directory is there: the error line, or the
call of the compiler with the files. -/
theorem command_compile_singleton (plan : Plan) (pattern : String)
    (hensure : c.files.ensureDirectory plan.output bound s = ⟨.ok (), s, []⟩)
    (hquiet : plan.verbose = false) :
    let files := regularFiles c s pattern
    let options := settings plan.compilerOptions
    let call := c.compileFiles files plan.output options none bound s
    command c plan (.compile [pattern]) bound s =
      if files = [] then
        ⟨.ok (some ("No files matched pattern(s) " ++ pattern)), s,
          [.event (.asked (.ensureDirectory plan.output))]⟩
      else
        ⟨call.result.map fun _ ↦ none, call.state,
          .event (.asked (.ensureDirectory plan.output)) ::
            .event (.asked (.compile files plan.output options false)) :: call.effects⟩ := by
  have hok : (c.files.ensureDirectory plan.output bound s).result = .ok () := by rw [hensure]
  intro files options call
  show compile c plan [pattern] bound s = _
  rw [compile_apply_of_ok c plan bound hok, hensure]
  simp only [compileRest_singleton, hquiet]
  by_cases hnil : files = []
  · rw [if_pos hnil, if_pos hnil]
    rfl
  · rw [if_neg hnil, if_neg hnil, if_neg Bool.false_ne_true, invoke_apply]
    rfl

section Below

variable {directory suffix file : String}

/-- The files for a directory with a literal name are the sources below it. -/
theorem mem_regularFiles_below_iff (hfiles : c.files = Host.localFiles shell tree)
    (hnamed : (tree.get s).WellNamed) (hne : directory ≠ "")
    (hliteral : Glob.isPattern directory.toList = false) (hslash : '/' ∉ suffix.toList)
    (hsuffix : Glob.isPattern suffix.toList = false) :
    file ∈ regularFiles c s (directory ++ "/**/*" ++ suffix) ↔
      (tree.get s).SourceBelow (withoutEndSlashes (directory ++ "/")) suffix file := by
  have hwildcard : c.files.wildcard s = (tree.get s).wildcard := by rw [hfiles]; rfl
  have hregular : c.files.isRegular s = (tree.get s).isRegular := by rw [hfiles]; rfl
  rw [regularFiles, List.mem_filter, mem_distinct, hwildcard, hregular, mem_wildcard_iff]
  exact mem_search_below_iff hnamed hne hliteral hslash hsuffix

/-- **In a tree that is put together from paths nothing need be known about the names**, whatever
directories have been created in it since. -/
theorem mem_regularFiles_ofList_iff (hfiles : c.files = Host.localFiles shell tree)
    {entries : List (String × Kind)} {created : List String}
    (htree : tree.get s = (ofList entries).ensureDirectories created) (hne : directory ≠ "")
    (hliteral : Glob.isPattern directory.toList = false) (hslash : '/' ∉ suffix.toList)
    (hsuffix : Glob.isPattern suffix.toList = false) :
    file ∈ regularFiles c s (directory ++ "/**/*" ++ suffix) ↔
      (tree.get s).SourceBelow (withoutEndSlashes (directory ++ "/")) suffix file := by
  have hnamed : (tree.get s).WellNamed :=
    htree ▸ (wellNamed_ofList entries).ensureDirectories created
  exact mem_regularFiles_below_iff hfiles hnamed hne hliteral hslash hsuffix

end Below

/-- **Compiling a directory with a literal name compiles the sources below it.** Let the file system
be that of a tree in which everything has a name that it can have, as in every tree that is put
together from paths (`FileTree.wellNamed_ofList`). A token that names a directory is read as one
command, with the pattern for the sources below it. The command hands the compiler exactly the
regular files below the directory that are reached through names that are not hidden and that have
the suffix, each once. If there is none, then the command hands back its error line and nothing is
compiled.

The files are named by paths that start with the path of the directory without the slashes at its
end, which leads where the directory is, if it is not too long to lead anywhere. -/
theorem compile_directory_of_literal (c : Collaborators σ) (shell : Host.Shell)
    (tree : Slot σ FileTree) (hfiles : c.files = Host.localFiles shell tree)
    (surroundings : Surroundings) (bound : Bool) (s : σ)
    (hsees : surroundings.isDirectory = c.files.isDirectory s) (hnamed : (tree.get s).WellNamed)
    (hslash : '/' ∉ surroundings.suffix.toList)
    (hsuffix : Glob.isPattern surroundings.suffix.toList = false) (directory : String)
    (hdirectory : surroundings.isDirectory directory) (hbare : isFlag directory = false)
    (hliteral : Glob.isPattern directory.toList = false) (path : SearchPath) :
    let t := tree.get s
    let root := withoutEndSlashes (directory ++ "/")
    let pattern := directory ++ "/**/*" ++ surroundings.suffix
    let plan : Plan := { commands := [.compile [pattern]], sources := [pattern] }
    let files := regularFiles c s pattern
    let call := c.compileFiles files "." [] none bound s
    parseNamed surroundings "compiler" [directory] {} path = .ok (.finished [], { plan, path }) ∧
    (t.locate root = t.locate directory ∨ pathLimit < root.utf8ByteSize) ∧
    files.Nodup ∧ (∀ file, file ∈ files ↔ t.SourceBelow root surroundings.suffix file) ∧
    command c plan (.compile [pattern]) bound s =
      if files = [] then
        ⟨.ok (some ("No files matched pattern(s) " ++ pattern)), s,
          [.event (.asked (.ensureDirectory "."))]⟩
      else
        ⟨call.result.map fun _ ↦ none, call.state,
          .event (.asked (.ensureDirectory ".")) :: .event (.asked (.compile files "." [] false)) ::
            call.effects⟩ := by
  intro t root pattern plan files call
  have hdir : t.isDirectory directory := by
    rw [hsees, hfiles] at hdirectory
    exact hdirectory
  have hne : directory ≠ "" := by
    obtain ⟨_, _, hreaches, -⟩ := isDirectory_iff.1 hdir
    exact (refusal?_eq_none_iff.1 hreaches.1).1
  have hpattern : surroundings.sourcePattern directory = pattern := if_pos hdirectory
  refine ⟨?_, locate_withoutEndSlashes hdir, nodup_regularFiles c s pattern, fun file ↦ ?_, ?_⟩
  · rw [parseNamed_compiler_bare surroundings hbare, hpattern]
  · exact mem_regularFiles_below_iff hfiles hnamed hne hliteral hslash hsuffix
  · have hoptions : settings plan.compilerOptions = [] := by simp [plan, settings, distinct]
    have hcommand := command_compile_singleton plan pattern
      (ensureDirectory_here_apply hfiles : c.files.ensureDirectory "." bound s = _) rfl
    rw [hoptions] at hcommand
    exact hcommand

/-! ### Directories on a stage -/

section Stage

open Rehearsal

/-- The default host over the files on the stage. -/
def stageHost : Collaborators Stage :=
  (({} : Script).language Host.launcherVersion).host Stage.memory
    (Host.localFiles {} Stage.treeSlot)
    { directory := "/work", home := none, userHome := fun _ ↦ none }

/-- A library with a source, a link to another one, a hidden one and a directory named like one. -/
def workshop : FileTree :=
  ⟨[(["", "lib"], .directory), (["", "lib", "a.py"], .file false), (["", "lib", "n"], .directory),
    (["", "lib", "n", "b.py"], .link "../../shared"), (["", "shared"], .file false),
    (["", "lib", ".d.py"], .file false), (["", "lib", "e.py"], .directory)]⟩

theorem isDirectory_workshop : workshop.isDirectory "lib" := by
  have hparts : parts "lib" = ["lib"] := by decide
  refine isDirectory_iff.2 ⟨linkLimit, ["", "lib"], ⟨by decide, ?_⟩, rfl⟩
  rw [hparts]
  exact .down rfl (by decide) (by decide) rfl nofun (.done _ _)

theorem sourceBelow_workshop : workshop.SourceBelow "lib" ".py" "lib/a.py" := by
  have hparts : parts "lib/a.py" = ["lib", "a.py"] := by decide
  refine ⟨isRegular_iff.2 ⟨linkLimit, ["", "lib", "a.py"], false, ⟨by decide, ?_⟩, rfl⟩,
    [], "a.py", ?_, by decide, by decide⟩
  · rw [hparts]
    exact .down rfl (by decide) (by decide) rfl nofun
      (.down rfl (by decide) (by decide) rfl nofun (.done _ _))
  · exact List.forall_mem_singleton.2 ⟨by decide, by decide, by decide⟩

theorem sourceBelow_workshop_link : workshop.SourceBelow "lib" ".py" "lib/n/b.py" := by
  have hparts : parts "lib/n/b.py" = ["lib", "n", "b.py"] := by decide
  have htarget : parts "../../shared" ++ [] = ["..", "..", "shared"] := by decide
  refine ⟨isRegular_iff.2 ⟨39, ["", "shared"], false, ⟨by decide, ?_⟩, rfl⟩, ["n"], "b.py", ?_,
    by decide, by decide⟩
  · rw [hparts]
    refine .down rfl (by decide) (by decide) rfl nofun (.down rfl (by decide) (by decide) rfl nofun
      (.through rfl (by decide) (by decide) rfl ?_))
    rw [htarget]
    exact .up rfl (.up rfl (.down rfl (by decide) (by decide) rfl nofun (.done _ _)))
  · exact List.forall_mem_cons.2 ⟨⟨by decide, by decide, by decide⟩,
      List.forall_mem_singleton.2 ⟨by decide, by decide, by decide⟩⟩

theorem not_isRegular_workshop : workshop.isRegular "lib/e.py" = false := by
  have hparts : parts "lib/e.py" = ["lib", "e.py"] := by decide
  have hfind : workshop.find? "lib/e.py" = some .directory := by
    refine find?_eq_some_iff.2 ⟨linkLimit, ["", "lib", "e.py"], ⟨by decide, ?_⟩, rfl⟩
    rw [hparts]
    exact .down rfl (by decide) (by decide) rfl nofun
      (.down rfl (by decide) (by decide) rfl nofun (.done _ _))
  rw [isRegular, hfind]

/-- The compiler is handed the source and the link to one, and neither the hidden source nor the
directory. -/
theorem workshop_compile_directory :
    let s : Stage := { tree := workshop }
    let pattern := "lib" ++ "/**/*" ++ ".py"
    let plan : Plan := { commands := [.compile [pattern]], sources := [pattern] }
    let files := regularFiles stageHost s pattern
    parseNamed (stageHost.surroundings s) "compiler" ["lib"] {} {} = .ok (.finished [], { plan }) ∧
    files.Nodup ∧ "lib/a.py" ∈ files ∧ "lib/n/b.py" ∈ files ∧ "lib/.d.py" ∉ files ∧
    "lib/e.py" ∉ files ∧
    .event (.asked (.compile files "." [] false)) ∈
      (command stageHost plan (.compile [pattern]) false s).effects := by
  intro s pattern plan files
  have hroot : withoutEndSlashes ("lib" ++ "/") = "lib" := by decide
  obtain ⟨hparse, -, hnodup, hmem, hcommand⟩ :=
    compile_directory_of_literal stageHost {} Stage.treeSlot rfl (stageHost.surroundings s) false s
      rfl (by decide) (by decide) (by decide) "lib" isDirectory_workshop (by decide) (by decide) {}
  rw [hroot] at hmem
  have hsource : "lib/a.py" ∈ files := (hmem _).2 sourceBelow_workshop
  refine ⟨hparse, hnodup, hsource, (hmem _).2 sourceBelow_workshop_link, fun hhidden ↦ ?_,
    fun hdirectory ↦ ?_, ?_⟩
  · have hshown := (((hmem _).1 hhidden).baseName (by decide)).1.shown
    exact absurd hshown (by decide)
  · exact Bool.false_ne_true (not_isRegular_workshop.symm.trans ((hmem _).1 hdirectory).1)
  · have heffects : (command stageHost plan (.compile [pattern]) false s).effects = _ :=
      congrArg Outcome.effects (hcommand.trans (if_neg (List.ne_nil_of_mem hsource)))
    rw [heffects]
    exact List.mem_cons_of_mem _ List.mem_cons_self

/-! ### A directory with brackets in its name -/

/-- One source in a directory with brackets in its name. -/
def bracketed : FileTree :=
  ⟨[(["", "d[1]"], .directory), (["", "d[1]", "x.py"], .file false)]⟩

theorem isDirectory_bracketed : bracketed.isDirectory "d[1]" := by
  have hparts : parts "d[1]" = ["d[1]"] := by decide
  refine isDirectory_iff.2 ⟨linkLimit, ["", "d[1]"], ⟨by decide, ?_⟩, rfl⟩
  rw [hparts]
  exact .down rfl (by decide) (by decide) rfl nofun (.done _ _)

theorem sourceBelow_bracketed : bracketed.SourceBelow "d[1]" ".py" "d[1]/x.py" := by
  have hparts : parts "d[1]/x.py" = ["d[1]", "x.py"] := by decide
  refine ⟨isRegular_iff.2 ⟨linkLimit, ["", "d[1]", "x.py"], false, ⟨by decide, ?_⟩, rfl⟩,
    [], "x.py", ?_, by decide, by decide⟩
  · rw [hparts]
    exact .down rfl (by decide) (by decide) rfl nofun
      (.down rfl (by decide) (by decide) rfl nofun (.done _ _))
  · exact List.forall_mem_singleton.2 ⟨by decide, by decide, by decide⟩

theorem search_bracketed : bracketed.search "d[1]/**/*.py" = [] := by
  have hsplit : splitPattern [] (Path.splitAt '/' "d[1]/**/*.py".toList) =
      ([], ["d[1]", "**", "*.py"]) := by decide
  have hlist : bracketed.list "" = bracketed.entriesAt workingPlace := by
    have hempty : "".isEmpty = true := rfl
    rw [list, hempty, if_pos rfl, locate_here]
    rfl
  have hmatching : bracketed.matching true "" "d[1]" = [] := by
    have hpattern : Glob.isPattern "d[1]".toList = true := by decide
    have hdeep : isDeep "d[1]" = false := by decide
    rw [matching, hdeep, if_neg Bool.false_ne_true, if_pos hpattern, listKind, hlist]
    decide +kernel
  have hfound : bracketed.expand [""] ["d[1]", "**", "*.py"] = [] := by
    have hexpand : bracketed.expand [""] ["d[1]", "**", "*.py"] =
        bracketed.expand
          ([""].flatMap fun path ↦ (bracketed.matching true path "d[1]").map (Path.join path))
          ["**", "*.py"] := rfl
    rw [hexpand, List.flatMap_singleton, hmatching]
    rfl
  have hsearch : bracketed.search "d[1]/**/*.py" =
      if isDeep "d[" && (bracketed.expand [""] ["d[1]", "**", "*.py"]).head? = some "" then
        (bracketed.expand [""] ["d[1]", "**", "*.py"]).drop 1
      else bracketed.expand [""] ["d[1]", "**", "*.py"] := by
    rw [search, hsplit]
    rfl
  rw [hsearch, hfound]
  rfl

/-- **A directory whose name is a pattern is missed.** The class in brackets stands for one
character, so the pattern for the sources below the directory does not match the directory itself.
-/
theorem compile_misses_bracketed_directory :
    let s : Stage := { tree := bracketed }
    let pattern := "d[1]/**/*.py"
    let plan : Plan := { commands := [.compile [pattern]], sources := [pattern] }
    bracketed.WellNamed ∧ stageHost.files.isDirectory s "d[1]" ∧ isFlag "d[1]" = false ∧
    bracketed.SourceBelow (withoutEndSlashes ("d[1]" ++ "/")) ".py" "d[1]/x.py" ∧
    parseNamed (stageHost.surroundings s) "compiler" ["d[1]"] {} {} = .ok (.finished [], { plan }) ∧
    command stageHost plan (.compile [pattern]) false s =
      ⟨.ok (some ("No files matched pattern(s) " ++ pattern)), s,
        [.event (.asked (.ensureDirectory "."))]⟩ := by
  have hroot : withoutEndSlashes ("d[1]" ++ "/") = "d[1]" := by decide
  intro s pattern plan
  have hdir : (stageHost.surroundings s).isDirectory "d[1]" := isDirectory_bracketed
  have hpattern : (stageHost.surroundings s).sourcePattern "d[1]" = pattern := by
    rw [Surroundings.sourcePattern, if_pos hdir]
    decide
  refine ⟨by decide, hdir, by decide, hroot ▸ sourceBelow_bracketed, ?_, ?_⟩
  · rw [parseNamed_compiler_bare _ (by decide), hpattern]
  · have hfiles : regularFiles stageHost s pattern = [] := by
      have hwildcard : stageHost.files.wildcard s pattern =
          (bracketed.search pattern).mergeSort _ := rfl
      rw [regularFiles, hwildcard, search_bracketed, List.mergeSort_nil]
      rfl
    have hcommand := command_compile_singleton plan pattern
      (ensureDirectory_here_apply rfl : stageHost.files.ensureDirectory "." false s = _) rfl
    exact hcommand.trans (if_pos hfiles)

end Stage

end Dispatch

end Launcher
