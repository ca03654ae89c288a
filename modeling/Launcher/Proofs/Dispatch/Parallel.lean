import Launcher.Proofs.Dispatch.Compiling
import Launcher.Proofs.Host.FixedPool
import Launcher.Proofs.Run.OneRun

/-!
# Requiring files in parallel

Requiring the files of a pattern one after another and loading them through a pool of workers come
to the same, if the files have a fixed outcome and none of them fails: the same files are run, and
the same files count as required. If some fail, then both end with the failure of the first of them
in the order of the files; but nothing behind it has been run one after another, and everything has
been run in parallel (`requireAll_agrees_with_loadAll`).
-/

namespace Launcher.Dispatch

open Host

variable {σ : Type} {c : Collaborators σ} {server : CodeServer σ} {code : String → Routine σ Unit}
  {outcome : String → Except Failure Unit} {pattern : String} {bound : Bool} {s : σ}

theorem requireAll_apply_of_nil (h : regularFiles c s pattern = []) :
    requireAll c pattern bound s =
      ⟨.ok (some ("-r : No files matched pattern " ++ pattern)), s, []⟩ := by
  rw [requireAll, Hosted.bind_eq_andThen, Hosted.get_andThen_apply, h]
  rfl

theorem loadAll_apply_of_nil (h : regularFiles c s pattern = []) :
    loadAll c pattern bound s =
      ⟨.ok (some ("-pr : No files matched pattern " ++ pattern)), s, []⟩ := by
  rw [loadAll, Hosted.bind_eq_andThen, Hosted.get_andThen_apply, h]
  rfl

theorem requireAll_apply_of_ne_nil (h : regularFiles c s pattern ≠ []) :
    requireAll c pattern bound s =
      ⟨(Hosted.each (require c) (regularFiles c s pattern) bound s).result.map fun _ ↦ none,
        (Hosted.each (require c) (regularFiles c s pattern) bound s).state,
        (Hosted.each (require c) (regularFiles c s pattern) bound s).effects⟩ := by
  rw [requireAll, Hosted.bind_eq_andThen, Hosted.get_andThen_apply,
    if_neg fun hempty ↦ h (List.isEmpty_iff.1 hempty)]
  exact Hosted.andThen_pure_apply _ _ bound s

theorem loadAll_apply_of_ne_nil (h : regularFiles c s pattern ≠ []) :
    loadAll c pattern bound s =
      ⟨(c.loadFiles (regularFiles c s pattern) bound s).result.map fun _ ↦ none,
        (c.loadFiles (regularFiles c s pattern) bound s).state,
        .event (.asked (.load (regularFiles c s pattern))) ::
          (c.loadFiles (regularFiles c s pattern) bound s).effects⟩ := by
  rw [loadAll, Hosted.bind_eq_andThen, Hosted.get_andThen_apply,
    if_neg fun hempty ↦ h (List.isEmpty_iff.1 hempty)]
  exact invoke_apply bound _ _ s

/-- A command that hands back no error line ends with the first failure. -/
theorem map_first? (first? : Option Failure) :
    (first?.elim (.ok ()) .error : Except Failure Unit).map (fun _ ↦ (none : Option String)) =
      first?.elim (.ok none) .error := by
  cases first? <;> rfl

/-- **One after another** the files with a fixed outcome are run up to the first that fails. -/
theorem requireAll_fixed (hrequire : c.requireFile = server.requireFile)
    (hne : regularFiles c s pattern ≠ [])
    (hfixed : server.Fixed code outcome (regularFiles c s pattern)) (bound : Bool) :
    let fresh := server.fresh (server.required.get s) (regularFiles c s pattern)
    (requireAll c pattern bound s).result = (firstFailure? outcome fresh).elim (.ok none) .error ∧
    ranIn (requireAll c pattern bound s).effects = untilFailure outcome fresh ∧
    server.required.get (requireAll c pattern bound s).state =
      server.required.get s ++ untilFailure outcome fresh := by
  have hrequires : ∀ path bound s,
      (require c path bound s).result = (server.requireFile path bound s).result ∧
      (require c path bound s).state = (server.requireFile path bound s).state ∧
      ranIn (require c path bound s).effects = ranIn (server.requireFile path bound s).effects := by
    intro path bound s
    rw [← hrequire]
    exact ⟨rfl, rfl, rfl⟩
  obtain ⟨hresult, hran, hrequired⟩ := hfixed.each hrequires bound s
  rw [requireAll_apply_of_ne_nil hne, hresult, map_first?]
  exact ⟨rfl, hran, hrequired⟩

/-- **Through a pool of workers** all new files with a fixed outcome are run. -/
theorem loadAll_fixed {workers : Nat}
    (hload : Loads server code workers (regularFiles c s pattern) s
      (c.loadFiles (regularFiles c s pattern) bound s))
    (hne : regularFiles c s pattern ≠ [])
    (hfixed : server.Fixed code outcome (regularFiles c s pattern)) :
    let fresh := server.fresh (server.required.get s) (regularFiles c s pattern)
    (loadAll c pattern bound s).result = (firstFailure? outcome fresh).elim (.ok none) .error ∧
    (ranIn (loadAll c pattern bound s).effects).Perm fresh ∧
    (workers = 1 → ranIn (loadAll c pattern bound s).effects = fresh) ∧
    ∀ path, path ∈ server.required.get (loadAll c pattern bound s).state ↔
      path ∈ server.required.get s ∨ path ∈ fresh := by
  obtain ⟨hresult, hran, hinOrder, hrequired⟩ := hload.fixed hfixed
  rw [loadAll_apply_of_ne_nil hne, hresult, map_first?]
  exact ⟨rfl, hran, hinOrder, hrequired⟩

/-- **Requiring the files of a pattern one after another and in parallel agree.** The files are the
regular ones among what the pattern matches, each once, in the order of first appearance. Without a
file both commands hand back their error line and do nothing else. Otherwise let the absolute paths
of the files be distinct, let each file have a fixed outcome, and let `fresh` be those that are not
required yet. If all of them return, then both commands run exactly these, one after another and with
a single worker in this order, and the same files count as required. If some fail, then both end with
the failure of the first of them; one after another the files up to it have been run, and in parallel
all of them. -/
theorem requireAll_agrees_with_loadAll (c : Collaborators σ) (server : CodeServer σ)
    (code : String → Routine σ Unit) (workers : Nat) (hrequire : c.requireFile = server.requireFile)
    (hload : ∀ files bound s, Loads server code workers files s (c.loadFiles files bound s))
    (plan : Plan) (pattern : String) (bound : Bool) (s : σ) :
    let files := regularFiles c s pattern
    let one := command c plan (.require pattern) bound s
    let all := command c plan (.parallelRequire pattern) bound s
    FirstAppearances files (regularMatches c s pattern) ∧
    (files = [] →
      one = ⟨.ok (some ("-r : No files matched pattern " ++ pattern)), s, []⟩ ∧
      all = ⟨.ok (some ("-pr : No files matched pattern " ++ pattern)), s, []⟩) ∧
    (files ≠ [] → ∀ outcome, server.Fixed code outcome files →
      let fresh := server.fresh (server.required.get s) files
      ((∀ path ∈ fresh, outcome path = .ok ()) →
        one.result = .ok none ∧ all.result = .ok none ∧
        ranIn one.effects = fresh ∧ (ranIn all.effects).Perm fresh ∧
        (workers = 1 → ranIn all.effects = fresh) ∧
        ∀ path, path ∈ server.required.get one.state ↔ path ∈ server.required.get all.state) ∧
      ∀ front path rear failure, fresh = front ++ path :: rear →
        (∀ other ∈ front, outcome other = .ok ()) → outcome path = .error failure →
        one.result = .error failure ∧ all.result = .error failure ∧
        ranIn one.effects = front ++ [path] ∧ (ranIn all.effects).Perm fresh) := by
  intro files one all
  refine ⟨firstAppearances_regularFiles c s pattern,
    fun hnil ↦ ⟨requireAll_apply_of_nil hnil, loadAll_apply_of_nil hnil⟩,
    fun hne outcome hfixed ↦ ?_⟩
  obtain ⟨hone, honeRan, honeRequired⟩ := requireAll_fixed hrequire hne hfixed bound
  obtain ⟨hall, hallRan, hinOrder, hallRequired⟩ := loadAll_fixed (hload files bound s) hne hfixed
  intro fresh
  refine ⟨fun hreturns ↦ ?_, fun front path rear failure hfresh hfront hpath ↦ ?_⟩
  · have hfirst : firstFailure? outcome fresh = none := firstFailure?_eq_none hreturns
    have huntil : untilFailure outcome fresh = fresh := untilFailure_eq_self hreturns
    refine ⟨hone.trans (hfirst ▸ rfl), hall.trans (hfirst ▸ rfl), honeRan.trans huntil, hallRan,
      hinOrder, fun path ↦ ?_⟩
    have honeRequired' : server.required.get one.state = server.required.get s ++ fresh :=
      huntil ▸ honeRequired
    rw [honeRequired', List.mem_append]
    exact (hallRequired path).symm
  · have hfirst : firstFailure? outcome fresh = some failure :=
      hfresh ▸ firstFailure?_append_cons hfront hpath rear
    have huntil : untilFailure outcome fresh = front ++ [path] :=
      hfresh ▸ untilFailure_append_cons hfront hpath rear
    exact ⟨hone.trans (hfirst ▸ rfl), hall.trans (hfirst ▸ rfl), honeRan.trans huntil, hallRan⟩

/-! ### The files of the pair -/

section Pair

open Rehearsal

/-- How the files of the pair end. -/
def pairOutcome (path : String) : Except Failure Unit :=
  if path = "/work/b" then .error Language.missing else .ok ()

/-- A scripted program that queues no hook ends as the script says. -/
theorem result_perform (action : Action) (hhooks : action.atExit = []) (bound : Bool) (s : Stage) :
    (action.perform bound s).result = action.failure.elim (.ok ()) .error := by
  obtain ⟨print, atExit, failure⟩ := action
  obtain rfl : atExit = [] := hhooks
  cases print <;> cases failure <;> rfl

theorem ends_pair {absolute : String} (h : absolute ∈ ["/work/b", "/work/a"]) :
    (pair.code absolute).Ends pairServer.required (pairOutcome absolute) := by
  have hdiscreet := Routine.Discreet.ofHosted
    (discreet_cues pair.require absolute : Hosted.Discreet pairServer.required _)
  refine ⟨hdiscreet.1, fun bound s ↦ ?_⟩
  have haction : ((pair.require.lookup absolute).getD {}).atExit = [] ∧
      ((pair.require.lookup absolute).getD {}).failure.elim (.ok ()) .error =
        pairOutcome absolute := by
    rcases List.mem_cons.1 h with rfl | h
    · exact ⟨by decide, by decide +kernel⟩
    · obtain rfl := List.mem_singleton.1 h
      exact ⟨by decide, by decide +kernel⟩
  exact (result_perform _ haction.1 bound s).trans haction.2

theorem fixed_pair : pairServer.Fixed pair.code pairOutcome ["b", "a"] where
  run path _ := pair.runsCode _ _ _
  ends path hpath := by
    have habsolute : ∀ path ∈ ["b", "a"],
        Path.absolute pairServer.directory path ∈ ["/work/b", "/work/a"] := by decide
    exact ends_pair (habsolute path hpath)
  nodup := by decide

/-- No file matches the first pattern. The file of the second returns. In parallel the file behind
the one that fails is run, too. -/
theorem pair_requireAll_agrees_with_loadAll :
    let one pattern := command pairHost {} (.require pattern) false {}
    let all pattern := command pairHost {} (.parallelRequire pattern) false {}
    (all "none").result = .ok (some "-pr : No files matched pattern none") ∧
    (one "a").result = .ok none ∧ (all "a").result = .ok none ∧
    ranIn (all "a").effects = ["/work/a"] ∧
    (one "*").result = .error Language.missing ∧ (all "*").result = .error Language.missing ∧
    ranIn (one "*").effects = ["/work/b"] ∧
    (ranIn (all "*").effects).Perm ["/work/b", "/work/a"] := by
  intro one all
  have hload : ∀ files bound s,
      Loads pairServer pair.code 1 files s (pairHost.loadFiles files bound s) :=
    loads_loadFiles (pair.runsCode _ _) Nat.one_pos
  have hagree := fun pattern ↦
    requireAll_agrees_with_loadAll pairHost pairServer pair.code 1 rfl hload {} pattern false {}
  have hnone : regularFiles pairHost {} "none" = [] := by decide
  have ha : regularFiles pairHost {} "a" = ["a"] := by decide
  have hall : regularFiles pairHost {} "*" = ["b", "a"] := by decide
  have hfreshA : pairServer.fresh (pairServer.required.get {}) ["a"] = ["/work/a"] := by
    decide
  have hfreshAll : pairServer.fresh (pairServer.required.get {}) ["b", "a"] =
      ["/work/b", "/work/a"] := by
    decide
  obtain ⟨-, -, hsomeA⟩ := hagree "a"
  obtain ⟨-, -, hsomeAll⟩ := hagree "*"
  rw [ha] at hsomeA
  rw [hall] at hsomeAll
  have hreturns := (hsomeA (List.cons_ne_nil _ _) pairOutcome fixed_pair.of_cons).1
  have hfails := (hsomeAll (List.cons_ne_nil _ _) pairOutcome fixed_pair).2
  rw [hfreshA] at hreturns
  rw [hfreshAll] at hfails
  obtain ⟨honeA, hallA, -, -, hinOrder, -⟩ := hreturns (by decide)
  exact ⟨congrArg Outcome.result ((hagree "none").2.1 hnone).2, honeA, hallA, hinOrder rfl,
    hfails [] "/work/b" ["/work/a"] Language.missing rfl nofun rfl⟩

end Pair

end Launcher.Dispatch
