import Mathlib.Data.List.Forall2
import Launcher.Proofs.Host.Pool

/-!
# Files with a fixed outcome

A file has a **fixed outcome** if its code ends in the same way whatever it sees, and requires no
file (`Routine.Ends`). Files with a fixed outcome and distinct absolute paths are loaded by a pool
as one after another, as far as the order of time does not show: the new ones are run, and the
failure of the first of them that fails comes out (`Loads.fixed`). One after another, nothing is run
behind the first that fails (`Fixed.each`).
-/

namespace Launcher.Host

variable {σ α : Type}

/-! ### Code that ends in one way -/

namespace Routine

/-- Whatever the routine sees, it runs and requires no file and ends with `result`. What a routine
does that requires files depends on which of them have been required before. -/
def Ends (required : Slot σ (List String)) (result : Except Failure α) : Routine σ α → Prop
  | done ending => ending = result
  | step act next => act.Discreet required ∧ ∀ bound s, (next bound s).Ends required result
  | require _ _ => False

variable {required : Slot σ (List String)} {result : Except Failure α} {routine : Routine σ α}

theorem Ends.discreet (h : routine.Ends required result) : routine.Discreet required := by
  induction routine with
  | done ending => trivial
  | step act next ih => exact ⟨h.1, fun bound s ↦ ih bound s (h.2 bound s)⟩
  | require path next => exact h.elim

theorem Ends.andThen_done (h : routine.Ends required result) :
    (routine.andThen done).Ends required result := by
  induction routine with
  | done ending => exact h
  | step act next ih => exact ⟨h.1, fun bound s ↦ ih bound s (h.2 bound s)⟩
  | require path next => exact h.elim

theorem Ends.result_whole (h : routine.Ends required result) (server : CodeServer σ) (bound : Bool)
    (s : σ) : (routine.whole server bound s).result = result := by
  induction routine generalizing s with
  | done ending => exact h
  | step act next ih => exact ih bound s (h.2 bound s) _
  | require path next => exact h.elim

theorem Ends.discreet_whole (h : routine.Ends required result) (server : CodeServer σ) :
    (routine.whole server).Discreet required := by
  have happly : ∀ bound s, required.get (routine.whole server bound s).state = required.get s ∧
      ranIn (routine.whole server bound s).effects = [] := by
    intro bound s
    induction routine generalizing s with
    | done ending => exact ⟨rfl, rfl⟩
    | step act next ih =>
      obtain ⟨hrequired, hran⟩ := ih bound s (h.2 bound s) (act bound s).state
      refine ⟨hrequired.trans (h.1.keeps bound s), ?_⟩
      rw [whole, ranIn_append, h.1.runs, hran, List.append_nil]
    | require path next => exact h.elim
  exact ⟨fun bound s ↦ (happly bound s).1, fun bound s ↦ (happly bound s).2⟩

end Routine

/-- The failure that a result is. -/
def failure? : Except Failure Unit → Option Failure
  | .ok _ => none
  | .error failure => some failure

/-- The files that are run one after another, up to the first that fails. -/
def untilFailure (outcome : String → Except Failure Unit) : List String → List String
  | [] => []
  | path :: paths => match outcome path with
    | .ok _ => path :: untilFailure outcome paths
    | .error _ => [path]

/-- The absolute paths of files that are new when the files `before` count as required. -/
def CodeServer.fresh (server : CodeServer σ) (before files : List String) : List String :=
  (files.map (Path.absolute server.directory)).filter (· ∉ before)

/-- The failure of the first file that fails. -/
def firstFailure? (outcome : String → Except Failure Unit) (paths : List String) : Option Failure :=
  paths.findSome? fun path ↦ failure? (outcome path)

section Failures

variable {outcome : String → Except Failure Unit}

theorem firstFailure?_eq_none {paths : List String}
    (h : ∀ path ∈ paths, outcome path = .ok ()) : firstFailure? outcome paths = none :=
  List.findSome?_eq_none_iff.2 fun path hpath ↦ by rw [h path hpath]; rfl

theorem untilFailure_eq_self {paths : List String}
    (h : ∀ path ∈ paths, outcome path = .ok ()) : untilFailure outcome paths = paths := by
  induction paths with
  | nil => rfl
  | cons path paths ih =>
    rw [untilFailure, h path List.mem_cons_self]
    exact congrArg _ (ih fun other hother ↦ h other (List.mem_cons_of_mem _ hother))

theorem untilFailure_append_cons {front : List String}
    {path : String} {failure : Failure} (h : ∀ other ∈ front, outcome other = .ok ())
    (hpath : outcome path = .error failure) (rear : List String) :
    untilFailure outcome (front ++ path :: rear) = front ++ [path] := by
  induction front with
  | nil => rw [List.nil_append, List.nil_append, untilFailure, hpath]
  | cons other front ih =>
    rw [List.cons_append, untilFailure, h other List.mem_cons_self]
    exact congrArg _ (ih fun other hother ↦ h other (List.mem_cons_of_mem _ hother))

theorem firstFailure?_append_cons {front : List String}
    {path : String} {failure : Failure} (h : ∀ other ∈ front, outcome other = .ok ())
    (hpath : outcome path = .error failure) (rear : List String) :
    firstFailure? outcome (front ++ path :: rear) = some failure := by
  have hfront : firstFailure? outcome front = none := firstFailure?_eq_none h
  rw [firstFailure?] at hfront ⊢
  rw [List.findSome?_append, hfront, List.findSome?_cons, hpath]
  rfl

end Failures

/-- The code of the files is what `code` says, and they have the outcomes that `outcome` says. -/
structure CodeServer.Fixed (server : CodeServer σ) (code : String → Routine σ Unit)
    (outcome : String → Except Failure Unit) (files : List String) : Prop where
  run : ∀ path ∈ files, server.run (Path.absolute server.directory path) =
    (code (Path.absolute server.directory path)).whole server
  ends : ∀ path ∈ files, (code (Path.absolute server.directory path)).Ends server.required
    (outcome (Path.absolute server.directory path))
  nodup : (files.map (Path.absolute server.directory)).Nodup

variable {server : CodeServer σ} {code : String → Routine σ Unit}
  {outcome : String → Except Failure Unit}
  {path : String} {files before : List String}

namespace CodeServer

theorem Fixed.of_cons (h : server.Fixed code outcome (path :: files)) :
    server.Fixed code outcome files where
  run other hother := h.run other (List.mem_cons_of_mem _ hother)
  ends other hother := h.ends other (List.mem_cons_of_mem _ hother)
  nodup := (List.nodup_cons.1 h.nodup).2

theorem fresh_cons_of_mem (h : Path.absolute server.directory path ∈ before) (files : List String) :
    server.fresh before (path :: files) = server.fresh before files := by
  rw [fresh, List.map_cons, List.filter_cons, if_neg (by simpa using h)]
  rfl

theorem fresh_cons_of_not_mem (h : Path.absolute server.directory path ∉ before)
    (files : List String) : server.fresh before (path :: files) =
      Path.absolute server.directory path :: server.fresh before files := by
  rw [fresh, List.map_cons, List.filter_cons, if_pos (by simpa using h)]
  rfl

/-- A file that is required is no longer new, and the others are as new as before. -/
theorem fresh_append_singleton {absolute : String}
    (h : absolute ∉ files.map (Path.absolute server.directory)) :
    server.fresh (before ++ [absolute]) files = server.fresh before files := by
  refine List.filter_congr fun other hother ↦ ?_
  have hne : other ≠ absolute := fun heq ↦ h (heq ▸ hother)
  simp [hne]

theorem mem_fresh {absolute : String} : absolute ∈ server.fresh before files ↔
    absolute ∈ files.map (Path.absolute server.directory) ∧ absolute ∉ before := by
  rw [fresh, List.mem_filter, decide_eq_true_iff]

/-! ### One after another -/

/-- Requiring a file that has a fixed outcome. -/
theorem Fixed.requireFile (h : server.Fixed code outcome files) (hmem : path ∈ files) (bound : Bool)
    {s : σ} (hnew : Path.absolute server.directory path ∉ server.required.get s) :
    (server.requireFile path bound s).result = outcome (Path.absolute server.directory path) ∧
    ranIn (server.requireFile path bound s).effects = [Path.absolute server.directory path] ∧
    server.required.get (server.requireFile path bound s).state =
      server.required.get s ++ [Path.absolute server.directory path] := by
  have hdiscreet := (h.ends path hmem).discreet_whole server
  rw [requireFile_apply, if_neg hnew, enter, h.run path hmem]
  refine ⟨(h.ends path hmem).result_whole server bound _, ?_, ?_⟩
  · exact congrArg _ (hdiscreet.runs bound _)
  · rw [hdiscreet.keeps, entered, Slot.update, Slot.get_set]

theorem requireFile_of_mem (bound : Bool) {s : σ}
    (hold : Path.absolute server.directory path ∈ server.required.get s) :
    server.requireFile path bound s =
      ⟨.ok (), s, [.event (.noted (.alreadyRequired (Path.absolute server.directory path)))]⟩ := by
  rw [requireFile_apply, if_pos hold]
  rfl

/-- **One after another**, files are run up to the first that fails, and its failure comes out. `p`
may make events besides. -/
theorem Fixed.each (h : server.Fixed code outcome files) {p : String → Hosted σ Unit}
    (hp : ∀ path bound s, (p path bound s).result = (server.requireFile path bound s).result ∧
      (p path bound s).state = (server.requireFile path bound s).state ∧
      ranIn (p path bound s).effects = ranIn (server.requireFile path bound s).effects)
    (bound : Bool) (s : σ) :
    (Hosted.each p files bound s).result =
      (firstFailure? outcome (server.fresh (server.required.get s) files)).elim (.ok ()) .error ∧
    ranIn (Hosted.each p files bound s).effects =
      untilFailure outcome (server.fresh (server.required.get s) files) ∧
    server.required.get (Hosted.each p files bound s).state = server.required.get s ++
      untilFailure outcome (server.fresh (server.required.get s) files) := by
  induction files generalizing s with
  | nil => exact ⟨rfl, rfl, (List.append_nil _).symm⟩
  | cons path files ih =>
    obtain ⟨hresult, hstate, hran⟩ := hp path bound s
    obtain ⟨hresult', hran', hrequired'⟩ := ih h.of_cons (p path bound s).state
    rw [Hosted.each]
    by_cases hold : Path.absolute server.directory path ∈ server.required.get s
    · rw [requireFile_of_mem bound hold] at hresult hstate hran
      rw [hstate] at hresult' hran' hrequired'
      rw [Hosted.andThen_apply_of_ok hresult, fresh_cons_of_mem hold, ranIn_append, hran, hstate]
      exact ⟨hresult', hran', hrequired'⟩
    · obtain ⟨hending, hone, hmarked⟩ := h.requireFile List.mem_cons_self bound hold
      have hother := (List.nodup_cons.1 h.nodup).1
      rw [hending] at hresult
      rw [hone] at hran
      rw [hstate, hmarked, fresh_append_singleton hother] at hresult' hran' hrequired'
      rw [fresh_cons_of_not_mem hold, firstFailure?, List.findSome?_cons, untilFailure]
      cases hends : outcome (Path.absolute server.directory path) with
      | ok _ =>
        rw [hends] at hresult
        rw [Hosted.andThen_apply_of_ok hresult, hstate]
        refine ⟨hresult', ?_, hrequired'.trans (List.append_assoc _ _ _)⟩
        rw [ranIn_append, hran, hran']
        rfl
      | error failure =>
        rw [hends] at hresult
        rw [Hosted.andThen_apply_of_error hresult, hstate]
        exact ⟨rfl, hran, hmarked⟩

end CodeServer

end Launcher.Host
