import Launcher.Proofs.Alike
import Launcher.Proofs.Run.Ending

/-!
# The arguments that a run leaves behind

Only a run that has read a plan touches the arguments of the process: it replaces them by the
trailing arguments before it runs the plan, and hosted programs cannot change them back. Neither does
the boundary (`Exit.keeps_conclude`), however often it is crossed. So the arguments that a run leaves
behind are known from its command line (`Run.arguments_of_main`), whatever its programs do and however
it ends.
-/

namespace Launcher

variable {σ α : Type}

/-- The arguments that are left behind if the reading of a command line ends so, and the process had
the arguments `original`. -/
def Argv.Ending.trailing (original : List String) : Argv.Ending → List String
  | .finished rest => rest
  | .versionRequested => original

/-! ### The boundary -/

namespace Session

theorem keeps_pure (a : α) : (pure a : Session σ α).Passes World.Keeps :=
  passes_of_apply (fun _ ↦ rfl) World.Keeps.refl

theorem keeps_raise (failure : Failure) : (raise failure : Session σ α).Passes World.Keeps :=
  passes_of_apply (fun _ ↦ rfl) World.Keeps.refl

theorem keeps_record (e : Event) : (record e : Session σ Unit).Passes World.Keeps :=
  passes_of_apply (fun _ ↦ rfl) fun w ↦ w.keeps_record e

theorem Passes.keeps_bind {β : Type} {p : Session σ α} {f : α → Session σ β}
    (hp : p.Passes World.Keeps) (hf : ∀ a, (f a).Passes World.Keeps) :
    (p >>= f).Passes World.Keeps :=
  hp.bind hf World.Keeps.trans

end Session

namespace Exit

open Session

variable (exit : Exit σ)

theorem keeps_drain (status : Int) : (exit.drain status).Passes World.Keeps := by
  intro w result w' h
  obtain ⟨-, calls, hdrained⟩ := drained_of_drainWithin h
  exact hdrained.keeps

theorem keeps_halt (status : Int) : (exit.halt status).Passes World.Keeps := by
  rw [halt]
  split
  · exact keeps_record _
  · exact (keeps_record _).keeps_bind fun _ ↦ keeps_raise _
  · exact keeps_raise _

theorem keeps_finish (status : Int) : (exit.finish status).Passes World.Keeps :=
  (exit.keeps_drain status).keeps_bind fun _ ↦ exit.keeps_halt status

theorem keeps_fail (failure : Failure) : (exit.fail failure).Passes World.Keeps :=
  (exit.keeps_drain _).keeps_bind fun _ ↦ (keeps_record _).keeps_bind fun _ ↦ exit.keeps_halt _

theorem keeps_settle (announcing : Bool) (failure : Failure) :
    (exit.settle announcing failure).Passes World.Keeps := by
  rw [settle]
  split
  · exact exit.keeps_finish _
  · dsimp only
    split
    · exact (keeps_record _).keeps_bind fun _ ↦ exit.keeps_finish _
    · exact exit.keeps_finish _
  · exact exit.keeps_fail failure
  · exact keeps_raise failure

/-- Whatever the boundary does about an ending, it leaves the rest of the process alone. -/
theorem keeps_conclude (halt announcing : Bool) (result : Except Failure α) :
    (exit.conclude halt announcing result).Passes World.Keeps := by
  cases result with
  | error failure => exact (exit.keeps_settle announcing failure).keeps_bind fun _ ↦ keeps_pure none
  | ok a =>
    rw [conclude]
    split
    · exact (exit.keeps_finish _).keeps_bind fun _ ↦ keeps_pure none
    · exact keeps_pure (some a)

end Exit

/-! ### The run -/

namespace Run

open Session

variable {c : Collaborators σ} {exit : Exit σ} {arguments rest : List String} {w w' : World σ}

/-- What comes of a command line that has been parsed: its search path, its notes, its reports of the
version, and then what the reading hands back. -/
theorem reading_apply (version : String) (parsed : Argv.Ending × Argv.Progress) (w : World σ) :
    reading version parsed w =
      some (parsed.1.handBack.map fun rest ↦ (parsed.2.plan, rest),
        ({ w with path := parsed.2.path }.recordAll (parsed.2.notes.map .noted)).recordAll
          ((List.replicate parsed.1.versionReports version).map .versionShown)) := by
  have htake : takeOver parsed.2 w = some (.ok (), _) :=
    each_record_map .noted parsed.2.notes { w with path := parsed.2.path }
  refine (bind_of_ok htake).trans ((bind_of_ok (each_record_map .versionShown _ _)).trans ?_)
  cases parsed.1.handBack <;> rfl

/-- Reading changes the search path, and not the arguments. -/
theorem arguments_of_read {result : Except Failure (Plan × List String)}
    (h : read c arguments w = some (result, w')) : w'.arguments = w.arguments := by
  rw [read_eq_reading, reading_apply] at h
  cases h
  exact ((World.keeps_recordAll _ _).trans (World.keeps_recordAll _ _)).arguments

theorem arguments_of_publish {result : Except Failure Unit}
    (h : publish c rest w = some (result, w')) : w'.arguments = rest := by
  cases h
  exact (World.keeps_after _ _).arguments

theorem keeps_execute (c : Collaborators σ) (plan : Plan) :
    (execute c plan).Passes World.Keeps := by
  refine (passes_of_apply (perform_apply _) fun w ↦ w.keeps_after _).keeps_bind fun errors ↦ ?_
  split
  · exact keeps_pure plan
  · refine Passes.keeps_bind ?_ fun _ ↦ keeps_raise _
    exact passes_of_apply (each_record_map _ errors) fun w ↦ w.keeps_recordAll _

/-- Inside the binding of its queue, a run that reads a plan leaves the trailing arguments behind, and
any other run the arguments that it has found. -/
theorem arguments_of_body {result : Except Failure (Option Plan)}
    (h : body c exit arguments w = some (result, w')) :
    w'.arguments =
      (Argv.parse (c.surroundings w.host) arguments {} w.path).1.trailing w.arguments := by
  obtain ⟨u, -, -, hread⟩ := read_apply c arguments w
  have hu := arguments_of_read hread
  rcases hparse : Argv.parse (c.surroundings w.host) arguments {} w.path with ⟨rest | -, p⟩
  · rw [hparse] at hread
    have hfirst : exit.guarded false true (read c arguments) w =
        some (.ok (some (p.plan, rest)), u) := Exit.guarded_apply exit false true hread
    have hbody : body c exit arguments w =
        (publish c rest >>= fun _ ↦ exit.guarded p.plan.halt true (execute c p.plan)) u :=
      bind_of_ok hfirst
    rw [hbody] at h
    obtain ⟨failure, hpublish, -⟩ | ⟨⟨⟩, v, hpublish, hguarded⟩ := bind_cases h
    · exact arguments_of_publish hpublish
    · obtain ⟨v', -, hexecute⟩ := execute_apply c p.plan v
      rw [Exit.guarded_apply exit _ true hexecute] at hguarded
      have hkeeps := (keeps_execute c p.plan v _ v' hexecute).trans
        (exit.keeps_conclude _ _ _ _ _ _ hguarded)
      exact hkeeps.arguments.trans (arguments_of_publish hpublish)
  · rw [hparse] at hread
    have hbody : body c exit arguments w = exit.conclude true true _ u :=
      (bind_congr (Exit.guarded_apply exit false true hread) _).trans
        (conclude_error_bind exit _ u rfl)
    rw [hbody] at h
    exact (exit.keeps_conclude _ _ _ _ _ _ h).arguments.trans hu

/-- **The arguments that a run leaves behind** are those that its command line trails off with if it
reads a plan, and those that it has found otherwise. -/
theorem arguments_of_main {result : Except Failure (Option Plan)}
    (h : main c exit arguments w = some (result, w')) :
    w'.arguments =
      (Argv.parse (c.surroundings w.host) arguments {} w.path).1.trailing w.arguments := by
  obtain ⟨v, hbody, hend⟩ := exists_body_of_main h
  have hv : v.arguments = _ := arguments_of_body hbody
  rcases hend with ⟨plan, -, rfl⟩ | ⟨-, rfl⟩
  · exact (World.keeps_record _ _).arguments.trans hv
  · exact hv

end Run

end Launcher
