import Launcher.Proofs.Host.Traffic

/-!
# One thread by itself

Requiring a file as a hosted program, without a look at its steps, is one thread that takes its
steps by itself (`moves_requireFile`), and so is every routine (`moves_whole`). The files that the
code of a file requires are run in the course of it, and the files that their code requires in turn;
this comes to an end since each of them leaves an event behind. So such programs run files once
(`Through.runsOnce`).
-/

namespace Launcher.Host

variable {σ α : Type}

namespace Thread

variable {server : CodeServer σ} {code : String → Routine σ Unit} {bound : Bool}

/-- Steps of one thread. -/
inductive Moves (server : CodeServer σ) (code : String → Routine σ Unit) (bound : Bool) :
    σ → Thread σ → List String → List Effect → σ → Thread σ → Prop
  | refl (s : σ) (thread : Thread σ) : Moves server code bound s thread [] [] s thread
  | head {s s' s'' : σ} {thread thread' thread'' : Thread σ} {requests requests' : List String}
      {effects effects' : List Effect}
      (h : Move server code bound s thread requests effects s' thread')
      (h' : Moves server code bound s' thread' requests' effects' s'' thread'') :
    Moves server code bound s thread (requests ++ requests') (effects ++ effects') s'' thread''

variable {s s' s'' : σ} {thread thread' thread'' : Thread σ} {requests requests' : List String}
  {effects effects' : List Effect}

theorem Moves.trans (h : Moves server code bound s thread requests effects s' thread')
    (h' : Moves server code bound s' thread' requests' effects' s'' thread'') :
    Moves server code bound s thread (requests ++ requests') (effects ++ effects')
      s'' thread'' := by
  induction h with
  | refl => exact h'
  | head hmove _ ih =>
    rw [List.append_assoc, List.append_assoc]
    exact .head hmove (ih h')

/-- What a thread does by itself, it can do while the others wait. -/
theorem Moves.advance (h : Moves server code bound s thread requests effects s' thread')
    (front rear : List (Thread σ)) (requests₀ : List String) (effects₀ : List Effect) :
    Relation.ReflTransGen (Traffic.Advance server code)
      ⟨s, front ++ thread :: rear, requests₀, effects₀⟩
      ⟨s', front ++ thread' :: rear, requests₀ ++ requests, effects₀ ++ effects⟩ := by
  induction h generalizing requests₀ effects₀ with
  | refl =>
    rw [List.append_nil, List.append_nil]
  | head hmove _ ih =>
    rw [← List.append_assoc, ← List.append_assoc]
    exact .head (.move front rear requests₀ effects₀ hmove) (ih _ _)

/-- The thread comes from `thread` to `thread'` by itself, and makes of the state what `o` says. -/
def Carries (server : CodeServer σ) (code : String → Routine σ Unit) (bound : Bool) (s : σ)
    (thread : Thread σ) (o : Outcome σ α) (thread' : Thread σ) : Prop :=
  ∃ requests, Moves server code bound s thread requests o.effects o.state thread'

/-- A file is required in one go, if the code of a new file is carried out in one go. -/
theorem carries_requireFile {path : String} (next : Except Failure Unit → Routine σ Unit)
    (hnew : Path.absolute server.directory path ∉ server.required.get s →
      ∀ rest : Except Failure Unit → Routine σ Unit,
        let o := server.run (Path.absolute server.directory path) bound
          (server.entered (Path.absolute server.directory path) s)
        Carries server code bound (server.entered (Path.absolute server.directory path) s)
          (.running ((code (Path.absolute server.directory path)).andThen rest)) o
          (.running (rest o.result))) :
    Carries server code bound s (.running (.require path next)) (server.requireFile path bound s)
      (.running (next (server.requireFile path bound s).result)) := by
  rw [CodeServer.requireFile_apply]
  split_ifs with h
  · exact ⟨_, .head (.pass next h) (.refl _ _)⟩
  · obtain ⟨requests, hrun⟩ := hnew h next
    exact ⟨_, .head (.mark next h) (.head (.enter _ _ next) hrun)⟩

end Thread

open Thread

/-- The code of every file is the routine that `code` says it is. -/
def CodeServer.RunsCode (server : CodeServer σ) (code : String → Routine σ Unit) : Prop :=
  ∀ path, server.run path = (code path).whole server

variable {server : CodeServer σ} {code : String → Routine σ Unit}

theorem carries_whole_of_length (hlink : server.RunsCode code) (n : Nat) :
    ∀ {α : Type} (routine : Routine σ α) (bound : Bool) (s : σ),
      (routine.whole server bound s).effects.length ≤ n →
      ∀ rest : Except Failure α → Routine σ Unit,
        Carries server code bound s (.running (routine.andThen rest)) (routine.whole server bound s)
          (.running (rest (routine.whole server bound s).result)) := by
  induction n using Nat.strongRecOn with
  | ind n hshorter =>
  intro α routine bound s hlength rest
  induction routine generalizing s with
  | done result => exact ⟨_, .refl _ _⟩
  | step act next ih =>
    have hlater := (List.length_append ▸ hlength : _ + _ ≤ n)
    obtain ⟨requests, hrest⟩ := ih bound s (act bound s).state (by omega)
    exact ⟨_, .head (.act s act _) hrest⟩
  | require path next ih =>
    rw [Routine.whole, Hosted.attempt_andThen_apply] at hlength ⊢
    rw [List.length_append] at hlength
    have hfile : Carries server code bound s _ (server.requireFile path bound s) _ :=
      carries_requireFile (fun result ↦ (next result).andThen rest) fun hnew rest' ↦ by
        -- the events of a new run are fewer than those of requiring it
        have hrun : (server.run (Path.absolute server.directory path) bound
            (server.entered (Path.absolute server.directory path) s)).effects.length < n := by
          rw [CodeServer.requireFile_apply, if_neg hnew, CodeServer.enter, List.length_cons,
            List.length_cons] at hlength
          omega
        dsimp only
        rw [hlink] at hrun ⊢
        exact hshorter _ hrun _ bound _ (Nat.le_refl _) rest'
    obtain ⟨requests, hfile⟩ := hfile
    obtain ⟨requests', hrest⟩ := ih (server.requireFile path bound s).result
      (server.requireFile path bound s).state (by omega)
    exact ⟨_, hfile.trans hrest⟩

/-- **A routine that is carried out while nothing else runs** is a thread that takes its steps by
itself. -/
theorem carries_whole (hlink : server.RunsCode code) (routine : Routine σ α) (bound : Bool) (s : σ)
    (rest : Except Failure α → Routine σ Unit) :
    Carries server code bound s (.running (routine.andThen rest)) (routine.whole server bound s)
      (.running (rest (routine.whole server bound s).result)) :=
  carries_whole_of_length hlink _ routine bound s (Nat.le_refl _) rest

/-- **Requiring a file is one thread by itself.** -/
theorem carries_requiring (hlink : server.RunsCode code) (path : String) (bound : Bool) (s : σ) :
    Carries server code bound s (requiring path) (server.requireFile path bound s)
      (.running (.done (server.requireFile path bound s).result)) := by
  refine carries_requireFile .done fun _ rest ↦ ?_
  rw [hlink]
  exact carries_whole hlink _ bound _ rest

/-! ### Programs that require files through the code server -/

/-- The program requires files through the code server, if it requires any. -/
def Through (server : CodeServer σ) (p : Hosted σ α) : Prop :=
  ∃ routine : Routine σ α, routine.Discreet server.required ∧ routine.whole server = p

theorem through_of_discreet {p : Hosted σ α} (h : p.Discreet server.required) : Through server p :=
  ⟨.ofHosted p, .ofHosted h, Routine.whole_ofHosted server p⟩

theorem through_requireFile (path : String) : Through server (server.requireFile path) :=
  ⟨.require path .done, Routine.discreet_require _ path, by
    funext bound s
    rw [Routine.whole, Hosted.attempt_andThen_apply, Routine.whole, List.append_nil]⟩

/-- **Programs that require files through the code server run files once.** -/
theorem Through.runsOnce (hlink : server.RunsCode code)
    (hcode : ∀ path, (code path).Discreet server.required) {p : Hosted σ α} (h : Through server p) :
    p.RunsOnce server.required := by
  obtain ⟨routine, hdiscreet, rfl⟩ := h
  intro bound s
  let rest : Except Failure α → Routine σ Unit := fun _ ↦ .done (.ok ())
  obtain ⟨requests, hmoves⟩ := carries_whole hlink routine bound s rest
  have hthread : (routine.andThen rest).Discreet server.required :=
    hdiscreet.andThen fun _ ↦ trivial
  have hsound := ((Traffic.sound_start server s).spawn hthread).run hcode
    ((hmoves.advance [] [] [] []).lift id fun _ _ hadvance ↦ .advance hadvance)
  refine hsound.runOnce fun thread hthread ↦ ?_
  rw [List.mem_singleton.1 hthread]
  rfl

end Launcher.Host
