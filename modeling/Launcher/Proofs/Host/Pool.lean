import Launcher.Proofs.Host.Solo

/-!
# The pool of workers

Several files are loaded by a pool: a worker that has nothing to do takes the next file and requires
it, and the workers take their steps in any order (`Pool.Step`). When all files have been dealt
with, the failure of the first of them that failed comes out, first in the order of the files and
not in time (`Loads`). Loading them one after another is one of the orders (`loads_loadFiles`), and
whatever the order, files are run once (`Loads.runOnce`).
-/

namespace Launcher.Host

variable {σ : Type}

/-- The failure that the thread has ended with. -/
def Thread.failure? : Thread σ → Option Failure
  | running (.done (.error failure)) => some failure
  | _ => none

namespace Traffic

/-- The number of threads that have not ended. -/
def busy (t : Traffic σ) : Nat := t.threads.countP fun thread ↦ thread.result?.isNone

/-- What becomes of traffic that has ended: the first thread that failed counts. -/
def outcome (t : Traffic σ) : Outcome σ Unit where
  result := (t.threads.findSome? Thread.failure?).elim (.ok ()) .error
  state := t.state
  effects := t.effects

theorem Finished.busy {t : Traffic σ} (h : t.Finished) : t.busy = 0 := by
  refine List.countP_eq_zero.2 fun thread hthread ↦ ?_
  rw [Option.isNone_iff_eq_none]
  exact Option.isSome_iff_ne_none.1 (h thread hthread)

end Traffic

/-- Traffic of workers, and the files that wait for one. -/
structure Pool (σ : Type) where
  traffic : Traffic σ
  waiting : List String

/-- A worker takes a file, or goes on with the one that it has taken. -/
inductive Pool.Step (server : CodeServer σ) (code : String → Routine σ Unit) (workers : Nat) :
    Pool σ → Pool σ → Prop
  | take {t : Traffic σ} {path : String} {waiting : List String} (h : t.busy < workers) :
    Step server code workers ⟨t, path :: waiting⟩ ⟨t.spawn (.require path .done), waiting⟩
  | advance {t t' : Traffic σ} {waiting : List String} (h : t.Advance server code t') :
    Step server code workers ⟨t, waiting⟩ ⟨t', waiting⟩

/-- A pool may load `files` from the state `s` with the outcome `o`. -/
def Loads (server : CodeServer σ) (code : String → Routine σ Unit) (workers : Nat)
    (files : List String) (s : σ) (o : Outcome σ Unit) : Prop :=
  ∃ t : Traffic σ,
    Relation.ReflTransGen (Pool.Step server code workers) ⟨{ state := s }, files⟩ ⟨t, []⟩ ∧
    t.Finished ∧ o = t.outcome

variable {server : CodeServer σ} {code : String → Routine σ Unit} {workers : Nat}
  {files : List String} {s : σ} {o : Outcome σ Unit}

/-- Every step of a pool is one of its traffic. -/
theorem Pool.Step.traffic {pool pool' : Pool σ} (h : Pool.Step server code workers pool pool') :
    pool.traffic.Step server code pool'.traffic := by
  cases h with
  | take => exact .spawn _ (Routine.discreet_require _ _)
  | advance h => exact .advance h

/-- **A pool runs files once**, whatever the order of its steps. -/
theorem Loads.runOnce (hcode : ∀ path, (code path).Discreet server.required)
    (h : Loads server code workers files s o) :
    RunOnce (server.required.get s) (ranIn o.effects) (server.required.get o.state) := by
  obtain ⟨t, hrun, hfinished, rfl⟩ := h
  have htraffic : Relation.ReflTransGen (Traffic.Step server code) { state := s } t :=
    hrun.lift Pool.traffic fun _ _ hstep ↦ hstep.traffic
  exact ((Traffic.sound_start server s).run hcode htraffic).runOnce hfinished

/-! ### One after another -/

theorem Pool.run_of_advances {t t' : Traffic σ}
    (h : Relation.ReflTransGen (Traffic.Advance server code) t t') (waiting : List String) :
    Relation.ReflTransGen (Pool.Step server code workers) ⟨t, waiting⟩ ⟨t', waiting⟩ :=
  h.lift (fun t ↦ Pool.mk t waiting) fun _ _ hadvance ↦ .advance hadvance

/-- A free worker can require a file in one go. -/
theorem Pool.run_requireFile (hlink : server.RunsCode code) (hworkers : 0 < workers) (path : String)
    (bound : Bool) {t : Traffic σ} (hfinished : t.Finished) (waiting : List String) :
    ∃ requests, Relation.ReflTransGen (Pool.Step server code workers) ⟨t, path :: waiting⟩
      ⟨⟨(server.requireFile path bound t.state).state,
        t.threads ++ [.running (.done (server.requireFile path bound t.state).result)], requests,
        t.effects ++ (server.requireFile path bound t.state).effects⟩, waiting⟩ := by
  obtain ⟨requests, hmoves⟩ := carries_requiring hlink path bound t.state
  refine ⟨t.requests ++ requests, .head (.take (hfinished.busy ▸ hworkers)) ?_⟩
  exact run_of_advances (hmoves.advance t.threads [] t.requests t.effects) waiting

theorem Pool.run_runAll (hlink : server.RunsCode code) (hworkers : 0 < workers) (bound : Bool)
    (files : List String) {t : Traffic σ} (hfinished : t.Finished) :
    ∃ t' : Traffic σ, Relation.ReflTransGen (Pool.Step server code workers) ⟨t, files⟩ ⟨t', []⟩ ∧
      t'.Finished ∧
      let o := CodeServer.runAll (files.map server.requireFile) bound t.state
      t'.state = o.state ∧ t'.effects = t.effects ++ o.effects ∧
      ∃ first?, o.result = .ok first? ∧
        t'.threads.findSome? Thread.failure? = (t.threads.findSome? Thread.failure?).or first? := by
  induction files generalizing t with
  | nil =>
    exact ⟨t, .refl, hfinished, rfl, (List.append_nil _).symm, none, rfl, Option.or_none.symm⟩
  | cons path files ih =>
    obtain ⟨requests, hfirst⟩ := run_requireFile hlink hworkers path bound hfinished files
    have hfinished' : Traffic.Finished ⟨(server.requireFile path bound t.state).state,
        t.threads ++ [.running (.done (server.requireFile path bound t.state).result)], requests,
        t.effects ++ (server.requireFile path bound t.state).effects⟩ := by
      intro thread hthread
      rcases List.mem_append.1 hthread with hold | hnew
      · exact hfinished thread hold
      · rw [List.mem_singleton.1 hnew]
        rfl
    obtain ⟨t', hrest, hended, hstate, heffects, first?, hresult, hfailure⟩ := ih hfinished'
    refine ⟨t', hfirst.trans hrest, hended, ?_⟩
    dsimp only
    rw [List.map_cons, CodeServer.runAll_cons, Hosted.attempt_andThen_apply,
      Hosted.andThen_pure_apply, hresult]
    refine ⟨hstate, heffects.trans (List.append_assoc _ _ _), _, rfl, ?_⟩
    rw [hfailure, List.findSome?_append, Option.or_assoc]
    cases (server.requireFile path bound t.state).result <;> rfl

/-- **Loading files one after another** is what a pool may do. -/
theorem loads_loadFiles (hlink : server.RunsCode code) (hworkers : 0 < workers)
    (files : List String) (bound : Bool) (s : σ) :
    Loads server code workers files s (server.loadFiles files bound s) := by
  obtain ⟨t, hrun, hfinished, hstate, heffects, first?, hresult, hfailure⟩ :=
    Pool.run_runAll hlink hworkers bound files (t := { state := s }) nofun
  refine ⟨t, hrun, hfinished, ?_⟩
  rw [CodeServer.loadFiles_eq, Hosted.andThen_apply_of_ok hresult, CodeServer.failWith_apply,
    Traffic.outcome, hfailure, hstate, heffects, List.append_nil]
  rfl

end Launcher.Host
