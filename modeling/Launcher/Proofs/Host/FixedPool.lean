import Mathlib.Data.List.Nodup
import Launcher.Proofs.Host.Fixed

/-!
# A pool over files with a fixed outcome

While a pool loads files with a fixed outcome, the threads stand in the order of the files, one for
each that a worker has taken, and each is at a place that it comes to whatever the others do
(`Standing`). With a single worker only the last of them is still at work (`Pool.Loading.inOrder`).
So it can be told from the files alone what has become of them when the pool has done
(`Loads.fixed`).
-/

namespace Launcher.Host

variable {σ : Type}

/-- Where the thread of the file `path` stands when the files `requests` have been required, after
the files `before`. -/
inductive Standing (server : CodeServer σ) (outcome : String → Except Failure Unit)
    (before requests : List String) (path : String) : Thread σ → Prop
  | asking (h : Path.absolute server.directory path ∉ requests) :
    Standing server outcome before requests path (.requiring path)
  | entering (h : Path.absolute server.directory path ∈ requests)
      (hnew : Path.absolute server.directory path ∉ before) :
    Standing server outcome before requests path
      (.entering (Path.absolute server.directory path) .done)
  | running (h : Path.absolute server.directory path ∈ requests) {routine : Routine σ Unit}
      (hends : routine.Ends server.required
        (if Path.absolute server.directory path ∈ before then .ok ()
          else outcome (Path.absolute server.directory path))) :
    Standing server outcome before requests path (.running routine)

variable {server : CodeServer σ} {code : String → Routine σ Unit}
  {outcome : String → Except Failure Unit}
  {before requests : List String} {path : String} {thread : Thread σ}

namespace Standing

/-- It makes no difference that other files are required. -/
theorem mono (h : Standing server outcome before requests path thread) {new : List String}
    (hnew : Path.absolute server.directory path ∉ new) :
    Standing server outcome before (requests ++ new) path thread := by
  cases h with
  | asking h => exact .asking fun hmem ↦ (List.mem_append.1 hmem).elim h hnew
  | entering h hnew => exact .entering (List.mem_append_left _ h) hnew
  | running h hends => exact .running (List.mem_append_left _ h) hends

/-- **A step of the thread** leads to its next place, and requires no file but its own. -/
theorem move (h : Standing server outcome before requests path thread)
    (hends : (code (Path.absolute server.directory path)).Ends server.required
      (outcome (Path.absolute server.directory path)))
    {bound : Bool} {s s' : σ} (hrequired : ∀ other, other ∈ server.required.get s ↔
      other ∈ before ∨ other ∈ requests)
    {new : List String} {effects : List Effect} {thread' : Thread σ}
    (hmove : thread.Move server code bound s new effects s' thread') :
    Standing server outcome before (requests ++ new) path thread' ∧
      ∀ other ∈ new, other = Path.absolute server.directory path := by
  cases h with
  | asking h =>
    have hmem : Path.absolute server.directory path ∈
        requests ++ [Path.absolute server.directory path] := by simp
    cases hmove with
    | pass next hold =>
      have hbefore := ((hrequired _).1 hold).resolve_right h
      exact ⟨.running hmem (by rw [if_pos hbefore]; rfl), fun other ↦ List.mem_singleton.1⟩
    | mark next hnew =>
      exact ⟨.entering hmem fun hbefore ↦ hnew ((hrequired _).2 (.inl hbefore)),
        fun other ↦ List.mem_singleton.1⟩
  | entering h hnew =>
    obtain ⟨rfl, rfl⟩ := hmove.of_entering
    rw [List.append_nil]
    exact ⟨.running h (by rw [if_neg hnew]; exact hends.andThen_done), nofun⟩
  | running h hrunning =>
    cases hmove with
    | act act next =>
      rw [List.append_nil]
      exact ⟨.running h (hrunning.2 bound s), nofun⟩
    | pass => exact hrunning.elim
    | mark => exact hrunning.elim

/-- A thread that has ended has required its file, and has ended as the file does. -/
theorem of_ended (h : Standing server outcome before requests path thread)
    (hended : thread.result?.isSome) :
    Path.absolute server.directory path ∈ requests ∧
      thread.failure? = if Path.absolute server.directory path ∈ before then none
        else failure? (outcome (Path.absolute server.directory path)) := by
  cases h with
  | asking => cases hended
  | entering => cases hended
  | @running h routine hends =>
    refine ⟨h, ?_⟩
    match routine with
    | .done result =>
      obtain rfl : result = _ := hends
      split_ifs
      · rfl
      · cases outcome (Path.absolute server.directory path) <;> rfl
    | .step _ _ => cases hended
    | .require _ _ => cases hended

end Standing

/-! ### The threads of a pool -/

/-- The threads stand in the order of the files that have been taken, and only these have been
required. -/
structure Placed (server : CodeServer σ) (outcome : String → Except Failure Unit)
    (before taken : List String) (t : Traffic σ) : Prop where
  standing : List.Forall₂ (Standing server outcome before t.requests) taken t.threads
  requests : ∀ other ∈ t.requests, other ∈ taken.map (Path.absolute server.directory)

variable {taken : List String} {t t' : Traffic σ}

theorem Placed.spawn (h : Placed server outcome before taken t)
    (hnew : Path.absolute server.directory path ∉ taken.map (Path.absolute server.directory)) :
    Placed server outcome before (taken ++ [path]) (t.spawn (.require path .done)) where
  standing := List.rel_append h.standing (.cons (.asking fun hmem ↦ hnew (h.requests _ hmem)) .nil)
  requests other hother := by
    rw [List.map_append]
    exact List.mem_append_left _ (h.requests other hother)

theorem exists_of_forall₂_append {α β : Type} {R : α → β → Prop} {list : List α}
    {front rear : List β} {b : β}
    (h : List.Forall₂ R list (front ++ b :: rear)) : ∃ front' a rear',
      list = front' ++ a :: rear' ∧ List.Forall₂ R front' front ∧ R a b ∧
        List.Forall₂ R rear' rear := by
  have hfront := List.forall₂_take_append list front _ h
  obtain ⟨a, rear', ha, hrear, hdrop⟩ :=
    List.forall₂_cons_right_iff.1 (List.forall₂_drop_append list front _ h)
  exact ⟨_, a, rear', by rw [← hdrop, List.take_append_drop], hfront, ha, hrear⟩

theorem Placed.advance (h : Placed server outcome before taken t)
    (hfixed : server.Fixed code outcome taken) (hsound : Traffic.Sound server before t)
    (hadvance : t.Advance server code t') : Placed server outcome before taken t' := by
  cases hadvance with
  | @move bound s s' thread thread' new effects front rear requests₀ effects₀ hmove =>
    obtain ⟨front', path, rear', rfl, hfront, hpath, hrear⟩ := exists_of_forall₂_append h.standing
    obtain ⟨hpath', hnew⟩ := hpath.move (hfixed.ends path (by simp)) hsound.mem_required hmove
    have hothers : ∀ other, other ∈ front' ∨ other ∈ rear' →
        Path.absolute server.directory other ∉ new := by
      intro other hother hmem
      have hnodup := hfixed.nodup
      rw [List.map_append, List.map_cons, List.nodup_middle, List.nodup_cons,
        ← List.map_append] at hnodup
      exact hnodup.1 (hnew _ hmem ▸ List.mem_map_of_mem (List.mem_append.2 hother))
    have hkeep : ∀ {files : List String} {threads : List (Thread σ)},
        (∀ other ∈ files, other ∈ front' ∨ other ∈ rear') →
        List.Forall₂ (Standing server outcome before requests₀) files threads →
        List.Forall₂ (Standing server outcome before (requests₀ ++ new)) files threads :=
      fun hfiles hstanding ↦ ((List.forall₂_and_left _ _).2 ⟨hfiles, hstanding⟩).imp
        fun other _ hother ↦ hother.2.mono (hothers other hother.1)
    refine ⟨List.rel_append (hkeep (fun _ ↦ .inl) hfront)
        (.cons hpath' (hkeep (fun _ ↦ .inr) hrear)),
      fun other hother ↦ ?_⟩
    rcases List.mem_append.1 hother with hold | hother
    · exact h.requests other hold
    · rw [hnew other hother]
      exact List.mem_map_of_mem (by simp)

/-! ### A single worker -/

/-- Only the last thread is still at work, and files have been run in the order in which they were
taken. -/
structure InOrder (server : CodeServer σ) (taken : List String) (t : Traffic σ) : Prop where
  ended : ∀ thread ∈ t.threads.dropLast, thread.result?.isSome
  ran : (ranIn t.effects).Sublist (taken.map (Path.absolute server.directory))

theorem InOrder.spawn (h : InOrder server taken t) (hfree : t.busy < 1) (path : String) :
    InOrder server (taken ++ [path]) (t.spawn (.require path .done)) where
  ended thread hthread := by
    rw [Traffic.spawn, List.dropLast_concat] at hthread
    have hended := List.countP_eq_zero.1 (Nat.lt_one_iff.1 hfree) thread hthread
    rwa [Option.isNone_iff_eq_none, ← ne_eq, ← Option.isSome_iff_ne_none] at hended
  ran := by
    rw [List.map_append]
    exact h.ran.trans (List.sublist_append_left _ _)

theorem sublist_of_sublist_concat {a : String} {list list' : List String}
    (h : list.Sublist (list' ++ [a])) (ha : a ∉ list) : list.Sublist list' := by
  obtain ⟨front, rear, rfl, hfront, hrear⟩ := List.sublist_append_iff.1 h
  have hnil : rear = [] := List.eq_nil_iff_forall_not_mem.2 fun other hother ↦ ha
    (List.mem_append_right _ (List.mem_singleton.1 (hrear.subset hother) ▸ hother))
  rwa [hnil, List.append_nil]

/-- A file that a thread is about to run has not been run. -/
theorem not_mem_ranIn_of_entering (h : Traffic.Sound server before t) (hpath : path ∈ t.entering) :
    path ∉ ranIn t.effects := by
  have haccount := h.account path
  have hentering := List.count_pos_iff.2 hpath
  intro hran
  have hran' := List.count_pos_iff.2 hran
  split_ifs at haccount <;> omega

theorem InOrder.advance (h : InOrder server taken t)
    (hplaced : Placed server outcome before taken t) (hsound : Traffic.Sound server before t)
    (hadvance : t.Advance server code t') :
    InOrder server taken t' := by
  cases hadvance with
  | @move bound s s' thread thread' new effects front rear requests₀ effects₀ hmove =>
    -- a thread that takes a step has not ended, so it is the last one
    obtain rfl : rear = [] := by
      cases rear with
      | nil => rfl
      | cons other rear =>
        have hended := h.ended thread (by simp)
        rw [hmove.result?_eq_none] at hended
        cases hended
    have hended := h.ended
    rw [List.dropLast_concat] at hended
    refine ⟨fun other hother ↦ hended other (by rwa [List.dropLast_concat] at hother), ?_⟩
    have hran := h.ran
    rcases hmove.ranIn_eq (hsound.discreet thread (by simp)) with
      hnone | ⟨absolute, hentering, hone⟩
    · rw [ranIn_append, hnone, List.append_nil]
      exact hran
    · obtain ⟨front', path, rear', rfl, -, hpath, hrear⟩ :=
        exists_of_forall₂_append hplaced.standing
      obtain rfl : rear' = [] := List.forall₂_nil_right_iff.1 hrear
      obtain rfl : Path.absolute server.directory path = absolute := by
        cases hpath with
        | entering => exact Option.some.inj hentering
        | _ => cases hentering
      have hnew := not_mem_ranIn_of_entering hsound
        (List.mem_filterMap.2 ⟨thread, by simp, hentering⟩)
      rw [List.map_append, List.map_singleton] at hran ⊢
      rw [ranIn_append, hone]
      exact (sublist_of_sublist_concat hran hnew).append (.refl _)

/-! ### The whole load -/

/-- A pool on the way through `files`: it has taken some of them, in order. -/
def Loading (server : CodeServer σ) (outcome : String → Except Failure Unit) (workers : Nat)
    (before files : List String) (pool : Pool σ) : Prop :=
  ∃ taken, files = taken ++ pool.waiting ∧ Placed server outcome before taken pool.traffic ∧
    Traffic.Sound server before pool.traffic ∧ (workers = 1 → InOrder server taken pool.traffic)

variable {workers : Nat} {files : List String}

theorem CodeServer.Fixed.of_append {front rear : List String}
    (h : server.Fixed code outcome (front ++ rear)) : server.Fixed code outcome front where
  run path hpath := h.run path (List.mem_append_left _ hpath)
  ends path hpath := h.ends path (List.mem_append_left _ hpath)
  nodup := (List.nodup_append.1 (List.map_append ▸ h.nodup)).1

theorem Placed.discreet_of_entering (h : Placed server outcome before taken t)
    (hfixed : server.Fixed code outcome taken) (hpath : path ∈ t.entering) :
    (code path).Discreet server.required := by
  obtain ⟨thread, hthread, hentering⟩ := List.mem_filterMap.1 hpath
  obtain ⟨front, rear, hthreads⟩ := List.append_of_mem hthread
  obtain ⟨front', file, rear', rfl, -, hfile, -⟩ := exists_of_forall₂_append (hthreads ▸ h.standing)
  cases hfile with
  | entering =>
    obtain rfl := Option.some.inj hentering
    exact (hfixed.ends file (by simp)).discreet
  | _ => cases hentering

theorem Loading.step (hfixed : server.Fixed code outcome files) {pool pool' : Pool σ}
    (h : Loading server outcome workers before files pool)
    (hstep : Pool.Step server code workers pool pool') :
    Loading server outcome workers before files pool' := by
  obtain ⟨taken, rfl, hplaced, hsound, hinOrder⟩ := h
  cases hstep with
  | @take t path waiting hfree =>
    have hnew : Path.absolute server.directory path ∉
        taken.map (Path.absolute server.directory) := by
      have hnodup := hfixed.nodup
      rw [List.map_append, List.map_cons, List.nodup_middle, List.nodup_cons] at hnodup
      exact fun hmem ↦ hnodup.1 (List.mem_append_left _ hmem)
    exact ⟨taken ++ [path], List.append_cons taken path waiting, hplaced.spawn hnew,
      hsound.spawn (Routine.discreet_require _ path),
      fun hone ↦ (hinOrder hone).spawn (hone ▸ hfree) path⟩
  | advance hadvance =>
    exact ⟨taken, rfl, hplaced.advance hfixed.of_append hsound hadvance,
      hsound.advance (fun _ ↦ hplaced.discreet_of_entering hfixed.of_append) hadvance,
      fun hone ↦ (hinOrder hone).advance hplaced hsound hadvance⟩

theorem Loading.run (hfixed : server.Fixed code outcome files) {pool pool' : Pool σ}
    (h : Loading server outcome workers before files pool)
    (hrun : Relation.ReflTransGen (Pool.Step server code workers) pool pool') :
    Loading server outcome workers before files pool' := by
  induction hrun with
  | refl => exact h
  | tail _ hstep ih => exact ih.step hfixed hstep

theorem mem_requests_of_ended {threads : List (Thread σ)}
    (h : List.Forall₂ (Standing server outcome before requests) files threads)
    (hended : ∀ thread ∈ threads, thread.result?.isSome) :
    ∀ path ∈ files, Path.absolute server.directory path ∈ requests := by
  induction h with
  | nil => nofun
  | cons hpath hrest ih =>
    refine List.forall_mem_cons.2 ⟨(hpath.of_ended (hended _ List.mem_cons_self)).1, ?_⟩
    exact ih fun thread hthread ↦ hended thread (List.mem_cons_of_mem _ hthread)

/-- The first thread that has failed is that of the first new file that fails. -/
theorem findSome?_failure? {threads : List (Thread σ)}
    (h : List.Forall₂ (Standing server outcome before requests) files threads)
    (hended : ∀ thread ∈ threads, thread.result?.isSome) :
    threads.findSome? Thread.failure? = firstFailure? outcome (server.fresh before files) := by
  induction h with
  | nil => rfl
  | @cons path thread files threads hpath hrest ih =>
    obtain ⟨-, hfailure⟩ := hpath.of_ended (hended thread List.mem_cons_self)
    have ih' := ih fun other hother ↦ hended other (List.mem_cons_of_mem _ hother)
    rw [List.findSome?_cons, hfailure, ih']
    by_cases hold : Path.absolute server.directory path ∈ before
    · rw [if_pos hold, CodeServer.fresh_cons_of_mem hold]
    · rw [if_neg hold, CodeServer.fresh_cons_of_not_mem hold, firstFailure?, firstFailure?,
        List.findSome?_cons]

/-- **A pool that loads files with a fixed outcome** runs those that are new, each once, and with a
single worker in their order. The failure of the first of them that fails comes out. -/
theorem Loads.fixed {s : σ} {o : Outcome σ Unit} (h : Loads server code workers files s o)
    (hfixed : server.Fixed code outcome files) :
    let fresh := server.fresh (server.required.get s) files
    o.result = (firstFailure? outcome fresh).elim (.ok ()) .error ∧
    (ranIn o.effects).Perm fresh ∧
    (workers = 1 → ranIn o.effects = fresh) ∧
    ∀ absolute, absolute ∈ server.required.get o.state ↔
      absolute ∈ server.required.get s ∨ absolute ∈ fresh := by
  obtain ⟨t, hrun, hfinished, rfl⟩ := h
  have hstart : Loading server outcome workers (server.required.get s) files
      ⟨{ state := s }, files⟩ :=
    ⟨[], rfl, ⟨.nil, nofun⟩, Traffic.sound_start server s, fun _ ↦ ⟨nofun, .refl _⟩⟩
  obtain ⟨taken, htaken, hplaced, hsound, hinOrder⟩ := hstart.run hfixed hrun
  obtain rfl : files = taken := htaken.trans (List.append_nil taken)
  have hrequests : ∀ absolute, absolute ∈ t.requests ↔
      absolute ∈ files.map (Path.absolute server.directory) := by
    refine fun absolute ↦ ⟨hplaced.requests absolute, fun hmem ↦ ?_⟩
    obtain ⟨path, hpath, rfl⟩ := List.mem_map.1 hmem
    exact mem_requests_of_ended hplaced.standing hfinished path hpath
  have hran : ∀ absolute, absolute ∈ ranIn t.effects ↔
      absolute ∈ server.fresh (server.required.get s) files := by
    intro absolute
    rw [hsound.mem_ran hfinished, hrequests, CodeServer.mem_fresh]
  have hfresh : (server.fresh (server.required.get s) files).Nodup := hfixed.nodup.filter _
  have hperm : (ranIn t.effects).Perm (server.fresh (server.required.get s) files) :=
    (List.perm_ext_iff_of_nodup (hsound.runOnce hfinished).nodup hfresh).2 hran
  refine ⟨?_, hperm, fun hone ↦ ?_, fun absolute ↦ ?_⟩
  · rw [Traffic.outcome, findSome?_failure? hplaced.standing hfinished]
  · have hsublist := (hinOrder hone).ran.filter (· ∉ server.required.get s)
    rw [List.filter_eq_self.2 fun absolute habsolute ↦ decide_eq_true
      ((hsound.runOnce hfinished).fresh absolute habsolute)] at hsublist
    exact hsublist.eq_of_length hperm.length_eq
  · rw [← hran]
    exact (hsound.runOnce hfinished).mem_after absolute

end Launcher.Host
