import Launcher.Proofs.Host.Watched
import Mathlib.Data.List.Nodup

/-!
# The order of the started applications

Whatever the code of the applications does, what has been started stands in order: every application
once, and behind all that it depends on (`Ordered`). A call may fail anywhere below the application
that was asked for, after some of its dependencies have been started, and another call may take it up
from there. So the invariant says what any part of a start does, one that fails included (`Orderly`):
names are only added, none of them an application that is still waiting, and a start function is
called when it is its turn. The applications that wait cannot have been started below, which is why
none of them is put in twice.

All that is asked of the modules is that they always list the same dependencies and do not meddle
with what is remembered as started (`Applications.Wired`).
-/

namespace Launcher.Host

open Relation

variable {σ α β : Type} {deps : String → List String}

/-- Every name stands once, and behind all that it depends on. -/
structure Ordered (deps : String → List String) (names : List String) : Prop where
  nodup : names.Nodup
  behind : ∀ before name after, names = before ++ name :: after → deps name ⊆ before

namespace Ordered

theorem nil : Ordered deps [] where
  nodup := .nil
  behind before name after h := by simp at h

/-- A name may be added behind what it depends on. -/
theorem append_singleton {names : List String} {name : String} (h : Ordered deps names)
    (hnot : name ∉ names) (hdeps : deps name ⊆ names) : Ordered deps (names ++ [name]) where
  nodup := by
    rw [← List.concat_eq_append]
    exact List.Nodup.concat hnot h.nodup
  behind before other after heq := by
    rcases List.eq_nil_or_concat after with rfl | ⟨after', last, rfl⟩
    · obtain ⟨rfl, hname⟩ := List.append_inj' heq rfl
      cases hname
      exact hdeps
    · have hinit : names = before ++ other :: after' := by
        have hassoc : names ++ [name] = (before ++ other :: after') ++ [last] := by simpa using heq
        exact (List.append_inj' hassoc rfl).1
      exact h.behind before other after' hinit

end Ordered

namespace Applications

variable {apps : Applications σ}

/-- Modules always list the dependencies `deps` if they can be loaded, and do not meddle with what is
remembered as started. Their bodies and their start functions may fail in any way, and one time and
not another. -/
structure Wired (apps : Applications σ) (deps : String → List String) : Prop where
  started_load : ∀ name ∈ apps.catalogue, ∀ bound s,
    apps.started.get (apps.load name bound s).state = apps.started.get s
  dependencies : ∀ name ∈ apps.catalogue, ∀ bound s app,
    (apps.load name bound s).result = .ok app → app.dependencies = deps name
  started_start : ∀ name ∈ apps.catalogue, ∀ bound s app,
    (apps.load name bound s).result = .ok app → ∀ start, app.start = some start →
      ∀ bound' s', apps.started.get (start bound' s').state = apps.started.get s'

/-- A failure is that of a piece of code, as it was, or one that the launcher made. The latter names
an application that can be reached from `roots` and is not started. -/
def Blamed (apps : Applications σ) (deps : String → List String) (roots : List String)
    (deeds : List (Deed σ)) (s : σ) (failure : Failure) : Prop :=
  (∃ deed ∈ deeds, deed.failure? = some failure ∧ deed.code.passes failure) ∨
    ∃ app reason, failure = failed app reason ∧
      (∃ root ∈ roots, ReflTransGen (Depends deps) root app) ∧ app ∉ apps.started.get s

/-- A part of a start, from `s` to `s'`. It starts `names` for the sake of `roots`, while `starting`
wait. -/
structure Orderly (apps : Applications σ) (deps : String → List String)
    (starting roots names : List String) (s : σ) (deeds : List (Deed σ)) (s' : σ)
    (failure? : Option Failure) : Prop where
  /-- Names are added, and none that waits. -/
  grown : ∃ new, apps.started.get s' = apps.started.get s ++ new ∧ ∀ a ∈ new, a ∉ starting
  ordered : Ordered deps (apps.started.get s) → Ordered deps (apps.started.get s')
  /-- A start function is called when all dependencies are started and the application is not. -/
  inTurn : ∀ deed ∈ deeds, ∀ a, deed.code = .start a →
    a ∉ apps.started.get deed.before ∧ deps a ⊆ apps.started.get deed.before
  of_none : failure? = none → names ⊆ apps.started.get s'
  of_some : ∀ failure, failure? = some failure → apps.Blamed deps roots deeds s' failure

namespace Orderly

variable {starting roots names : List String} {s s' s'' : σ} {deeds deeds' : List (Deed σ)}
  {failure? : Option Failure}

/-- A part in which nothing is added. -/
theorem of_started_eq (hstarted : apps.started.get s' = apps.started.get s)
    (hinTurn : ∀ deed ∈ deeds, ∀ a, deed.code = .start a →
      a ∉ apps.started.get deed.before ∧ deps a ⊆ apps.started.get deed.before)
    (hnone : failure? = none → names ⊆ apps.started.get s')
    (hsome : ∀ failure, failure? = some failure → apps.Blamed deps roots deeds s' failure) :
    apps.Orderly deps starting roots names s deeds s' failure? where
  grown := ⟨[], by rw [hstarted, List.append_nil], nofun⟩
  ordered h := by rwa [hstarted]
  inTurn := hinTurn
  of_none := hnone
  of_some := hsome

/-- A part that has nothing to do. -/
theorem refl (h : names ⊆ apps.started.get s) :
    apps.Orderly deps starting roots names s [] s none :=
  .of_started_eq rfl (List.forall_mem_nil _) (fun _ ↦ h) nofun

/-- Less may be said about a part: that fewer wait or are started, or that it is for the sake of
names that can reach the others. -/
theorem weaken {starting' roots' names' : List String}
    (h : apps.Orderly deps starting roots names s deeds s' failure?)
    (hstarting : starting' ⊆ starting) (hnames : names' ⊆ names)
    (hroots : ∀ b ∈ roots, ∃ a ∈ roots', ReflTransGen (Depends deps) a b) :
    apps.Orderly deps starting' roots' names' s deeds s' failure? where
  grown := by
    obtain ⟨new, hnew, hnot⟩ := h.grown
    exact ⟨new, hnew, fun a ha hmem ↦ hnot a ha (hstarting hmem)⟩
  ordered := h.ordered
  inTurn := h.inTurn
  of_none hnone := List.Subset.trans hnames (h.of_none hnone)
  of_some failure hfailure := by
    rcases h.of_some failure hfailure with hdeed | ⟨app, reason, rfl, ⟨b, hb, hreach⟩, hnot⟩
    · exact .inl hdeed
    · obtain ⟨a, ha, hab⟩ := hroots b hb
      exact .inr ⟨app, reason, rfl, ⟨a, ha, hab.trans hreach⟩, hnot⟩

/-- What is started stays so. -/
theorem subset (h : apps.Orderly deps starting roots names s deeds s' failure?) :
    apps.started.get s ⊆ apps.started.get s' := by
  obtain ⟨new, hnew, -⟩ := h.grown
  rw [hnew]
  exact List.subset_append_left _ _

/-- One part after another. -/
theorem append {names' : List String} (h : apps.Orderly deps starting roots names s deeds s' none)
    (h' : apps.Orderly deps starting roots names' s' deeds' s'' failure?) :
    apps.Orderly deps starting roots (names ++ names') s (deeds ++ deeds') s'' failure? where
  grown := by
    obtain ⟨new, hnew, hnot⟩ := h.grown
    obtain ⟨new', hnew', hnot'⟩ := h'.grown
    refine ⟨new ++ new', by rw [hnew', hnew, List.append_assoc], fun a ha ↦ ?_⟩
    exact (List.mem_append.1 ha).elim (hnot a) (hnot' a)
  ordered hordered := h'.ordered (h.ordered hordered)
  inTurn deed hdeed := (List.mem_append.1 hdeed).elim (h.inTurn deed) (h'.inTurn deed)
  of_none hnone := List.append_subset.2
    ⟨List.Subset.trans (h.of_none rfl) h'.subset, h'.of_none hnone⟩
  of_some failure hfailure := by
    rcases h'.of_some failure hfailure with ⟨deed, hdeed, hpasses⟩ | hmade
    · exact .inl ⟨deed, List.mem_append_right _ hdeed, hpasses⟩
    · exact .inr hmade

end Orderly

/-- What a program does from `s` on is orderly. -/
def Runs (apps : Applications σ) (deps : String → List String) (starting roots names : List String)
    (p' : Hosted (σ × List (Deed σ)) α) (p : Hosted σ α) (bound : Bool) (s : σ) : Prop :=
  apps.Orderly deps starting roots names s (p'.deeds bound s) (p bound s).state
    (p bound s).failure?

namespace Runs

variable {starting roots names : List String} {bound : Bool} {s : σ}

theorem andThen {names' : List String} {p' : Hosted (σ × List (Deed σ)) α} {p : Hosted σ α}
    {f' : α → Hosted (σ × List (Deed σ)) β} {f : α → Hosted σ β} (hp : p'.Records p)
    (hf : ∀ a, (f' a).Records (f a)) (h : apps.Runs deps starting roots names p' p bound s)
    (hnext : ∀ a, (p bound s).result = .ok a →
      apps.Runs deps starting roots names' (f' a) (f a) bound (p bound s).state) :
    apps.Runs deps starting roots (names ++ names') (p'.andThen f') (p.andThen f) bound s := by
  rw [Runs] at h ⊢
  rcases hresult : (p bound s).result with failure | a
  · rw [hp.deeds_andThen_of_error hresult, Hosted.andThen_apply_of_error hresult]
    rw [Outcome.failure?_of_error hresult] at h
    -- only what is started in the end depends on what was to be started
    exact { h with of_none := nofun }
  · rw [hp.deeds_andThen_of_ok hf hresult, Hosted.andThen_apply_of_ok hresult]
    rw [Outcome.failure?_of_ok hresult] at h
    exact h.append (hnext a hresult)

/-- One after another. -/
theorem each {f' : String → Hosted (σ × List (Deed σ)) Unit} {f : String → Hosted σ Unit}
    (hobeys : ∀ name, (f' name).Obeys Reported (f name))
    (hf : ∀ name s, apps.Runs deps starting [name] [name] (f' name) (f name) bound s)
    (names : List String) (s : σ) :
    apps.Runs deps starting names names (Hosted.each f' names) (Hosted.each f names) bound s := by
  induction names generalizing s with
  | nil => exact .refl (List.nil_subset _)
  | cons name rest ih =>
    have hfirst : apps.Runs deps starting (name :: rest) [name] (f' name) (f name) bound s :=
      (hf name s).weaken (List.Subset.refl _) (List.Subset.refl _) fun b hb ↦
        ⟨b, List.mem_cons.2 (.inl (List.mem_singleton.1 hb)), .refl⟩
    refine .andThen (hobeys name).records
      (fun _ ↦ (Hosted.Obeys.each lawful_reported hobeys rest).records) hfirst fun _ _ ↦ ?_
    exact (ih _).weaken (List.Subset.refl _) (List.Subset.refl _) fun b hb ↦
      ⟨b, List.mem_cons_of_mem _ hb, .refl⟩

end Runs

/-! ### The parts of a start -/

section Parts

variable {starting : List String} {name : String} {app : Application σ} {bound : Bool} {s s' : σ}

/-- A failure of the code of an application that is not started is blamed on someone. -/
theorem blamed_answer {code : Code} {deeds : List (Deed σ)} {failure : Failure}
    (hcode : code = .body name ∨ code = .start name)
    (hdeed : ⟨code, s, some failure⟩ ∈ deeds) (hnot : name ∉ apps.started.get s') :
    apps.Blamed deps [name] deeds s' (code.answer failure) := by
  by_cases hpasses : code.passes failure
  · rw [Code.answer_of_passes hpasses]
    exact .inl ⟨_, hdeed, rfl, hpasses⟩
  · obtain ⟨reason, hanswer⟩ := Code.exists_answer_eq hcode hpasses
    rw [hanswer]
    exact .inr ⟨name, reason, rfl, ⟨name, List.mem_singleton_self name, .refl⟩, hnot⟩

/-- A module is loaded. -/
theorem runs_loading (wired : apps.Wired deps) (hnot : name ∉ apps.started.get s) :
    apps.Runs deps starting [name] [] (apps.loading name) (apps.loadOrFail name) bound s ∧
      apps.started.get (apps.loadOrFail name bound s).state = apps.started.get s := by
  rw [Runs, deeds_loading, bodies, loadOrFail_apply, loadAny]
  split_ifs with hmem
  · have hstarted := wired.started_load name hmem bound s
    refine ⟨.of_started_eq hstarted ?_ (fun _ ↦ List.nil_subset _) ?_, hstarted⟩
    · intro deed hdeed a ha
      obtain rfl := List.mem_singleton.1 hdeed
      cases ha
    · intro failure hfailure
      rcases hload : (apps.load name bound s).result with cause | app
      · rw [hload] at hfailure
        cases hfailure
        rw [Outcome.failure?_of_error hload]
        exact blamed_answer (.inl rfl) (List.mem_singleton_self _) (hstarted ▸ hnot)
      · rw [hload] at hfailure
        cases hfailure
  · refine ⟨.of_started_eq rfl (List.forall_mem_nil _) (fun _ ↦ List.nil_subset _)
      fun failure hfailure ↦ ?_, rfl⟩
    cases hfailure
    exact .inr ⟨name, _, rfl, ⟨name, List.mem_singleton_self name, .refl⟩, hnot⟩

/-- The start function of a loaded application is called. -/
theorem runs_call (hnot : name ∉ apps.started.get s) (hdeps : deps name ⊆ apps.started.get s)
    (hstart : ∀ start, app.start = some start → ∀ bound s,
      apps.started.get (start bound s).state = apps.started.get s) :
    apps.Runs deps starting [name] [] (call name (app.watched name)) (call name app) bound s ∧
      apps.started.get (call name app bound s).state = apps.started.get s := by
  rw [Runs, deeds_call, calls, call]
  rcases happ : app.start with - | start
  · exact ⟨.refl (List.nil_subset _), rfl⟩
  · have hstarted := hstart start happ bound s
    simp only [callStart_apply]
    refine ⟨.of_started_eq hstarted ?_ (fun _ ↦ List.nil_subset _) ?_, hstarted⟩
    · intro deed hdeed a ha
      obtain rfl := List.mem_singleton.1 hdeed
      cases ha
      exact ⟨hnot, hdeps⟩
    · intro failure hfailure
      rcases hresult : (start bound s).result with cause | ⟨⟩
      · rw [hresult] at hfailure
        cases hfailure
        rw [Outcome.failure?_of_error hresult]
        exact blamed_answer (.inr rfl) (List.mem_singleton_self _) (hstarted ▸ hnot)
      · rw [hresult] at hfailure
        cases hfailure

/-- An application is remembered as started. -/
theorem runs_remember (hstarting : name ∉ starting) (hnot : name ∉ apps.started.get s)
    (hdeps : deps name ⊆ apps.started.get s) : apps.Runs deps starting [name] [name]
      (apps.watched.remember name) (apps.remember name) bound s := by
  have hstarted : apps.started.get (apps.remember name bound s).state =
      apps.started.get s ++ [name] := apps.started.get_set _ s
  refine ⟨⟨[name], hstarted, fun a ha ↦ List.mem_singleton.1 ha ▸ hstarting⟩, fun h ↦ ?_, nofun,
    fun _ ↦ ?_, nofun⟩
  · rw [hstarted]
    exact h.append_singleton hnot hdeps
  · rw [hstarted]
    exact List.subset_append_right _ _

/-- What a loaded application depends on is started, and then the application itself. -/
theorem runs_visit (hstarting : name ∉ starting) (hnot : name ∉ apps.started.get s)
    (happ : app.dependencies = deps name)
    (hstart : ∀ start, app.start = some start → ∀ bound s,
      apps.started.get (start bound s).state = apps.started.get s)
    (hbelow : ∀ dependency s, apps.Runs deps (starting ++ [name]) [dependency] [dependency]
      (apps.watched.startWithin (starting ++ [name]) dependency)
      (apps.startWithin (starting ++ [name]) dependency) bound s) :
    apps.Runs deps starting [name] [name] (apps.watched.visit starting name (app.watched name))
      (apps.visit starting name app) bound s := by
  have hobeys := apps.obeys_startWithin (starting ++ [name])
  have heach := Runs.each hobeys hbelow app.dependencies s
  have hremember : ∀ _ : Unit, (apps.watched.remember name).Records (apps.remember name) :=
    fun _ ↦ (obeys_remember lawful_reported apps name).records
  have hcall := (obeys_call name app).records
  have hparts : apps.Runs deps starting [name] (app.dependencies ++ ([] ++ [name]))
      (apps.watched.visit starting name (app.watched name)) (apps.visit starting name app)
      bound s := by
    refine .andThen (.each lawful_reported hobeys app.dependencies : Hosted.Obeys _ _ _).records
      (fun _ ↦ hcall.andThen hremember) ?_ fun _ hok ↦ ?_
    · refine heach.weaken (List.subset_append_left _ _) (List.Subset.refl _) fun b hb ↦ ?_
      rw [happ] at hb
      exact ⟨name, List.mem_singleton_self name, .single hb⟩
    -- the dependencies are started now, and the application is not, since it was waiting
    · obtain ⟨new, hnew, hwaiting⟩ := heach.grown
      have hdeps := heach.of_none (Outcome.failure?_of_ok hok)
      have hnot' : name ∉ apps.started.get (Hosted.each (apps.startWithin (starting ++ [name]))
          app.dependencies bound s).state := by
        rw [hnew]
        intro hmem
        rcases List.mem_append.1 hmem with hmem | hmem
        · exact hnot hmem
        · exact hwaiting name hmem (List.mem_append_right _ (List.mem_singleton_self name))
      obtain ⟨hruns, hstarted⟩ := runs_call hnot' (fun b hb ↦ hdeps (happ ▸ hb)) hstart
      refine .andThen hcall hremember hruns fun _ _ ↦ ?_
      exact runs_remember hstarting (hstarted ▸ hnot') fun b hb ↦ hstarted ▸ hdeps (happ ▸ hb)
  exact hparts.weaken (List.Subset.refl _)
    (List.Subset.trans (List.subset_append_right [] [name]) (List.subset_append_right _ _))
    fun b hb ↦ ⟨b, hb, .refl⟩

end Parts

/-- **Starting an application is orderly**, while others wait for it. -/
theorem runs_startWithin (wired : apps.Wired deps) (starting : List String) (name : String)
    (bound : Bool) (s : σ) : apps.Runs deps starting [name] [name]
      (apps.watched.startWithin starting name) (apps.startWithin starting name) bound s := by
  -- by induction on how many modules are left
  induction hn : (apps.remaining starting).length using Nat.strongRecOn
    generalizing starting name s with
  | ind n ih =>
    rw [Runs, Hosted.deeds, watched_startWithin_apply, startWithin_apply]
    split_ifs with hstarted hstarting
    · exact .refl fun b hb ↦ List.mem_singleton.1 hb ▸ hstarted
    · refine .of_started_eq rfl (List.forall_mem_nil _) (fun hnone ↦ by cases hnone)
        fun failure hfailure ↦ ?_
      cases hfailure
      exact .inr ⟨name, _, rfl, ⟨name, List.mem_singleton_self name, .refl⟩, hstarted⟩
    · obtain ⟨hruns, hload⟩ := runs_loading wired hstarted
      refine Runs.andThen (apps.records_loading name) (fun app ↦ ?_) hruns fun app happ ↦ ?_
      · exact (obeys_visit (apps.obeys_startWithin _) app).records
      · obtain ⟨hmem, hloaded⟩ := load_of_loadOrFail happ
        have hless := length_remaining_lt hmem hstarting
        exact runs_visit hstarting (hload ▸ hstarted)
          (wired.dependencies name hmem bound s app hloaded)
          (wired.started_start name hmem bound s app hloaded)
          fun dependency s' ↦ ih _ (hn ▸ hless) _ dependency s' rfl

/-- Calls leave things in order. -/
theorem Reached.ordered (wired : apps.Wired deps) {s : σ} (h : apps.Reached s) :
    Ordered deps (apps.started.get s) := by
  induction h with
  | fresh hnone =>
    rw [hnone]
    exact .nil
  | call name bound _ ih => exact (runs_startWithin wired [] name bound _).ordered ih
  | other _ heq ih => rwa [heq]

/-- **What has been started stands in order, whether calls fail or not.** In every state that calls
can lead to, the call of `start` does some deeds, and a record of them changes nothing. The call puts
names behind what was started before, and then every application stands once, and behind all its
dependencies. A start function is called when all dependencies of the application are started, and
the application is not.

A failure of a body other than that of loading, and one of a start function that is no error, comes
out as it is. If the call fails in any other way, then it names an application that can be reached
and is not started. -/
theorem start_keeps_order (wired : apps.Wired deps) {s : σ} (hs : apps.Reached s) (name : String)
    (bound : Bool) :
    ∃ deeds new,
      (∀ record, apps.watched.start name bound (s, record) =
        (apps.start name bound s).beside (record ++ deeds)) ∧
      apps.started.get (apps.start name bound s).state = apps.started.get s ++ new ∧
      Ordered deps (apps.started.get s ++ new) ∧
      ((apps.start name bound s).result = .ok () → name ∈ apps.started.get s ++ new) ∧
      (∀ deed ∈ deeds, ∀ a, deed.code = .start a →
        a ∉ apps.started.get deed.before ∧ deps a ⊆ apps.started.get deed.before) ∧
      (∀ deed ∈ deeds, ∀ failure, deed.failure? = some failure → deed.code.passes failure →
        (apps.start name bound s).result = .error failure) ∧
      ∀ failure, (apps.start name bound s).result = .error failure →
        (∃ deed ∈ deeds, deed.failure? = some failure ∧ deed.code.passes failure) ∨
          ∃ app reason, failure = failed app reason ∧ ReflTransGen (Depends deps) name app ∧
            app ∉ apps.started.get s ++ new := by
  have hobeys := apps.obeys_start name
  have hruns : apps.Runs deps [] [name] [name] (apps.watched.start name) (apps.start name) bound s :=
    runs_startWithin wired [] name bound s
  obtain ⟨new, hnew, -⟩ := hruns.grown
  refine ⟨_, new, hobeys.records bound s, hnew, ?_, fun hok ↦ ?_, hruns.inTurn, ?_, ?_⟩
  · rw [← hnew]
    exact hruns.ordered (hs.ordered wired)
  · rw [← hnew]
    exact hruns.of_none (Outcome.failure?_of_ok hok) (List.mem_singleton_self name)
  · intro deed hdeed failure hfailure hpasses
    have hreported := (hobeys.law bound s deed hdeed).2 failure hfailure
    rw [Code.answer_of_passes hpasses] at hreported
    exact Outcome.result_of_failure? hreported
  · intro failure hfailure
    rcases hruns.of_some failure (Outcome.failure?_of_error hfailure) with
      hdeed | ⟨app, reason, rfl, ⟨root, hroot, hreach⟩, hnot⟩
    · exact .inl hdeed
    · obtain rfl := List.mem_singleton.1 hroot
      rw [hnew] at hnot
      exact .inr ⟨app, reason, rfl, hreach, hnot⟩

/-! ### A store without a disk -/

/-- The store cannot be opened before its disk is there. -/
def openStore : Hosted (List String × Bool) Unit := do
  if (← Hosted.get).2 then pure ()
  else Hosted.raise { cause := .standard .runtimeError "no disk" }

/-- What the modules of the shop depend on. -/
def shopDependencies : String → List String
  | "web" => ["log", "store"]
  | "store" => ["log"]
  | "users" => ["log", "mail"]
  | _ => []

/-- Modules that remember what is started, and whether the disk is there. The user gives up when the
mail is loaded. -/
def shop : Applications (List String × Bool) where
  started := ⟨Prod.fst, fun started s ↦ (started, s.2), fun _ _ ↦ rfl, fun _ ↦ rfl, fun _ _ _ ↦ rfl⟩
  catalogue := ["web", "store", "log", "users", "mail"]
  load name :=
    if name = "mail" then Hosted.raise { cause := .interrupt }
    else pure {
      dependencies := shopDependencies name
      start := some (if name = "store" then openStore else pure ()) }

theorem wired_shop : shop.Wired shopDependencies where
  started_load name _ bound s := by
    by_cases h : name = "mail" <;> simp [shop, h, Hosted.raise]
  dependencies name _ bound s app happ := by
    by_cases h : name = "mail"
    · simp [shop, h, Hosted.raise] at happ
    · obtain rfl : _ = app := by simpa [shop, h] using happ
      rfl
  started_start name _ bound s app happ start hstart bound' s' := by
    by_cases h : name = "mail"
    · simp [shop, h, Hosted.raise] at happ
    · obtain rfl : _ = app := by simpa [shop, h] using happ
      obtain rfl : _ = start := by simpa using hstart
      by_cases hstore : name = "store"
      · rw [if_pos hstore]
        show (openStore bound' s').state.1 = s'.1
        rw [openStore, Hosted.bind_eq_andThen, Hosted.get_andThen_apply]
        split_ifs <;> rfl
      · rw [if_neg hstore]
        rfl

/-- Without the disk the web is not started, and the log is. When the disk is there the rest is
started, and the user can still give up. -/
theorem start_web_twice : ∃ s s', shop.Reached s ∧ shop.Reached s' ∧
    (shop.start "web" true s).result = .error (failed "store" "RuntimeError: no disk") ∧
    (shop.start "web" true s).state = (["log"], false) ∧ Ordered shopDependencies ["log"] ∧
    s' = (["log"], true) ∧ (shop.start "web" true s').result = .ok () ∧
    (shop.start "web" true s').state.1 = ["log", "store", "web"] ∧
    Ordered shopDependencies ["log", "store", "web"] ∧
    (shop.start "users" true s').result = .error { cause := .interrupt } := by
  have hfresh : shop.Reached ([], false) := .fresh rfl
  have hfirst : (shop.start "web" true ([], false)).state = (["log"], false) := by decide +kernel
  have hagain : shop.Reached (["log"], true) :=
    .other (.call "web" true hfresh) (congrArg Prod.fst hfirst).symm
  have hsecond : (shop.start "web" true (["log"], true)).state.1 = ["log", "store", "web"] := by
    decide +kernel
  obtain ⟨_, new, _, hnew, hordered, _⟩ := start_keeps_order wired_shop hfresh "web" true
  obtain ⟨_, new', _, hnew', hordered', _⟩ := start_keeps_order wired_shop hagain "web" true
  obtain ⟨deeds, _, hdeeds, _, _, _, _, hpasses, _⟩ :=
    start_keeps_order wired_shop hagain "users" true
  refine ⟨_, _, hfresh, hagain, by decide +kernel, hfirst, ?_, rfl, by decide +kernel, hsecond, ?_,
    ?_⟩
  · rw [← hnew, hfirst] at hordered
    exact hordered
  · rw [← hnew'] at hordered'
    exact hsecond ▸ hordered'
  · have hmail : ⟨.body "mail", (["log"], true), some { cause := .interrupt }⟩ ∈
        (shop.watched.start "users" true ((["log"], true), [])).state.2 := by decide +kernel
    rw [hdeeds] at hmail
    exact hpasses _ hmail _ rfl rfl

end Applications

end Launcher.Host
