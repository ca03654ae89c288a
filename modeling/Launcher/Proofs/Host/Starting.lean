import Launcher.Host.Applications
import Launcher.Proofs.Host.Dependencies
import Mathlib.Logic.Function.Iterate

/-!
# Starting applications

The applications are a **graph** if every module can be loaded, always lists the same dependencies,
and has a start function that returns, if it has one at all (`Applications.Graph`). Then starting an
application takes a tour of the graph, depth first and in post-order, and starts what is fresh on it
(`start_closes_dependencies`). What is already started needs no tour, since a tour of it has been
taken before (`Settled`), and a tour that would come back to an application whose dependencies it is
visiting has found a cycle.

The recursion goes one layer deeper for each application on the way, and these are distinct members
of the catalogue. So one layer more than there are members is enough, whatever stands below
(`iterate_startLayer`).
-/

namespace Launcher

variable {σ α : Type}

/-- The application whose start function was called. -/
def Effect.started? : Effect → Option String
  | .event (.started name) => some name
  | _ => none

/-- The applications whose start functions were called, in order. -/
def startsIn (effects : List Effect) : List String := effects.filterMap Effect.started?

@[simp]
theorem startsIn_append (effects effects' : List Effect) :
    startsIn (effects ++ effects') = startsIn effects ++ startsIn effects' :=
  List.filterMap_append

namespace Host.Applications

open Relation

variable {apps : Applications σ} {deps : String → List String} {starts : String → Bool}

/-! ### One layer of the recursion -/

/-- The failure of an application that lies on a cycle. -/
def circular (name : String) : Failure := failed name "circular application dependency"

/-- One layer of starting an application. Its dependencies are left to `below`. -/
def startLayer (apps : Applications σ) (below : List String → String → Hosted σ Unit)
    (starting : List String) (name : String) : Hosted σ Unit := do
  let s ← Hosted.get
  if name ∈ apps.started.get s then pure ()
  else if name ∈ starting then Hosted.raise (circular name)
  else do
    let app ← apps.loadOrFail name
    Hosted.each (below (starting ++ [name])) app.dependencies
    apps.finish name app

theorem startLayer_apply (apps : Applications σ) (below : List String → String → Hosted σ Unit)
    (starting : List String) (name : String) (bound : Bool) (s : σ) :
    apps.startLayer below starting name bound s =
      if name ∈ apps.started.get s then ⟨.ok (), s, []⟩
      else if name ∈ starting then ⟨.error (circular name), s, []⟩
      else (apps.loadOrFail name).andThen (fun app ↦
        (Hosted.each (below (starting ++ [name])) app.dependencies).andThen fun _ ↦
          apps.finish name app) bound s := by
  rw [startLayer, Hosted.bind_eq_andThen, Hosted.get_andThen_apply]
  split_ifs <;> rfl

/-- A module that is not in the catalogue cannot be loaded. -/
theorem loadOrFail_of_not_mem {name : String} (h : name ∉ apps.catalogue) :
    ∃ failure, apps.loadOrFail name = Hosted.raise failure := by
  refine ⟨failed name ("not found (" ++ (noModule name).cause.message ++ ")"), ?_⟩
  rw [loadOrFail, loadAny, if_neg h]
  rfl

/-- **Starting an application is made of layers.** The catalogue bounds the recursion, and does not
show otherwise. -/
theorem startWithin_eq_startLayer (apps : Applications σ) (starting : List String) (name : String) :
    apps.startWithin starting name = apps.startLayer apps.startWithin starting name := by
  funext bound s
  rw [startWithin, Hosted.bind_eq_andThen, Hosted.get_andThen_apply, startLayer_apply]
  split_ifs with hstarted hstarting hmem
  · rfl
  · rfl
  · rfl
  · obtain ⟨failure, hload⟩ := loadOrFail_of_not_mem hmem
    rw [hload]
    rfl

/-- A layer turns to what is below only for the dependencies of a module that can be loaded. -/
theorem startLayer_congr {f g : List String → String → Hosted σ Unit} {starting : List String}
    {name : String} (h : name ∈ apps.catalogue → name ∉ starting →
      f (starting ++ [name]) = g (starting ++ [name])) :
    apps.startLayer f starting name = apps.startLayer g starting name := by
  funext bound s
  rw [startLayer_apply, startLayer_apply]
  split_ifs with hstarted hstarting
  · rfl
  · rfl
  · by_cases hmem : name ∈ apps.catalogue
    · rw [h hmem hstarting]
    · obtain ⟨failure, hload⟩ := loadOrFail_of_not_mem hmem
      rw [hload]
      rfl

/-- **Starting comes to an end**: whatever stands below more layers than there are modules left, it
is not reached. -/
theorem iterate_startLayer (apps : Applications σ) (below : List String → String → Hosted σ Unit)
    {n : Nat} {starting : List String} (h : (apps.remaining starting).length < n) (name : String) :
    (apps.startLayer^[n] below) starting name = apps.startWithin starting name := by
  induction n generalizing starting name with
  | zero => omega
  | succ n ih =>
    rw [Function.iterate_succ_apply', startWithin_eq_startLayer]
    refine startLayer_congr fun hmem hnot ↦ funext fun dependency ↦ ?_
    have hless := length_remaining_lt hmem hnot
    exact ih (by omega) dependency

/-- A request for a module that is not in the catalogue leaves things as they are. -/
theorem state_start_of_not_mem {name : String} (h : name ∉ apps.catalogue) (bound : Bool) (s : σ) :
    (apps.start name bound s).state = s := by
  obtain ⟨failure, hload⟩ := loadOrFail_of_not_mem h
  rw [start, startWithin_eq_startLayer, startLayer_apply, hload]
  split_ifs with hstarted hstarting
  · rfl
  · rfl
  · rfl

/-! ### Graphs of applications -/

/-- What a program has left has the same applications started as `s`, and no start function was
called. -/
structure Keeps (apps : Applications σ) (s : σ) (o : Outcome σ α) : Prop where
  started : apps.started.get o.state = apps.started.get s
  starts : startsIn o.effects = []

/-- A loaded application is the one of a graph: its dependencies are those of the graph, and its
start function returns. -/
structure Fits (apps : Applications σ) (deps : String → List String) (starts : String → Bool)
    (name : String) (app : Application σ) : Prop where
  dependencies : app.dependencies = deps name
  start_isSome : app.start.isSome = starts name
  start : ∀ start, app.start = some start → ∀ bound s,
    (start bound s).result = .ok () ∧ apps.Keeps s (start bound s)

/-- The applications are a finite graph. Every module can be loaded, in every state, lists the
dependencies `deps`, and has a start function if `starts` says so. Modules do not meddle with what is
remembered as started. -/
structure Graph (apps : Applications σ) (deps : String → List String) (starts : String → Bool) :
    Prop where
  closed : ∀ name ∈ apps.catalogue, ∀ dependency ∈ deps name, dependency ∈ apps.catalogue
  load : ∀ name ∈ apps.catalogue, ∀ bound s, ∃ app, (apps.load name bound s).result = .ok app ∧
    apps.Keeps s (apps.load name bound s) ∧ apps.Fits deps starts name app

/-- The states that calls lead to. In the beginning nothing is started, and between the calls
anything may happen that does not meddle with what is remembered as started. -/
inductive Reached (apps : Applications σ) : σ → Prop
  | fresh {s : σ} : apps.started.get s = [] → Reached apps s
  | call {s : σ} (name : String) (bound : Bool) : Reached apps s →
    Reached apps (apps.start name bound s).state
  | other {s s' : σ} : Reached apps s → apps.started.get s' = apps.started.get s → Reached apps s'

theorem Graph.exists_loadOrFail (graph : apps.Graph deps starts) {name : String}
    (hmem : name ∈ apps.catalogue) (bound : Bool) (s : σ) :
    ∃ app, (apps.loadOrFail name bound s).result = .ok app ∧
      apps.Keeps s (apps.loadOrFail name bound s) ∧ apps.Fits deps starts name app := by
  obtain ⟨app, hload, hkeeps, hfits⟩ := graph.load name hmem bound s
  have hany : apps.loadAny name bound s = apps.load name bound s := by rw [loadAny, if_pos hmem]
  have hattempt : (Hosted.attempt (apps.loadAny name) bound s).result = .ok (.ok app) := by
    show Except.ok (apps.loadAny name bound s).result = _
    rw [hany, hload]
  rw [loadOrFail, Hosted.bind_eq_andThen, Hosted.andThen_apply_of_ok hattempt]
  refine ⟨app, rfl, ⟨?_, ?_⟩, hfits⟩
  · show apps.started.get (apps.loadAny name bound s).state = _
    rw [hany, hkeeps.started]
  · show startsIn ((apps.loadAny name bound s).effects ++ []) = _
    rw [hany, List.append_nil, hkeeps.starts]

theorem callStart_of_ok {start : Hosted σ Unit} {bound : Bool} {s : σ}
    (h : (start bound s).result = .ok ()) (name : String) :
    callStart name start bound s =
      ⟨.ok (), (start bound s).state, .event (.started name) :: (start bound s).effects⟩ := by
  have hattempt : (Hosted.attempt ((Hosted.emit (.started name)).andThen fun _ ↦ start) bound
      s).result = .ok (.ok ()) := congrArg Except.ok h
  rw [callStart, Hosted.bind_eq_andThen, Hosted.andThen_apply_of_ok hattempt]
  show Outcome.mk _ (start bound s).state ((.event (.started name) :: (start bound s).effects) ++ [])
    = _
  rw [List.append_nil]
  rfl

/-- An application of the graph has its start function called, if it has one, and is remembered as
started. -/
theorem Fits.finish {name : String} {app : Application σ} (hfits : apps.Fits deps starts name app)
    (bound : Bool) (s : σ) :
    (apps.finish name app bound s).result = .ok () ∧
      apps.started.get (apps.finish name app bound s).state = apps.started.get s ++ [name] ∧
      startsIn (apps.finish name app bound s).effects = [name].filter starts := by
  have hisSome := hfits.start_isSome
  rcases hstart : app.start with - | start
  · rw [hstart] at hisSome
    have hrun : apps.finish name app bound s = ⟨.ok (), apps.started.update (· ++ [name]) s,
        [.event (.noted (.startedApplication name))]⟩ := by
      rw [Applications.finish, hstart]
      rfl
    rw [hrun]
    refine ⟨rfl, apps.started.get_set _ s, ?_⟩
    rw [List.filter_cons_of_neg (by simp [← hisSome])]
    rfl
  · rw [hstart] at hisSome
    obtain ⟨hreturns, hkeeps⟩ := hfits.start start hstart bound s
    have hrun : apps.finish name app bound s =
        ⟨.ok (), apps.started.update (· ++ [name]) (start bound s).state,
          .event (.started name) :: (start bound s).effects ++
            [.event (.noted (.startedApplication name))]⟩ := by
      have hcall := callStart_of_ok hreturns name
      have hok : (callStart name start bound s).result = .ok () := by rw [hcall]
      rw [Applications.finish, hstart]
      refine (Hosted.andThen_apply_of_ok hok).trans ?_
      rw [hcall]
      rfl
    rw [hrun]
    refine ⟨rfl, ?_, ?_⟩
    · show apps.started.get (apps.started.set _ _) = _
      rw [apps.started.get_set, hkeeps.started]
    · have hcalled : startsIn (.event (.started name) :: (start bound s).effects) = [name] :=
        congrArg (name :: ·) hkeeps.starts
      rw [List.filter_cons_of_pos (by simp [← hisSome]), startsIn_append, hcalled]
      rfl

/-! ### What a call comes to -/

/-- A tour of everything that is started has been taken. -/
def Settled (deps : String → List String) (started : List String) : Prop :=
  ∀ a ∈ started, ∃ order, Tours deps [a] order ∧ order ⊆ started

/-- A tour leaves things settled. -/
theorem Settled.append {started names order : List String} (h : Settled deps started)
    (htours : Tours deps names order) : Settled deps (started ++ fresh started order) := by
  intro a ha
  rcases List.mem_append.1 ha with ha | ha
  · obtain ⟨part, hpart, hsub⟩ := h a ha
    exact ⟨part, hpart, fun b hb ↦ List.mem_append_left _ (hsub hb)⟩
  · obtain ⟨part, hpart, hsub⟩ := htours.exists_singleton (mem_fresh.1 ha).1
    refine ⟨part, hpart, fun b hb ↦ ?_⟩
    by_cases hstarted : b ∈ started
    · exact List.mem_append_left _ hstarted
    · exact List.mem_append_right _ (mem_fresh.2 ⟨hsub hb, hstarted⟩)

/-- `o` is an answer to the request to start `names` where `started` are started. If it is a success,
then there is a tour of the names, and what is fresh on it has been started. If it is a failure, then
a cycle can be reached from the names, and things are settled all the same. -/
structure Answers (apps : Applications σ) (deps : String → List String) (starts : String → Bool)
    (names started : List String) (o : Outcome σ Unit) : Prop where
  of_ok : o.result = .ok () → ∃ order, Tours deps names order ∧
    apps.started.get o.state = started ++ fresh started order ∧
    startsIn o.effects = (fresh started order).filter starts
  of_error : ∀ failure, o.result = .error failure → Settled deps (apps.started.get o.state) ∧
    ∃ app, failure = circular app ∧ TransGen (Depends deps) app app ∧
      ∃ name ∈ names, ReflTransGen (Depends deps) name app

namespace Answers

variable {names : List String} {s : σ} {o : Outcome σ Unit}

theorem settled {started : List String} (h : apps.Answers deps starts names started o)
    (hsettled : Settled deps started) : Settled deps (apps.started.get o.state) := by
  rcases hresult : o.result with failure | ⟨⟩
  · exact (h.of_error failure hresult).1
  · obtain ⟨order, htours, hstarted, -⟩ := h.of_ok hresult
    rw [hstarted]
    exact hsettled.append htours

/-- What has no part in starting may come first. -/
theorem andThen_of_keeps {p : Hosted σ α} {f : α → Hosted σ Unit} {bound : Bool} {a : α}
    (hp : (p bound s).result = .ok a) (hkeeps : apps.Keeps s (p bound s))
    (h : apps.Answers deps starts names (apps.started.get (p bound s).state)
      (f a bound (p bound s).state)) :
    apps.Answers deps starts names (apps.started.get s) (p.andThen f bound s) := by
  rw [hkeeps.started] at h
  rw [Hosted.andThen_apply_of_ok hp]
  refine ⟨fun hok ↦ ?_, h.of_error⟩
  obtain ⟨order, htours, hstarted, hstarts⟩ := h.of_ok hok
  refine ⟨order, htours, hstarted, ?_⟩
  rw [startsIn_append, hkeeps.starts, List.nil_append, hstarts]

/-- The failure of a part is one of the whole, if the names of the whole can reach those of the
part. -/
theorem of_failure {names' started started' : List String} {failure : Failure}
    {effects : List Effect} (h : apps.Answers deps starts names started o)
    (hfailure : o.result = .error failure)
    (hreach : ∀ b ∈ names, ∃ a ∈ names', ReflTransGen (Depends deps) a b) :
    apps.Answers deps starts names' started' ⟨.error failure, o.state, effects⟩ := by
  refine ⟨nofun, fun failure' heq ↦ ?_⟩
  cases heq
  obtain ⟨hsettled, app, happ, hcycle, b, hb, hba⟩ := h.of_error failure hfailure
  obtain ⟨a, ha, hab⟩ := hreach b hb
  exact ⟨hsettled, app, happ, hcycle, a, ha, hab.trans hba⟩

/-- Starting one after another, if each one is answered. -/
theorem each {f : String → Hosted σ Unit} {bound : Bool}
    (hf : ∀ name ∈ names, ∀ s, Settled deps (apps.started.get s) →
      apps.Answers deps starts [name] (apps.started.get s) (f name bound s))
    (hsettled : Settled deps (apps.started.get s)) :
    apps.Answers deps starts names (apps.started.get s) (Hosted.each f names bound s) := by
  induction names generalizing s with
  | nil => exact ⟨fun _ ↦ ⟨[], .nil, (List.append_nil _).symm, rfl⟩, nofun⟩
  | cons name rest ih =>
    have hfirst := hf name List.mem_cons_self s hsettled
    show apps.Answers deps starts _ _ ((f name).andThen (fun _ ↦ Hosted.each f rest) bound s)
    rcases hresult : (f name bound s).result with failure | ⟨⟩
    · rw [Hosted.andThen_apply_of_error hresult]
      refine hfirst.of_failure hresult fun b hb ↦ ⟨name, List.mem_cons_self, ?_⟩
      rw [List.mem_singleton.1 hb]
    · obtain ⟨order, htours, hstarted, hstarts⟩ := hfirst.of_ok hresult
      have hrest := ih (fun other hother ↦ hf other (List.mem_cons_of_mem _ hother))
        (hfirst.settled hsettled)
      rw [Hosted.andThen_apply_of_ok hresult]
      rcases hresult' : (Hosted.each f rest bound (f name bound s).state).result with failure | ⟨⟩
      · exact hrest.of_failure hresult' fun b hb ↦ ⟨b, List.mem_cons_of_mem _ hb, .refl⟩
      · obtain ⟨order', htours', hstarted', hstarts'⟩ := hrest.of_ok hresult'
        refine ⟨fun _ ↦ ⟨order ++ order', htours.append htours', ?_, ?_⟩, nofun⟩
        · rw [hstarted', hstarted, fresh_append, List.append_assoc]
        · rw [startsIn_append, hstarts, hstarts', hstarted, fresh_append, List.filter_append]

/-- An application is started behind what it depends on. -/
theorem visit {name : String} {app : Application σ} {p : Hosted σ Unit} {bound : Bool}
    (hfits : apps.Fits deps starts name app) (hname : name ∉ apps.started.get s)
    (h : apps.Answers deps starts (deps name) (apps.started.get s) (p bound s)) :
    apps.Answers deps starts [name] (apps.started.get s)
      (p.andThen (fun _ ↦ apps.finish name app) bound s) := by
  rcases hresult : (p bound s).result with failure | ⟨⟩
  · rw [Hosted.andThen_apply_of_error hresult]
    exact h.of_failure hresult fun b hb ↦ ⟨name, List.mem_cons_self, .single hb⟩
  · obtain ⟨below, htours, hstarted, hstarts⟩ := h.of_ok hresult
    obtain ⟨hok, hfinished, hcalled⟩ := hfits.finish bound (p bound s).state
    -- the name has neither been started before nor while its dependencies were
    have hnot : name ∉ apps.started.get s ++ fresh (apps.started.get s) below := by
      intro hmem
      rcases List.mem_append.1 hmem with hmem | hmem
      · exact hname hmem
      · exact htours.not_mem_below (mem_fresh.1 hmem).1
    rw [Hosted.andThen_apply_of_ok hresult, hok]
    refine ⟨fun _ ↦ ⟨below ++ [name], .singleton htours, ?_⟩, nofun⟩
    rw [fresh_append, fresh_singleton hnot]
    constructor
    · rw [hfinished, hstarted, List.append_assoc]
    · rw [startsIn_append, hstarts, hcalled, List.filter_append]

end Answers

/-- **Starting an application is answered**, while others wait for it that depend on it. -/
theorem answers_startWithin (graph : apps.Graph deps starts) {starting : List String} {name : String}
    (hmem : name ∈ apps.catalogue)
    (hwaiting : ∀ a ∈ starting, TransGen (Depends deps) a name) (bound : Bool) {s : σ}
    (hsettled : Settled deps (apps.started.get s)) :
    apps.Answers deps starts [name] (apps.started.get s)
      (apps.startWithin starting name bound s) := by
  -- by induction on how many modules are left
  induction hn : (apps.remaining starting).length using Nat.strongRecOn
    generalizing starting name s with
  | ind n ih =>
    rw [startWithin_eq_startLayer, startLayer_apply]
    split_ifs with hstarted hstarting
    · obtain ⟨order, htours, hsub⟩ := hsettled name hstarted
      refine ⟨fun _ ↦ ⟨order, htours, ?_⟩, nofun⟩
      rw [fresh_eq_nil hsub]
      exact ⟨(List.append_nil _).symm, rfl⟩
    · refine ⟨nofun, fun failure hfailure ↦ ?_⟩
      cases hfailure
      exact ⟨hsettled, name, rfl, hwaiting name hstarting, name, List.mem_singleton_self name, .refl⟩
    · obtain ⟨app, hload, hkeeps, hfits⟩ := graph.exists_loadOrFail hmem bound s
      refine .andThen_of_keeps hload hkeeps ?_
      rw [← hkeeps.started] at hsettled hstarted
      refine .visit hfits hstarted ?_
      rw [hfits.dependencies]
      refine .each (fun dependency hdependency s' hsettled' ↦ ?_) hsettled
      have hless := length_remaining_lt hmem hstarting
      refine ih _ (hn ▸ hless) (graph.closed name hmem dependency hdependency) (fun a ha ↦ ?_)
        hsettled' rfl
      rcases List.mem_append.1 ha with ha | ha
      · exact (hwaiting a ha).tail hdependency
      · obtain rfl := List.mem_singleton.1 ha
        exact .single hdependency

/-- Calls leave things settled. -/
theorem Reached.settled (graph : apps.Graph deps starts) {s : σ} (h : apps.Reached s) :
    Settled deps (apps.started.get s) := by
  induction h with
  | fresh hnone =>
    rw [hnone]
    exact fun _ h ↦ nomatch h
  | other _ heq ih => rwa [heq]
  | @call s name bound _ ih =>
    by_cases hmem : name ∈ apps.catalogue
    · have hanswers := answers_startWithin graph hmem (List.forall_mem_nil _) bound ih
      exact hanswers.settled ih
    · rwa [state_start_of_not_mem hmem]

/-- **Starting an application starts what it depends on.** In every state that calls can lead to, the
call of `start` for a module of the graph returns if and only if no cycle of dependencies can be
reached from the module.

If so, let `order` be the tour of the module, depth first and in post-order, and `new` what is fresh
on it: then `new` is put behind what was started before, it holds exactly what can be reached from
the module and was not started, each once, and the start functions that are called are those of
`new`, in this order. Otherwise the failure names a module on a cycle. The recursion is at most one
layer deeper than there are modules. -/
theorem start_closes_dependencies (graph : apps.Graph deps starts) {s : σ} (hs : apps.Reached s)
    {name : String} (hmem : name ∈ apps.catalogue) (bound : Bool) :
    ((apps.start name bound s).result = .ok () ↔ ¬Cyclic deps name) ∧
    (¬Cyclic deps name → ∃ order new, (∀ order', Tours deps [name] order' ↔ order' = order) ∧
      new = fresh (apps.started.get s) order ∧
      apps.started.get (apps.start name bound s).state = apps.started.get s ++ new ∧
      new.Nodup ∧
      (∀ a, a ∈ new ↔ ReflTransGen (Depends deps) name a ∧ a ∉ apps.started.get s) ∧
      startsIn (apps.start name bound s).effects = new.filter starts) ∧
    (Cyclic deps name → ∃ app, (apps.start name bound s).result =
        .error (failed app "circular application dependency") ∧
      TransGen (Depends deps) app app ∧ ReflTransGen (Depends deps) name app) ∧
    (∀ below n, apps.catalogue.length < n →
      (apps.startLayer^[n] below) [] name = apps.start name) := by
  have hanswers : apps.Answers deps starts [name] (apps.started.get s) (apps.start name bound s) :=
    answers_startWithin graph hmem (List.forall_mem_nil _) bound (hs.settled graph)
  have hok : (apps.start name bound s).result = .ok () → ¬Cyclic deps name := by
    intro hok
    obtain ⟨order, htours, -⟩ := hanswers.of_ok hok
    exact htours.not_cyclic name (List.mem_singleton_self name)
  have herror : ∀ failure, (apps.start name bound s).result = .error failure → ∃ app,
      failure = circular app ∧ TransGen (Depends deps) app app ∧
        ReflTransGen (Depends deps) name app := by
    intro failure hfailure
    obtain ⟨-, app, happ, hcycle, other, hother, hreach⟩ := hanswers.of_error failure hfailure
    obtain rfl := List.mem_singleton.1 hother
    exact ⟨app, happ, hcycle, hreach⟩
  have hiff : (apps.start name bound s).result = .ok () ↔ ¬Cyclic deps name := by
    refine ⟨hok, fun hacyclic ↦ ?_⟩
    rcases hresult : (apps.start name bound s).result with failure | ⟨⟩
    · obtain ⟨app, -, hcycle, hreach⟩ := herror failure hresult
      exact absurd ⟨app, hreach, hcycle⟩ hacyclic
    · rfl
  refine ⟨hiff, fun hacyclic ↦ ?_, fun hcyclic ↦ ?_, fun below n hn ↦ ?_⟩
  · obtain ⟨order, htours, hstarted, hstarts⟩ := hanswers.of_ok (hiff.2 hacyclic)
    have horder : ∀ order', Tours deps [name] order' ↔ order' = order :=
      fun order' ↦ ⟨fun h ↦ h.unique htours, fun h ↦ h ▸ htours⟩
    refine ⟨order, _, horder, rfl, hstarted, nodup_fresh _ order, fun a ↦ ?_, hstarts⟩
    rw [mem_fresh, htours.mem_iff]
    simp
  · rcases hresult : (apps.start name bound s).result with failure | ⟨⟩
    · obtain ⟨app, rfl, hcycle, hreach⟩ := herror failure hresult
      exact ⟨app, rfl, hcycle, hreach⟩
    · exact absurd hcyclic (hok hresult)
  · refine iterate_startLayer apps below ?_ name
    exact Nat.lt_of_le_of_lt (List.length_filter_le _ _) hn

/-! ### A graph of five modules -/

/-- Two modules share a third one, and two others depend on each other. -/
def siteDependencies : String → List String
  | "web" => ["store", "log"]
  | "store" => ["log"]
  | "users" => ["mail"]
  | "mail" => ["users"]
  | _ => []

/-- Modules that remember nothing but what is started. The store has no start function. -/
def site : Applications (List String) where
  started := ⟨fun s ↦ s, fun started _ ↦ started, fun _ _ ↦ rfl, fun _ ↦ rfl, fun _ _ _ ↦ rfl⟩
  catalogue := ["web", "store", "log", "users", "mail"]
  load name := pure {
    dependencies := siteDependencies name
    start := if name = "store" then none else some (pure ()) }

theorem graph_site : site.Graph siteDependencies (· ≠ "store") where
  closed := by decide
  load name _ bound s := by
    refine ⟨_, rfl, ⟨rfl, rfl⟩, rfl, ?_, fun start hstart bound s ↦ ?_⟩
    · by_cases h : name = "store" <;> simp [h]
    · obtain ⟨-, rfl⟩ : name ≠ "store" ∧ pure () = start := by
        simpa using hstart
      exact ⟨rfl, rfl, rfl⟩

/-- After the log, the rest of what the web depends on is started. The users cannot be. -/
theorem start_web_after_log : ∃ s, site.Reached s ∧ s = ["log"] ∧
    (site.start "web" true s).result = .ok () ∧
    (site.start "web" true s).state = ["log", "store", "web"] ∧
    startsIn (site.start "web" true s).effects = ["web"] ∧
    ∃ app, (site.start "users" true s).result =
      .error (failed app "circular application dependency") := by
  have hreached : site.Reached ["log"] := by
    have hlog : (site.start "log" true []).state = ["log"] := by decide +kernel
    have hcall : site.Reached (site.start "log" true []).state := .call "log" true (.fresh rfl)
    rwa [hlog] at hcall
  have hlog : Tours siteDependencies ["log"] ([] ++ ["log"]) := .singleton .nil
  have hstore : Tours siteDependencies ["store"] (["log"] ++ ["store"]) := .singleton hlog
  have htours : Tours siteDependencies ["web"] (["log", "store"] ++ ["log"] ++ ["web"]) :=
    .singleton (hstore.append hlog)
  have hcyclic : Cyclic siteDependencies "users" :=
    ⟨"users", .refl, .head (List.mem_singleton_self "mail") (.single (List.mem_singleton_self _))⟩
  obtain ⟨hok, hstarts, -, -⟩ := start_closes_dependencies graph_site hreached
    (show "web" ∈ site.catalogue by decide) true
  obtain ⟨-, -, hfails, -⟩ := start_closes_dependencies graph_site hreached
    (show "users" ∈ site.catalogue by decide) true
  have hacyclic := htours.not_cyclic "web" (List.mem_singleton_self _)
  obtain ⟨order, new, horder, rfl, hstate, -, -, hcalled⟩ := hstarts hacyclic
  obtain rfl := (horder _).1 htours
  obtain ⟨app, hfailed, -, -⟩ := hfails hcyclic
  exact ⟨["log"], hreached, rfl, hok.2 hacyclic, hstate, hcalled, app, hfailed⟩

end Host.Applications

end Launcher
