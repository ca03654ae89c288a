import Launcher.Proofs.Argv.Item

/-!
# Batches are read item by item

Whatever looks like an option is read by way of a batch of shared options, which looks neither at
the flags of the mode nor at `--`. That makes no difference: a shared option is no flag of any mode
(`flag?_eq_none_of_shared`), so where a batch goes on, the reading in the mode would have gone on in
the same way (`read_eq_after_shared`).

The main statement compares the reading of a command line with the reading item by item; that both
come to the same is `read_agrees`.
-/

namespace Launcher.Argv

/-! ### The tables have nothing in common -/

theorem flag?_eq_none_of_shared {head : String} {option : SharedOption}
    (h : SharedOption.ofToken? head = some option) (mode : Mode) : mode.flag? head = none := by
  unfold SharedOption.ofToken? at h
  split at h
  case h_17 => cases h
  all_goals cases mode <;> rfl

theorem isFlag_of_shared {head : String} {option : SharedOption}
    (h : SharedOption.ofToken? head = some option) : isFlag head = true := by
  unfold SharedOption.ofToken? at h
  split at h
  case h_17 => cases h
  all_goals rfl

theorem ne_stopToken_of_shared {head : String} {option : SharedOption}
    (h : SharedOption.ofToken? head = some option) : head ≠ stopToken := by
  rintro rfl
  cases h

/-! ### Batches -/

section Shared

variable {s : Surroundings} {head value : String} {rest : List String} {p : Progress}

theorem shared_cons (s : Surroundings) (head : String) (rest : List String) (p : Progress) :
    shared s (head :: rest) p = match SharedOption.ofToken? head, rest with
      | some .version, _ => (.versionRequested, p)
      | some (.bare option), rest => shared s rest (option.apply p)
      | some (.valued option), value :: rest => shared s rest (option.apply s value p)
      | some (.valued _), [] => (.finished [head], p)
      | none, rest => (.finished (head :: rest), p) :=
  shared.eq_def s (head :: rest) p

theorem shared_of_none (h : SharedOption.ofToken? head = none) :
    shared s (head :: rest) p = (.finished (head :: rest), p) := by
  rw [shared_cons, h]

theorem shared_of_version (h : SharedOption.ofToken? head = some .version) :
    shared s (head :: rest) p = (.versionRequested, p) := by
  rw [shared_cons, h]

theorem shared_of_bare {option : SharedBare}
    (h : SharedOption.ofToken? head = some (.bare option)) :
    shared s (head :: rest) p = shared s rest (option.apply p) := by
  rw [shared_cons, h]

theorem shared_of_valued {option : SharedValued}
    (h : SharedOption.ofToken? head = some (.valued option)) :
    shared s (head :: value :: rest) p = shared s rest (option.apply s value p) := by
  rw [shared_cons, h]

theorem shared_of_dangling {option : SharedValued}
    (h : SharedOption.ofToken? head = some (.valued option)) :
    shared s [head] p = (.finished [head], p) := by
  rw [shared_cons, h]

end Shared

theorem length_le_of_shared {s : Surroundings} {tokens left : List String} {p q : Progress}
    (h : shared s tokens p = (.finished left, q)) : left.length ≤ tokens.length := by
  fun_induction shared s tokens p with
  | case1 => cases h; exact Nat.le_refl _
  | case2 => cases h
  | case3 p head rest option ho ih =>
    have := ih h
    rw [List.length_cons]
    omega
  | case4 p head option value rest ho ih =>
    have := ih h
    rw [List.length_cons, List.length_cons]
    omega
  | case5 => cases h; exact Nat.le_refl _
  | case6 => cases h; exact Nat.le_refl _

section Read

variable {s : Surroundings} {mode mode' : Mode} {head : String} {rest rest' : List String}
  {p q : Progress}

theorem read_of_step_stop {ending : Ending} (h : step s mode head rest p = .stop ending q) :
    read s mode (head :: rest) p = (ending, q) := by
  rw [read]
  split
  · next h' => cases h.symm.trans h'; rfl
  · next h' => cases h.symm.trans h'

theorem read_of_step_next (h : step s mode head rest p = .next mode' rest' q) :
    read s mode (head :: rest) p = read s mode' rest' q := by
  rw [read]
  split
  · next h' => cases h.symm.trans h'
  · next h' => cases h.symm.trans h'; rfl

theorem step_of_no_flag (hstop : head ≠ stopToken) (hflag : mode.flag? head = none) :
    step s mode head rest p = otherStep s mode head rest p := by
  rw [step, if_neg hstop, hflag]

end Read

/-- What the reading comes to behind a batch. -/
def readAfter (s : Surroundings) (mode : Mode) : Ending × Progress → Ending × Progress
  | (.finished left, q) => read s mode left q
  | (.versionRequested, q) => (.versionRequested, q)

theorem read_eq_after_taken {s : Surroundings} {mode : Mode} {head : String} {rest : List String}
    {p : Progress} {option : SharedOption} (ho : SharedOption.ofToken? head = some option)
    (hlt : ∀ left q, shared s (head :: rest) p = (.finished left, q) → left.length ≤ rest.length) :
    read s mode (head :: rest) p = readAfter s mode (shared s (head :: rest) p) := by
  have hstep : step s mode head rest p = optionStep s mode head rest p := by
    rw [step_of_no_flag (ne_stopToken_of_shared ho) (flag?_eq_none_of_shared ho mode), otherStep,
      if_pos (isFlag_of_shared ho)]
  rcases h : shared s (head :: rest) p with ⟨left | -, q⟩
  · have hlen : left.length < rest.length + 1 := Nat.lt_succ_of_le (hlt left q h)
    refine read_of_step_next ?_
    rw [hstep, optionStep, h]
    exact if_pos hlen
  · refine read_of_step_stop ?_
    rw [hstep, optionStep, h]

/-- **Where a batch goes on, the reading goes on in the same way.** -/
theorem read_eq_after_shared (s : Surroundings) (mode : Mode) (tokens : List String)
    (p : Progress) : read s mode tokens p = readAfter s mode (shared s tokens p) := by
  rcases tokens with - | ⟨head, rest⟩
  · rfl
  · rcases ho : SharedOption.ofToken? head with - | (- | option | option)
    · rw [shared_of_none ho]
      rfl
    · refine read_eq_after_taken ho fun left q h ↦ ?_
      rw [shared_of_version ho] at h
      cases h
    · refine read_eq_after_taken ho fun left q h ↦ ?_
      rw [shared_of_bare ho] at h
      exact length_le_of_shared h
    · rcases rest with - | ⟨value, rest⟩
      · rw [shared_of_dangling ho]
        rfl
      · refine read_eq_after_taken ho fun left q h ↦ ?_
        rw [shared_of_valued ho] at h
        exact Nat.le_succ_of_le (length_le_of_shared h)

/-! ### What each item does -/

/-- `q` is `p` with the effect of an item. -/
structure Item.Effect (s : Surroundings) (mode : Mode) (item : Item) (p q : Progress) : Prop where
  plan : q.plan = item.plan s mode p.plan
  path : q.path = item.path s p.path

section Effect

variable (s : Surroundings) (mode : Mode) (token value : String) (p : Progress)

theorem effect_stop : Item.stop.Effect s mode p p where
  plan := (Item.plan_stop s mode p.plan).symm
  path := rfl

theorem effect_version : (Item.version token).Effect s mode p p where
  plan := (Item.plan_stop s mode p.plan).symm
  path := rfl

theorem effect_bareFlag (flag : BareFlag) :
    (Item.bareFlag token flag).Effect s mode p (flag.apply p) := by
  cases flag <;> refine ⟨?_, rfl⟩ <;>
    simp [Item.plan, Item.command?, Item.source?, Item.setting?, Item.error?, BareFlag.apply,
      Progress.note, Progress.mapPlan, Plan.addOption]

theorem effect_valuedFlag (flag : ValuedFlag) :
    (Item.valuedFlag token flag value).Effect s mode p (flag.apply value p) := by
  cases flag <;> refine ⟨?_, rfl⟩ <;>
    simp [Item.plan, Item.command?, Item.source?, Item.setting?, Item.error?, ValuedFlag.apply,
      Progress.addCommand, Progress.mapPlan, Plan.addCommand]

theorem effect_bareOption (option : SharedBare) :
    (Item.bareOption token option).Effect s mode p (option.apply p) := by
  cases option <;> refine ⟨?_, rfl⟩ <;>
    simp [Item.plan, Item.command?, Item.source?, Item.setting?, Item.error?, SharedBare.apply,
      Progress.mapPlan]

theorem effect_unknown : (Item.unknown token).Effect s mode p (p.unknown token) where
  plan := by
    simp [Item.plan, Item.command?, Item.source?, Item.setting?, Item.error?, Progress.unknown,
      Progress.note, Progress.mapPlan, Plan.addError]
  path := rfl

@[simp]
theorem plan_foldl_addPath (e : SearchPath.End) (directories : List String) (p : Progress) :
    (directories.foldl (Progress.addPath e) p).plan = p.plan := by
  induction directories generalizing p with
  | nil => rfl
  | cons directory directories ih => exact ih (p.addPath e directory)

theorem path_foldl_addPath (e : SearchPath.End) (directories : List String) (p : Progress) :
    (directories.foldl (Progress.addPath e) p).path =
      (directories.map (e, ·)).foldl (fun path entry ↦ path.add entry.1 entry.2) p.path := by
  induction directories generalizing p with
  | nil => rfl
  | cons directory directories ih => exact ih (p.addPath e directory)

theorem effect_valuedOption (option : SharedValued) :
    (Item.valuedOption token option value).Effect s mode p (option.apply s value p) := by
  cases option with
  | path e =>
    refine ⟨?_, path_foldl_addPath e (s.directories value) p⟩
    simp [Item.plan, Item.command?, Item.source?, Item.setting?, Item.error?, SharedValued.apply]
  | _ =>
    refine ⟨?_, rfl⟩
    simp [Item.plan, Item.command?, Item.source?, Item.setting?, Item.error?, SharedValued.apply,
      Progress.addCommand, Progress.mapPlan, Plan.addCommand]

theorem effect_file (hmode : mode ≠ .compiler) :
    (Item.bare token).Effect s mode p (p.addCommand (.file token)) where
  plan := by
    simp [Item.plan, Item.command?, Item.source?, Item.setting?, Item.error?, hmode,
      Progress.addCommand, Progress.mapPlan, Plan.addCommand]
  path := rfl

theorem effect_source :
    (Item.bare token).Effect s .compiler p
      (p.mapPlan (·.addSource (s.sourcePattern token))) where
  plan := by
    by_cases hd : s.isDirectory token <;>
      simp [Item.plan, Item.command?, Item.source?, Item.setting?, Item.error?, hd,
        Progress.mapPlan, Plan.addSource, Surroundings.sourcePattern]
  path := rfl

end Effect

/-! ### The first item decides -/

section First

variable {s : Surroundings} {mode : Mode} {head : String} {rest : List String} {p : Progress}

theorem step_eq_otherStep (hstop : ¬ head = stopToken)
    (hbare : ∀ flag, mode.flag? head = some (.bare flag) → False)
    (hvalued : ∀ flag value tail, mode.flag? head = some (.valued flag) →
      rest = value :: tail → False) :
    step s mode head rest p = otherStep s mode head rest p := by
  rw [step, if_neg hstop]
  rcases hf : mode.flag? head with - | (flag | flag)
  · rfl
  · exact (hbare flag hf).elim
  · rcases rest with - | ⟨value, tail⟩
    · rfl
    · exact (hvalued flag value tail hf rfl).elim

theorem shared_eq_self (hversion : SharedOption.ofToken? head = some .version → False)
    (hbare : ∀ option, SharedOption.ofToken? head = some (.bare option) → False)
    (hvalued : ∀ option value tail, SharedOption.ofToken? head = some (.valued option) →
      rest = value :: tail → False) :
    shared s (head :: rest) p = (.finished (head :: rest), p) := by
  rcases ho : SharedOption.ofToken? head with - | (- | option | option)
  · exact shared_of_none ho
  · exact (hversion ho).elim
  · exact (hbare option ho).elim
  · rcases rest with - | ⟨value, tail⟩
    · exact shared_of_dangling ho
    · exact (hvalued option value tail ho rfl).elim

/-- What the reading of `head :: rest` comes to if `item` stands in front. -/
def Item.Decides (s : Surroundings) (mode : Mode) (head : String) (rest : List String)
    (p : Progress) (item : Item) : Prop :=
  match item.pace mode p.plan with
  | .leave => read s mode (head :: rest) p = (.finished (head :: rest), p)
  | .last => ∃ q, item.Effect s mode p q ∧ read s mode (head :: rest) p =
      (if item.isVersion then .versionRequested else .finished (item.left rest), q)
  | .goOn next => ∃ q, item.Effect s mode p q ∧
      read s mode (head :: rest) p = read s next (item.left rest) q

theorem decides_bareFlag {flag : BareFlag} (hstop : ¬ head = stopToken)
    (hf : mode.flag? head = some (.bare flag)) :
    (Item.bareFlag head flag).Decides s mode head rest p := by
  have hread : read s mode (head :: rest) p = read s (flag.next mode) rest (flag.apply p) := by
    refine read_of_step_next ?_
    rw [step, if_neg hstop, hf]
  cases flag <;> exact ⟨_, effect_bareFlag s mode head p _, hread⟩

theorem decides_valuedFlag {flag : ValuedFlag} {value : String} (hstop : ¬ head = stopToken)
    (hf : mode.flag? head = some (.valued flag)) :
    (Item.valuedFlag head flag value).Decides s mode head (value :: rest) p := by
  have hstep : step s mode head (value :: rest) p =
      if flag.stops then .stop (.finished rest) (flag.apply value p)
      else .next mode rest (flag.apply value p) := by
    rw [step, if_neg hstop, hf]
  cases flag with
  | script => exact ⟨_, effect_valuedFlag s mode head value p _, read_of_step_stop hstep⟩
  | output => exact ⟨_, effect_valuedFlag s mode head value p _, read_of_step_next hstep⟩
  | ignored => exact ⟨_, effect_valuedFlag s mode head value p _, read_of_step_next hstep⟩

theorem decides_version (ho : SharedOption.ofToken? head = some .version) :
    (Item.version head).Decides s mode head rest p := by
  refine ⟨p, effect_version s mode head p, ?_⟩
  rw [read_eq_after_shared, shared_of_version ho]
  rfl

theorem decides_bareOption {option : SharedBare}
    (ho : SharedOption.ofToken? head = some (.bare option)) :
    (Item.bareOption head option).Decides s mode head rest p := by
  refine ⟨_, effect_bareOption s mode head p option, ?_⟩
  rw [read_eq_after_shared, shared_of_bare ho, ← read_eq_after_shared]
  rfl

theorem decides_valuedOption {option : SharedValued} {value : String}
    (ho : SharedOption.ofToken? head = some (.valued option)) :
    (Item.valuedOption head option value).Decides s mode head (value :: rest) p := by
  refine ⟨_, effect_valuedOption s mode head value p option, ?_⟩
  rw [read_eq_after_shared, shared_of_valued ho, ← read_eq_after_shared]
  rfl

theorem decides_unknown (hstep : step s mode head rest p = otherStep s mode head rest p)
    (hshared : shared s (head :: rest) p = (.finished (head :: rest), p))
    (hflag : isFlag head = true) : (Item.unknown head).Decides s mode head rest p := by
  refine ⟨_, effect_unknown s mode head p, read_of_step_next ?_⟩
  rw [hstep, otherStep, if_pos hflag, optionStep, hshared]
  exact if_neg (Nat.lt_irrefl _)

theorem decides_bare (hstep : step s mode head rest p = otherStep s mode head rest p)
    (hflag : ¬ isFlag head = true) : (Item.bare head).Decides s mode head rest p := by
  rw [otherStep, if_neg hflag, bareStep] at hstep
  cases mode with
  | top =>
    rcases heval : p.plan.hasEval with - | -
    · simp only [Mode.bare, heval] at hstep
      simp only [Item.Decides, Item.pace, heval]
      exact ⟨_, effect_file s .top head p (by simp), read_of_step_next hstep⟩
    · simp only [Mode.bare, heval] at hstep
      simp only [Item.Decides, Item.pace, heval]
      exact read_of_step_stop hstep
  | compiler => exact ⟨_, effect_source s head p, read_of_step_next hstep⟩
  | interactive => exact ⟨_, effect_file s .interactive head p (by simp), read_of_step_stop hstep⟩

/-- **The reading does what the first item says.** -/
theorem decides_first (s : Surroundings) (mode : Mode) (head : String) (rest : List String)
    (p : Progress) : (Item.first mode head rest).Decides s mode head rest p := by
  unfold Item.first
  split
  · next hstop =>
    refine ⟨p, effect_stop s mode p, read_of_step_stop ?_⟩
    rw [step, if_pos hstop]
    rfl
  · next hstop =>
    split
    · next hf => exact decides_bareFlag hstop hf
    · next hf => exact decides_valuedFlag hstop hf
    · next hbare hvalued =>
      have hstep := step_eq_otherStep (s := s) (p := p) hstop hbare hvalued
      split
      · next ho => exact decides_version ho
      · next ho => exact decides_bareOption ho
      · next ho => exact decides_valuedOption ho
      · next hversion hoption hvaluedOption =>
        have hshared := shared_eq_self (s := s) (p := p) hversion hoption hvaluedOption
        split
        · next hflag => exact decides_unknown hstep hshared hflag
        · next hflag => exact decides_bare hstep hflag

end First

/-- The plan at the end of all tokens. -/
theorem plan_finish (mode : Mode) (p : Progress) : (mode.finish p).plan = mode.close p.plan := by
  cases mode <;> rfl

theorem path_finish (mode : Mode) (p : Progress) : (mode.finish p).path = p.path := by
  cases mode <;> rfl

/-- **Reading with batches and reading item by item come to the same.** -/
theorem read_agrees (s : Surroundings) (mode : Mode) (tokens : List String) (p : Progress) :
    let r := readItems s mode tokens p.plan p.path
    (read s mode tokens p).1 = r.ending ∧ (read s mode tokens p).2.plan = r.plan ∧
      (read s mode tokens p).2.path = r.path := by
  generalize hplan : p.plan = plan
  generalize hpath : p.path = path
  fun_induction readItems s mode tokens plan path generalizing p with
  | case1 mode plan path =>
    subst hplan hpath
    rw [read]
    exact ⟨rfl, plan_finish mode p, path_finish mode p⟩
  | case2 mode plan path head rest item h =>
    subst hplan hpath
    have hd : item.Decides s mode head rest p := decides_first s mode head rest p
    rw [Item.Decides, h] at hd
    rw [show read s mode (head :: rest) p = _ from hd]
    exact ⟨rfl, rfl, rfl⟩
  | case3 mode plan path head rest item h =>
    subst hplan hpath
    have hd : item.Decides s mode head rest p := decides_first s mode head rest p
    rw [Item.Decides, h] at hd
    obtain ⟨q, heffect, hread⟩ := hd
    rw [hread]
    refine ⟨?_, heffect.plan, heffect.path⟩
    rw [Reading.ending, List.any_cons, List.any_nil, Bool.or_false]
  | case4 mode plan path head rest item next h ih =>
    subst hplan hpath
    have hd : item.Decides s mode head rest p := decides_first s mode head rest p
    rw [Item.Decides, h] at hd
    obtain ⟨q, heffect, hread⟩ := hd
    obtain ⟨hending, hplan, hpath⟩ := ih q heffect.plan heffect.path
    rw [hread]
    exact ⟨hending.trans (Reading.ending_cons (Item.isVersion_of_pace_goOn h) _).symm, hplan, hpath⟩

theorem ofName?_name (mode : Mode) : Mode.ofName? mode.name = some mode := by
  cases mode <;> rfl

/-- Naming a mode is reading in it. -/
theorem parseNamed_name (s : Surroundings) (mode : Mode) (tokens : List String) (plan : Plan)
    (path : SearchPath) :
    parseNamed s mode.name tokens plan path = .ok (read s mode tokens { plan, path }) := by
  rw [parseNamed, ofName?_name]

theorem versionReports_readItems (s : Surroundings) (mode : Mode) (tokens : List String)
    (plan : Plan) (path : SearchPath) :
    (readItems s mode tokens plan path).ending.versionReports =
      (readItems s mode tokens plan path).items.countP Item.isVersion := by
  rw [countP_isVersion_readItems]
  unfold Reading.ending
  split <;> rfl

theorem handBack_eq_ok_iff {r : Reading} {rest : List String} :
    r.ending.handBack = .ok rest ↔ r.ending ≠ .versionRequested ∧ rest = r.rest := by
  unfold Reading.ending
  split <;> simp [Ending.handBack, eq_comm]

theorem handBack_eq_error_iff {ending : Ending} {failure : Failure} :
    ending.handBack = .error failure ↔
      failure = { cause := .terminate 0 } ∧ ending = .versionRequested := by
  cases ending <;> simp [Ending.handBack, Status.success, eq_comm]

/-- **Reading a command line in a mode and reading it item by item agree**, on the plan, the search
path, the version reports and the tokens handed back. Each token in front of those belongs to one
item, each unknown item is one more error, and the only failure is the request to end the run with
success, exactly if the last item read asks for the version. -/
theorem parseNamed_agrees_with_items (s : Surroundings) (mode : Mode) (tokens : List String)
    (plan : Plan) (path : SearchPath) :
    let r := readItems s mode tokens plan path
    ∃ ending p, parseNamed s mode.name tokens plan path = .ok (ending, p) ∧
      p.plan = r.plan ∧ p.path = r.path ∧
      ending.versionReports = r.items.countP Item.isVersion ∧
      r.items.flatMap Item.tokens ++ r.rest = tokens ∧
      p.plan.errors = plan.errors ++ r.items.filterMap Item.error? ∧
      (∀ rest, ending.handBack = .ok rest ↔
        (¬ ∃ token, r.items.getLast? = some (.version token)) ∧ rest = r.rest) ∧
      (∀ failure, ending.handBack = .error failure ↔
        failure = { cause := .terminate 0 } ∧
          ∃ token, r.items.getLast? = some (.version token)) := by
  intro r
  rcases hread : read s mode tokens { plan, path } with ⟨ending, p⟩
  have hagree := read_agrees s mode tokens { plan, path }
  rw [hread] at hagree
  obtain ⟨(hending : ending = r.ending), hplan, hpath⟩ := hagree
  have hversion := ending_eq_versionRequested_iff s mode tokens plan path
  refine ⟨ending, p, ?_, hplan, hpath, ?_, tokens_readItems s mode tokens plan path, ?_, ?_, ?_⟩
  · rw [parseNamed_name, hread]
  · rw [hending]
    exact versionReports_readItems s mode tokens plan path
  · exact (congrArg Plan.errors hplan).trans (errors_readItems s mode tokens plan path)
  · intro rest
    rw [hending, ← hversion]
    exact handBack_eq_ok_iff
  · intro failure
    rw [hending, ← hversion]
    exact handBack_eq_error_iff

/-- A value is read as it is, and an option without its value is unknown. -/
example (s : Surroundings) (path : SearchPath) :
    (readItems s .top ["-e", "--", "+iex", "-S"] {} path).items =
      [.valuedOption "-e" .eval "--", .bareFlag "+iex" (.switch .interactive), .unknown "-S"] := by
  cbv

end Launcher.Argv
