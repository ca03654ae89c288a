import Launcher.Proofs.Argv.Shape
import Launcher.Proofs.SearchPath.Additions
import Mathlib.Data.List.Basic

/-!
# Reading in compiler mode

The compiler mode is not left again. Unless an item stops the reading or asks for the version, it goes
on to the end of the command line, and then the sources become one command (`parseNamed_compiler`). What
the items make of the plan can be said field by field, each with the items of one kind
(`withItems`): bare tokens are sources, options of every mode add commands and end the process or
not, unknown tokens are errors, and the flags of the mode set how the sources are compiled.

So items of different kinds may change places. Two readings with the same items of each kind
(`SameButForPosition`) differ at most in the list of the settings, and there in the order and in
repetitions only (`SameButForPosition.mem_settings`).
-/

namespace Launcher.Argv

variable {s : Surroundings} {mode mode' : Mode} {plan plan' : Plan} {item : Item}
  {items first second : List Item}

/-! ### To the end of the command line -/

/-- None of the items stops the reading or asks for the version. -/
def ReadOn (items : List Item) : Prop := ∀ item ∈ items, item ≠ .stop ∧ item.isVersion = false

/-- The compiler mode is not left. -/
theorem Passes.compiler (h : Passes s mode plan items mode' plan') (hmode : mode = .compiler) :
    mode' = .compiler ∧ plan' = items.foldl (fun plan item ↦ item.plan s .compiler plan) plan ∧
      ∀ item ∈ items, item.In .compiler := by
  induction h with
  | nil => exact ⟨hmode, rfl, nofun⟩
  | @cons mode mode' other plan plan' item items hitem hpace hpasses ih =>
    have hnext : other = .compiler := by
      rw [← Item.next_of_pace hpace]
      exact Decidable.not_not.1 fun hne ↦ hitem.ne_compiler hne hmode
    obtain ⟨hmode', hplan, hitems⟩ := ih hnext
    subst hmode
    exact ⟨hmode', hplan, List.forall_mem_cons.2 ⟨hitem, hitems⟩⟩

/-- In compiler mode only `--` and a request for the version are the last item. -/
theorem Item.In.of_last (hitem : item.In .compiler) (hlast : item.pace .compiler plan = .last) :
    item = .stop ∨ item.isVersion = true := by
  rcases Item.cases_of_last hlast with hstop | hversion | ⟨token, name, rfl⟩ | ⟨path, -, hmode⟩
  · exact .inl hstop
  · exact .inr hversion
  · exact absurd rfl (ne_compiler_of_script hitem.valuedFlag)
  · cases hmode

/-- **A reading in compiler mode goes on to the end of the command line.** -/
theorem readItems_compiler {tokens : List String} {path : SearchPath}
    (h : ReadOn (readItems s .compiler tokens plan path).items) :
    let r := readItems s .compiler tokens plan path
    r.ending = .finished [] ∧ (∀ item ∈ r.items, item.In .compiler) ∧
      r.plan = Mode.close .compiler
        (r.items.foldl (fun plan item ↦ item.plan s .compiler plan) plan) := by
  obtain ⟨items, mode', plan', hpasses, hends⟩ := exists_passes s .compiler tokens plan path
  obtain ⟨rfl, hplan', hin⟩ := hpasses.compiler rfl
  generalize readItems s .compiler tokens plan path = r at h hends
  cases hends with
  | exhausted hitems hrest hplan =>
    have hversion : r.items.any Item.isVersion = false :=
      List.any_eq_false.2 fun item hitem ↦ Bool.eq_false_iff.1 (h item hitem).2
    refine ⟨?_, hitems ▸ hin, hplan.trans (by rw [hplan', hitems])⟩
    rw [Reading.ending, hversion, hrest]
    rfl
  | left hmode => cases hmode
  | last item hitem hlast hitems hplan =>
    have hmem : item ∈ r.items := hitems ▸ List.mem_append_right _ (List.mem_singleton_self _)
    rcases hitem.of_last hlast with hstop | hversion
    · exact absurd hstop (h item hmem).1
    · exact absurd hversion (Bool.eq_false_iff.1 (h item hmem).2)

/-! ### The kinds of items -/

/-- The bare token that an item is. -/
def Item.bare? : Item → Option String
  | bare token => some token
  | _ => none

/-- Whether an item is an option of every mode, or a token that looks like an option and is none. -/
def Item.isGeneral : Item → Bool
  | bareOption _ _ => true
  | valuedOption _ _ _ => true
  | unknown _ => true
  | _ => false

/-- The directory for compiled files that an item sets. -/
def Item.output? : Item → Option String
  | valuedFlag _ .output directory => some directory
  | _ => none

/-- Whether an item keeps the process alive. -/
def Item.isNoHalt : Item → Bool
  | bareOption _ .noHalt => true
  | _ => false

/-- Whether an item asks to announce every compiled file. -/
def Item.isVerbose : Item → Bool
  | bareFlag _ .verbose => true
  | _ => false

/-- What items that are read in compiler mode make of a plan. -/
def withItems (s : Surroundings) (plan : Plan) (items : List Item) : Plan where
  output := (items.filterMap Item.output?).getLast?.getD plan.output
  commands := plan.commands ++ items.filterMap (Item.command? .compiler)
  sources := plan.sources ++ (items.filterMap Item.bare?).map s.sourcePattern
  halt := plan.halt && !items.any Item.isNoHalt
  compilerOptions := plan.compilerOptions ++ items.filterMap Item.setting?
  errors := plan.errors ++ items.filterMap Item.error?
  verbose := plan.verbose || items.any Item.isVerbose

theorem Item.source?_compiler (s : Surroundings) (item : Item) :
    item.source? s .compiler = item.bare?.map s.sourcePattern := by
  cases item with
  | bare token =>
    show (if s.isDirectory token then some _ else some token) = some (s.sourcePattern token)
    rw [Surroundings.sourcePattern]
    split <;> rfl
  | _ => rfl

theorem Item.output_plan (item : Item) :
    (item.plan s .compiler plan).output = item.output?.getD plan.output := by
  cases item with
  | valuedFlag token flag value => cases flag <;> rfl
  | _ => rfl

theorem Item.halt_plan (item : Item) :
    (item.plan s .compiler plan).halt = (plan.halt && !item.isNoHalt) := by
  cases item with
  | bareOption token option =>
    cases option with
    | noHalt => exact (Bool.and_false _).symm
    | ignored => exact (Bool.and_true _).symm
  | _ => exact (Bool.and_true _).symm

theorem Item.verbose_plan (item : Item) :
    (item.plan s .compiler plan).verbose = (plan.verbose || item.isVerbose) := by
  cases item with
  | bareFlag token flag =>
    cases flag with
    | verbose => exact (Bool.or_true _).symm
    | _ => exact (Bool.or_false _).symm
  | _ => exact (Bool.or_false _).symm

/-- **One more item in front.** -/
theorem withItems_cons (s : Surroundings) (plan : Plan) (item : Item) (items : List Item) :
    withItems s plan (item :: items) = withItems s (item.plan s .compiler plan) items := by
  have hmore : ∀ {α : Type} (f : Item → Option α) (before : List α),
      before ++ (item :: items).filterMap f = (before ++ (f item).toList) ++ items.filterMap f := by
    intro α f before
    rw [List.filterMap_eq_flatMap_toList, List.flatMap_cons, ← List.append_assoc,
      ← List.filterMap_eq_flatMap_toList]
  have hsources : plan.sources ++ ((item :: items).filterMap Item.bare?).map s.sourcePattern =
      (item.plan s .compiler plan).sources ++ (items.filterMap Item.bare?).map s.sourcePattern := by
    have hplan : (item.plan s .compiler plan).sources =
        plan.sources ++ (item.bare?.map s.sourcePattern).toList := by
      rw [← Item.source?_compiler]
      rfl
    rw [hplan, List.append_assoc, List.filterMap_cons]
    cases item.bare? <;> rfl
  have houtput : (((item :: items).filterMap Item.output?).getLast?).getD plan.output =
      (items.filterMap Item.output?).getLast?.getD (item.plan s .compiler plan).output := by
    rw [Item.output_plan, List.filterMap_cons]
    cases item.output? with
    | none => rfl
    | some directory => exact congrArg (·.getD plan.output) List.getLast?_cons
  rw [withItems, withItems, hmore, hmore, hmore, hsources, houtput, Item.halt_plan,
    Item.verbose_plan, List.any_cons, List.any_cons, Bool.not_or, ← Bool.and_assoc, ← Bool.or_assoc]
  rfl

/-- **What the items of a reading make of the plan**, in compiler mode. -/
theorem foldl_plan_eq_withItems (s : Surroundings) (plan : Plan) (items : List Item) :
    items.foldl (fun plan item ↦ item.plan s .compiler plan) plan = withItems s plan items := by
  induction items generalizing plan with
  | nil => simp [withItems]
  | cons item items ih => rw [List.foldl_cons, ih, withItems_cons]

/-- **Reading to the end in compiler mode** hands nothing back. The items make their plan, whose sources
become one command, and they add their directories to the search path. -/
theorem parseNamed_compiler {argv : List String} {path : SearchPath}
    (h : ReadOn (readItems s .compiler argv plan path).items) :
    let items := (readItems s .compiler argv plan path).items
    ∃ p, parseNamed s "compiler" argv plan path = .ok (.finished [], p) ∧
      p.plan = (withItems s plan items).addCommand (.compile (withItems s plan items).sources) ∧
      p.path = path.addAll (items.flatMap (Item.directories s)) ∧
      ∀ item ∈ items, item.In .compiler := by
  intro items
  obtain ⟨hending, hplan, hpath⟩ := read_agrees s .compiler argv { plan, path }
  obtain ⟨hfinished, hin, hclosed⟩ := readItems_compiler h
  refine ⟨(read s .compiler argv { plan, path }).2, ?_, ?_, ?_, hin⟩
  · rw [← hfinished, ← hending]
    exact parseNamed_name s .compiler argv plan path
  · rw [hplan, hclosed, foldl_plan_eq_withItems]
    rfl
  · rw [hpath, SearchPath.path_readItems]

/-! ### Items of different kinds change places -/

/-- Two lists hold the same bare tokens, and the same options of every mode and unknown tokens, in the
same order. Of the flags of the compiler mode they hold the same, in any order and any number, and the
directory that they set last is the same. -/
structure SameButForPosition (first second : List Item) : Prop where
  bare : first.filterMap Item.bare? = second.filterMap Item.bare?
  general : first.filter Item.isGeneral = second.filter Item.isGeneral
  output : (first.filterMap Item.output?).getLast? = (second.filterMap Item.output?).getLast?
  flags : ∀ token flag, .bareFlag token flag ∈ first ↔ .bareFlag token flag ∈ second

/-- What only the general items have can be read off these. -/
theorem filterMap_filter_isGeneral {α : Type} {f : Item → Option α}
    (h : ∀ item ∈ items, item.isGeneral = false → f item = none) :
    (items.filter Item.isGeneral).filterMap f = items.filterMap f := by
  rw [List.filterMap_filter]
  refine List.filterMap_congr fun item hitem ↦ ?_
  cases hgeneral : item.isGeneral with
  | true => exact if_pos rfl
  | false => exact (h item hitem hgeneral).symm

/-- No command comes from an item that is not general, in compiler mode. -/
theorem Item.In.command?_eq_none (hitem : item.In .compiler) (h : item.isGeneral = false) :
    item.command? .compiler = none := by
  cases item with
  | valuedFlag token flag value =>
    cases flag with
    | script => exact absurd rfl (ne_compiler_of_script hitem.valuedFlag)
    | _ => rfl
  | valuedOption token option value => cases h
  | _ => rfl

namespace SameButForPosition

theorem commands_eq (h : SameButForPosition first second) (hfirst : ∀ item ∈ first, item.In .compiler)
    (hsecond : ∀ item ∈ second, item.In .compiler) :
    first.filterMap (Item.command? .compiler) = second.filterMap (Item.command? .compiler) := by
  rw [← filterMap_filter_isGeneral fun item hitem ↦ (hfirst item hitem).command?_eq_none, h.general,
    filterMap_filter_isGeneral fun item hitem ↦ (hsecond item hitem).command?_eq_none]

theorem errors_eq (h : SameButForPosition first second) :
    first.filterMap Item.error? = second.filterMap Item.error? := by
  have hnone : ∀ item : Item, item.isGeneral = false → item.error? = none := by
    intro item hgeneral
    cases item with
    | unknown token => cases hgeneral
    | _ => rfl
  rw [← filterMap_filter_isGeneral fun item _ ↦ hnone item, h.general,
    filterMap_filter_isGeneral fun item _ ↦ hnone item]

theorem any_isNoHalt_eq (h : SameButForPosition first second) :
    first.any Item.isNoHalt = second.any Item.isNoHalt := by
  have hgeneral : ∀ items : List Item,
      (items.filter Item.isGeneral).any Item.isNoHalt = items.any Item.isNoHalt := by
    intro items
    rw [List.any_filter]
    refine congrArg items.any (funext fun item ↦ ?_)
    cases item <;> rfl
  rw [← hgeneral first, h.general, hgeneral]

theorem any_isVerbose_eq (h : SameButForPosition first second) :
    first.any Item.isVerbose = second.any Item.isVerbose := by
  have hmem : ∀ items : List Item,
      items.any Item.isVerbose = true ↔ ∃ token, .bareFlag token .verbose ∈ items := by
    intro items
    rw [List.any_eq_true]
    constructor
    · rintro ⟨item, hitem, hverbose⟩
      cases item with
      | bareFlag token flag => cases flag with
        | verbose => exact ⟨token, hitem⟩
        | _ => cases hverbose
      | _ => cases hverbose
    · rintro ⟨token, hitem⟩
      exact ⟨_, hitem, rfl⟩
  rw [Bool.eq_iff_iff, hmem, hmem]
  exact exists_congr fun token ↦ h.flags token .verbose

/-- The same settings are given, in any order and any number. -/
theorem mem_settings (h : SameButForPosition first second) (setting : String × Bool) :
    setting ∈ first.filterMap Item.setting? ↔ setting ∈ second.filterMap Item.setting? := by
  have hmem : ∀ items : List Item, setting ∈ items.filterMap Item.setting? ↔
      ∃ token, .bareFlag token (.compilerOption setting.1 setting.2) ∈ items := by
    intro items
    rw [List.mem_filterMap]
    constructor
    · rintro ⟨item, hitem, hsetting⟩
      cases item with
      | bareFlag token flag => cases flag with
        | compilerOption key value =>
          cases hsetting
          exact ⟨token, hitem⟩
        | _ => cases hsetting
      | _ => cases hsetting
    · rintro ⟨token, hitem⟩
      exact ⟨_, hitem, rfl⟩
  rw [hmem, hmem]
  exact exists_congr fun token ↦ h.flags token _

/-- The same directories are added to the search path, in the same order. -/
theorem directories_eq (h : SameButForPosition first second) (s : Surroundings) :
    first.flatMap (Item.directories s) = second.flatMap (Item.directories s) := by
  have hgeneral : ∀ items : List Item,
      (items.filter Item.isGeneral).flatMap (Item.directories s) =
        items.flatMap (Item.directories s) := by
    intro items
    induction items with
    | nil => rfl
    | cons item items ih =>
      rw [List.flatMap_cons, ← ih]
      cases item <;> rfl
  rw [← hgeneral first, h.general, hgeneral]

end SameButForPosition

/-- The value that a flag of the compiler mode gives to a setting. -/
def settingValue (key : String) : Bool := key ≠ "docs" && key ≠ "debug_info"

/-- The flags of the compiler mode give each setting one value. -/
theorem Item.In.setting_eq {key : String} {value : Bool} (hitem : item.In .compiler)
    (h : item.setting? = some (key, value)) : value = settingValue key := by
  cases item with
  | bareFlag token flag => cases flag with
    | compilerOption other otherValue =>
      cases h
      have hflag := hitem.bareFlag
      simp only [Mode.flag?] at hflag
      split at hflag <;> cases hflag <;> decide
    | _ => cases h
  | _ => cases h

end Launcher.Argv
