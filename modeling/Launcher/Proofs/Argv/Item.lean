import Launcher.Argv.Parser

/-!
# Reading item by item

The reading of a command line, said a second time and without batches. An **item** is the least part
that is read at once: `--`, a flag of the mode or a shared option with its value if it takes one and
has one, or a single token. Which item comes first depends on the mode and the tokens alone
(`Item.first`), and each item has its effect on the plan (`Item.plan`) and on the search path
(`Item.path`).

`readItems` takes one item after another off the front. What it reads accounts for every token in
front of the rest (`tokens_readItems`) and for every error of the plan (`errors_readItems`), and a
request for the version can only be its last item (`ending_eq_versionRequested_iff`).
-/

namespace Launcher.Argv

/-- The least part of a command line that is read at once, with its tokens. -/
inductive Item
  /-- The token that ends the reading. -/
  | stop
  | bareFlag (token : String) (flag : BareFlag)
  | valuedFlag (token : String) (flag : ValuedFlag) (value : String)
  | version (token : String)
  | bareOption (token : String) (option : SharedBare)
  | valuedOption (token : String) (option : SharedValued) (value : String)
  /-- A token that looks like an option and is none. -/
  | unknown (token : String)
  | bare (token : String)
  deriving DecidableEq, Repr

namespace Item

/-- The tokens of an item, as they were given. -/
def tokens : Item → List String
  | stop => [stopToken]
  | bareFlag token _ => [token]
  | valuedFlag token _ value => [token, value]
  | version token => [token]
  | bareOption token _ => [token]
  | valuedOption token _ value => [token, value]
  | unknown token => [token]
  | bare token => [token]

/-- The item at the front of `head :: rest`. -/
def first (mode : Mode) (head : String) (rest : List String) : Item :=
  if head = stopToken then stop
  else match mode.flag? head, rest with
    | some (.bare flag), _ => bareFlag head flag
    | some (.valued flag), value :: _ => valuedFlag head flag value
    | _, _ => match SharedOption.ofToken? head, rest with
      | some .version, _ => version head
      | some (.bare option), _ => bareOption head option
      | some (.valued option), value :: _ => valuedOption head option value
      | _, _ => if isFlag head then unknown head else bare head

/-- What is left of `rest` behind an item that begins in front of it. -/
def left (item : Item) (rest : List String) : List String := rest.drop (item.tokens.length - 1)

/-- The error that an item is. -/
def error? : Item → Option String
  | unknown token => some (token ++ " : Unknown option")
  | _ => none

/-- Whether an item asks for the version. -/
def isVersion : Item → Bool
  | version _ => true
  | _ => false

/-- The command that an item adds to the plan in a mode. -/
def command? (mode : Mode) : Item → Option Command
  | valuedFlag _ .script name => some (.script name)
  | valuedOption _ .app name => some (.app name)
  | valuedOption _ .eval expression => some (.eval expression)
  | valuedOption _ .require pattern => some (.require pattern)
  | valuedOption _ .parallelRequire pattern => some (.parallelRequire pattern)
  | bare path => if mode = .compiler then none else some (.file path)
  | _ => none

/-- The pattern of sources that an item adds to the plan in a mode: in compiler mode a directory
stands for all sources below it, and any other bare token for itself. -/
def source? (s : Surroundings) (mode : Mode) : Item → Option String
  | bare token =>
    if mode ≠ .compiler then none
    else if s.isDirectory token then some (token ++ "/**/*" ++ s.suffix)
    else some token
  | _ => none

/-- The setting of the compiler that an item adds to the plan. -/
def setting? : Item → Option (String × Bool)
  | bareFlag _ (.compilerOption key value) => some (key, value)
  | _ => none

/-- The plan with the effect of an item in a mode. -/
def plan (s : Surroundings) (mode : Mode) (item : Item) (plan : Plan) : Plan where
  output := match item with
    | valuedFlag _ .output directory => directory
    | _ => plan.output
  commands := plan.commands ++ (item.command? mode).toList
  sources := plan.sources ++ (item.source? s mode).toList
  halt := match item with
    | bareOption _ .noHalt => false
    | _ => plan.halt
  compilerOptions := plan.compilerOptions ++ item.setting?.toList
  errors := plan.errors ++ item.error?.toList
  verbose := match item with
    | bareFlag _ .verbose => true
    | _ => plan.verbose

theorem plan_stop (s : Surroundings) (mode : Mode) (plan : Plan) :
    stop.plan s mode plan = plan := by
  simp [Item.plan, command?, source?, setting?, error?]

/-- The directories that an item puts on the search path, each with its end, in order. -/
def directories (s : Surroundings) : Item → List (SearchPath.End × String)
  | valuedOption _ (.path e) value => (s.directories value).map (e, ·)
  | _ => []

/-- The search path with the directories of an item. -/
def path (s : Surroundings) (item : Item) (path : SearchPath) : SearchPath :=
  (item.directories s).foldl (fun path entry ↦ path.add entry.1 entry.2) path

/-- How the reading goes on at an item. -/
inductive Pace
  /-- The item is read, and the next one in a mode. -/
  | goOn (mode : Mode)
  /-- The item is the last one. -/
  | last
  /-- The item is not read, nor anything behind it. -/
  | leave
  deriving DecidableEq, Repr

/-- How the reading goes on at an item in a mode, with the plan read so far. -/
def pace (mode : Mode) (plan : Plan) : Item → Pace
  | stop => .last
  | version _ => .last
  | bareFlag _ (.switch other) => .goOn other
  | valuedFlag _ .script _ => .last
  | bare _ => match mode with
    | .top => if plan.hasEval then .leave else .goOn mode
    | .compiler => .goOn mode
    | .interactive => .last
  | _ => .goOn mode

theorem length_left_le (item : Item) (rest : List String) :
    (item.left rest).length ≤ rest.length := by
  rw [left, List.length_drop]
  omega

/-- The first item begins the tokens. -/
theorem tokens_first_append_left (mode : Mode) (head : String) (rest : List String) :
    (first mode head rest).tokens ++ (first mode head rest).left rest = head :: rest := by
  unfold first
  split
  · next h => rw [h]; rfl
  · split
    · rfl
    · rfl
    · split
      · rfl
      · rfl
      · rfl
      · split <;> rfl

end Item

/-- What reading item by item comes to. -/
structure Reading where
  /-- The items that were read, in order. -/
  items : List Item
  /-- The tokens that were not read. -/
  rest : List String
  plan : Plan
  path : SearchPath

namespace Reading

/-- How the reading ended. -/
def ending (r : Reading) : Ending :=
  if r.items.any Item.isVersion then .versionRequested else .finished r.rest

/-- The reading with one more item in front. -/
def cons (item : Item) (r : Reading) : Reading := { r with items := item :: r.items }

end Reading

/-- The plan at the end of all tokens: in compiler mode the sources become one command. -/
def Mode.close (mode : Mode) (plan : Plan) : Plan :=
  if mode = .compiler then plan.addCommand (.compile plan.sources) else plan

/-- Read tokens in a mode, one item at a time. -/
def readItems (s : Surroundings) (mode : Mode) (tokens : List String) (plan : Plan)
    (path : SearchPath) : Reading :=
  match tokens with
  | [] => ⟨[], [], mode.close plan, path⟩
  | head :: rest =>
    let item := Item.first mode head rest
    match item.pace mode plan with
    | .leave => ⟨[], head :: rest, plan, path⟩
    | .last => ⟨[item], item.left rest, item.plan s mode plan, item.path s path⟩
    | .goOn next =>
      (readItems s next (item.left rest) (item.plan s mode plan) (item.path s path)).cons item
  termination_by tokens.length
  decreasing_by exact Nat.lt_succ_of_le (Item.length_left_le _ _)

theorem readItems_nil {s : Surroundings} {mode : Mode} {plan : Plan} {path : SearchPath} :
    readItems s mode [] plan path = ⟨[], [], mode.close plan, path⟩ := by
  rw [readItems]

/-! ### What a reading accounts for -/

@[simp]
theorem Reading.items_cons (item : Item) (r : Reading) : (r.cons item).items = item :: r.items :=
  rfl

@[simp]
theorem Mode.errors_close (mode : Mode) (plan : Plan) : (mode.close plan).errors = plan.errors := by
  unfold Mode.close
  split <;> rfl

/-- Every token in front of the rest belongs to exactly one item. -/
theorem tokens_readItems (s : Surroundings) (mode : Mode) (tokens : List String) (plan : Plan)
    (path : SearchPath) :
    (readItems s mode tokens plan path).items.flatMap Item.tokens ++
      (readItems s mode tokens plan path).rest = tokens := by
  fun_induction readItems s mode tokens plan path with
  | case1 => rfl
  | case2 => rfl
  | case3 mode plan path head rest item h =>
    rw [List.flatMap_singleton]
    exact Item.tokens_first_append_left mode head rest
  | case4 mode plan path head rest item next h ih =>
    rw [Reading.items_cons, List.flatMap_cons, List.append_assoc]
    exact (congrArg _ ih).trans (Item.tokens_first_append_left mode head rest)

/-- The errors of the plan grow by one for each unknown item. -/
theorem errors_readItems (s : Surroundings) (mode : Mode) (tokens : List String) (plan : Plan)
    (path : SearchPath) :
    (readItems s mode tokens plan path).plan.errors =
      plan.errors ++ (readItems s mode tokens plan path).items.filterMap Item.error? := by
  fun_induction readItems s mode tokens plan path with
  | case1 => simp
  | case2 => simp
  | case3 mode plan path head rest item h =>
    rw [List.filterMap_cons, List.filterMap_nil]
    show plan.errors ++ item.error?.toList = _
    cases item.error? <;> rfl
  | case4 mode plan path head rest item next h ih =>
    have happly : (item.plan s mode plan).errors = plan.errors ++ item.error?.toList := rfl
    rw [Reading.items_cons, List.filterMap_cons]
    refine ih.trans ?_
    rw [happly, List.append_assoc]
    cases item.error? <;> rfl

theorem Item.isVersion_of_pace_goOn {mode next : Mode} {plan : Plan} {item : Item}
    (h : item.pace mode plan = .goOn next) : item.isVersion = false := by
  cases item with
  | version token => cases h
  | _ => rfl

@[simp]
theorem Reading.ending_cons {item : Item} (h : item.isVersion = false) (r : Reading) :
    (r.cons item).ending = r.ending := by
  rw [ending, ending, items_cons, List.any_cons, h, Bool.false_or]
  rfl

/-- A request for the version is the last item that is read, and there is at most one. -/
theorem countP_isVersion_readItems (s : Surroundings) (mode : Mode) (tokens : List String)
    (plan : Plan) (path : SearchPath) :
    (readItems s mode tokens plan path).items.countP Item.isVersion =
      if (readItems s mode tokens plan path).ending = .versionRequested then 1 else 0 := by
  fun_induction readItems s mode tokens plan path with
  | case1 => rfl
  | case2 => rfl
  | case3 mode plan path head rest item h =>
    cases hv : item.isVersion <;> simp [Reading.ending, hv]
  | case4 mode plan path head rest item next h ih =>
    have hv := Item.isVersion_of_pace_goOn h
    rw [Reading.items_cons, List.countP_cons_of_neg (by simp [hv]), Reading.ending_cons hv]
    exact ih

theorem Item.isVersion_iff {item : Item} : item.isVersion = true ↔ ∃ token, item = .version token := by
  cases item <;> simp [Item.isVersion]

/-- A reading ends at a request for the version exactly if its last item is one. -/
theorem ending_eq_versionRequested_iff (s : Surroundings) (mode : Mode) (tokens : List String)
    (plan : Plan) (path : SearchPath) :
    (readItems s mode tokens plan path).ending = .versionRequested ↔
      ∃ token, (readItems s mode tokens plan path).items.getLast? = some (.version token) := by
  fun_induction readItems s mode tokens plan path with
  | case1 => simp [Reading.ending]
  | case2 => simp [Reading.ending]
  | case3 mode plan path head rest item h =>
    rw [Reading.ending, List.any_cons, List.any_nil, Bool.or_false, List.getLast?_singleton]
    have hiff := @Item.isVersion_iff item
    cases hv : item.isVersion <;> simp_all
  | case4 mode plan path head rest item next h ih =>
    have hv := Item.isVersion_of_pace_goOn h
    rw [Reading.items_cons, Reading.ending_cons hv, List.getLast?_cons]
    refine ih.trans (exists_congr fun token ↦ ?_)
    rcases List.getLast? _ with - | last
    · have hne : item ≠ .version token := by
        intro heq
        rw [heq] at hv
        cases hv
      simp [hne]
    · rfl

end Launcher.Argv
