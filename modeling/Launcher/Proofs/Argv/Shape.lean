import Launcher.Proofs.Argv.Batch

/-!
# The shape of a plan

The commands of a plan come in a **body** and at most one more command. In the body expressions are
evaluated, applications are started and files are run, and no single file is run behind an expression
(`Body`). What stands behind it is a script, the file of the interactive mode, or the compilation of
the sources.

A reading of a command line is taken apart into the items behind which it goes on (`Passes`) and the
way it ends (`exists_passes`). What the former do to the mode and the plan is an invariant of single
items (`Sound`); the latter can only add the one command (`commands_of_last`).
-/

namespace Launcher

/-- Commands that may stand in the body of a plan. -/
def Command.isPlain : Command → Bool
  | .eval _ => true
  | .app _ => true
  | .require _ => true
  | .parallelRequire _ => true
  | .file _ => true
  | _ => false

/-- Whether a command evaluates an expression. -/
def Command.isEval : Command → Bool
  | .eval _ => true
  | _ => false

/-- Whether a command runs a single file. -/
def Command.isFile : Command → Bool
  | .file _ => true
  | _ => false

/-- Whether a command compiles sources. -/
def Command.isCompile : Command → Bool
  | .compile _ => true
  | _ => false

theorem Command.isCompile_of_isPlain {command : Command} (h : command.isPlain) :
    (!command.isCompile) = true := by
  cases command <;> first | rfl | cases h

/-- The body of a plan. -/
structure Body (commands : List Command) : Prop where
  plain : ∀ command ∈ commands, command.isPlain
  /-- No file is run behind an expression. -/
  filesFirst : commands.Pairwise fun earlier later ↦ earlier.isEval → ¬later.isFile

namespace Body

variable {commands : List Command}

theorem nil : Body [] where
  plain _ h := nomatch h
  filesFirst := .nil

/-- A plain command may come next, unless it runs a file and there is an expression. -/
theorem append_singleton {command : Command} (h : Body commands) (hplain : command.isPlain)
    (hfile : command.isFile → commands.any Command.isEval = false) :
    Body (commands ++ [command]) where
  plain other hother := by
    rcases List.mem_append.1 hother with hother | hother
    · exact h.plain other hother
    · rwa [List.mem_singleton.1 hother]
  filesFirst := by
    refine List.pairwise_append.2 ⟨h.filesFirst, List.pairwise_singleton _ _, ?_⟩
    intro earlier hearlier later hlater heval hlaterFile
    obtain rfl := List.mem_singleton.1 hlater
    have hnone := List.any_eq_false.1 (hfile hlaterFile) earlier hearlier
    exact hnone heval

end Body

theorem Plan.hasEval_eq (plan : Plan) : plan.hasEval = plan.commands.any Command.isEval := by
  unfold hasEval
  congr 1

namespace Argv

variable {s : Surroundings} {mode mode' other : Mode} {plan plan' : Plan} {item : Item}
  {items : List Item}

/-! ### Items of a mode -/

/-- An item stands in front of some tokens that are read in a mode. -/
def Item.In (mode : Mode) (item : Item) : Prop := ∃ head rest, item = Item.first mode head rest

/-- A flag that stands alone is one of the mode. -/
theorem Item.In.bareFlag {token : String} {flag : BareFlag} (h : (bareFlag token flag).In mode) :
    mode.flag? token = some (.bare flag) := by
  obtain ⟨head, rest, hfirst⟩ := h
  unfold first at hfirst
  repeat' split at hfirst
  all_goals cases hfirst
  assumption

/-- A flag that takes a value is one of the mode. -/
theorem Item.In.valuedFlag {token value : String} {flag : ValuedFlag}
    (h : (valuedFlag token flag value).In mode) : mode.flag? token = some (.valued flag) := by
  obtain ⟨head, rest, hfirst⟩ := h
  unfold first at hfirst
  repeat' split at hfirst
  all_goals cases hfirst
  assumption

/-- An option with its value is one of every mode. -/
theorem Item.In.valuedOption {token value : String} {option : SharedValued}
    (h : (valuedOption token option value).In mode) :
    SharedOption.ofToken? token = some (.valued option) := by
  obtain ⟨head, rest, hfirst⟩ := h
  unfold first at hfirst
  repeat' split at hfirst
  all_goals cases hfirst
  assumption

/-- Every item that is read is one of some mode. -/
theorem exists_in_of_mem_readItems {tokens : List String} {path : SearchPath}
    (h : item ∈ (readItems s mode tokens plan path).items) : ∃ mode, item.In mode := by
  fun_induction readItems s mode tokens plan path with
  | case1 => cases h
  | case2 => cases h
  | case3 mode plan path head rest first =>
    rw [List.mem_singleton.1 h]
    exact ⟨mode, head, rest, rfl⟩
  | case4 mode plan path head rest first next hpace ih =>
    rcases List.mem_cons.1 h with rfl | h
    · exact ⟨mode, head, rest, rfl⟩
    · exact ih h

/-- Only the top mode is left for another one, and for the interactive one by one flag only. -/
theorem eq_top_of_switch {token : String}
    (h : mode.flag? token = some (.bare (.switch other))) :
    mode = .top ∧ (other = .interactive → token = "+iex") := by
  unfold Mode.flag? at h
  repeat' split at h
  all_goals cases h
  · exact ⟨rfl, nofun⟩
  · exact ⟨rfl, fun _ ↦ rfl⟩

/-- The compiler mode runs no scripts. -/
theorem ne_compiler_of_script {token : String} (h : mode.flag? token = some (.valued .script)) :
    mode ≠ .compiler := by
  rintro rfl
  simp only [Mode.flag?] at h
  split at h <;> cases h

/-- The mode behind an item. -/
def Item.next (mode : Mode) : Item → Mode
  | bareFlag _ (.switch other) => other
  | _ => mode

theorem Item.next_of_pace (h : item.pace mode plan = .goOn other) : item.next mode = other := by
  cases item with
  | bareFlag token flag => cases flag <;> exact Item.Pace.goOn.inj h
  | valuedFlag token flag value => cases flag with
    | script => cases h
    | output => exact Item.Pace.goOn.inj h
    | ignored => exact Item.Pace.goOn.inj h
  | bare token => cases mode with
    | top =>
      rw [pace] at h
      split at h <;> cases h
      rfl
    | compiler => exact Item.Pace.goOn.inj h
    | interactive => cases h
  | stop => cases h
  | version token => cases h
  | _ => exact Item.Pace.goOn.inj h

/-! ### What an item keeps -/

/-- The commands read so far are a body, and only in compiler mode there are sources. -/
structure Sound (mode : Mode) (plan : Plan) : Prop where
  body : Body plan.commands
  sources : mode ≠ .compiler → plan.sources = []

/-- A command added by an item behind which the reading goes on is plain, and it is a file only if
there is no expression yet. -/
theorem Item.isPlain_of_goOn {command : Command} (h : item.pace mode plan = .goOn other)
    (hcommand : item.command? mode = some command) :
    command.isPlain ∧ (command.isFile → plan.hasEval = false) := by
  cases item with
  | valuedFlag token flag value => cases flag <;> cases h <;> cases hcommand
  | valuedOption token option value =>
    cases option <;> cases hcommand <;> exact ⟨rfl, nofun⟩
  | bare token => cases mode with
    | top =>
      rw [pace] at h
      split at h
      · cases h
      · next heval =>
        cases hcommand
        exact ⟨rfl, fun _ ↦ by simpa using heval⟩
    | compiler => cases hcommand
    | interactive => cases h
  | _ => cases hcommand

/-- The compiler mode is not left. -/
theorem Item.In.ne_compiler (hitem : item.In mode) (h : item.next mode ≠ .compiler) :
    mode ≠ .compiler := by
  cases item with
  | bareFlag token flag => cases flag with
    | switch other =>
      rw [(eq_top_of_switch hitem.bareFlag).1]
      nofun
    | compilerOption key value => exact h
    | verbose => exact h
  | _ => exact h

/-- Only in compiler mode an item adds a source. -/
theorem Item.source?_of_ne {s : Surroundings} (h : item.next mode ≠ .compiler) :
    item.source? s mode = none := by
  cases item with
  | bare token => exact if_pos h
  | _ => rfl

/-- **An item behind which the reading goes on keeps things sound.** -/
theorem Sound.step (h : Sound mode plan) (hitem : item.In mode)
    (hpace : item.pace mode plan = .goOn other) : Sound other (item.plan s mode plan) where
  body := by
    show Body (plan.commands ++ (item.command? mode).toList)
    rcases hcommand : item.command? mode with - | command
    · rw [Option.toList_none, List.append_nil]
      exact h.body
    · obtain ⟨hplain, hfile⟩ := Item.isPlain_of_goOn hpace hcommand
      exact h.body.append_singleton hplain fun hisFile ↦ plan.hasEval_eq ▸ hfile hisFile
  sources hother := by
    rw [← Item.next_of_pace hpace] at hother
    show plan.sources ++ (item.source? s mode).toList = []
    rw [h.sources (hitem.ne_compiler hother), Item.source?_of_ne hother]
    rfl

/-! ### Taking a reading apart -/

/-- The reading goes on behind each of the items, from a mode and a plan to another mode and another
plan. -/
inductive Passes (s : Surroundings) : Mode → Plan → List Item → Mode → Plan → Prop
  | nil {mode : Mode} {plan : Plan} : Passes s mode plan [] mode plan
  | cons {mode mode' other : Mode} {plan plan' : Plan} {item : Item} {items : List Item} :
    item.In mode → item.pace mode plan = .goOn other →
    Passes s other (item.plan s mode plan) items mode' plan' →
    Passes s mode plan (item :: items) mode' plan'

/-- How a reading ends in a mode, with the plan read so far, behind `items`. -/
inductive Ends (s : Surroundings) (items : List Item) (mode : Mode) (plan : Plan) (r : Reading) : Prop
  /-- No token is left. -/
  | exhausted : r.items = items → r.rest = [] → r.plan = mode.close plan →
    Ends s items mode plan r
  /-- The next token is not read. -/
  | left : mode = .top → r.items = items → r.plan = plan → Ends s items mode plan r
  /-- One more item is read. -/
  | last (item : Item) : item.In mode → item.pace mode plan = .last → r.items = items ++ [item] →
    r.plan = item.plan s mode plan → Ends s items mode plan r

theorem eq_top_of_leave (h : item.pace mode plan = .leave) : mode = .top := by
  cases item with
  | bareFlag token flag => cases flag <;> cases h
  | valuedFlag token flag value => cases flag <;> cases h
  | bare token => cases mode with
    | top => rfl
    | compiler => cases h
    | interactive => cases h
  | _ => cases h

/-- **A reading goes on for a while, and then it ends.** -/
theorem exists_passes (s : Surroundings) (mode : Mode) (tokens : List String) (plan : Plan)
    (path : SearchPath) :
    ∃ items mode' plan', Passes s mode plan items mode' plan' ∧
      Ends s items mode' plan' (readItems s mode tokens plan path) := by
  fun_induction readItems s mode tokens plan path with
  | case1 mode plan path => exact ⟨[], mode, plan, .nil, .exhausted rfl rfl rfl⟩
  | case2 mode plan path head rest item h =>
    exact ⟨[], mode, plan, .nil, .left (eq_top_of_leave h) rfl rfl⟩
  | case3 mode plan path head rest item h =>
    exact ⟨[], mode, plan, .nil, .last item ⟨head, rest, rfl⟩ h rfl rfl⟩
  | case4 mode plan path head rest item next h ih =>
    obtain ⟨items, mode', plan', hpasses, hends⟩ := ih
    refine ⟨item :: items, mode', plan', .cons ⟨head, rest, rfl⟩ h hpasses, ?_⟩
    cases hends with
    | exhausted hitems hrest hplan => exact .exhausted (congrArg _ hitems) hrest hplan
    | left hmode hitems hplan => exact .left hmode (congrArg _ hitems) hplan
    | last item' hitem hlast hitems hplan =>
      exact .last item' hitem hlast (congrArg _ hitems) hplan

/-- What is sound stays so. -/
theorem Passes.sound (h : Passes s mode plan items mode' plan') (hsound : Sound mode plan) :
    Sound mode' plan' := by
  induction h with
  | nil => exact hsound
  | cons hitem hpace _ ih => exact ih (hsound.step hitem hpace)

/-- The interactive mode is entered at `+iex`. -/
theorem Item.In.mem_tokens (hitem : item.In mode) (hmode : mode ≠ .interactive)
    (h : item.next mode = .interactive) : "+iex" ∈ item.tokens := by
  cases item with
  | bareFlag token flag => cases flag with
    | switch other =>
      rw [(eq_top_of_switch hitem.bareFlag).2 h]
      exact List.mem_singleton_self _
    | compilerOption key value => exact absurd h hmode
    | verbose => exact absurd h hmode
  | _ => exact absurd h hmode

theorem Passes.mem_tokens (h : Passes s mode plan items mode' plan') (hmode : mode ≠ .interactive)
    (hmode' : mode' = .interactive) : "+iex" ∈ items.flatMap Item.tokens := by
  induction h with
  | nil => exact absurd hmode' hmode
  | @cons mode mode' other plan plan' item items hitem hpace hpasses ih =>
    rw [List.flatMap_cons, List.mem_append]
    by_cases hother : other = .interactive
    · have hnext : item.next mode = .interactive := (Item.next_of_pace hpace).trans hother
      exact .inl (hitem.mem_tokens hmode hnext)
    · exact .inr (ih hother hmode')

/-! ### The values of the items -/

/-- The mode behind some items. -/
def modeAfter (mode : Mode) (items : List Item) : Mode := items.foldl Item.next mode

/-- The values that items have in the modes in which they are read, in order. -/
def valuesIn {α : Type} (value? : Mode → Item → Option α) (mode : Mode) : List Item → List α
  | [] => []
  | item :: items => (value? mode item).toList ++ valuesIn value? (item.next mode) items

theorem valuesIn_append {α : Type} (value? : Mode → Item → Option α) (mode : Mode)
    (items more : List Item) : valuesIn value? mode (items ++ more) =
      valuesIn value? mode items ++ valuesIn value? (modeAfter mode items) more := by
  induction items generalizing mode with
  | nil => rfl
  | cons item items ih =>
    rw [List.cons_append, valuesIn, valuesIn, ih, List.append_assoc]
    rfl

/-- **The plan holds the values of the items**, in the order in which they are read. -/
theorem Passes.values (h : Passes s mode plan items mode' plan') :
    mode' = modeAfter mode items ∧
      plan'.commands = plan.commands ++ valuesIn Item.command? mode items ∧
      plan'.sources = plan.sources ++ valuesIn (Item.source? s) mode items := by
  induction h with
  | nil => exact ⟨rfl, (List.append_nil _).symm, (List.append_nil _).symm⟩
  | @cons mode mode' other plan plan' item items hitem hpace hpasses ih =>
    obtain ⟨hmode, hcommands, hsources⟩ := ih
    have hnext := Item.next_of_pace hpace
    subst hnext
    refine ⟨hmode, ?_, ?_⟩
    · rw [hcommands, valuesIn, ← List.append_assoc]
      rfl
    · rw [hsources, valuesIn, ← List.append_assoc]
      rfl

/-! ### The end of a reading -/

/-- What can be the last item that is read. -/
theorem Item.cases_of_last (h : item.pace mode plan = .last) :
    item = .stop ∨ item.isVersion = true ∨ (∃ token name, item = .valuedFlag token .script name) ∨
      ∃ path, item = .bare path ∧ mode = .interactive := by
  cases item with
  | stop => exact .inl rfl
  | version token => exact .inr (.inl rfl)
  | bareFlag token flag => cases flag <;> cases h
  | valuedFlag token flag value => cases flag with
    | script => exact .inr (.inr (.inl ⟨token, value, rfl⟩))
    | output => cases h
    | ignored => cases h
  | bare path => cases mode with
    | top =>
      rw [pace] at h
      split at h <;> cases h
    | compiler => cases h
    | interactive => exact .inr (.inr (.inr ⟨path, rfl, rfl⟩))
  | _ => cases h

/-- What the end of a reading adds to the plan: `more` is read, and `tail` are the commands. -/
structure Adds (s : Surroundings) (mode : Mode) (plan : Plan) (r : Reading) (more : List Item)
    (tail : List Command) : Prop where
  commands : r.plan.commands = plan.commands ++ tail
  sources : r.plan.sources = plan.sources
  values : valuesIn Item.command? mode more = tail.filter (!·.isCompile)
  noSource : valuesIn (Item.source? s) mode more = []
  tail : tail = [] ∧ (plan.sources ≠ [] → more = [.stop]) ∨
    (∃ name, tail = [.script name]) ∧ plan.sources = [] ∨
    (∃ path, tail = [.file path] ∧ more = [.bare path] ∧ mode = .interactive) ∧ plan.sources = [] ∨
    tail = [.compile r.plan.sources] ∧ r.rest = []

/-- Nothing more is read. -/
theorem Adds.nothing {r : Reading} (hplan : r.plan = plan) (hsources : plan.sources = []) :
    Adds s mode plan r [] [] where
  commands := by rw [hplan, List.append_nil]
  sources := by rw [hplan]
  values := rfl
  noSource := rfl
  tail := .inl ⟨rfl, absurd hsources⟩

/-- One more item is read. -/
theorem Adds.one {r : Reading} {tail : List Command} (hplan : r.plan = item.plan s mode plan)
    (hcommand : (item.command? mode).toList = tail) (hsource : item.source? s mode = none)
    (hplain : tail.filter (!·.isCompile) = tail)
    (htail : tail = [] ∧ (plan.sources ≠ [] → [item] = [.stop]) ∨
      (∃ name, tail = [.script name]) ∧ plan.sources = [] ∨
      (∃ path, tail = [.file path] ∧ [item] = [.bare path] ∧ mode = .interactive) ∧
        plan.sources = []) :
    Adds s mode plan r [item] tail where
  commands := by
    rw [hplan, ← hcommand]
    rfl
  sources := by
    rw [hplan]
    show plan.sources ++ (item.source? s mode).toList = _
    rw [hsource]
    exact List.append_nil _
  values := by
    rw [hplain, ← hcommand]
    exact List.append_nil _
  noSource := by
    rw [valuesIn, hsource]
    rfl
  tail := htail.imp_right (.imp_right .inl)

/-- **The end of a reading adds at most one command.** -/
theorem Ends.exists_adds {r : Reading} (h : Ends s items mode plan r) (hsound : Sound mode plan)
    (hversion : r.items.any Item.isVersion = false) :
    ∃ more tail, r.items = items ++ more ∧ Adds s mode plan r more tail := by
  cases h with
  | exhausted hitems hrest hplan =>
    by_cases hmode : mode = .compiler
    · rw [Mode.close, if_pos hmode] at hplan
      have hsources : r.plan.sources = plan.sources := by
        rw [hplan]
        rfl
      refine ⟨[], [.compile r.plan.sources], by rw [hitems, List.append_nil], ?_, hsources, rfl, rfl,
        .inr (.inr (.inr ⟨rfl, hrest⟩))⟩
      rw [hsources, hplan]
      rfl
    · rw [Mode.close, if_neg hmode] at hplan
      exact ⟨[], [], by rw [hitems, List.append_nil], .nothing hplan (hsound.sources hmode)⟩
  | left hmode hitems hplan =>
    have hsources := hsound.sources (by rw [hmode]; nofun)
    exact ⟨[], [], by rw [hitems, List.append_nil], .nothing hplan hsources⟩
  | last item hitem hlast hitems hplan =>
    rcases Item.cases_of_last hlast with rfl | hisVersion | ⟨token, name, rfl⟩ | ⟨path, rfl, rfl⟩
    · exact ⟨_, _, hitems, .one hplan rfl rfl rfl (.inl ⟨rfl, fun _ ↦ rfl⟩)⟩
    · rw [hitems, List.any_append, List.any_cons, hisVersion, Bool.true_or, Bool.or_true] at hversion
      cases hversion
    · have hsources := hsound.sources (ne_compiler_of_script hitem.valuedFlag)
      exact ⟨_, _, hitems, .one hplan rfl rfl rfl (.inr (.inl ⟨⟨name, rfl⟩, hsources⟩))⟩
    · have hsources := hsound.sources (by nofun)
      exact ⟨_, _, hitems, .one hplan rfl rfl rfl (.inr (.inr ⟨⟨path, rfl, rfl, rfl⟩, hsources⟩))⟩

/-- The last item is the file of the interactive mode. -/
def EndsInteractive (items : List Item) (path : String) : Prop :=
  ∃ front, items = front ++ [.bare path] ∧ modeAfter .top front = .interactive

/-- What stands behind the body of a plan. -/
inductive Tail (argv rest : List String) (items : List Item) (plan : Plan) : List Command → Prop
  | nothing : Tail argv rest items plan []
  | script (name : String) : Tail argv rest items plan [.script name]
  | file (path : String) : "+iex" ∈ argv → EndsInteractive items path →
    Tail argv rest items plan [.file path]
  | compile : rest = [] → Tail argv rest items plan [.compile plan.sources]

/-- A file behind the body is that of the interactive mode, and nothing stands behind it. -/
theorem Tail.of_file {argv rest : List String} {tail front after : List Command} {path : String}
    (htail : Tail argv rest items plan tail) (heq : tail = front ++ .file path :: after) :
    after = [] ∧ "+iex" ∈ argv ∧ EndsInteractive items path := by
  cases htail with
  | nothing => simp at heq
  | script name => simp [List.singleton_eq_append_iff] at heq
  | file other hargv hends =>
    rcases front with - | ⟨command, front⟩
    · obtain ⟨hother, rfl⟩ := List.cons.inj heq
      cases hother
      exact ⟨rfl, hargv, hends⟩
    · simp at heq
  | compile hrest => simp [List.singleton_eq_append_iff] at heq

/-- **A file behind an expression is that of the interactive mode**, and nothing stands behind it. -/
theorem Tail.of_file_after_eval {argv rest : List String} {body tail before after : List Command}
    {path expression : String} (htail : Tail argv rest items plan tail) (hbody : Body body)
    (heq : body ++ tail = before ++ .file path :: after) (heval : .eval expression ∈ before) :
    after = [] ∧ "+iex" ∈ argv ∧ EndsInteractive items path := by
  rcases List.append_eq_append_iff.1 heq with ⟨front, -, hfront⟩ | ⟨inside, hinside, hafter⟩
  · exact htail.of_file hfront
  · rcases inside with - | ⟨command, inside⟩
    · exact htail.of_file (hafter.symm.trans (List.nil_append _).symm)
    · obtain ⟨rfl, -⟩ := List.cons.inj hafter
      have hpairwise := hbody.filesFirst
      rw [hinside, List.pairwise_append] at hpairwise
      exact absurd rfl (hpairwise.2.2 _ heval _ List.mem_cons_self rfl)

theorem Reading.of_ending_eq_finished {r : Reading} {rest : List String}
    (h : r.ending = .finished rest) : r.items.any Item.isVersion = false ∧ r.rest = rest := by
  rw [Reading.ending] at h
  split at h
  · cases h
  · next hversion => exact ⟨Bool.eq_false_iff.2 hversion, Ending.finished.inj h⟩

theorem Sound.blank (mode : Mode) : Sound mode {} := ⟨.nil, fun _ ↦ rfl⟩

/-- **The shape of every plan.** Let a command line be read into a blank plan, so that `rest` is
handed back, and let `items` be what was read. The commands are a body and at most one more: a
script, the file of the interactive mode, or the compilation of all the sources at the end of the
command line. A file behind an expression is the last command, and it comes from the interactive
mode. If there are sources and they are not compiled, then the reading ended at `--`. And the commands
without the compilation, as well as the sources, are the values of the items, in order. -/
theorem parse_shape {s : Surroundings} {argv rest : List String} {path : SearchPath} {p : Progress}
    (h : parse s argv {} path = (.finished rest, p)) :
    ∃ items, items = (readItems s .top argv {} path).items ∧
      items.flatMap Item.tokens ++ rest = argv ∧
      (∃ body tail, p.plan.commands = body ++ tail ∧ Body body ∧ Tail argv rest items p.plan tail) ∧
      (∀ value, .cookie value ∉ p.plan.commands) ∧
      (∀ before file after expression, p.plan.commands = before ++ .file file :: after →
        .eval expression ∈ before →
          after = [] ∧ "+iex" ∈ argv ∧ EndsInteractive items file) ∧
      (p.plan.sources ≠ [] → (∀ patterns, .compile patterns ∉ p.plan.commands) →
        ∃ front, items = front ++ [.stop] ∧ argv = front.flatMap Item.tokens ++ "--" :: rest) ∧
      p.plan.commands.filter (!·.isCompile) = valuesIn Item.command? .top items ∧
      p.plan.sources = valuesIn (Item.source? s) .top items := by
  have hagree := read_agrees s .top argv { plan := {}, path := path }
  have htokens := tokens_readItems s .top argv {} path
  obtain ⟨front, mode, plan, hpasses, hends⟩ := exists_passes s .top argv {} path
  rw [parse] at h
  rw [h] at hagree
  generalize readItems s .top argv {} path = r at hagree htokens hends ⊢
  obtain ⟨(hending : .finished rest = r.ending), (hplan : p.plan = r.plan), -⟩ := hagree
  obtain ⟨hversion, rfl⟩ := Reading.of_ending_eq_finished hending.symm
  obtain ⟨more, tail, hitems, hadds⟩ := hends.exists_adds (hpasses.sound (.blank .top)) hversion
  obtain ⟨hmode, hcommands, hsources⟩ := hpasses.values
  rw [hplan]
  have hbody := (hpasses.sound (.blank .top)).body
  have htail : Tail argv r.rest r.items r.plan tail := by
    rcases hadds.tail with ⟨rfl, -⟩ | ⟨⟨name, rfl⟩, -⟩ | ⟨⟨file, rfl, rfl, hinteractive⟩, -⟩ |
      ⟨rfl, hrest⟩
    · exact .nothing
    · exact .script name
    · refine .file file ?_ ⟨front, hitems, hmode ▸ hinteractive⟩
      rw [← htokens, hitems, List.flatMap_append]
      exact List.mem_append_left _ (List.mem_append_left _
        (hpasses.mem_tokens nofun hinteractive))
    · exact .compile hrest
  refine ⟨r.items, rfl, htokens, ⟨plan.commands, tail, hadds.commands, hbody, htail⟩, ?_, ?_, ?_, ?_,
    ?_⟩
  · intro value hmem
    rw [hadds.commands, List.mem_append] at hmem
    rcases hmem with hmem | hmem
    · exact nomatch hbody.plain _ hmem
    · cases htail <;> simp at hmem
  · intro before file after expression heq heval
    exact htail.of_file_after_eval hbody (hadds.commands ▸ heq) heval
  · intro hne hnone
    rw [hadds.sources] at hne
    rcases hadds.tail with ⟨-, hstop⟩ | ⟨-, hsources⟩ | ⟨-, hsources⟩ | ⟨rfl, -⟩
    · rw [hstop hne] at hitems
      refine ⟨front, hitems, ?_⟩
      rw [← htokens, hitems, List.flatMap_append, List.append_assoc]
      rfl
    · exact absurd hsources hne
    · exact absurd hsources hne
    · exact absurd (hadds.commands ▸ List.mem_append_right _ (List.mem_singleton_self _)) (hnone _)
  · have hplain : plan.commands.filter (!·.isCompile) = plan.commands :=
      List.filter_eq_self.2 fun command hmem ↦ Command.isCompile_of_isPlain (hbody.plain _ hmem)
    rw [hadds.commands, List.filter_append, hplain, ← hadds.values, hcommands, hitems,
      valuesIn_append, hmode]
    rfl
  · rw [hadds.sources, hsources, hitems, valuesIn_append, ← hmode, hadds.noSource, List.append_nil]
    rfl

/-- A place without any files. -/
def nowhere : Surroundings where
  wildcard _ := []
  isDirectory _ := false
  place := ⟨"/", none, fun _ ↦ none⟩

/-- An expression, and then the file of the interactive mode. -/
theorem parse_shape_of_session :
    ∃ p, parse nowhere ["-e", "1", "+iex", "main.py", "x"] {} {} = (.finished ["x"], p) ∧
      p.plan.commands = [.eval "1", .file "main.py"] ∧
      ∃ items, EndsInteractive items "main.py" ∧
        p.plan.commands.filter (!·.isCompile) = valuesIn Item.command? .top items := by
  have hending : (parse nowhere ["-e", "1", "+iex", "main.py", "x"] {} {}).1 = .finished ["x"] := by
    decide +kernel
  have hcommands : (parse nowhere ["-e", "1", "+iex", "main.py", "x"] {} {}).2.plan.commands =
      [.eval "1"] ++ .file "main.py" :: [] := by decide +kernel
  have hparse : parse nowhere ["-e", "1", "+iex", "main.py", "x"] {} {} =
      (.finished ["x"], (parse nowhere ["-e", "1", "+iex", "main.py", "x"] {} {}).2) :=
    Prod.ext hending rfl
  obtain ⟨items, _, _, _, _, hfile, _, hvalues, _⟩ := parse_shape hparse
  obtain ⟨_, _, hends⟩ := hfile _ _ _ "1" hcommands (List.mem_singleton_self _)
  exact ⟨_, hparse, hcommands, items, hends, hvalues⟩

end Argv

end Launcher
