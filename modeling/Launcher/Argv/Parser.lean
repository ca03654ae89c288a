import Launcher.Argv.Shared
import Launcher.Failure

/-!
# Reading a command line

Tokens are read from the left. In every mode `--` ends the reading. A flag of the mode with its
value comes next, then whatever looks like an option: a batch of shared options or, if the batch
takes nothing, one unknown option. Any other token is bare, and each mode has its own rule for it.
-/

namespace Launcher.Argv

/-- The effect of a flag that stands alone. -/
def BareFlag.apply : BareFlag → Progress → Progress
  | .switch mode, p => p.note (.switchedMode mode)
  | .compilerOption key value, p => p.mapPlan (·.addOption key value)
  | .verbose, p => p.mapPlan fun plan ↦ { plan with verbose := true }

/-- The mode in which the reading goes on after a flag that stands alone. -/
def BareFlag.next : BareFlag → Mode → Mode
  | .switch mode, _ => mode
  | _, mode => mode

/-- The effect of a flag with its value. -/
def ValuedFlag.apply : ValuedFlag → String → Progress → Progress
  | .script, value, p => p.addCommand (.script value)
  | .output, value, p => p.mapPlan fun plan ↦ { plan with output := value }
  | .ignored, _, p => p

/-- Whether the reading ends behind the flag and its value. -/
def ValuedFlag.stops : ValuedFlag → Bool
  | .script => true
  | _ => false

/-- The effect of the end of the tokens: the compiler mode turns the sources gathered so far into
one command. -/
def Mode.finish : Mode → Progress → Progress
  | .compiler, p => p.addCommand (.compile p.plan.sources)
  | _, p => p

/-- The pattern that a bare token stands for in compiler mode: a directory stands for all sources
below it. -/
def Surroundings.sourcePattern (s : Surroundings) (token : String) : String :=
  if s.isDirectory token then token ++ "/**/*" ++ s.suffix else token

/-- What a bare token does. -/
inductive Bare
  /-- It is read, and the reading goes on. -/
  | read (p : Progress)
  /-- It is read, and the reading ends behind it. -/
  | last (p : Progress)
  /-- The reading ends before it. -/
  | left

/-- The rule of each mode for a bare token. The top mode reads files until an expression has been
seen, the compiler mode reads sources, the interactive mode reads one file. -/
def Mode.bare (s : Surroundings) (token : String) : Mode → Progress → Bare
  | .top, p => if p.plan.hasEval then .left else .read (p.addCommand (.file token))
  | .compiler, p => .read (p.mapPlan (·.addSource (s.sourcePattern token)))
  | .interactive, p => .last (p.addCommand (.file token))

/-- What comes of reading at the front of the tokens. -/
inductive Step
  /-- The reading ends. -/
  | stop (ending : Ending) (p : Progress)
  /-- The reading goes on with `rest`. -/
  | next (mode : Mode) (rest : List String) (p : Progress)

/-- Read what looks like an option: a batch of shared options, or an unknown one if there is no
such batch. -/
def optionStep (s : Surroundings) (mode : Mode) (head : String) (rest : List String)
    (p : Progress) : Step :=
  match shared s (head :: rest) p with
  | (.versionRequested, q) => .stop .versionRequested q
  | (.finished left, q) =>
    if left.length < rest.length + 1 then .next mode left q
    else .next mode rest (p.unknown head)

/-- Read a bare token. -/
def bareStep (s : Surroundings) (mode : Mode) (head : String) (rest : List String)
    (p : Progress) : Step :=
  match mode.bare s head p with
  | .read q => .next mode rest q
  | .last q => .stop (.finished rest) q
  | .left => .stop (.finished (head :: rest)) p

/-- Read a token that is no flag of the mode. -/
def otherStep (s : Surroundings) (mode : Mode) (head : String) (rest : List String)
    (p : Progress) : Step :=
  if isFlag head then optionStep s mode head rest p else bareStep s mode head rest p

/-- Read at the front of `head :: rest`. -/
def step (s : Surroundings) (mode : Mode) (head : String) (rest : List String) (p : Progress) :
    Step :=
  if head = stopToken then .stop (.finished rest) p
  else match mode.flag? head with
    | some (.bare flag) => .next (flag.next mode) rest (flag.apply p)
    | some (.valued flag) => match rest with
      | value :: rest =>
        if flag.stops then .stop (.finished rest) (flag.apply value p)
        else .next mode rest (flag.apply value p)
      | [] => otherStep s mode head [] p
    | none => otherStep s mode head rest p

theorem length_le_of_otherStep {s : Surroundings} {mode mode' : Mode} {head : String}
    {rest rest' : List String} {p q : Progress}
    (h : otherStep s mode head rest p = .next mode' rest' q) : rest'.length ≤ rest.length := by
  unfold otherStep optionStep bareStep at h
  split at h
  · split at h
    · cases h
    · split at h <;> cases h <;> omega
  · split at h <;> cases h
    exact Nat.le_refl _

/-- Every step reads at least one token. -/
theorem length_le_of_step {s : Surroundings} {mode mode' : Mode} {head : String}
    {rest rest' : List String} {p q : Progress}
    (h : step s mode head rest p = .next mode' rest' q) : rest'.length ≤ rest.length := by
  unfold step at h
  split at h
  · cases h
  · split at h
    · cases h; exact Nat.le_refl _
    · split at h
      · split at h <;> cases h
        exact Nat.le_succ _
      · exact length_le_of_otherStep h
    · exact length_le_of_otherStep h

/-- Read tokens in a mode, step by step. -/
def read (s : Surroundings) (mode : Mode) (tokens : List String) (p : Progress) :
    Ending × Progress :=
  match tokens with
  | [] => (.finished [], mode.finish p)
  | head :: rest =>
    match _h : step s mode head rest p with
    | .stop ending q => (ending, q)
    | .next mode' rest' q => read s mode' rest' q
  termination_by tokens.length
  decreasing_by exact Nat.lt_succ_of_le (length_le_of_step _h)

/-- Read a command line from the top mode, into a plan that may hold something already. -/
def parse (s : Surroundings) (tokens : List String) (plan : Plan) (path : SearchPath) :
    Ending × Progress :=
  read s .top tokens { plan, path }

/-- What reading hands back: the tokens that are left, or the request to end the run that follows a
request for the version. -/
def Ending.handBack : Ending → Except Failure (List String)
  | .finished rest => .ok rest
  | .versionRequested => .error { cause := .terminate Status.success }

/-- How often the version is reported. -/
def Ending.versionReports : Ending → Nat
  | .finished _ => 0
  | .versionRequested => 1

/-- The failure of naming a mode that there is not. -/
def unknownMode (mode : String) : Failure :=
  { cause := .standard .keyError (Text.quote mode) }

/-- Read a command line in the mode of the given name. -/
def parseNamed (s : Surroundings) (mode : String) (tokens : List String) (plan : Plan)
    (path : SearchPath) : Except Failure (Ending × Progress) :=
  match Mode.ofName? mode with
  | some mode => .ok (read s mode tokens { plan, path })
  | none => .error (unknownMode mode)

end Launcher.Argv
