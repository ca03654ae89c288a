import Launcher.Proofs.Argv.Shape

/-!
# A batch takes all it can

A shared option is **complete** if it stands alone, or takes a value and has it. A batch of shared
options takes complete options off the front of the tokens for as long as there are any
(`shared_of_batch`), whatever the tokens behind them look like, and whether or not a value looks like an
option itself. Then it hands back the rest, or the version is asked for (`shared_cases`).

So tokens are taken if and only if they begin with a complete option, and what is handed back stays as
it is if a batch is read from it once more. A batch that takes all tokens leaves no trace of where it
ended: what follows is read as if it came first (`shared_takes_complete_options`).
-/

namespace Launcher.Argv

namespace SharedOption

/-! ### The names of shared options -/

/-- The options that ask for the version. -/
def versionNames : List String := ["-v", "--version"]

/-- The options that stand alone, and do not ask for the version. -/
def bareNames : List String := ["--no-halt", "--detached", "--hidden", "--gen-debug"]

/-- The options that take a value. -/
def valuedNames : List String :=
  ["-pa", "-pz", "--app", "-e", "-r", "-pr", "--erl", "--sname", "--name", "--cookie"]

theorem ofToken?_of_mem_versionNames {token : String} (h : token ∈ versionNames) :
    ofToken? token = some .version := by
  simp only [versionNames, List.mem_cons, List.not_mem_nil, or_false] at h
  rcases h with rfl | rfl <;> rfl

theorem ofToken?_of_mem_bareNames {token : String} (h : token ∈ bareNames) :
    ∃ option, ofToken? token = some (.bare option) := by
  simp only [bareNames, List.mem_cons, List.not_mem_nil, or_false] at h
  rcases h with rfl | rfl | rfl | rfl <;> exact ⟨_, rfl⟩

theorem ofToken?_of_mem_valuedNames {token : String} (h : token ∈ valuedNames) :
    ∃ option, ofToken? token = some (.valued option) := by
  simp only [valuedNames, List.mem_cons, List.not_mem_nil, or_false] at h
  rcases h with rfl | rfl | rfl | rfl | rfl | rfl | rfl | rfl | rfl | rfl <;> exact ⟨_, rfl⟩

/-- Where an option is listed. -/
def names : SharedOption → List String
  | version => versionNames
  | bare _ => bareNames
  | valued _ => valuedNames

/-- A token that stands for an option is listed under it. -/
theorem mem_names_of_ofToken? {token : String} {option : SharedOption}
    (h : ofToken? token = some option) : token ∈ option.names := by
  unfold ofToken? at h
  split at h
  case h_17 => cases h
  all_goals
    cases h
    decide

end SharedOption

open SharedOption

/-! ### Complete options -/

/-- The tokens begin with a shared option, other than for the version, and with its value if it takes
one. -/
def BeginsComplete : List String → Prop
  | [] => False
  | head :: rest => head ∈ bareNames ∨ head ∈ valuedNames ∧ rest ≠ []

/-- The tokens begin with a request for the version. -/
def BeginsVersion : List String → Prop
  | [] => False
  | head :: _ => head ∈ versionNames

/-- Tokens that are complete shared options, one after another. -/
inductive Batch : List String → Prop
  | nil : Batch []
  | bare {token : String} {rest : List String} : token ∈ bareNames → Batch rest →
    Batch (token :: rest)
  | valued {token value : String} {rest : List String} : token ∈ valuedNames → Batch rest →
    Batch (token :: value :: rest)

/-- A batch that is not empty begins with a complete option. -/
theorem Batch.beginsComplete {taken : List String} (h : Batch taken) (hne : taken ≠ [])
    (left : List String) : BeginsComplete (taken ++ left) := by
  cases h with
  | nil => exact absurd rfl hne
  | bare hbare => exact .inl hbare
  | valued hvalued => exact .inr ⟨hvalued, List.cons_ne_nil _ _⟩

variable {s : Surroundings} {tokens : List String} {p : Progress}

/-- **A batch is taken off the front of the tokens**, whatever is behind it. -/
theorem shared_of_batch {taken : List String} (h : Batch taken) (s : Surroundings) (p : Progress) :
    ∃ q, ∀ left, shared s (taken ++ left) p = shared s left q := by
  induction h generalizing p with
  | nil => exact ⟨p, fun _ ↦ rfl⟩
  | bare hbare _ ih =>
    obtain ⟨option, ho⟩ := ofToken?_of_mem_bareNames hbare
    obtain ⟨q, hq⟩ := ih (option.apply p)
    exact ⟨q, fun left ↦ (shared_of_bare ho).trans (hq left)⟩
  | @valued token value rest hvalued _ ih =>
    obtain ⟨option, ho⟩ := ofToken?_of_mem_valuedNames hvalued
    obtain ⟨q, hq⟩ := ih (option.apply s value p)
    exact ⟨q, fun left ↦ (shared_of_valued ho).trans (hq left)⟩

/-- Tokens that begin neither with a complete option nor with a request for the version are handed
back. -/
theorem shared_of_not_begins (h : ¬BeginsComplete tokens) (hversion : ¬BeginsVersion tokens)
    (s : Surroundings) (p : Progress) : shared s tokens p = (.finished tokens, p) := by
  rcases tokens with - | ⟨head, rest⟩
  · rfl
  refine shared_eq_self (fun ho ↦ ?_) (fun option ho ↦ ?_) fun option value tail ho hrest ↦ ?_
  · exact hversion (mem_names_of_ofToken? ho)
  · exact h (.inl (mem_names_of_ofToken? ho))
  · exact h (.inr ⟨mem_names_of_ofToken? ho, hrest ▸ List.cons_ne_nil value tail⟩)

theorem shared_of_beginsVersion (h : BeginsVersion tokens) (s : Surroundings) (p : Progress) :
    shared s tokens p = (.versionRequested, p) := by
  rcases tokens with - | ⟨head, rest⟩
  · exact h.elim
  · exact shared_of_version (ofToken?_of_mem_versionNames h)

/-- Tokens are a batch and something behind it that begins with no complete option. -/
theorem exists_batch (tokens : List String) :
    ∃ taken left, tokens = taken ++ left ∧ Batch taken ∧ ¬BeginsComplete left := by
  match tokens with
  | [] => exact ⟨[], [], rfl, .nil, id⟩
  | head :: rest =>
    by_cases hbare : head ∈ bareNames
    · obtain ⟨taken, left, rfl, htaken, hleft⟩ := exists_batch rest
      exact ⟨head :: taken, left, rfl, .bare hbare htaken, hleft⟩
    by_cases hvalued : head ∈ valuedNames
    · match rest with
      | [] => exact ⟨[], [head], rfl, .nil, fun h ↦ h.elim hbare fun h ↦ h.2 rfl⟩
      | value :: rest =>
        obtain ⟨taken, left, rfl, htaken, hleft⟩ := exists_batch rest
        exact ⟨head :: value :: taken, left, rfl, .valued hvalued htaken, hleft⟩
    · exact ⟨[], head :: rest, rfl, .nil, fun h ↦ h.elim hbare fun h ↦ hvalued h.1⟩

/-- **How the reading of a batch ends.** The tokens are a batch and something behind it that begins with
no complete option. Either this asks for the version, or it is handed back. -/
theorem shared_cases (s : Surroundings) (tokens : List String) (p : Progress) :
    ∃ taken left q, tokens = taken ++ left ∧ Batch taken ∧ ¬BeginsComplete left ∧
      (∀ other, shared s (taken ++ other) p = shared s other q) ∧
      (BeginsVersion left ∧ shared s tokens p = (.versionRequested, q) ∨
        ¬BeginsVersion left ∧ shared s tokens p = (.finished left, q)) := by
  obtain ⟨taken, left, rfl, htaken, hleft⟩ := exists_batch tokens
  obtain ⟨q, hq⟩ := shared_of_batch htaken s p
  refine ⟨taken, left, q, rfl, htaken, hleft, hq, ?_⟩
  rw [hq left]
  by_cases hversion : BeginsVersion left
  · exact .inl ⟨hversion, shared_of_beginsVersion hversion s q⟩
  · exact .inr ⟨hversion, shared_of_not_begins hleft hversion s q⟩

/-- **A batch takes all complete options in front, and nothing else.** A reading that returns does not
report the version. It hands back the end of the tokens behind a batch of complete options; this end
begins with no complete option, and reading it once more, in whatever surroundings and with whatever has
been read, hands it back and changes nothing. Less is handed back than was given if and only if the
tokens begin with a complete option. The other way to end is a request for the version behind a batch.
If all tokens are taken, then more tokens are read behind them as if they came first. -/
theorem shared_takes_complete_options (s : Surroundings) (tokens : List String) (p : Progress) :
    ∃ ending q, shared s tokens p = (ending, q) ∧
      (∀ left, ending.handBack = .ok left →
        left <:+ tokens ∧
        (∃ taken, Batch taken ∧ tokens = taken ++ left ∧ ¬BeginsComplete left) ∧
        (∀ s' p', shared s' left p' = (.finished left, p')) ∧
        (left.length < tokens.length ↔ BeginsComplete tokens) ∧
        ending.versionReports = 0) ∧
      (∀ failure, ending.handBack = .error failure ↔ failure = { cause := .terminate 0 } ∧
        ∃ taken left, Batch taken ∧ tokens = taken ++ left ∧ BeginsVersion left) ∧
      (ending.handBack = .ok [] → ∀ more, shared s (tokens ++ more) p = shared s more q) := by
  obtain ⟨taken, left, q, rfl, htaken, hleft, htakes, hends⟩ := shared_cases s tokens p
  rcases hends with ⟨hversion, hshared⟩ | ⟨hversion, hshared⟩
  · refine ⟨_, q, hshared, nofun, fun failure ↦ ?_, nofun⟩
    rw [handBack_eq_error_iff]
    exact and_congr_right fun _ ↦ ⟨fun _ ↦ ⟨taken, left, htaken, rfl, hversion⟩, fun _ ↦ rfl⟩
  · refine ⟨_, q, hshared, ?_, fun failure ↦ ?_, ?_⟩
    · rintro _ ⟨⟩
      refine ⟨List.suffix_append taken left, ⟨taken, htaken, rfl, hleft⟩,
        fun s' p' ↦ shared_of_not_begins hleft hversion s' p', ?_, rfl⟩
      rw [List.length_append]
      constructor
      · intro hlength
        exact htaken.beginsComplete (List.ne_nil_of_length_pos (by omega)) left
      · intro hbegins
        have hne : taken ≠ [] := by
          rintro rfl
          exact hleft hbegins
        have hpos := List.length_pos_iff.2 hne
        omega
    · rw [handBack_eq_error_iff]
      refine and_congr_right fun _ ↦ ⟨nofun, ?_⟩
      rintro ⟨taken', left', htaken', heq, hversion'⟩
      -- behind any batch that is followed by a request for the version, the version is asked for
      obtain ⟨q', hq'⟩ := shared_of_batch htaken' s p
      rw [heq, hq' left', shared_of_beginsVersion hversion' s q'] at hshared
      cases hshared
    · intro hback
      obtain rfl : left = [] := Except.ok.inj hback
      intro more
      rw [List.append_nil]
      exact htakes more

/-- Values are taken as they are, and an option that lacks its value is handed back. -/
theorem shared_takes_names_as_values : ∃ q,
    shared nowhere ["--erl", "--erl", "-e", "-v", "--no-halt", "-pa"] {} = (.finished ["-pa"], q) ∧
      q.plan.commands = [.eval "-v"] ∧ shared nowhere ["-pa"] q = (.finished ["-pa"], q) ∧
      BeginsComplete ["--erl", "--erl", "-e", "-v", "--no-halt", "-pa"] := by
  obtain ⟨ending, q, hshared, hreturns, -, -⟩ :=
    shared_takes_complete_options nowhere ["--erl", "--erl", "-e", "-v", "--no-halt", "-pa"] {}
  have hending : (shared nowhere ["--erl", "--erl", "-e", "-v", "--no-halt", "-pa"] {}).1 =
      .finished ["-pa"] := by decide +kernel
  have hcommands : (shared nowhere ["--erl", "--erl", "-e", "-v", "--no-halt", "-pa"]
      {}).2.plan.commands = [.eval "-v"] := by decide +kernel
  rw [hshared] at hending hcommands
  obtain rfl : ending = .finished ["-pa"] := hending
  obtain ⟨-, -, hagain, hshorter, -⟩ := hreturns _ rfl
  exact ⟨q, hshared, hcommands, hagain nowhere q, hshorter.1 (by decide)⟩

end Launcher.Argv
