import Launcher.Proofs.Argv.Batch

/-!
# Stopping for good

A reading that stops in front of some tokens, or at a request for the version, would have stopped there
whatever had followed. Each item looks at one token behind it, and only to find its value
(`first_append`). So more tokens at the end can only matter to the last token of all, if it is an
option that lacks its value, and behind that one nothing is left to stop in front of.

The main statement compares the readings of a command line and of a longer one
(`parse_stops_for_good`); that the items are the same is `readItems_append`.
-/

namespace Launcher.Argv

variable {s : Surroundings} {mode : Mode} {head : String} {rest : List String} {plan : Plan}
  {path : SearchPath}

/-! ### The first item -/

/-- A flag of a mode that takes a value looks like an option. -/
theorem isFlag_of_valued {flag : ValuedFlag} (h : mode.flag? head = some (.valued flag)) :
    isFlag head = true := by
  unfold Mode.flag? at h
  repeat' split at h
  all_goals first | cases h; done | decide

/-- What follows the token behind the first one does not matter to the first item. -/
theorem first_cons_append (mode : Mode) (head value : String) (rest more : List String) :
    Item.first mode head (value :: rest ++ more) = Item.first mode head (value :: rest) := by
  unfold Item.first
  rcases mode.flag? head with - | (flag | flag) <;>
    rcases SharedOption.ofToken? head with - | (- | option | option) <;> rfl

/-- What follows the last token matters only if this one is unknown as it stands. -/
theorem first_of_last (h : ∀ token, Item.first mode head [] ≠ .unknown token)
    (more : List String) : Item.first mode head more = Item.first mode head [] := by
  by_cases hstop : head = stopToken
  · unfold Item.first
    rw [if_pos hstop, if_pos hstop]
  · unfold Item.first at h ⊢
    rw [if_neg hstop] at h
    rw [if_neg hstop, if_neg hstop]
    rcases hflag : mode.flag? head with - | (flag | flag)
    · rcases hoption : SharedOption.ofToken? head with - | (- | option | option)
      · rfl
      · rfl
      · rfl
      · simp [hflag, hoption, isFlag_of_shared hoption] at h
    · rfl
    · have hoption : SharedOption.ofToken? head = none := by
        rcases hoption : SharedOption.ofToken? head with - | option
        · rfl
        · cases (flag?_eq_none_of_shared hoption mode).symm.trans hflag
      simp [hflag, hoption, isFlag_of_valued hflag] at h

/-- More tokens do not change the first item, unless it is an unknown one at the end. -/
theorem first_append (h : rest ≠ [] ∨ ∀ token, Item.first mode head rest ≠ .unknown token)
    (more : List String) : Item.first mode head (rest ++ more) = Item.first mode head rest := by
  rcases rest with - | ⟨value, rest⟩
  · exact first_of_last (h.resolve_left fun hne ↦ hne rfl) more
  · exact first_cons_append mode head value rest more

/-- What is left behind the first item grows by the tokens that are put at the end. -/
theorem left_append {more : List String}
    (h : Item.first mode head (rest ++ more) = Item.first mode head rest) :
    (Item.first mode head rest).left (rest ++ more) =
      (Item.first mode head rest).left rest ++ more := by
  have hlong := Item.tokens_first_append_left mode head (rest ++ more)
  have hshort := congrArg (· ++ more) (Item.tokens_first_append_left mode head rest)
  rw [h] at hlong
  simp only [List.append_assoc, List.cons_append] at hshort
  exact List.append_cancel_left (hlong.trans hshort.symm)

/-! ### The items -/

/-- The reading goes on behind an unknown token. -/
theorem Item.ne_unknown_of_pace {item : Item}
    (h : item.pace mode plan = .leave ∨ item.pace mode plan = .last) (token : String) :
    item ≠ .unknown token := by
  rintro rfl
  rcases h with h | h <;> cases h

/-- The reading stopped: something is left, or the version was asked for. -/
def Reading.Stopped (r : Reading) : Prop := r.rest ≠ [] ∨ r.ending = .versionRequested

/-- The reading with more tokens at the end of those that are left. -/
def Reading.before (r : Reading) (more : List String) : Reading := { r with rest := r.rest ++ more }

theorem not_stopped_readItems_nil : ¬(readItems s mode [] plan path).Stopped := by
  rw [readItems_nil]
  simp [Reading.Stopped, Reading.ending]

theorem Reading.stopped_cons_iff {item : Item} {r : Reading} (h : item.isVersion = false) :
    (r.cons item).Stopped ↔ r.Stopped := by
  rw [Stopped, Stopped, Reading.ending_cons h]
  rfl

/-- **A reading that stopped stops in the same way in front of more tokens.** -/
theorem readItems_append (s : Surroundings) (mode : Mode) (tokens more : List String) (plan : Plan)
    (path : SearchPath) (h : (readItems s mode tokens plan path).Stopped) :
    readItems s mode (tokens ++ more) plan path =
      (readItems s mode tokens plan path).before more := by
  fun_induction readItems s mode tokens plan path with
  | case1 mode plan path =>
    rcases h with hrest | hending
    · exact absurd rfl hrest
    · cases hending
  | case2 mode plan path head rest item hpace =>
    have hfirst : Item.first mode head (rest ++ more) = item :=
      first_append (.inr (Item.ne_unknown_of_pace (.inl hpace))) more
    rw [List.cons_append, readItems, hfirst, hpace]
    rfl
  | case3 mode plan path head rest item hpace =>
    have hfirst : Item.first mode head (rest ++ more) = item :=
      first_append (.inr (Item.ne_unknown_of_pace (.inr hpace))) more
    have hleft : item.left (rest ++ more) = item.left rest ++ more := left_append hfirst
    rw [List.cons_append, readItems, hfirst, hpace, hleft]
    rfl
  | case4 mode plan path head rest item next hpace ih =>
    rw [Reading.stopped_cons_iff (Item.isVersion_of_pace_goOn hpace)] at h
    have hrest : rest ≠ [] := by
      rintro rfl
      rw [show item.left [] = [] from List.drop_nil] at h
      exact not_stopped_readItems_nil h
    have hfirst : Item.first mode head (rest ++ more) = item := first_append (.inl hrest) more
    have hleft : item.left (rest ++ more) = item.left rest ++ more := left_append hfirst
    rw [List.cons_append, readItems, hfirst, hpace, hleft]
    exact congrArg (Reading.cons item) (ih h)

/-! ### The reading -/

theorem Reading.ending_before_of_finished {r : Reading} {rest : List String} (more : List String)
    (h : r.ending = .finished rest) : (r.before more).ending = .finished (rest ++ more) := by
  unfold Reading.ending at h ⊢
  split at h
  · cases h
  · next hversion =>
    cases h
    exact if_neg hversion

theorem Reading.ending_before_of_version {r : Reading} (more : List String)
    (h : r.ending = .versionRequested) : (r.before more).ending = .versionRequested := by
  unfold Reading.ending at h ⊢
  split at h
  · next hversion => exact if_pos hversion
  · cases h

/-- A reading that stopped comes to the same in front of more tokens, but for these. -/
theorem read_append {tokens : List String} {p : Progress} (more : List String)
    (h : (readItems s mode tokens p.plan p.path).Stopped) :
    (read s mode (tokens ++ more) p).1 =
        ((readItems s mode tokens p.plan p.path).before more).ending ∧
      (read s mode (tokens ++ more) p).2.plan = (read s mode tokens p).2.plan ∧
      (read s mode (tokens ++ more) p).2.path = (read s mode tokens p).2.path := by
  obtain ⟨hending, hplan, hpath⟩ := read_agrees s mode (tokens ++ more) p
  obtain ⟨-, hplan', hpath'⟩ := read_agrees s mode tokens p
  rw [readItems_append s mode tokens more p.plan p.path h] at hending hplan hpath
  exact ⟨hending, hplan.trans hplan'.symm, hpath.trans hpath'.symm⟩

/-- **A reading stops for good.** If the reading of a command line hands back tokens, then the reading
of a longer one hands back those and what follows them, with the same plan and the same search path,
and without a report of the version. If it ends with the request for the version, then so does the
reading of a longer one, with the same search path and the same single report. -/
theorem parse_stops_for_good (s : Surroundings) (mode : Mode) (argv more : List String) (plan : Plan)
    (path : SearchPath) :
    ∃ ending p ending' q,
      parseNamed s mode.name argv plan path = .ok (ending, p) ∧
      parseNamed s mode.name (argv ++ more) plan path = .ok (ending', q) ∧
      (∀ rest, ending.handBack = .ok rest → rest ≠ [] →
        ending'.handBack = .ok (rest ++ more) ∧ ending'.versionReports = 0 ∧
          q.plan = p.plan ∧ q.path = p.path) ∧
      (∀ failure, ending.handBack = .error failure →
        failure = { cause := .terminate 0 } ∧ ending'.handBack = .error failure ∧
          ending.versionReports = 1 ∧ ending'.versionReports = 1 ∧
          q.plan = p.plan ∧ q.path = p.path) := by
  have hagree := (read_agrees s mode argv { plan, path }).1
  refine ⟨_, _, _, _, parseNamed_name s mode argv plan path,
    parseNamed_name s mode (argv ++ more) plan path, ?_⟩
  rcases hending : (readItems s mode argv plan path).ending with left | -
  · rw [hagree, hending]
    refine ⟨fun rest hback hne ↦ ?_, nofun⟩
    cases hback
    have hleft := (handBack_eq_ok_iff.1 (congrArg Ending.handBack hending)).2
    obtain ⟨hlong, hplan, hpath⟩ := read_append (p := { plan, path }) more (.inl (hleft ▸ hne))
    rw [Reading.ending_before_of_finished more hending] at hlong
    rw [hlong]
    exact ⟨rfl, rfl, hplan, hpath⟩
  · rw [hagree, hending]
    refine ⟨nofun, fun failure hback ↦ ?_⟩
    cases hback
    obtain ⟨hlong, hplan, hpath⟩ := read_append (p := { plan, path }) more (.inr hending)
    rw [Reading.ending_before_of_version more hending] at hlong
    rw [hlong]
    exact ⟨rfl, rfl, rfl, rfl, hplan, hpath⟩

end Launcher.Argv
