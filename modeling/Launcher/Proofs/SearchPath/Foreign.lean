import Launcher.Proofs.SearchPath.Additions
import Mathlib.Data.List.Count
import Mathlib.Data.List.Perm.Subperm

/-!
# Entries of others on the search path

The launcher and others change the same list, and an entry is known by its text alone. What others do
would come to a list of its own if the launcher did nothing: the **foreign** list. As long as others
take away nothing that the launcher has on record, the search path accounts for this list at every
moment (`Accounts`): each text occurs in it as often as in the foreign list and on record together, and
the texts that the launcher has never added stand in it as they stand in the foreign list.

Each operation keeps the account (`Accounts.perform`), and so does any sequence of them
(`Accounts.run`), whenever the search path is closed.
-/

namespace Launcher.SearchPath

/-- Whether an operation is a block of operations. -/
def Operation.isBlock : Operation → Bool
  | .block _ => true
  | .failingBlock _ => true
  | _ => false

/-- What an operation makes of a list that only others change. -/
def foreign (l : List String) : Operation → List String
  | .foreignAppend p => l ++ [p]
  | .foreignRemove p => l.erase p
  | _ => l

/-- Operations one after another, those behind one that fails included. -/
def run (s : Argv.Surroundings) (path : SearchPath) (operations : List Operation) : SearchPath :=
  operations.foldl (fun path operation ↦ (perform s path operation).2) path

/-- The paths that the launcher adds by operations one after another. -/
def registered (s : Argv.Surroundings) (path : SearchPath) : List Operation → List String
  | [] => []
  | operation :: operations =>
    (additions s path operation).map Prod.snd ++
      registered s (perform s path operation).2 operations

/-- Others take away only what is not on record at that moment. -/
def Considerate (s : Argv.Surroundings) (path : SearchPath) : List Operation → Prop
  | [] => True
  | operation :: operations =>
    (∀ p, operation = .foreignRemove p → p ∉ path.added) ∧
      Considerate s (perform s path operation).2 operations

theorem Considerate.of_prefix {s : Argv.Surroundings} {path : SearchPath}
    {moment operations : List Operation} (h : Considerate s path operations)
    (hbegins : moment <+: operations) : Considerate s path moment := by
  induction moment generalizing path operations with
  | nil => trivial
  | cons operation moment ih =>
    obtain ⟨rest, rfl⟩ := hbegins
    exact ⟨h.1, ih h.2 (List.prefix_append _ _)⟩

/-! ### The account -/

/-- The search path accounts for the foreign list `others`, where `known` are the paths that the
launcher has added so far. -/
structure Accounts (path : SearchPath) (others known : List String) : Prop where
  /-- Every entry is foreign or on record. -/
  count : ∀ p, path.entries.count p = others.count p + path.added.count p
  /-- What the launcher has never added stands as in the foreign list. -/
  order : path.entries.filter (· ∉ known) = others.filter (· ∉ known)
  /-- What is on record has been added. -/
  recorded : ∀ p ∈ path.added, p ∈ known

theorem filter_not_mem_append (l known more : List String) :
    l.filter (· ∉ known ++ more) = (l.filter (· ∉ known)).filter (· ∉ more) := by
  rw [List.filter_filter]
  refine List.filter_congr fun p _ ↦ ?_
  simp [Bool.and_comm]

/-- Taking away a known path does not show among the others. -/
theorem filter_not_mem_erase_of_mem {l known : List String} {p : String} (hp : p ∈ known) :
    (l.erase p).filter (· ∉ known) = l.filter (· ∉ known) := by
  rw [← List.erase_filter, List.erase_of_not_mem]
  simp [hp]

namespace Accounts

variable {path : SearchPath} {others known : List String}

theorem start (l : List String) : Accounts ⟨l, []⟩ l [] where
  count _ := rfl
  order := rfl
  recorded _ h := nomatch h

theorem add (h : path.Accounts others known) (e : End) (p : String) :
    (path.add e p).Accounts others (known ++ [p]) := by
  refine ⟨fun q ↦ ?_, ?_, fun q hq ↦ ?_⟩
  · have hcount := h.count q
    cases e <;> simp only [SearchPath.add, prepend, append, List.count_append, List.count_cons,
      List.count_nil] <;> omega
  · have hself : [p].filter (· ∉ known ++ [p]) = [] := by simp
    have horder : path.entries.filter (· ∉ known ++ [p]) = others.filter (· ∉ known ++ [p]) := by
      rw [filter_not_mem_append, filter_not_mem_append, h.order]
    cases e with
    | front =>
      show ([p] ++ path.entries).filter _ = _
      rw [List.filter_append, hself, List.nil_append, horder]
    | back =>
      show (path.entries ++ [p]).filter _ = _
      rw [List.filter_append, hself, List.append_nil, horder]
  · rw [added_add] at hq
    exact (List.mem_append.1 hq).elim (fun hq ↦ List.mem_append_left _ (h.recorded q hq))
      (List.mem_append_right _)

theorem addAll (h : path.Accounts others known) (additions : List Addition) :
    (path.addAll additions).Accounts others (known ++ additions.map Prod.snd) := by
  induction additions generalizing path known with
  | nil => rwa [List.map_nil, List.append_nil]
  | cons addition additions ih =>
    have hrest := ih (h.add addition.1 addition.2)
    rwa [List.append_assoc] at hrest

theorem close (h : path.Accounts others known) : path.close.Accounts others known where
  count p := by
    have hcount := h.count p
    show (path.added.foldl List.erase path.entries).count p = others.count p + 0
    rw [← List.diff_eq_foldl, List.count_diff]
    omega
  order := by
    -- only known paths are taken away
    have hkept : ∀ (recorded l : List String), (∀ p ∈ recorded, p ∈ known) →
        (recorded.foldl List.erase l).filter (· ∉ known) = l.filter (· ∉ known) := by
      intro recorded l hrecorded
      induction recorded generalizing l with
      | nil => rfl
      | cons p recorded ih =>
        obtain ⟨hp, hrest⟩ := List.forall_mem_cons.1 hrecorded
        exact (ih (l.erase p) hrest).trans (filter_not_mem_erase_of_mem hp)
    exact (hkept path.added path.entries h.recorded).trans h.order
  recorded _ hp := nomatch hp

theorem foreignAppend (h : path.Accounts others known) (p : String) :
    (path.foreignAppend p).Accounts (others ++ [p]) known where
  count q := by
    have hcount := h.count q
    simp only [SearchPath.foreignAppend, List.count_append]
    omega
  order := by
    show (path.entries ++ [p]).filter _ = _
    rw [List.filter_append, List.filter_append, h.order]
  recorded := h.recorded

/-- What others take away is an entry of theirs if the path is not on record. -/
theorem foreignRemove (h : path.Accounts others known) {p : String} (hp : p ∉ path.added) :
    Accounts { path with entries := path.entries.erase p } (others.erase p) known where
  count q := by
    have hcount := h.count q
    have hnone : path.added.count p = 0 := List.count_eq_zero.2 hp
    show (path.entries.erase p).count q = (others.erase p).count q + path.added.count q
    rw [List.count_erase, List.count_erase]
    by_cases hq : p = q
    · subst hq
      omega
    · have hbeq : (p == q) = false := by simpa using hq
      simp only [hbeq]
      exact hcount
  order := by
    show (path.entries.erase p).filter _ = _
    rw [← List.erase_filter, ← List.erase_filter, h.order]
  recorded := h.recorded

/-- A path that others do not find is not on the foreign list, either. -/
theorem erase_eq_self (h : path.Accounts others known) {p : String} (hp : p ∉ path.entries) :
    others.erase p = others := by
  refine List.erase_of_not_mem fun hmem ↦ ?_
  have hcount := h.count p
  rw [List.count_eq_zero.2 hp] at hcount
  have hpos := List.count_pos_iff.2 hmem
  omega

/-- **Every operation keeps the account.** -/
theorem perform (h : path.Accounts others known) (s : Argv.Surroundings) {operation : Operation}
    (hsingle : operation.isBlock = false)
    (hconsiderate : ∀ p, operation = .foreignRemove p → p ∉ path.added) :
    (SearchPath.perform s path operation).2.Accounts (foreign others operation)
      (known ++ (additions s path operation).map Prod.snd) := by
  have hown : operation.isOwn = true → (SearchPath.perform s path operation).2.Accounts others
      (known ++ (additions s path operation).map Prod.snd) := by
    intro hown
    rw [perform_of_isOwn s path hown]
    exact h.addAll _
  cases operation with
  | prepend p => exact hown rfl
  | append p => exact hown rfl
  | read tokens => exact hown rfl
  | close =>
    rw [SearchPath.perform]
    show path.close.Accounts others (known ++ [])
    rw [List.append_nil]
    exact h.close
  | foreignAppend p =>
    rw [SearchPath.perform]
    show (path.foreignAppend p).Accounts (others ++ [p]) (known ++ [])
    rw [List.append_nil]
    exact h.foreignAppend p
  | foreignRemove p =>
    rw [SearchPath.perform, foreignRemove?]
    by_cases hmem : p ∈ path.entries
    · rw [if_pos hmem]
      show Accounts { path with entries := path.entries.erase p } (others.erase p) (known ++ [])
      rw [List.append_nil]
      exact h.foreignRemove (hconsiderate p rfl)
    · rw [if_neg hmem]
      show path.Accounts (others.erase p) (known ++ [])
      rwa [List.append_nil, h.erase_eq_self hmem]
  | block operations => cases hsingle
  | failingBlock operations => cases hsingle

/-- **A sequence of operations keeps the account.** -/
theorem run (h : path.Accounts others known) (s : Argv.Surroundings) {operations : List Operation}
    (hsingle : ∀ operation ∈ operations, operation.isBlock = false)
    (hconsiderate : Considerate s path operations) :
    (SearchPath.run s path operations).Accounts (operations.foldl foreign others)
      (known ++ registered s path operations) := by
  induction operations generalizing path others known with
  | nil => rwa [registered, List.append_nil]
  | cons operation operations ih =>
    obtain ⟨hfirst, hrest⟩ := List.forall_mem_cons.1 hsingle
    have hkept := ih (h.perform s hfirst hconsiderate.1) hrest hconsiderate.2
    rwa [List.append_assoc] at hkept

end Accounts

/-- **The search path never harms entries of others** that take away nothing on record. At every moment
each text occurs in it as often as in the foreign list and on record together, and what was never added
stands in it as in the foreign list. Right after a close it is a rearrangement of the foreign list, and
nothing is on record. -/
theorem foreign_entries_kept (s : Argv.Surroundings) (l : List String) (operations : List Operation)
    (hsingle : ∀ operation ∈ operations, operation.isBlock = false)
    (hconsiderate : Considerate s ⟨l, []⟩ operations) (moment : List Operation)
    (hmoment : moment <+: operations) :
    let path := run s ⟨l, []⟩ moment
    let others := moment.foldl foreign l
    let known := registered s ⟨l, []⟩ moment
    (∀ p, path.entries.count p = others.count p + path.added.count p) ∧
      path.entries.filter (· ∉ known) = others.filter (· ∉ known) ∧
      (moment.getLast? = some .close → path.entries.Perm others ∧ path.added = []) := by
  intro path others known
  have haccounts : path.Accounts others known := by
    have hrun := (Accounts.start l).run s (fun operation hmem ↦ hsingle operation (hmoment.subset hmem))
      (hconsiderate.of_prefix hmoment)
    rwa [List.nil_append] at hrun
  refine ⟨haccounts.count, haccounts.order, fun hlast ↦ ?_⟩
  have hadded : path.added = [] := by
    obtain ⟨earlier, rfl⟩ := List.getLast?_eq_some_iff.1 hlast
    show (run s ⟨l, []⟩ (earlier ++ [.close])).added = []
    rw [run, List.foldl_append, List.foldl_cons, List.foldl_nil, SearchPath.perform]
    rfl
  refine ⟨List.perm_iff_count.2 fun p ↦ ?_, hadded⟩
  rw [haccounts.count p, hadded]
  rfl

/-- The launcher adds what is there already, others look for what is not there, and after the close
the list is that of the others, in another order. -/
theorem foreign_entries_kept_until_close :
    let operations : List Operation := [.prepend "/std", .foreignAppend "/other", .append "/usr",
      .foreignRemove "/gone", .close]
    Considerate desert ⟨["/std", "/usr"], []⟩ operations ∧
      (run desert ⟨["/std", "/usr"], []⟩ operations).entries = ["/std", "/other", "/usr"] ∧
      (run desert ⟨["/std", "/usr"], []⟩ operations).entries.Perm ["/std", "/usr", "/other"] := by
  intro operations
  have hconsiderate : Considerate desert ⟨["/std", "/usr"], []⟩ operations := by
    simp [operations, Considerate, perform, prepend, append, foreignAppend]
  have hkept := foreign_entries_kept desert ["/std", "/usr"] operations (by decide) hconsiderate
    operations (List.prefix_refl operations)
  exact ⟨hconsiderate, by decide, (hkept.2.2 rfl).1⟩

end Launcher.SearchPath
