import Launcher.Proofs.FileTree.Below

/-!
# Names in a tree

Whatever is put into a tree by its path gets a name that it can have, and so do the directories that
are created for it. So everything has such a name in a tree that is put together from paths
(`wellNamed_ofList`), and creating directories changes nothing about that
(`WellNamed.ensureDirectories`).
-/

namespace Launcher.FileTree

variable {t t' : FileTree} {path : String} {place : List String} {kind : Kind}

theorem WellNamed.insert (h : t.WellNamed)
    (hplace : ∀ name ∈ place.getLast?, '/' ∉ name.toList ∧ name ≠ "") :
    (t.insert place kind).WellNamed := by
  intro entry hentry
  rcases List.mem_append.1 hentry with hold | hnew
  · exact h entry (List.mem_of_mem_filter hold)
  · obtain rfl := List.mem_singleton.1 hnew
    exact hplace

/-- What is found in the tree has a name that it can have. -/
theorem WellNamed.of_kind? (h : t.WellNamed) (hkind : (t.kind? place).isSome)
    (hroot : ¬(place = [] ∨ place = workingPlace)) :
    ∀ name ∈ place.getLast?, '/' ∉ name.toList ∧ name ≠ "" := by
  rw [kind?, if_neg hroot] at hkind
  obtain ⟨kind, hlookup⟩ := Option.isSome_iff_exists.1 hkind
  obtain ⟨front, rear, hentries, -⟩ := List.lookup_eq_some_iff.1 hlookup
  exact h (place, kind) (hentries ▸ List.mem_append_right _ List.mem_cons_self)

/-- A path names something that can be named. -/
theorem WellNamed.of_locateEntry (h : t.WellNamed) (hplace : t.locateEntry path = .ok place)
    (hroot : ¬(place = [] ∨ place = workingPlace)) :
    ∀ name ∈ place.getLast?, '/' ∉ name.toList ∧ name ≠ "" := by
  rw [locateEntry] at hplace
  split at hplace
  · cases hplace
  · dsimp only at hplace
    by_cases hlast : Path.baseName path = "" ∨ Path.baseName path = "." ∨ Path.baseName path = ".."
    · rw [if_pos hlast] at hplace
      -- the path ends in no name, so it leads to a place that is there already
      obtain ⟨left, hreaches⟩ := locate_eq_ok_iff.1 hplace
      exact h.of_kind? (hreaches.standing place (List.prefix_refl _)) hroot
    · rw [if_neg hlast] at hplace
      split at hplace
      · cases hplace
      · split_ifs at hplace
        cases hplace
        rw [List.getLast?_concat]
        rintro name ⟨⟩
        refine ⟨?_, (not_or.1 hlast).1⟩
        rw [Path.baseName, String.toList_ofList]
        exact Path.not_mem_lastPart _

/-! ### Creating directories -/

theorem WellNamed.makeDirectory (h : t.WellNamed) (hmake : t.makeDirectory path = .ok t') :
    t'.WellNamed := by
  rw [FileTree.makeDirectory] at hmake
  split at hmake
  · cases hmake
  · split at hmake
    · cases hmake
    · next place hplace =>
      split_ifs at hmake with hkind
      cases hmake
      refine h.insert (h.of_locateEntry hplace fun hroot ↦ hkind ?_)
      rw [kind?, if_pos hroot]
      rfl

theorem WellNamed.ensureLast (h : t.WellNamed) (path : String) :
    (t.ensureLast path).2.WellNamed := by
  rw [FileTree.ensureLast]
  split
  · next hmake => exact h.makeDirectory hmake
  · split_ifs <;> exact h

theorem WellNamed.ensureWithin (h : t.WellNamed) (n : Nat) (path : String) :
    (FileTree.ensureWithin n path t).2.WellNamed := by
  induction n generalizing path with
  | zero => exact h
  | succ n ih =>
    rw [FileTree.ensureWithin]
    dsimp only
    have habove := ih (splitName path).1
    split
    · exact h.ensureLast path
    · split
      · next hfailure =>
        rw [hfailure] at habove
        split_ifs
        · exact habove
        · exact habove
        · exact habove.ensureLast path
      · next hdone =>
        rw [hdone] at habove
        split_ifs
        · exact habove
        · exact habove.ensureLast path

theorem WellNamed.ensureDirectory (h : t.WellNamed) (path : String) :
    (t.ensureDirectory path).2.WellNamed :=
  h.ensureWithin _ path

/-- The tree with directories created at the given paths, one after another. -/
def ensureDirectories (t : FileTree) : List String → FileTree
  | [] => t
  | path :: paths => (t.ensureDirectory path).2.ensureDirectories paths

theorem WellNamed.ensureDirectories (h : t.WellNamed) (paths : List String) :
    (t.ensureDirectories paths).WellNamed := by
  induction paths generalizing t with
  | nil => exact h
  | cons path paths ih =>
    rw [FileTree.ensureDirectories]
    exact ih (h.ensureDirectory path)

/-! ### Putting a tree together -/

theorem WellNamed.put (h : t.WellNamed) (path : String) (kind : Kind) :
    (t.put path kind).WellNamed := by
  have habove : (if (Path.split path).1.isEmpty then t
      else (t.ensureDirectory (Path.split path).1).2).WellNamed := by
    split_ifs
    · exact h
    · exact h.ensureDirectory _
  rw [FileTree.put]
  generalize (if (Path.split path).1.isEmpty then t
      else (t.ensureDirectory (Path.split path).1).2) = u at habove ⊢
  split
  · next place hplace =>
    split_ifs with hroot
    · exact habove
    · exact habove.insert (habove.of_locateEntry hplace hroot)
  · exact habove

/-- Everything has a name that it can have in a tree that is put together from paths. -/
theorem wellNamed_ofList (entries : List (String × Kind)) : (ofList entries).WellNamed := by
  have hfold : ∀ t : FileTree, t.WellNamed →
      (entries.foldl (fun t entry ↦ t.put entry.1 entry.2) t).WellNamed := by
    induction entries with
    | nil => exact fun _ h ↦ h
    | cons entry entries ih => exact fun t h ↦ ih _ (h.put entry.1 entry.2)
  exact hfold {} (List.forall_mem_nil _)

end Launcher.FileTree
