import Mathlib.Tactic
import SchemaTypes.Files.Tree

/-!
Directories on a way through a tree of files.

* `FileTree.get?_put`, `FileTree.get?_erase`: what is at a place after a change;
* `FileTree.Spares`: a tree stays as it is outside of some places, but for
  directories that are made;
* `FileTree.walk_mono`: a way that is there stays there as long as no directory
  of the tree goes away;
* `FileTree.reach`: a way with the missing directories made;
* `FileTree.walk_of_reach`, `FileTree.reach_walk`: before, the way is there or
  stops at a directory that is missing; afterwards it is there;
* `FileTree.resolve`: the place at the end of a way, read off the names.
-/

namespace SchemaTypes

/-! ### Changes of a tree -/

lemma lookup_filter_ne {places : List (Place × Entry)} {place other : Place} (h : other ≠ place) :
    (places.filter (·.1 ≠ place)).lookup other = places.lookup other := by
  induction places with
  | nil => rfl
  | cons entry rest ih =>
      obtain ⟨at_, entry⟩ := entry
      by_cases hat : at_ = place
      · have hother : (other == at_) = false := by simpa [hat] using h
        rw [List.filter_cons_of_neg (by simp [hat]), ih, List.lookup_cons, hother]
      · rw [List.filter_cons_of_pos (by simp [hat]), List.lookup_cons, List.lookup_cons, ih]

lemma lookup_filter_self (places : List (Place × Entry)) (place : Place) :
    (places.filter (·.1 ≠ place)).lookup place = none := by
  refine List.lookup_eq_none_iff.mpr fun entry hentry => ?_
  have hne : entry.1 ≠ place := by simpa using (List.mem_filter.mp hentry).2
  simpa using Ne.symm hne

namespace FileTree

@[simp] lemma get?_root (t : FileTree) : t.get? [] = some .directory := rfl

/-- An entry is where it is put, and all else stays. -/
lemma get?_put (t : FileTree) {place : Place} (hplace : place ≠ []) (entry : Entry)
    (other : Place) :
    (t.put place entry).get? other = if other = place then some entry else t.get? other := by
  by_cases hroot : other = []
  · subst hroot
    rw [if_neg (Ne.symm hplace)]
    rfl
  · rw [get?, if_neg hroot, put, List.lookup_cons]
    by_cases hother : other = place
    · simp [hother]
    · rw [if_neg hother, beq_false_of_ne hother, erase, get?, if_neg hroot]
      exact lookup_filter_ne hother

/-- Nothing is left where an entry is erased, and all else stays. -/
lemma get?_erase (t : FileTree) {place : Place} (hplace : place ≠ []) (other : Place) :
    (t.erase place).get? other = if other = place then none else t.get? other := by
  by_cases hroot : other = []
  · subst hroot
    rw [if_neg (Ne.symm hplace)]
    rfl
  · rw [get?, if_neg hroot, erase]
    by_cases hother : other = place
    · rw [if_pos hother, hother, lookup_filter_self]
    · rw [if_neg hother, get?, if_neg hroot, lookup_filter_ne hother]

/-- Outside of the places touched a tree stays as it is, but for directories that
are made where nothing was. -/
def Spares (touched : Set Place) (t t' : FileTree) : Prop :=
  ∀ place ∉ touched, t'.get? place = t.get? place
    ∨ t.get? place = none ∧ t'.get? place = some .directory

lemma Spares.refl (touched : Set Place) (t : FileTree) : Spares touched t t :=
  fun _ _ => .inl rfl

lemma Spares.trans {touched : Set Place} {t t' t'' : FileTree} (h : Spares touched t t')
    (h' : Spares touched t' t'') : Spares touched t t'' := by
  intro place hplace
  obtain heq | ⟨hfree, hdir⟩ := h place hplace
  · rw [← heq]
    exact h' place hplace
  · obtain heq' | ⟨hfree', -⟩ := h' place hplace
    · exact .inr ⟨hfree, heq'.trans hdir⟩
    · simp [hfree'] at hdir

lemma Spares.mono {touched more : Set Place} (hmore : touched ⊆ more) {t t' : FileTree}
    (h : Spares touched t t') : Spares more t t' :=
  fun place hplace => h place fun hmem => hplace (hmore hmem)

lemma spares_put (t : FileTree) {place : Place} (hplace : place ≠ []) (entry : Entry) :
    Spares {place} t (t.put place entry) := by
  intro other hother
  have hne : other ≠ place := hother
  exact .inl (by rw [get?_put t hplace, if_neg hne])

lemma spares_erase (t : FileTree) {place : Place} (hplace : place ≠ []) :
    Spares {place} t (t.erase place) := by
  intro other hother
  have hne : other ≠ place := hother
  exact .inl (by rw [get?_erase t hplace, if_neg hne])

/-- Making a directory where nothing is touches nothing. -/
lemma spares_makeDirectory {t : FileTree} {place : Place} (hfree : t.get? place = none) :
    Spares ∅ t (t.put place .directory) := by
  have hplace : place ≠ [] := fun hroot => by simp [hroot] at hfree
  intro other _
  rw [get?_put t hplace]
  split_ifs with hother
  · exact .inr ⟨hother ▸ hfree, rfl⟩
  · exact .inl rfl

/-- No directory of a tree is missing in the other one. -/
def Retains (t t' : FileTree) : Prop :=
  ∀ place, t.get? place = some .directory → t'.get? place = some .directory

lemma Spares.retains {touched : Set Place} {t t' : FileTree} (h : Spares touched t t')
    (htouched : ∀ place ∈ touched, t.get? place ≠ some .directory) : t.Retains t' := by
  intro place hdir
  obtain heq | ⟨-, hdir'⟩ := h place fun hmem => htouched place hmem hdir
  · exact heq.trans hdir
  · exact hdir'

/-! ### Ways -/

/-- A way that is there stays there as long as no directory goes away. -/
lemma walk_mono {t t' : FileTree} (h : t.Retains t') {parts : List String} {start stop : Place}
    (hwalk : t.walk start parts = .ok stop) : t'.walk start parts = .ok stop := by
  induction parts generalizing start with
  | nil => exact hwalk
  | cons part rest ih =>
      rw [walk] at hwalk ⊢
      split_ifs at hwalk ⊢ with hstay hup hlong
      · exact ih hwalk
      · exact ih hwalk
      · split at hwalk
        · cases hwalk
        · cases hwalk
        · rename_i hdir
          rw [h _ hdir]
          exact ih hwalk

/-- The way of parts of a path, with the directories made that are missing: the
tree with them and the place reached. There is none where a file is in the way
or a name is too long. -/
def reach : FileTree → Place → List String → Option (FileTree × Place)
  | t, place, [] => some (t, place)
  | t, place, part :: rest =>
    if part = "" ∨ part = "." then reach t place rest
    else if part = ".." then reach t place.dropLast rest
    else if nameLimit < part.utf8ByteSize then none
    else
      match t.get? (place ++ [part]) with
      | none => reach (t.put (place ++ [part]) .directory) (place ++ [part]) rest
      | some (.file _) => none
      | some .directory => reach t (place ++ [part]) rest

lemma reach_append (front back : List String) (t : FileTree) (place : Place) :
    t.reach place (front ++ back) = (t.reach place front).bind fun r => r.1.reach r.2 back := by
  induction front generalizing t place with
  | nil => rfl
  | cons part rest ih =>
      rw [List.cons_append, reach, reach]
      split_ifs
      · exact ih t place
      · exact ih t place.dropLast
      · rfl
      · split
        · exact ih _ _
        · rfl
        · exact ih _ _

/-- A way that is there is reached without making anything. -/
lemma reach_of_walk {t : FileTree} {parts : List String} {start stop : Place}
    (hwalk : t.walk start parts = .ok stop) : t.reach start parts = some (t, stop) := by
  induction parts generalizing start with
  | nil =>
      cases hwalk
      rfl
  | cons part rest ih =>
      rw [walk] at hwalk
      rw [reach]
      split_ifs at hwalk ⊢ with hstay hup hlong
      · exact ih hwalk
      · exact ih hwalk
      · cases hentry : t.get? (start ++ [part]) with
        | none => simp [hentry] at hwalk
        | some entry =>
            cases entry with
            | file bytes => simp [hentry] at hwalk
            | directory =>
                rw [hentry] at hwalk
                exact ih hwalk

/-- A way that can be made is there already, or it stops where a directory is
missing. -/
lemma walk_of_reach {t t' : FileTree} {parts : List String} {start stop : Place}
    (hreach : t.reach start parts = some (t', stop)) :
    t.walk start parts = .ok stop ∧ t' = t ∨ t.walk start parts = .error .notFound := by
  induction parts generalizing start with
  | nil =>
      cases hreach
      exact .inl ⟨rfl, rfl⟩
  | cons part rest ih =>
      rw [reach] at hreach
      rw [walk]
      split_ifs at hreach ⊢ with hstay hup hlong
      · exact ih hreach
      · exact ih hreach
      · cases hentry : t.get? (start ++ [part]) with
        | none => exact .inr rfl
        | some entry =>
            cases entry with
            | file bytes => simp [hentry] at hreach
            | directory =>
                rw [hentry] at hreach
                exact ih hreach

/-- Making the directories on a way touches nothing. -/
lemma spares_of_reach {t t' : FileTree} {parts : List String} {start stop : Place}
    (hreach : t.reach start parts = some (t', stop)) : Spares ∅ t t' := by
  induction parts generalizing t start with
  | nil =>
      cases hreach
      exact .refl _ _
  | cons part rest ih =>
      rw [reach] at hreach
      split_ifs at hreach with hstay hup hlong
      · exact ih hreach
      · exact ih hreach
      · split at hreach
        · rename_i hfree
          exact (spares_makeDirectory hfree).trans (ih hreach)
        · cases hreach
        · exact ih hreach

lemma retains_of_reach {t t' : FileTree} {parts : List String} {start stop : Place}
    (hreach : t.reach start parts = some (t', stop)) : t.Retains t' :=
  (spares_of_reach hreach).retains fun _ hmem => absurd hmem (Set.notMem_empty _)

/-- Once the directories are made the way is there. -/
lemma reach_walk {t t' : FileTree} {parts : List String} {start stop : Place}
    (hreach : t.reach start parts = some (t', stop)) : t'.walk start parts = .ok stop := by
  induction parts generalizing t start with
  | nil =>
      cases hreach
      rfl
  | cons part rest ih =>
      rw [reach] at hreach
      rw [walk]
      split_ifs at hreach ⊢ with hstay hup hlong
      · exact ih hreach
      · exact ih hreach
      · split at hreach
        · have hdir : (t.put (start ++ [part]) .directory).get? (start ++ [part])
              = some .directory := by
            rw [get?_put t (by simp), if_pos rfl]
          rw [retains_of_reach hreach _ hdir]
          exact ih hreach
        · cases hreach
        · rename_i hdir
          rw [retains_of_reach hreach _ hdir]
          exact ih hreach

/-! ### Places -/

/-- The place at the end of a way, which hangs on the names only. -/
def resolve : Place → List String → Place
  | place, [] => place
  | place, part :: rest =>
    if part = "" ∨ part = "." then resolve place rest
    else if part = ".." then resolve place.dropLast rest
    else resolve (place ++ [part]) rest

lemma resolve_append (front back : List String) (place : Place) :
    resolve place (front ++ back) = resolve (resolve place front) back := by
  induction front generalizing place with
  | nil => rfl
  | cons part rest ih =>
      rw [List.cons_append, resolve, resolve]
      split_ifs
      · exact ih place
      · exact ih place.dropLast
      · exact ih (place ++ [part])

lemma stop_of_reach {t t' : FileTree} {parts : List String} {start stop : Place}
    (hreach : t.reach start parts = some (t', stop)) : stop = resolve start parts := by
  induction parts generalizing t start with
  | nil =>
      cases hreach
      rfl
  | cons part rest ih =>
      rw [reach] at hreach
      rw [resolve]
      split_ifs at hreach ⊢ with hstay hup hlong
      · exact ih hreach
      · exact ih hreach
      · split at hreach
        · exact ih hreach
        · cases hreach
        · exact ih hreach

end FileTree

end SchemaTypes
