import SchemaTypes.Proofs.Paths
import SchemaTypes.Proofs.Simulation
import SchemaTypes.Proofs.Volumes

/-!
Trees of files as volumes.

* `Volume.Shows`: a volume without links, in which no file has two names and the root is
  the current directory, has just what is in a tree; every tree is shown by one
  (`Volume.shows_ofTree`);
* `Volume.Shows.locate`: paths lead to the same in both;
* `Volume.Shows.remove`, `Volume.Shows.makeDirectory`, `Volume.Shows.append`: the
  operations on files are refused in both, or keep them alike;
* `program_agrees`: the program does the same to a tree and to a volume that shows it,
  of which there is one for every tree (`showsMachine_ofTree`).
-/

namespace SchemaTypes

namespace Volume

/-- What an entry of a volume without links is in a tree. -/
def shown (v : Volume) : VolumeEntry → Entry
  | .file node => .file (v.contents node)
  | _ => .directory

/-- The volume has just what is in the tree: it has no links, no file has two names, and
its root is the current directory. -/
structure Shows (v : Volume) (t : FileTree) : Prop where
  current : v.current = []
  linkless : ∀ place path, v.get? place ≠ some (.link path)
  single : ∀ place place' node, v.get? place = some (.file node) →
    v.get? place' = some (.file node) → place = place'
  entry : ∀ place, t.get? place = (v.get? place).map v.shown

/-- A change is refused for the same reason, or goes through on both sides. -/
inductive Matches {ε : Type} : Except ε Volume → Except ε FileTree → Prop
  | error (fault : ε) : Matches (.error fault) (.error fault)
  | ok {v : Volume} {t : FileTree} (h : v.Shows t) : Matches (.ok v) (.ok t)

lemma Matches.mapError {ε ε' : Type} {changed : Except ε Volume} {changed' : Except ε FileTree}
    (h : Matches changed changed') (f : ε → ε') :
    Matches (changed.mapError f) (changed'.mapError f) := by
  cases h with
  | error fault => exact .error (f fault)
  | ok hshows => exact .ok hshows

variable {v : Volume} {t : FileTree}

/-- What can be at a place of both. -/
lemma Shows.cases (h : v.Shows t) (place : Place) :
    (v.get? place = none ∧ t.get? place = none)
      ∨ (v.get? place = some .directory ∧ t.get? place = some .directory)
      ∨ ∃ node, v.get? place = some (.file node)
        ∧ t.get? place = some (.file (v.contents node)) := by
  rw [h.entry place]
  cases hentry : v.get? place with
  | none => exact .inl ⟨rfl, rfl⟩
  | some entry =>
      cases entry with
      | directory => exact .inr (.inl ⟨rfl, rfl⟩)
      | file node => exact .inr (.inr ⟨node, rfl, rfl⟩)
      | link path => exact absurd hentry (h.linkless place path)

/-! ### The volume of a tree -/

/-- The number of the first entry at a place. -/
def number (t : FileTree) (place : Place) : ℕ := t.entries.findIdx fun entry => entry.1 = place

/-- The entry that is found at a place is the first one there. -/
lemma getElem?_number {place : Place} {entry : Entry} (h : t.entries.lookup place = some entry) :
    t.entries[number t place]? = some (place, entry) := by
  obtain ⟨before, after, hentries, hbefore⟩ := List.lookup_eq_some_iff.mp h
  have hnone : before.findIdx (fun other => other.1 = place) = before.length := by
    refine List.findIdx_eq_length.mpr fun other hother => ?_
    exact decide_eq_false (Ne.symm (bne_iff_ne.mp (hbefore other hother)))
  have hnumber : number t place = before.length := by
    rw [number, hentries, List.findIdx_append, hnone, if_neg (lt_irrefl _), List.findIdx_cons]
    simp
  rw [hnumber, hentries]
  simp

/-- The volume with the entries of a tree. -/
def ofTree (t : FileTree) : Volume where
  entries place :=
    match t.entries.lookup place with
    | none => none
    | some .directory => some .directory
    | some (.file _) => some (.file (number t place))
  contents node :=
    match t.entries[node]? with
    | some (_, .file bytes) => bytes
    | _ => .empty
  unused := t.entries.length
  named place node h := by
    split at h
    · cases h
    · cases h
    · rename_i bytes hfile
      cases h
      exact (List.getElem?_eq_some_iff.mp (getElem?_number hfile)).1

lemma exists_of_get?_ofTree {place : Place} {node : ℕ}
    (h : (ofTree t).get? place = some (.file node)) :
    ∃ bytes, t.entries.lookup place = some (.file bytes) ∧ number t place = node := by
  rw [get?, ofTree] at h
  dsimp only at h
  split_ifs at h
  · cases h
  · split at h
    · cases h
    · cases h
    · rename_i bytes hfile
      cases h
      exact ⟨bytes, hfile, rfl⟩

/-- **Every tree is shown by a volume.** -/
theorem shows_ofTree (t : FileTree) : (ofTree t).Shows t where
  current := rfl
  linkless place path h := by
    rw [get?, ofTree] at h
    dsimp only at h
    split_ifs at h
    · cases h
    · split at h <;> cases h
  single place place' node h h' := by
    obtain ⟨bytes, hfile, rfl⟩ := exists_of_get?_ofTree h
    obtain ⟨bytes', hfile', hnumber⟩ := exists_of_get?_ofTree h'
    -- the entry of a number gives its place back
    have hentry := getElem?_number hfile
    rw [← hnumber, getElem?_number hfile'] at hentry
    cases hentry
    rfl
  entry place := by
    rw [FileTree.get?, get?]
    split_ifs
    · rfl
    · rw [ofTree]
      dsimp only
      split
      · assumption
      · assumption
      · rename_i bytes hfile
        have hbytes : (ofTree t).contents (number t place) = bytes := by
          simp only [ofTree, getElem?_number hfile]
        rw [hfile]
        exact congrArg (some ∘ Entry.file) hbytes.symm

/-! ### Paths -/

/-- The end of a way without links. -/
def Stride.ofExcept : Except FileFault FileTree.Target → Stride
  | .error fault => .refused fault
  | .ok target => .arrived target

/-- Empty parts lead nowhere else. -/
lemma stride_marks (follow : Bool) (place : Place) {parts : List String}
    (hparts : ∀ part ∈ parts, part = "") :
    v.stride follow place parts = .arrived (.fixed place) := by
  induction parts with
  | nil => rfl
  | cons part rest ih =>
      obtain ⟨hpart, hrest⟩ := List.forall_mem_cons.mp hparts
      rw [stride, if_pos (.inl hpart), ih hrest]

/-- The last name of a way. -/
lemma Shows.stride_last (h : v.Shows t) (follow : Bool) (parent : Place) {last : String}
    {marks : List String} (hlast : last ≠ "") (hmarks : ∀ part ∈ marks, part = "") :
    v.stride follow parent (last :: marks)
      = .ofExcept (FileTree.nameIn parent last (decide (marks ≠ []))) := by
  have hall : marks.all (· = "") = true := by simpa using hmarks
  rw [stride, FileTree.nameIn]
  by_cases hhere : last = "."
  · rw [if_pos (.inr hhere), if_pos hhere, stride_marks follow parent hmarks]
    rfl
  rw [if_neg (by simp [hlast, hhere]), if_neg hhere]
  split_ifs with hup hlong
  · exact stride_marks follow _ hmarks
  · rfl
  · rw [stop]
    split
    · rename_i path hlink
      exact absurd hlink (h.linkless _ path)
    · rfl

/-- A way through the volume is the walk through the tree, up to the last name. -/
lemma Shows.stride (h : v.Shows t) (follow : Bool) (place : Place) (front : List String)
    {last : String} {marks : List String} (hlast : last ≠ "")
    (hmarks : ∀ part ∈ marks, part = "") :
    v.stride follow place (front ++ last :: marks)
      = .ofExcept ((t.walk place front).bind fun parent =>
          FileTree.nameIn parent last (decide (marks ≠ []))) := by
  induction front generalizing place with
  | nil => exact h.stride_last follow place hlast hmarks
  | cons part rest ih =>
      have hmore : ¬ (rest ++ last :: marks).all (· = "") = true := by simp [hlast]
      rw [List.cons_append, Volume.stride, FileTree.walk]
      split_ifs with hstay hup hlong
      · exact ih place
      · exact ih place.dropLast
      · rfl
      · obtain ⟨hv, ht⟩ | ⟨hv, ht⟩ | ⟨node, hv, ht⟩ := h.cases (place ++ [part])
        · rw [hv, ht]
          rfl
        · rw [hv, ht]
          exact ih (place ++ [part])
        · rw [hv, ht]
          rfl

/-- Without links a way is resolved at once. -/
lemma Shows.resolve (h : v.Shows t) (follow : Bool) (links : ℕ) {front : List String}
    {last : String} {marks : List String} (hlast : last ≠ "")
    (hmarks : ∀ part ∈ marks, part = "") (place : Place) :
    v.resolve follow links place (front ++ last :: marks)
      = (t.walk place front).bind fun parent =>
          FileTree.nameIn parent last (decide (marks ≠ [])) := by
  have hway := h.stride follow place front hlast hmarks
  cases hend : (t.walk place front).bind fun parent =>
      FileTree.nameIn parent last (decide (marks ≠ [])) with
  | error fault =>
      rw [hend] at hway
      exact resolve_of_refused hway
  | ok target =>
      rw [hend] at hway
      exact resolve_of_arrived hway

/-- **Paths lead to the same place** in a volume and the tree that it shows. -/
theorem Shows.locate (h : v.Shows t) (follow : Bool) (path : String) :
    v.locate follow path = t.locate path := by
  have horigin : origin v.current path = [] := by
    rw [origin, h.current, ite_self]
  rw [Volume.locate, horigin]
  obtain hslashes | ⟨front, last, marks, hparts, hlast, hmarks⟩ :=
    exists_last_or_forall (p := (· = "")) (pathParts path)
  · rw [resolve_of_arrived (stride_marks follow [] hslashes), FileTree.locate_slashes t hslashes]
  · have hne : path ≠ "" := by
      rintro rfl
      have hmem : last ∈ pathParts "" := by simp [hparts]
      exact hlast (List.mem_singleton.mp hmem)
    rw [if_neg hne, hparts, h.resolve follow linkLimit hlast hmarks,
      FileTree.locate_eq_nameIn t hparts hlast hmarks]

/-! ### Operations -/

/-- A file can be read in both, with the same bytes, or fails for the same reason. -/
lemma Shows.read (h : v.Shows t) (path : String) : v.read path = t.read path := by
  rw [Volume.read, FileTree.read, h.locate]
  cases t.locate path with
  | error fault => rfl
  | ok target =>
      cases target with
      | fixed place => rfl
      | entry place marked =>
          obtain ⟨hv, ht⟩ | ⟨hv, ht⟩ | ⟨node, hv, ht⟩ := h.cases place <;> simp only [hv, ht]

lemma Shows.isDirectory (h : v.Shows t) (path : String) :
    v.isDirectory path = t.isDirectory path := by
  rw [Volume.isDirectory, FileTree.isDirectory, h.locate]
  cases t.locate path with
  | error fault => rfl
  | ok target =>
      cases target with
      | fixed place => rfl
      | entry place marked =>
          obtain ⟨hv, ht⟩ | ⟨hv, ht⟩ | ⟨node, hv, ht⟩ := h.cases place <;> simp [hv, ht]

/-- The same change at one place of both. A file that comes there is at no other place,
and the files at other places keep their bytes. -/
lemma Shows.update (h : v.Shows t) {w : Volume} {t' : FileTree} {place : Place}
    {entry : Option VolumeEntry} (hcurrent : w.current = v.current)
    (hget : ∀ other, w.get? other = if other = place then entry else v.get? other)
    (hget' : ∀ other, t'.get? other = if other = place then entry.map w.shown else t.get? other)
    (hlink : ∀ path, entry ≠ some (.link path))
    (hfresh : ∀ node, entry = some (.file node) → ∀ other ≠ place,
      v.get? other ≠ some (.file node))
    (hcontents : ∀ node, ∀ other ≠ place, v.get? other = some (.file node) →
      w.contents node = v.contents node) : w.Shows t' := by
  refine ⟨hcurrent.trans h.current, fun other path hother => ?_,
    fun other other' node hfile hfile' => ?_, fun other => ?_⟩
  · rw [hget] at hother
    split_ifs at hother
    · exact hlink path hother
    · exact h.linkless other path hother
  · rw [hget] at hfile hfile'
    split_ifs at hfile hfile' with hhere hhere' hhere'
    · exact hhere.trans hhere'.symm
    · exact absurd hfile' (hfresh node hfile other' hhere')
    · exact absurd hfile (hfresh node hfile' other hhere)
    · exact h.single other other' node hfile hfile'
  · rw [hget, hget']
    split_ifs with hhere
    · rfl
    · -- the files at other places have the bytes that they had
      obtain ⟨hv, ht⟩ | ⟨hv, ht⟩ | ⟨node, hv, ht⟩ := h.cases other
      · rw [hv, ht, Option.map_none]
      · rw [hv, ht]
        rfl
      · rw [hv, ht, Option.map_some, Volume.shown, hcontents node other hhere hv]

/-- A new file, whose number no other place has. -/
lemma Shows.create (h : v.Shows t) {place : Place} (hfree : v.get? place = none)
    (bytes : ByteArray) : (v.create place bytes).Shows (t.put place (.file bytes)) := by
  have hplace := ne_root_of_get? hfree (by simp)
  have hget := get?_update (v := v) (w := v.create place bytes) hplace rfl
  have hget' (other : Place) : (t.put place (.file bytes)).get? other
      = if other = place then (some (VolumeEntry.file v.unused)).map (v.create place bytes).shown
        else t.get? other := by
    rw [FileTree.get?_put t hplace]
    simp [shown, Volume.create]
  refine h.update rfl hget hget' (by simp) (fun node hnode other _ hother => ?_)
    fun node other _ hother => if_neg (lt_unused_of_get? hother).ne
  cases hnode
  exact absurd (lt_unused_of_get? hother) (lt_irrefl _)

/-- More bytes in a file, which is at no other place. -/
lemma Shows.extend (h : v.Shows t) {place : Place} {node : ℕ}
    (hfile : v.get? place = some (.file node)) (bytes : ByteArray) :
    (v.extend node bytes).Shows (t.put place (.file (v.contents node ++ bytes))) := by
  have hplace := ne_root_of_get? hfile (by simp)
  have hget (other : Place) : (v.extend node bytes).get? other
      = if other = place then some (.file node) else v.get? other := by
    split_ifs with hhere
    · rw [hhere]
      exact hfile
    · rfl
  have hget' (other : Place) : (t.put place (.file (v.contents node ++ bytes))).get? other
      = if other = place then (some (VolumeEntry.file node)).map (v.extend node bytes).shown
        else t.get? other := by
    rw [FileTree.get?_put t hplace]
    simp [shown, Volume.extend]
  refine h.update rfl hget hget' (by simp) (fun node' hnode other hne hother => ?_)
    fun node' other hne hother => if_neg ?_
  · cases hnode
    exact hne (h.single other place node hother hfile)
  · rintro rfl
    exact hne (h.single other place node' hother hfile)

/-- The removal of a file matches. -/
lemma Shows.remove (h : v.Shows t) (path : String) : Matches (v.remove path) (t.remove path) := by
  rw [Volume.remove, FileTree.remove, h.locate]
  cases t.locate path with
  | error fault => exact .error fault
  | ok target =>
      cases target with
      | fixed place => exact .error _
      | entry place marked =>
          obtain ⟨hv, ht⟩ | ⟨hv, ht⟩ | ⟨node, hv, ht⟩ := h.cases place <;> simp only [hv, ht]
          · exact .error _
          · exact .error _
          · have hplace := ne_root_of_get? hv (by simp)
            split_ifs
            · exact .error _
            · exact .ok (h.update rfl (get?_update hplace rfl) (FileTree.get?_erase t hplace)
                (by simp) (by simp) fun _ _ _ _ => rfl)

/-- The making of a directory matches. -/
lemma Shows.makeDirectory (h : v.Shows t) (path : String) :
    Matches (v.makeDirectory path) (t.makeDirectory path) := by
  rw [Volume.makeDirectory, FileTree.makeDirectory, h.locate]
  cases t.locate path with
  | error fault => exact .error fault
  | ok target =>
      cases target with
      | fixed place => exact .error _
      | entry place marked =>
          obtain ⟨hv, ht⟩ | ⟨hv, ht⟩ | ⟨node, hv, ht⟩ := h.cases place <;> simp only [hv, ht]
          · have hplace := ne_root_of_get? hv (by simp)
            exact .ok (h.update rfl (get?_update hplace rfl) (FileTree.get?_put t hplace _)
              (by simp) (by simp) fun _ _ _ _ => rfl)
          · exact .error _
          · exact .error _

/-- The writing behind a file matches, be it there or not. -/
lemma Shows.append (h : v.Shows t) (path : String) (bytes : ByteArray) :
    Matches (v.append path bytes) (t.append path bytes) := by
  rw [Volume.append, FileTree.append, h.locate]
  cases t.locate path with
  | error fault => exact .error fault
  | ok target =>
      cases target with
      | fixed place => exact .error _
      | entry place marked =>
          dsimp only
          split_ifs
          · exact .error _
          · obtain ⟨hv, ht⟩ | ⟨hv, ht⟩ | ⟨node, hv, ht⟩ := h.cases place <;> simp only [hv, ht]
            · exact .ok (h.create hv bytes)
            · exact .error _
            · exact .ok (h.extend hv bytes)

end Volume

/-! ### Machines -/

/-- The machine with a volume shows the one with a tree, and both have the same time and
have written the same. -/
structure ShowsMachine (s : MachineOf Volume) (s' : Machine) : Prop where
  files : s.files.Shows s'.files
  time : s.time = s'.time
  output : s.output = s'.output
  errors : s.errors = s'.errors

/-- From machines that show each other two programs come to the same answer, and to
machines that show each other. -/
def Agrees (α : Type) (x : StateM (MachineOf Volume) α) (x' : StateM Machine α) : Prop :=
  ∀ s s', ShowsMachine s s' → (x s).1 = (x' s').1 ∧ ShowsMachine (x s).2 (x' s').2

/-- Changes that match keep machines alike. -/
lemma agrees_change {ε : Type} {f : Volume → Except ε Volume} {f' : FileTree → Except ε FileTree}
    (h : ∀ v t, v.Shows t → Volume.Matches (f v) (f' t)) :
    Agrees _ (Machine.change f) (Machine.change f') := by
  intro s s' hs
  have hmatches := h _ _ hs.files
  rw [Machine.change, Machine.change]
  generalize f s.files = changed at hmatches ⊢
  generalize f' s'.files = changed' at hmatches ⊢
  cases hmatches with
  | error fault => exact ⟨rfl, hs⟩
  | ok hshows => exact ⟨rfl, hshows, hs.time, hs.output, hs.errors⟩

/-- The operations of a volume that shows a tree agree with those of the tree. -/
lemma simulates_agrees : Simulates Agrees where
  pure a s s' hs := ⟨rfl, hs⟩
  bind {_ _ x x' k k'} hx hk s s' hs := by
    obtain ⟨hanswer, hafter⟩ := hx s s' hs
    show (k (x s).1 (x s).2).1 = (k' (x' s').1 (x' s').2).1
      ∧ ShowsMachine (k (x s).1 (x s).2).2 (k' (x' s').1 (x' s').2).2
    rw [hanswer]
    exact hk _ _ _ hafter
  readFile path s s' hs := ⟨hs.files.read path, hs⟩
  removeFile path := agrees_change fun _ _ h => h.remove path
  makeDirectory path := agrees_change fun _ _ h => h.makeDirectory path
  isDirectory path s s' hs := ⟨hs.files.isDirectory path, hs⟩
  appendFile path bytes := agrees_change fun _ _ h =>
    (h.append path bytes).mapError AppendFault.unopened
  fetch address s s' hs := ⟨rfl, hs⟩
  timestamp s s' hs := ⟨hs.time, hs⟩
  print text s s' hs := ⟨rfl, hs.files, hs.time, congrArg (· ++ text) hs.output, hs.errors⟩
  printError text s s' hs := ⟨rfl, hs.files, hs.time, hs.output, congrArg (· ++ text) hs.errors⟩

/-- Every machine with a tree is shown by one with a volume. -/
theorem showsMachine_ofTree (s : Machine) :
    ShowsMachine ⟨.ofTree s.files, s.time, s.output, s.errors⟩ s :=
  ⟨Volume.shows_ofTree s.files, rfl, rfl, rfl⟩

/-- **Trees are volumes.** Called on a volume that shows a tree, the program ends with the
same status as on the tree, writes the same to the console, and leaves a volume that shows
what it leaves of the tree. -/
theorem program_agrees (arguments : List String) (e : Environment) :
    Agrees _ (program arguments e) (program arguments e) :=
  simulates_agrees.program arguments e

end SchemaTypes
