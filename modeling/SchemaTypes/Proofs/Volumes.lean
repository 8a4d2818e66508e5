import Mathlib.Tactic
import SchemaTypes.Files.Volume

/-!
Ways through a volume.

* `Volume.trail`, `Volume.passes`: the places at which a path is looked up, on the
  way and at links;
* `Volume.resolve_congr`: what a path leads to hangs on these places only;
* `Volume.resolve_of_missing`: where one of them is empty the path leads nowhere;
* `Volume.fileAt`: the file that a path leads to; `Volume.read_eq_ok_iff` says that
  its bytes are read;
* `Volume.OnWay`: the entry that a path names is on the way of another one;
* `Volume.SameFile`: two paths lead to the same file;
* `Volume.Reads.remove`, `Volume.Reads.makeDirectory`, `Volume.Reads.append`: what the
  operations do to a file that a path leads to.
-/

namespace SchemaTypes

namespace Volume

variable {v v' v'' : Volume} {place other : Place}

/-! ### Changes -/

/-- The root is always a directory. -/
lemma ne_root_of_get? {entry : Option VolumeEntry} (h : v.get? place = entry)
    (hentry : entry ≠ some .directory) : place ≠ [] := by
  rintro rfl
  exact hentry h.symm

/-- A change of the entries at a place that is not the root. -/
lemma get?_update {w : Volume} {entry : Option VolumeEntry} (hplace : place ≠ [])
    (hentries : w.entries = fun other => if other = place then entry else v.entries other)
    (other : Place) : w.get? other = if other = place then entry else v.get? other := by
  rw [get?, get?, hentries]
  by_cases hroot : other = []
  · subst hroot
    rw [if_pos rfl, if_neg (Ne.symm hplace), if_pos rfl]
  · rw [if_neg hroot, if_neg hroot]

/-! ### Places on a way -/

/-- The places at which some parts are looked up, up to the first link. -/
def strideTrail (v : Volume) : Place → List String → List Place
  | _, [] => []
  | place, part :: rest =>
    if part = "" ∨ part = "." then strideTrail v place rest
    else if part = ".." then strideTrail v place.dropLast rest
    else if FileTree.nameLimit < part.utf8ByteSize then []
    else
      (place ++ [part]) :: match v.get? (place ++ [part]) with
        | some .directory => strideTrail v (place ++ [part]) rest
        | _ => []

/-- The places at which some parts are looked up, with so many links followed at
most. -/
def trail (v : Volume) : ℕ → Place → List String → List Place
  | links, place, parts =>
    v.strideTrail place parts ++ match v.stride true place parts with
      | .link parent path rest =>
        match links with
        | 0 => []
        | links + 1 => trail v links (origin parent path) (pathParts path ++ rest)
      | _ => []

/-- The places that a path leads through. -/
def passes (v : Volume) (path : String) : List Place :=
  v.trail linkLimit (origin v.current path) (pathParts path)

section

variable {parts : List String}

/-- Empty parts are looked up nowhere. -/
lemma strideTrail_marks (v : Volume) (place : Place) (h : ∀ part ∈ parts, part = "") :
    v.strideTrail place parts = [] := by
  induction parts with
  | nil => rfl
  | cons part rest ih =>
      obtain ⟨hpart, hrest⟩ := List.forall_mem_cons.mp h
      rw [strideTrail, if_pos (.inl hpart), ih hrest]

lemma stop_eq_arrived {name : String} (h : ∀ path, v.get? (other ++ [name]) ≠ some (.link path)) :
    v.stop true other name parts = .arrived (.entry (other ++ [name]) (parts ≠ [])) := by
  rw [stop]
  split
  · rename_i path hlink
    exact absurd hlink (h path)
  · rfl

/-- Where some parts lead to hangs on the places at which they are looked up. -/
lemma stride_congr (h : ∀ p ∈ v.strideTrail place parts, v'.get? p = v.get? p) :
    v'.stride true place parts = v.stride true place parts := by
  induction parts generalizing place with
  | nil => rfl
  | cons part rest ih =>
      rw [strideTrail] at h
      rw [stride, stride]
      split_ifs at h ⊢ with hstay hup hlong hlast
      · exact ih h
      · exact ih h
      · rfl
      · rw [stop, stop, h _ List.mem_cons_self]
      · rw [h _ List.mem_cons_self]
        cases hentry : v.get? (place ++ [part]) with
        | none => rfl
        | some entry =>
            cases entry with
            | directory =>
                rw [hentry] at h
                exact ih fun p hp => h p (List.mem_cons_of_mem _ hp)
            | file node => rfl
            | link path => rfl

/-- Where nothing is at one of the places, the parts lead nowhere. -/
lemma stride_of_missing (h : place ∈ v.strideTrail other parts) (hfree : v.get? place = none) :
    v.stride true other parts = .refused .notFound
      ∨ ∃ marked, v.stride true other parts = .arrived (.entry place marked) := by
  induction parts generalizing other with
  | nil => cases h
  | cons part rest ih =>
      rw [strideTrail] at h
      rw [stride]
      split_ifs at h ⊢ with hstay hup hlong hlast
      · exact ih h
      · exact ih h
      · cases h
      · obtain rfl | h := List.mem_cons.mp h
        · exact .inr ⟨_, stop_eq_arrived (by simp [hfree])⟩
        · -- behind the last name there are no places
          have hmarks : ∀ mark ∈ rest, mark = "" := by simpa using hlast
          split at h
          · rw [strideTrail_marks v _ hmarks] at h
            cases h
          · cases h
      · obtain rfl | h := List.mem_cons.mp h
        · exact .inl (by rw [hfree])
        · split at h
          · rename_i hdir
            rw [hdir]
            exact ih h
          · cases h

/-- The entry that some parts lead to is at one of the places. -/
lemma mem_strideTrail_of_stride {marked : Bool}
    (h : v.stride true other parts = .arrived (.entry place marked)) :
    place ∈ v.strideTrail other parts := by
  induction parts generalizing other with
  | nil => cases h
  | cons part rest ih =>
      rw [stride] at h
      rw [strideTrail]
      split_ifs at h ⊢ with hstay hup hlong hlast
      · exact ih h
      · exact ih h
      · rw [stop] at h
        split at h
        · rw [if_pos rfl] at h
          cases h
        · cases h
          exact List.mem_cons_self
      · split at h
        · cases h
        · cases h
        · rename_i hdir
          rw [hdir]
          exact List.mem_cons_of_mem _ (ih h)
        · cases h

/-- A change at one of the places does not take it off the way. -/
lemma mem_strideTrail_of_change (h : place ∈ v.strideTrail other parts)
    (hsame : ∀ p, p ≠ place → v'.get? p = v.get? p) : place ∈ v'.strideTrail other parts := by
  induction parts generalizing other with
  | nil => cases h
  | cons part rest ih =>
      rw [strideTrail] at h ⊢
      split_ifs at h ⊢ with hstay hup hlong
      · exact ih h
      · exact ih h
      · cases h
      · by_cases hhere : other ++ [part] = place
        · rw [hhere]
          exact List.mem_cons_self
        · rw [hsame _ hhere]
          obtain heq | h := List.mem_cons.mp h
          · exact absurd heq.symm hhere
          · refine List.mem_cons_of_mem _ ?_
            split at h
            · exact ih h
            · cases h

end

/-! ### Links -/

section

variable {links : ℕ} {parts : List String}

/-- Places behind a link are those of the way that it leads on. -/
lemma mem_trail : place ∈ v.trail links other parts ↔
    place ∈ v.strideTrail other parts ∨ ∃ left parent path rest, links = left + 1
      ∧ v.stride true other parts = .link parent path rest
      ∧ place ∈ v.trail left (origin parent path) (pathParts path ++ rest) := by
  rw [trail, List.mem_append]
  refine or_congr_right ?_
  cases v.stride true other parts <;> cases links <;> simp

lemma resolve_of_refused {follow : Bool} {fault : FileFault}
    (h : v.stride follow place parts = .refused fault) :
    v.resolve follow links place parts = .error fault := by
  rw [resolve, h]

lemma resolve_of_arrived {follow : Bool} {target : FileTree.Target}
    (h : v.stride follow place parts = .arrived target) :
    v.resolve follow links place parts = .ok target := by
  rw [resolve, h]

lemma resolve_of_link {follow : Bool} {parent : Place} {path : String} {rest : List String}
    (h : v.stride follow place parts = .link parent path rest) :
    v.resolve follow (links + 1) place parts
      = v.resolve follow links (origin parent path) (pathParts path ++ rest) := by
  rw [resolve, h]

/-- What some parts lead to hangs on the places at which they are looked up. -/
lemma resolve_congr (h : ∀ p ∈ v.trail links place parts, v'.get? p = v.get? p) :
    v'.resolve true links place parts = v.resolve true links place parts := by
  have hstride : v'.stride true place parts = v.stride true place parts :=
    stride_congr fun p hp => h p (mem_trail.mpr (.inl hp))
  induction links generalizing place parts with
  | zero => rw [resolve, resolve, hstride]
  | succ links ih =>
      cases hway : v.stride true place parts with
      | refused fault => rw [resolve_of_refused (hstride.trans hway), resolve_of_refused hway]
      | arrived target => rw [resolve_of_arrived (hstride.trans hway), resolve_of_arrived hway]
      | link parent path rest =>
          have hrest : ∀ p ∈ v.trail links (origin parent path) (pathParts path ++ rest),
              v'.get? p = v.get? p :=
            fun p hp => h p (mem_trail.mpr (.inr ⟨_, _, _, _, rfl, hway, hp⟩))
          rw [resolve_of_link (hstride.trans hway), resolve_of_link hway]
          exact ih hrest (stride_congr fun p hp => hrest p (mem_trail.mpr (.inl hp)))

/-- Where nothing is at one of the places, the parts lead nowhere. -/
lemma resolve_of_missing (h : place ∈ v.trail links other parts) (hfree : v.get? place = none) :
    v.resolve true links other parts = .error .notFound
      ∨ ∃ marked, v.resolve true links other parts = .ok (.entry place marked) := by
  induction links using Nat.strongRecOn generalizing other parts with
  | ind links ih =>
      obtain hhere | ⟨left, parent, path, rest, rfl, hway, hrest⟩ := mem_trail.mp h
      · exact (stride_of_missing hhere hfree).imp resolve_of_refused
          fun ⟨marked, harrived⟩ => ⟨marked, resolve_of_arrived harrived⟩
      · rw [resolve_of_link hway]
        exact ih left (Nat.lt_succ_self left) hrest

/-- The entry that some parts lead to is at one of the places. -/
lemma mem_trail_of_resolve {marked : Bool}
    (h : v.resolve true links other parts = .ok (.entry place marked)) :
    place ∈ v.trail links other parts := by
  induction links using Nat.strongRecOn generalizing other parts with
  | ind links ih =>
      cases hway : v.stride true other parts with
      | refused fault =>
          rw [resolve_of_refused hway] at h
          cases h
      | arrived target =>
          rw [resolve_of_arrived hway] at h
          cases h
          exact mem_trail.mpr (.inl (mem_strideTrail_of_stride hway))
      | link parent path rest =>
          cases links with
          | zero =>
              rw [resolve, hway] at h
              cases h
          | succ left =>
              rw [resolve_of_link hway] at h
              have hrest := ih left (Nat.lt_succ_self left) h
              exact mem_trail.mpr (.inr ⟨left, parent, path, rest, rfl, hway, hrest⟩)

/-- A change at one of the places does not take it off the way. -/
lemma mem_trail_of_change (h : place ∈ v.trail links other parts)
    (hsame : ∀ p, p ≠ place → v'.get? p = v.get? p) : place ∈ v'.trail links other parts := by
  induction links using Nat.strongRecOn generalizing other parts with
  | ind links ih =>
      by_cases hhere : place ∈ v.strideTrail other parts
      · exact mem_trail.mpr (.inl (mem_strideTrail_of_change hhere hsame))
      · -- up to the first link nothing has changed
        have hstride : v'.stride true other parts = v.stride true other parts :=
          stride_congr fun p hp => hsame p fun heq => hhere (heq ▸ hp)
        obtain habsurd | ⟨left, parent, path, rest, rfl, hway, hrest⟩ := mem_trail.mp h
        · exact absurd habsurd hhere
        · exact mem_trail.mpr (.inr ⟨left, parent, path, rest, rfl, hstride.trans hway,
            ih left (Nat.lt_succ_self left) hrest⟩)

end

/-! ### Paths -/

section

variable {path : String}

/-- What a path leads to hangs on the places that it is looked up at. -/
lemma locate_congr (hcurrent : v'.current = v.current)
    (h : ∀ p ∈ v.passes path, v'.get? p = v.get? p) :
    v'.locate true path = v.locate true path := by
  rw [locate, locate, hcurrent, resolve_congr h]

lemma mem_passes_of_locate {marked : Bool} (h : v.locate true path = .ok (.entry place marked)) :
    place ∈ v.passes path := by
  rw [locate] at h
  split_ifs at h
  exact mem_trail_of_resolve h

/-- A path at one of whose places nothing is leads nowhere. -/
lemma locate_of_missing (h : place ∈ v.passes path) (hfree : v.get? place = none) :
    v.locate true path = .error .notFound
      ∨ ∃ marked, v.locate true path = .ok (.entry place marked) := by
  rw [locate]
  split_ifs
  · exact .inl rfl
  · exact resolve_of_missing h hfree

/-- A path at one of whose places nothing is cannot be read. -/
lemma read_of_missing (h : place ∈ v.passes path) (hfree : v.get? place = none) :
    v.read path = .error (.unopened .notFound) := by
  obtain hlocate | ⟨marked, hlocate⟩ := locate_of_missing h hfree
  · rw [read, hlocate]
  · simp only [read, hlocate, hfree]

end

/-! ### Files -/

/-- The file that a path leads to. -/
def fileAt (v : Volume) (path : String) : Option ℕ :=
  match v.locate true path with
  | .ok (.entry place false) =>
    match v.get? place with
    | some (.file node) => some node
    | _ => none
  | _ => none

/-- Two paths lead to the same file, be it by links or by its several names. -/
def SameFile (v : Volume) (path path' : String) : Prop :=
  ∃ node, v.fileAt path = some node ∧ v.fileAt path' = some node

/-- What a path names, be it a link, is on the way of another path. -/
def OnWay (v : Volume) (path path' : String) : Prop :=
  ∃ place, v.locate false path = .ok (.entry place false) ∧ place ∈ v.passes path'

section

variable {path : String} {node : ℕ} {bytes : ByteArray}

lemma fileAt_eq_some_iff : v.fileAt path = some node ↔
    ∃ place, v.locate true path = .ok (.entry place false)
      ∧ v.get? place = some (.file node) := by
  rw [fileAt]
  constructor
  · intro h
    split at h
    · rename_i place hlocate
      split at h
      · rename_i held hfile
        cases h
        exact ⟨place, hlocate, hfile⟩
      · cases h
    · cases h
  · rintro ⟨place, hlocate, hfile⟩
    simp only [hlocate, hfile]

/-- A path can be read if it leads to a file, and the bytes are those of the file. -/
lemma read_eq_ok_iff : v.read path = .ok bytes ↔
    ∃ node, v.fileAt path = some node ∧ v.contents node = bytes := by
  simp only [fileAt_eq_some_iff]
  rw [read]
  constructor
  · intro h
    split at h
    · cases h
    · cases h
    · rename_i place marked hlocate
      split at h
      · cases h
      · rename_i node hfile
        split_ifs at h with hmarked
        cases h
        rw [Bool.not_eq_true] at hmarked
        exact ⟨node, ⟨place, hmarked ▸ hlocate, hfile⟩, rfl⟩
      · cases h
  · rintro ⟨node, ⟨place, hlocate, hfile⟩, rfl⟩
    simp [hlocate, hfile]

/-- The file that a path leads to hangs on the places that it is looked up at. -/
lemma fileAt_congr (hcurrent : v'.current = v.current)
    (h : ∀ p ∈ v.passes path, v'.get? p = v.get? p) (hfile : v.fileAt path = some node) :
    v'.fileAt path = some node := by
  obtain ⟨place, hlocate, hentry⟩ := fileAt_eq_some_iff.mp hfile
  refine fileAt_eq_some_iff.mpr ⟨place, (locate_congr hcurrent h).trans hlocate, ?_⟩
  rw [h place (mem_passes_of_locate hlocate), hentry]

/-- On the way to a file something is at every place. -/
lemma exists_entry_of_fileAt (hfile : v.fileAt path = some node) (h : place ∈ v.passes path) :
    ∃ entry, v.get? place = some entry := by
  refine Option.ne_none_iff_exists'.mp fun hfree => ?_
  have hread := read_eq_ok_iff.mpr ⟨node, hfile, rfl⟩
  rw [read_of_missing h hfree] at hread
  cases hread

/-- A file that has a name has a number that is used. -/
lemma lt_unused_of_get? (hentry : v.get? place = some (.file node)) : node < v.unused := by
  have hplace := ne_root_of_get? hentry (by simp)
  rw [get?, if_neg hplace] at hentry
  exact v.named place node hentry

lemma lt_unused_of_fileAt (hfile : v.fileAt path = some node) : node < v.unused := by
  obtain ⟨place, -, hentry⟩ := fileAt_eq_some_iff.mp hfile
  exact lt_unused_of_get? hentry

end

/-! ### Changes that take nothing away -/

/-- What is there stays there, and something may come where nothing is. -/
structure Extends (v v' : Volume) : Prop where
  current : v'.current = v.current
  unused : v.unused ≤ v'.unused
  entries : ∀ place entry, v.get? place = some entry → v'.get? place = some entry

/-- What is there stays there, and the files keep their bytes. -/
structure Keeps (v v' : Volume) : Prop extends Extends v v' where
  contents : ∀ node < v.unused, v'.contents node = v.contents node

/-- What is there stays there, and at most the file that a path leads to in the end has
a front part of some bytes behind its own. -/
structure Grows (path : String) (bytes : ByteArray) (v v' : Volume) : Prop
    extends Extends v v' where
  contents : ∃ written rest, written ++ rest = bytes ∧ ∀ node < v.unused,
    v'.contents node = v.contents node
      ∨ v'.fileAt path = some node ∧ v'.contents node = v.contents node ++ written

section

variable {path source : String} {node : ℕ} {bytes held : ByteArray}

/-- A path still leads to its file as long as nothing is taken away. -/
lemma Extends.fileAt (h : Extends v v') (hfile : v.fileAt path = some node) :
    v'.fileAt path = some node := by
  refine fileAt_congr h.current (fun p hp => ?_) hfile
  obtain ⟨entry, hentry⟩ := exists_entry_of_fileAt hfile hp
  rw [hentry, h.entries p entry hentry]

lemma Extends.trans (h : Extends v v') (h' : Extends v' v'') : Extends v v'' where
  current := h'.current.trans h.current
  unused := h.unused.trans h'.unused
  entries place entry hentry := h'.entries place entry (h.entries place entry hentry)

lemma Keeps.refl (v : Volume) : Keeps v v := ⟨⟨rfl, le_rfl, fun _ _ h => h⟩, fun _ _ => rfl⟩

lemma Keeps.trans (h : Keeps v v') (h' : Keeps v' v'') : Keeps v v'' :=
  ⟨h.toExtends.trans h'.toExtends, fun node hnode =>
    (h'.contents node (hnode.trans_le h.unused)).trans (h.contents node hnode)⟩

/-- Nothing of the bytes is written. -/
lemma Keeps.grows (h : Keeps v v') (path : String) (bytes : ByteArray) : Grows path bytes v v' :=
  ⟨h.toExtends, .empty, bytes, ByteArray.empty_append,
    fun node hnode => .inl (h.contents node hnode)⟩

/-- Before a file grows something may come where nothing is. -/
lemma Keeps.trans_grows (h : Keeps v v') (h' : Grows path bytes v' v'') :
    Grows path bytes v v'' := by
  obtain ⟨written, rest, hbytes, hgrown⟩ := h'.contents
  refine ⟨h.toExtends.trans h'.toExtends, written, rest, hbytes, fun node hnode => ?_⟩
  rw [← h.contents node hnode]
  exact hgrown node (hnode.trans_le h.unused)

/-- A file that can be read has at most a front part of the bytes behind its own, and
if it has, then the path leads to it. -/
lemma Grows.read (h : Grows path bytes v v') (hread : v.read source = .ok held) :
    ∃ written rest, written ++ rest = bytes ∧ v'.read source = .ok (held ++ written)
      ∧ (written ≠ .empty → v'.SameFile path source) := by
  obtain ⟨node, hfile, rfl⟩ := read_eq_ok_iff.mp hread
  obtain ⟨written, rest, hbytes, hgrown⟩ := h.contents
  have hfile' := h.toExtends.fileAt hfile
  obtain hsame | ⟨hpath, happended⟩ := hgrown node (lt_unused_of_fileAt hfile)
  · refine ⟨.empty, bytes, ByteArray.empty_append, ?_, fun hne => absurd rfl hne⟩
    rw [ByteArray.append_empty, read_eq_ok_iff]
    exact ⟨node, hfile', hsame⟩
  · exact ⟨written, rest, hbytes, read_eq_ok_iff.mpr ⟨node, hfile', happended⟩,
      fun _ => ⟨node, hpath, hfile'⟩⟩

end

/-! ### Operations -/

section

variable {path source : String} {node : ℕ} {bytes : ByteArray}

/-- Where nothing is something may come. -/
lemma get?_of_update {w : Volume} {entry kept : VolumeEntry} {other : Place}
    (hfree : v.get? place = none)
    (hentries : w.entries = fun other => if other = place then some entry else v.entries other)
    (hkept : v.get? other = some kept) : w.get? other = some kept := by
  rw [get?_update (ne_root_of_get? hfree (by simp)) hentries, if_neg, hkept]
  rintro rfl
  rw [hfree] at hkept
  cases hkept

/-- A directory is made where nothing is. -/
lemma keeps_makeDirectory (h : v.makeDirectory path = .ok v') : Keeps v v' := by
  rw [makeDirectory] at h
  split at h
  · cases h
  · cases h
  · rename_i place marked hlocate
    split at h
    · rename_i hfree
      cases h
      exact ⟨⟨rfl, le_rfl, fun _ _ => get?_of_update hfree rfl⟩, fun _ _ => rfl⟩
    · cases h

/-- Bytes are appended to the file that the path leads to, which may be a new one. -/
lemma grows_append {written rest : ByteArray} (hbytes : written ++ rest = bytes)
    (h : v.append path written = .ok v') : Grows path bytes v v' := by
  rw [append] at h
  split at h
  · cases h
  · cases h
  · rename_i place marked hlocate
    split_ifs at h with hmarked
    rw [Bool.not_eq_true] at hmarked
    subst hmarked
    split at h
    · rename_i hfree
      cases h
      have hkeeps : Keeps v (v.create place written) :=
        ⟨⟨rfl, Nat.le_succ _, fun _ _ => get?_of_update hfree rfl⟩,
          fun _ hnode => if_neg hnode.ne⟩
      exact hkeeps.grows path bytes
    · rename_i node hfile
      cases h
      -- only bytes have changed, so the path leads to the file still
      have hpath : (v.extend node written).fileAt path = some node := by
        refine fileAt_congr (v := v) rfl (fun p hp => rfl) ?_
        exact fileAt_eq_some_iff.mpr ⟨place, hlocate, hfile⟩
      refine ⟨⟨rfl, le_rfl, fun _ _ hentry => hentry⟩, written, rest, hbytes, fun other _ => ?_⟩
      by_cases hother : other = node
      · subst hother
        exact .inr ⟨hpath, if_pos rfl⟩
      · exact .inl (if_neg hother)
    · cases h

/-- What a path names is removed, and nothing else. -/
lemma eq_erase_of_remove (h : v.remove path = .ok v') :
    ∃ place, v.locate false path = .ok (.entry place false) ∧ place ≠ []
      ∧ v' = v.erase place := by
  rw [remove] at h
  split at h
  · cases h
  · cases h
  · rename_i place marked hlocate
    split at h
    · cases h
    · cases h
    · rename_i entry hdir hentry
      split_ifs at h with hmarked
      cases h
      rw [Bool.not_eq_true] at hmarked
      exact ⟨place, hmarked ▸ hlocate, ne_root_of_get? hentry (by simpa using hdir), rfl⟩

/-- A file stays as it is if what is removed is not on the way to it. -/
lemma read_remove (h : v.remove path = .ok v') (hway : ¬ v.OnWay path source)
    (hread : v.read source = .ok bytes) : v'.read source = .ok bytes := by
  obtain ⟨place, hlocate, hplace, rfl⟩ := eq_erase_of_remove h
  obtain ⟨node, hfile, hheld⟩ := read_eq_ok_iff.mp hread
  refine read_eq_ok_iff.mpr ⟨node, fileAt_congr (v := v) rfl (fun p hp => ?_) hfile, hheld⟩
  rw [get?_update hplace rfl, if_neg]
  rintro rfl
  exact hway ⟨p, hlocate, hp⟩

/-- If what is removed is on the way of a path, then there is nothing to be read at its
end. -/
lemma read_remove_onWay (h : v.remove path = .ok v') (hway : v.OnWay path source) :
    v'.read source = .error (.unopened .notFound) := by
  obtain ⟨place, hlocate, hplace, rfl⟩ := eq_erase_of_remove h
  obtain ⟨place', hlocate', hpasses⟩ := hway
  rw [hlocate] at hlocate'
  cases hlocate'
  have hget := get?_update (v := v) (w := v.erase place) hplace rfl
  -- the place is on the way afterwards too, and now nothing is there
  refine read_of_missing (mem_trail_of_change hpasses fun p hp => ?_) ?_
  · rw [hget, if_neg hp]
  · rw [hget, if_pos rfl]

end

end Volume

end SchemaTypes
