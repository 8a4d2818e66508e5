import SchemaTypes.Files.Path
import SchemaTypes.Proofs.Directories
import SchemaTypes.Proofs.Lists
import SchemaTypes.Proofs.Text

/-!
Paths by their parts.

* `FileTree.locate_eq_nameIn`: a path names what its last part names at the end
  of the way of the others; `FileTree.parts_of_locate` is the way back, and
  `FileTree.placeOf_of_locate` the place;
* `Path.parent?_ofString`: the path above a path that ends in a name takes the
  same steps as the parts in front of the name;
* `FileTree.locate_toString`: a spelling of a path names what its parts name;
* `FileTree.enter`: making the last directory of a path.
-/

namespace SchemaTypes

/-- A part of a path that can be the name of an entry. -/
structure IsName (part : String) : Prop where
  nonempty : part ≠ ""
  not_here : part ≠ "."
  not_up : part ≠ ".."
  short : part.utf8ByteSize ≤ FileTree.nameLimit

/-- The place of a tree that a path spells: its parts are taken from the root, and there
are no links on the way. -/
def placeOf (path : String) : Place := FileTree.resolve [] (pathParts path)

lemma placeOf_of_reach {t opened : FileTree} {path name : String} {front : List String}
    {parent : Place} (hparts : pathParts path = front ++ [name]) (hname : IsName name)
    (hreach : t.reach [] front = some (opened, parent)) : placeOf path = parent ++ [name] := by
  rw [placeOf, hparts, FileTree.resolve_append, ← FileTree.stop_of_reach hreach,
    FileTree.resolve, if_neg (by simp [hname.nonempty, hname.not_here]), if_neg hname.not_up]
  rfl

/-! ### What a path names -/

namespace FileTree

/-- What the last part of a path names in a directory. -/
def nameIn (parent : Place) (last : String) (marked : Bool) : Except FileFault Target :=
  if last = "." then .ok (.fixed parent)
  else if last = ".." then .ok (.fixed parent.dropLast)
  else if nameLimit < last.utf8ByteSize then .error .nameTooLong
  else .ok (.entry (parent ++ [last]) marked)

/-- A path names what its last part names at the end of the way of the others;
slashes at its end mark it. -/
lemma locate_eq_nameIn (t : FileTree) {path : String} {front : List String} {last : String}
    {marks : List String} (hparts : pathParts path = front ++ last :: marks) (hlast : last ≠ "")
    (hmarks : ∀ part ∈ marks, part = "") :
    t.locate path
      = (t.walk [] front).bind fun parent => nameIn parent last (decide (marks ≠ [])) := by
  rw [pathParts] at hparts
  have hnamed : ((front ++ last :: marks).reverse.dropWhile (· = ""))
      = last :: front.reverse := by
    rw [List.reverse_append, List.reverse_cons, List.append_assoc,
      List.dropWhile_append_of_pos (by simpa using hmarks)]
    exact List.dropWhile_cons_of_neg (by simpa using hlast)
  have hlength : (last :: front.reverse).reverse.length < (front ++ last :: marks).length
      ↔ marks ≠ [] := by
    simp [List.length_pos_iff]
  rw [locate]
  simp only [hparts, hnamed, hlength, List.reverse_reverse]
  cases t.walk [] front with
  | error fault => rfl
  | ok parent =>
      show (if last = "." then _ else _) = nameIn parent last _
      rw [nameIn]
      split_ifs <;> rfl

/-- A path of slashes only names the root, and the empty one nothing. -/
lemma locate_slashes (t : FileTree) {path : String} (hparts : ∀ part ∈ pathParts path, part = "") :
    t.locate path = if path = "" then .error .notFound else .ok (.fixed []) := by
  have hnamed : (pathParts path).reverse.dropWhile (· = "") = [] :=
    List.dropWhile_eq_nil_iff.mpr (by simpa using hparts)
  rw [pathParts] at hnamed
  rw [locate]
  simp only [hnamed, List.reverse_nil]

lemma nameIn_of_isName {name : String} (h : IsName name) (parent : Place) (marked : Bool) :
    nameIn parent name marked = .ok (.entry (parent ++ [name]) marked) := by
  rw [nameIn, if_neg h.not_here, if_neg h.not_up, if_neg (Nat.not_lt.mpr h.short)]

lemma nameIn_eq_entry {parent place : Place} {last : String} (hlast : last ≠ "")
    {marked marked' : Bool} (h : nameIn parent last marked = .ok (.entry place marked')) :
    IsName last ∧ place = parent ++ [last] ∧ marked' = marked := by
  rw [nameIn] at h
  split_ifs at h with hhere hup hlong
  · cases h
  · cases h
  · cases h
    exact ⟨⟨hlast, hhere, hup, Nat.not_lt.mp hlong⟩, rfl, rfl⟩

/-- A path ending in a name names an entry in the directory on its way. -/
lemma locate_of_walk {t : FileTree} {path name : String} {front : List String} {parent : Place}
    (hparts : pathParts path = front ++ [name]) (hname : IsName name)
    (hwalk : t.walk [] front = .ok parent) :
    t.locate path = .ok (.entry (parent ++ [name]) false) := by
  rw [locate_eq_nameIn t hparts hname.nonempty (by simp), hwalk]
  exact nameIn_of_isName hname parent _

/-- A path that names an entry without a slash behind it ends in a name, and the
way to its directory is there. -/
lemma parts_of_locate {t : FileTree} {path : String} {place : Place}
    (hlocate : t.locate path = .ok (.entry place false)) :
    ∃ front name parent, pathParts path = front ++ [name] ∧ IsName name
      ∧ t.walk [] front = .ok parent ∧ place = parent ++ [name] := by
  obtain hall | ⟨front, last, marks, hparts, hlast, hmarks⟩ :=
    exists_last_or_forall (p := (· = "")) (pathParts path)
  · rw [locate_slashes t hall] at hlocate
    split_ifs at hlocate
    cases hlocate
  · rw [locate_eq_nameIn t hparts hlast hmarks] at hlocate
    cases hwalk : t.walk [] front with
    | error fault => simp [hwalk, Except.bind] at hlocate
    | ok parent =>
        rw [hwalk] at hlocate
        obtain ⟨hname, rfl, hmarked⟩ := nameIn_eq_entry hlast hlocate
        have hnil : marks = [] := by simpa using hmarked
        exact ⟨front, last, parent, hnil ▸ hparts, hname, hwalk, rfl⟩

/-- The entry that a path names is at the place that it spells. -/
lemma placeOf_of_locate {t : FileTree} {path : String} {place : Place}
    (hlocate : t.locate path = .ok (.entry place false)) : placeOf path = place := by
  obtain ⟨front, name, parent, hparts, hname, hwalk, rfl⟩ := parts_of_locate hlocate
  exact placeOf_of_reach hparts hname (reach_of_walk hwalk)

/-- A file that can be read is at the place that its path names. -/
lemma parts_of_read {t : FileTree} {path : String} {bytes : ByteArray}
    (hread : t.read path = .ok bytes) :
    ∃ front name parent, pathParts path = front ++ [name] ∧ IsName name
      ∧ t.walk [] front = .ok parent ∧ t.get? (parent ++ [name]) = some (.file bytes) := by
  rw [read] at hread
  split at hread
  · cases hread
  · cases hread
  · rename_i place marked hlocate
    split at hread
    · cases hread
    · cases hread
    · rename_i held hfile
      split_ifs at hread with hmarked
      cases hread
      rw [Bool.not_eq_true] at hmarked
      obtain ⟨front, name, parent, hparts, hname, hwalk, rfl⟩ := parts_of_locate (hmarked ▸ hlocate)
      exact ⟨front, name, parent, hparts, hname, hwalk, hfile⟩

end FileTree

/-! ### Steps -/

/-- Parts of a path that lead somewhere else. -/
def steps (parts : List String) : List String := parts.filter fun part => part ≠ "" ∧ part ≠ "."

@[simp] lemma steps_nil : steps [] = [] := rfl

@[simp] lemma steps_append (front back : List String) :
    steps (front ++ back) = steps front ++ steps back := List.filter_append ..

lemma steps_cons (part : String) (rest : List String) :
    steps (part :: rest) = if part = "" ∨ part = "." then steps rest else part :: steps rest := by
  rw [steps, List.filter_cons]
  split_ifs <;> simp_all [steps]

lemma steps_filter {p : String → Bool} (hp : ∀ part, part ≠ "" → part ≠ "." → p part = true)
    (parts : List String) : steps (parts.filter p) = steps parts := by
  rw [steps, steps, List.filter_filter]
  refine List.filter_congr fun part _ => ?_
  by_cases hempty : part = ""
  · simp [hempty]
  · by_cases hhere : part = "."
    · simp [hhere]
    · simp [hempty, hhere, hp part hempty hhere]

/-- Only the steps of a way count. -/
lemma FileTree.reach_steps (t : FileTree) (place : Place) (parts : List String) :
    t.reach place (steps parts) = t.reach place parts := by
  induction parts generalizing t place with
  | nil => rfl
  | cons part rest ih =>
      rw [steps_cons, reach]
      split_ifs with hstay hup hlong
      · exact ih t place
      · rw [reach, if_neg hstay, if_pos hup, ih]
      · rw [reach, if_neg hstay, if_neg hup, if_pos hlong]
      · rw [reach, if_neg hstay, if_neg hup, if_neg hlong]
        split
        · exact ih _ _
        · rfl
        · exact ih _ _

/-! ### Paths -/

lemma notMem_of_mem_splitAt {separator : Char} {cs part : List Char}
    (h : part ∈ splitAt (· == separator) cs) : separator ∉ part := by
  induction cs generalizing part with
  | nil => simp_all [splitAt]
  | cons c cs ih =>
      rw [splitAt] at h
      split_ifs at h with hc
      · obtain rfl | h := List.mem_cons.mp h
        · exact List.not_mem_nil
        · exact ih h
      · have hne : separator ≠ c := fun heq => hc (by simp [heq])
        cases hparts : splitAt (· == separator) cs with
        | nil => exact absurd hparts (splitAt_ne_nil _ _)
        | cons first rest =>
            rw [hparts] at h
            obtain rfl | h := List.mem_cons.mp h
            · have hfirst := ih (hparts ▸ List.mem_cons_self)
              simp [hne, hfirst]
            · exact ih (hparts ▸ List.mem_cons_of_mem _ h)

namespace Path

/-- A path whose parts are none of them empty, and have no slashes. -/
def Proper (p : Path) : Prop := ∀ part ∈ p.parts, part ≠ "" ∧ '/' ∉ part.toList

/-- The parts of a path are those of its text without the empty ones and, from
some place on, without the parts that stay in place. -/
lemma parts_ofString (path : String) :
    ∃ n, (ofString path).parts
      = ((pathParts path).filter (· ≠ "")).take n
        ++ (((pathParts path).filter (· ≠ "")).drop n).filter (· ≠ ".") := by
  have htokens : ((splitAt (· = '/') path.toList).filter (!·.isEmpty)).map String.ofList
      = (pathParts path).filter (· ≠ "") := by
    rw [pathParts, List.filter_map]
    congr 1
    refine List.filter_congr fun cs _ => ?_
    cases cs <;> simp
  simp only [ofString, htokens]
  split_ifs
  · exact ⟨0, rfl⟩
  · refine ⟨1, ?_⟩
    cases (pathParts path).filter (· ≠ "") <;> rfl

lemma proper_ofString (path : String) : (ofString path).Proper := by
  intro part hpart
  obtain ⟨n, hparts⟩ := parts_ofString path
  have hmem : part ∈ (pathParts path).filter (· ≠ "") := by
    rw [hparts] at hpart
    obtain h | h := List.mem_append.mp hpart
    · exact List.mem_of_mem_take h
    · exact List.mem_of_mem_drop (List.mem_filter.mp h).1
  obtain ⟨hpath, hne⟩ := List.mem_filter.mp hmem
  obtain ⟨cs, hcs, rfl⟩ := List.mem_map.mp hpath
  refine ⟨by simpa using hne, ?_⟩
  rw [String.toList_ofList]
  exact notMem_of_mem_splitAt hcs

/-- A path that ends in a name takes the same steps to it as its text. -/
lemma parts_ofString_name {path name : String} {front : List String}
    (hparts : pathParts path = front ++ [name]) (hname : IsName name) :
    ∃ before, (ofString path).parts = before ++ [name] ∧ steps before = steps front := by
  obtain ⟨n, hof⟩ := parts_ofString path
  have hkept : (pathParts path).filter (· ≠ "") = front.filter (· ≠ "") ++ [name] := by
    rw [hparts, List.filter_append, List.filter_cons_of_pos (by simpa using hname.nonempty),
      List.filter_nil]
  have hfront : steps (front.filter (· ≠ "")) = steps front :=
    steps_filter (fun part hpart _ => by simpa using hpart) front
  rw [hof, hkept, ← hfront]
  generalize front.filter (· ≠ "") = kept
  by_cases hn : n ≤ kept.length
  · refine ⟨kept.take n ++ (kept.drop n).filter (· ≠ "."), ?_, ?_⟩
    · rw [List.take_append_of_le_length hn, List.drop_append_of_le_length hn, List.filter_append,
        List.filter_cons_of_pos (by simpa using hname.not_here), List.filter_nil,
        List.append_assoc]
    · rw [steps_append, steps_filter (fun part _ hpart => by simpa using hpart), ← steps_append,
        List.take_append_drop]
  · have hlength : (kept ++ [name]).length ≤ n := by
      rw [List.length_append, List.length_singleton]
      omega
    refine ⟨kept, ?_, rfl⟩
    rw [List.take_of_length_le hlength, List.drop_of_length_le hlength, List.filter_nil,
      List.append_nil]

/-- The path above one that ends in a name takes the same steps as what stands in
front of the name. -/
lemma parent?_ofString {path name : String} {front : List String}
    (hparts : pathParts path = front ++ [name]) (hname : IsName name) :
    ∃ parent, (ofString path).parent? = some parent ∧ parent.Proper
      ∧ steps parent.parts = steps front := by
  obtain ⟨before, hof, hsteps⟩ := parts_ofString_name hparts hname
  refine ⟨{ ofString path with parts := before }, ?_, ?_, hsteps⟩
  · rw [parent?, hof]
    simp
  · intro part hpart
    exact proper_ofString path part (hof ▸ List.mem_append_left _ hpart)

end Path

/-! ### Spellings -/

lemma pathParts_slash (front back : String) :
    pathParts (front ++ "/" ++ back) = pathParts front ++ pathParts back := by
  rw [pathParts, String.toList_append, String.toList_append, List.append_assoc]
  exact (congrArg (List.map String.ofList) (splitAt_append_cons _ _)).trans List.map_append

lemma pathParts_of_notMem {part : String} (h : '/' ∉ part.toList) : pathParts part = [part] := by
  have hparts : splitAt (· = '/') part.toList = [part.toList] := splitAt_of_notMem h
  rw [pathParts, hparts, List.map_singleton, String.ofList_toList]

lemma pathParts_joinWith : ∀ {parts : List String}, parts ≠ [] →
    (∀ part ∈ parts, '/' ∉ part.toList) → pathParts (joinWith "/" parts) = parts
  | [part], _, h => pathParts_of_notMem (h part List.mem_cons_self)
  | part :: next :: rest, _, h => by
      rw [joinWith, pathParts_slash, pathParts_of_notMem (h part List.mem_cons_self),
        pathParts_joinWith (List.cons_ne_nil next rest) fun later hlater =>
          h later (List.mem_cons_of_mem part hlater)]
      rfl

namespace FileTree

/-- A spelling of a path names what the parts of the path name. -/
lemma locate_toString (t : FileTree) {p : Path} (hp : p.Proper) {front : List String}
    {last : String} (hparts : p.parts = front ++ [last]) :
    t.locate p.toString = (t.walk [] front).bind fun parent => nameIn parent last false := by
  have hlast : last ≠ "" := (hp last (by simp [hparts])).1
  have hjoined : pathParts (joinWith "/" p.parts) = front ++ [last] := by
    rw [pathParts_joinWith (by simp [hparts]) fun part hpart => (hp part hpart).2, hparts]
  cases habs : p.isAbsolute with
  | false =>
      have hspelled : pathParts p.toString = front ++ [last] := by
        rw [Path.toString, habs, if_neg Bool.false_ne_true, String.empty_append, hjoined]
      exact locate_eq_nameIn t hspelled hlast (by simp)
  | true =>
      have hspelled : pathParts p.toString = ("" :: front) ++ [last] := by
        rw [Path.toString, habs, if_pos rfl, List.cons_append, ← hjoined]
        exact pathParts_slash "" _
      have hwalk : t.walk [] ("" :: front) = t.walk [] front := by
        rw [walk, if_pos (.inl rfl)]
      rw [locate_eq_nameIn t hspelled hlast (by simp), hwalk]
      rfl

/-- One more step of a way leads to a directory that is there by its very name,
or to one that is made or there. -/
lemma nameIn_of_reach {t t' : FileTree} {parent stop : Place} {last : String} (hlast : last ≠ "")
    (hreach : t.reach parent [last] = some (t', stop)) :
    (nameIn parent last false = .ok (.fixed stop) ∧ t' = t)
      ∨ nameIn parent last false = .ok (.entry stop false)
        ∧ (t.get? stop = none ∧ t' = t.put stop .directory
          ∨ t.get? stop = some .directory ∧ t' = t) := by
  rw [reach] at hreach
  rw [nameIn]
  by_cases hhere : last = "."
  · rw [if_pos (.inr hhere)] at hreach
    cases hreach
    exact .inl ⟨if_pos hhere, rfl⟩
  rw [if_neg (by simp [hlast, hhere])] at hreach
  rw [if_neg hhere]
  by_cases hup : last = ".."
  · rw [if_pos hup] at hreach
    cases hreach
    exact .inl ⟨if_pos hup, rfl⟩
  rw [if_neg hup] at hreach ⊢
  split_ifs at hreach ⊢ with hlong
  split at hreach
  · rename_i hfree
    cases hreach
    exact .inr ⟨rfl, .inl ⟨hfree, rfl⟩⟩
  · cases hreach
  · rename_i hdir
    cases hreach
    exact .inr ⟨rfl, .inr ⟨hdir, rfl⟩⟩

/-- The directory that a path names in a directory that is there is made, or it
is there already. -/
lemma enter {t t' : FileTree} {p : Path} (hp : p.Proper) {front : List String} {last : String}
    (hparts : p.parts = front ++ [last]) {parent stop : Place}
    (hwalk : t.walk [] front = .ok parent) (hreach : t.reach parent [last] = some (t', stop)) :
    t.makeDirectory p.toString = .ok t'
      ∨ t.makeDirectory p.toString = .error .alreadyExists ∧ t.isDirectory p.toString = true
        ∧ t' = t := by
  have hlast : last ≠ "" := (hp last (by simp [hparts])).1
  have hlocate : t.locate p.toString = nameIn parent last false := by
    rw [locate_toString t hp hparts, hwalk]
    rfl
  rw [makeDirectory, isDirectory, hlocate]
  obtain ⟨hname, rfl⟩ | ⟨hname, ⟨hfree, rfl⟩ | ⟨hdir, rfl⟩⟩ := nameIn_of_reach hlast hreach
  · exact .inr (by simp [hname])
  · exact .inl (by simp [hname, hfree])
  · exact .inr (by simp [hname, hdir])

end FileTree

end SchemaTypes
