import SchemaTypes.Proofs.Runs

/-!
Runs that share an output file.

* `Starts`: at a path there is a file, or there is none, not even once the
  directories on its way are made;
* `Starts.remove`, `Starts.write`: what the removal and the writing of an output
  do to such a path, and that they touch nothing else;
* `Turn`, `turns`: the runs of a sequence, each with the machine it starts on;
* `Turn.leaves`: what a run leaves at its output path, by `Starts.run`; from it,
  by `Starts.sequence`, what a sequence of runs leaves there;
* `foldl_leaves`, `foldl_leaves_removal`: the same in closed form;
* `regeneration`: runs that share an output path leave the outputs from the last
  removal on;
* `removal_before_directories`: a removal looks for the output before the
  directories on the way to it are made.
-/

namespace SchemaTypes

/-! ### An output path -/

/-- What can be at a path, none standing for no file: a file, or no file, not
even once the missing directories on its way are made. -/
inductive Starts (t : FileTree) (path : String) : Option ByteArray → Prop
  | file {bytes : ByteArray} (hread : t.read path = .ok bytes) : Starts t path (some bytes)
  | absent {front : List String} {name : String} {opened : FileTree} {parent : Place}
      (hparts : pathParts path = front ++ [name]) (hname : IsName name)
      (hreach : t.reach [] front = some (opened, parent))
      (hfree : opened.get? (parent ++ [name]) = none) : Starts t path none

/-- The path holds a file of these bytes, or none. -/
def Holds (t : FileTree) (path : String) : Option ByteArray → Prop
  | some bytes => t.read path = .ok bytes
  | none => t.read path = .error (.unopened .notFound)

namespace FileTree

variable {t : FileTree} {path : String}

lemma holds_of_walk {name : String} {front : List String} {parent : Place}
    {held : Option ByteArray} (hparts : pathParts path = front ++ [name]) (hname : IsName name)
    (hwalk : t.walk [] front = .ok parent)
    (hentry : t.get? (parent ++ [name]) = held.map .file) : Holds t path held := by
  have hlocate := locate_of_walk hparts hname hwalk
  cases held with
  | none => simp [Holds, read, hlocate, hentry]
  | some bytes => simp [Holds, read, hlocate, hentry]

end FileTree

/-- Once the directories on the way to the output are made, its bytes stand behind
those that are there then. -/
lemma exists_leads_writeOutput {t opened : FileTree} {path name : String} {front : List String}
    {parent : Place} {held : Option ByteArray} (hparts : pathParts path = front ++ [name])
    (hname : IsName name) (hreach : t.reach [] front = some (opened, parent))
    (hentry : opened.get? (parent ++ [name]) = held.map .file) (web : Web) (bytes : ByteArray) :
    ∃ t', Leads web (writeOutput path bytes) t (.ok ()) t'
      ∧ t'.read path = .ok (held.getD .empty ++ bytes)
      ∧ FileTree.Spares {placeOf path} t t' := by
  have hwalk := FileTree.reach_walk hreach
  have hlocate := FileTree.locate_of_walk hparts hname hwalk
  have happend : opened.append path bytes
      = .ok (opened.put (parent ++ [name]) (.file (held.getD .empty ++ bytes))) := by
    cases held <;> simp [FileTree.append, hlocate, hentry]
  have hspares : FileTree.Spares {parent ++ [name]} opened
      (opened.put (parent ++ [name]) (.file (held.getD .empty ++ bytes))) :=
    FileTree.spares_put opened (by simp) _
  have hretains := hspares.retains (by cases held <;> simp [hentry])
  have hmade : FileTree.Spares {parent ++ [name]} t opened :=
    (FileTree.spares_of_reach hreach).mono (Set.empty_subset _)
  rw [placeOf_of_reach hparts hname hreach]
  have hentry' : (opened.put (parent ++ [name]) (.file (held.getD .empty ++ bytes))).get?
      (parent ++ [name]) = (some (held.getD .empty ++ bytes)).map .file := by
    rw [FileTree.get?_put opened (by simp), if_pos rfl, Option.map_some]
  have hholds := FileTree.holds_of_walk hparts hname (FileTree.walk_mono hretains hwalk) hentry'
  exact ⟨_, leads_writeOutput hparts hname hreach happend, hholds, hmade.trans hspares⟩

namespace Starts

variable {t : FileTree} {path : String} {held : Option ByteArray}

/-- The directories on the way to the path can be made, and at its end there is
what the path holds. -/
lemma opened (h : Starts t path held) :
    ∃ front name opened parent, pathParts path = front ++ [name] ∧ IsName name
      ∧ t.reach [] front = some (opened, parent)
      ∧ opened.get? (parent ++ [name]) = held.map .file := by
  cases h with
  | file hread =>
      obtain ⟨front, name, parent, hparts, hname, hwalk, hfile⟩ := FileTree.parts_of_read hread
      exact ⟨front, name, t, parent, hparts, hname, FileTree.reach_of_walk hwalk, hfile⟩
  | absent hparts hname hreach hfree =>
      exact ⟨_, _, _, _, hparts, hname, hreach, hfree⟩

/-- Where there is no output a directory on the way is missing, or the file is. -/
lemma locate_absent (h : Starts t path none) :
    t.locate path = .error .notFound
      ∨ ∃ place, t.locate path = .ok (.entry place false) ∧ t.get? place = none := by
  cases h with
  | absent hparts hname hreach hfree =>
      obtain ⟨hwalk, rfl⟩ | hwalk := FileTree.walk_of_reach hreach
      · exact .inr ⟨_, FileTree.locate_of_walk hparts hname hwalk, hfree⟩
      · rw [FileTree.locate_eq_nameIn t hparts hname.nonempty (by simp), hwalk]
        exact .inl rfl

lemma holds (h : Starts t path held) : Holds t path held := by
  cases held with
  | none =>
      obtain hlocate | ⟨place, hlocate, hfree⟩ := h.locate_absent
      · simp [Holds, FileTree.read, hlocate]
      · simp [Holds, FileTree.read, hlocate, hfree]
  | some bytes =>
      cases h with
      | file hread => exact hread

/-- Where there is no output none can be removed. -/
lemma remove_absent (h : Starts t path none) : t.remove path = .error .notFound := by
  obtain hlocate | ⟨place, hlocate, hfree⟩ := h.locate_absent
  · simp [FileTree.remove, hlocate]
  · simp [FileTree.remove, hlocate, hfree]

/-- An output that is there is removed, and then there is none. -/
lemma remove {bytes : ByteArray} (h : Starts t path (some bytes)) :
    ∃ t', t.remove path = .ok t' ∧ Starts t' path none
      ∧ FileTree.Spares {placeOf path} t t' := by
  obtain ⟨front, name, parent, hparts, hname, hwalk, hfile⟩ := FileTree.parts_of_read h.holds
  have hplace := placeOf_of_reach hparts hname (FileTree.reach_of_walk hwalk)
  have hlocate := FileTree.locate_of_walk hparts hname hwalk
  have hspares : FileTree.Spares {parent ++ [name]} t (t.erase (parent ++ [name])) :=
    FileTree.spares_erase t (by simp)
  have hretains := hspares.retains (by simp [hfile])
  rw [hplace]
  refine ⟨_, by simp [FileTree.remove, hlocate, hfile], ?_, hspares⟩
  refine .absent hparts hname (FileTree.reach_of_walk (FileTree.walk_mono hretains hwalk)) ?_
  rw [FileTree.get?_erase t (by simp), if_pos rfl]

/-- The writing of an output appends it to what there is, and makes the directories
on its way. -/
lemma write (h : Starts t path held) (web : Web) (bytes : ByteArray) :
    ∃ t', Leads web (writeOutput path bytes) t (.ok ()) t'
      ∧ Starts t' path (some (held.getD .empty ++ bytes))
      ∧ FileTree.Spares {placeOf path} t t' := by
  obtain ⟨front, name, opened, parent, hparts, hname, hreach, hentry⟩ := h.opened
  obtain ⟨t', hwrite, hread, hspares⟩ :=
    exists_leads_writeOutput hparts hname hreach hentry web bytes
  exact ⟨t', hwrite, .file hread, hspares⟩

end Starts

/-! ### Sequences of runs -/

/-- A run of a sequence: its call and the machine it starts on. -/
structure Turn where
  call : Call
  start : Machine

namespace Turn

variable (turn : Turn)

/-- The machine after the run. -/
def after : Machine := (turn.call.run turn.start).2

def answer : Except RunError Statistics := (turn.call.run turn.start).1

/-- The schemas that the run finds. -/
def found : Except LoadError Fields := turn.call.found turn.start

/-- What the run has to write, if it finds schemas. -/
def output? : Option ByteArray :=
  turn.found.toOption.map (output turn.call.config.documentation)

/-- The run finds schemas. -/
def Succeeds : Prop := ∃ mapping, turn.found = .ok mapping

/-- The run is asked to remove its output file. -/
def Removes : Prop := turn.call.config.removeExisting = true

instance : Decidable turn.Removes := inferInstanceAs (Decidable (_ = true))

/-- What the run leaves at its output path, where there was `held`. -/
def leaves (held : Option ByteArray) : Option ByteArray :=
  let kept := if turn.Removes then none else held
  turn.output?.elim kept fun bytes => some (kept.getD .empty ++ bytes)

end Turn

/-- The runs of a sequence, each on the machine that those before it leave. -/
def turns : List Call → Machine → List Turn
  | [], _ => []
  | call :: rest, s => ⟨call, s⟩ :: turns rest (call.run s).2

/-- The machine after a sequence of runs. -/
def finish (calls : List Call) (s : Machine) : Machine := (calls.mapM Call.run s).2

/-- What was held and what was written behind it; nothing if there was neither. -/
def written (held : Option ByteArray) (outputs : List ByteArray) : Option ByteArray :=
  if outputs = [] then held else some (held.getD .empty ++ inSuccession outputs)

/-- What a sequence of runs has to write. -/
def outputs (runs : List Turn) : List ByteArray := runs.filterMap Turn.output?

@[simp] lemma finish_nil (s : Machine) : finish [] s = s := rfl

@[simp] lemma finish_cons (call : Call) (rest : List Call) (s : Machine) :
    finish (call :: rest) s = finish rest (call.run s).2 := by
  rw [finish, List.mapM_cons]
  rfl

section Turn

variable {turn : Turn} {path : String} {held : Option ByteArray}

/-- A run that finds no schemas ends with the reason, and leaves the files as they
were, or with the removal of its output file only. -/
lemma Turn.answer_of_error {error : LoadError} (hfound : turn.found = .error error) :
    turn.answer = .error (.load error)
      ∧ (turn.after.files = turn.start.files
        ∨ turn.Removes ∧ turn.start.files.remove turn.call.config.output
          = .ok turn.after.files) := by
  obtain ⟨hanswer, hfiles⟩ := Call.run_of_error hfound
  refine ⟨hanswer, ?_⟩
  rw [after, hfiles]
  exact turn.call.cleared_files turn.start

/-- The removal of the output file, if it is asked for. -/
lemma Starts.cleared (h : Starts turn.start.files path held)
    (hpath : turn.call.config.output = path) :
    Starts (turn.call.cleared turn.start).files path (if turn.Removes then none else held)
      ∧ FileTree.Spares {placeOf path} turn.start.files (turn.call.cleared turn.start).files := by
  split_ifs with hremoves
  · cases held with
    | none =>
        rw [Call.cleared_files_error _ _ (hpath ▸ h.remove_absent)]
        exact ⟨h, .refl _ _⟩
    | some bytes =>
        obtain ⟨t, hremove, hstarts⟩ := h.remove
        rw [Call.cleared_files_ok _ _ hremoves (hpath ▸ hremove)]
        exact hstarts
  · rw [Call.cleared_of_not _ _ hremoves]
    exact ⟨h, .refl _ _⟩

/-- **One run.** A run on an output path leaves there what it should, touches
nothing else but to make directories, and ends with an error only if it finds no
schemas. -/
lemma Starts.run (h : Starts turn.start.files path held)
    (hpath : turn.call.config.output = path) :
    Starts turn.after.files path (turn.leaves held)
      ∧ FileTree.Spares {placeOf path} turn.start.files turn.after.files
      ∧ turn.answer = match turn.found with
        | .error error => .error (.load error)
        | .ok mapping => .ok (turn.call.statistics mapping) := by
  obtain ⟨hcleared, hremoval⟩ := h.cleared hpath
  cases hfound : turn.found with
  | error error =>
      obtain ⟨hanswer, hfiles⟩ := Call.run_of_error hfound
      rw [Turn.after, hfiles, Turn.leaves, Turn.output?, hfound]
      exact ⟨hcleared, hremoval, hanswer⟩
  | ok mapping =>
      obtain ⟨t, hwrite, hstarts, hspares⟩ := hcleared.write turn.call.web
        (output turn.call.config.documentation mapping)
      rw [← hpath] at hwrite
      obtain ⟨hanswer, hfiles⟩ := Call.run_of_ok hfound hwrite
      rw [Turn.after, hfiles, Turn.leaves, Turn.output?, hfound]
      exact ⟨hstarts, hremoval.trans hspares, hanswer⟩

end Turn

section Turns

variable {calls : List Call} {s : Machine} {path : String} {held : Option ByteArray}

/-- **All runs.** What is left at the output path is what the runs leave there one
after the other, and nothing else is touched but to make directories. -/
lemma Starts.sequence (h : Starts s.files path held)
    (hpath : ∀ call ∈ calls, call.config.output = path) :
    Starts (finish calls s).files path
        ((turns calls s).foldl (fun held turn => turn.leaves held) held)
      ∧ FileTree.Spares {placeOf path} s.files (finish calls s).files := by
  induction calls generalizing s held with
  | nil => exact ⟨h, .refl _ _⟩
  | cons call rest ih =>
      obtain ⟨hstarts, hspares, -⟩ :=
        @Starts.run ⟨call, s⟩ path held h (hpath call List.mem_cons_self)
      obtain ⟨hrest, hspares'⟩ := ih hstarts fun later hlater =>
        hpath later (List.mem_cons_of_mem call hlater)
      rw [finish_cons]
      exact ⟨hrest, hspares.trans hspares'⟩

/-- Every run of the sequence answers as it should. -/
lemma Starts.answers (h : Starts s.files path held)
    (hpath : ∀ call ∈ calls, call.config.output = path) :
    ∀ turn ∈ turns calls s, turn.answer = match turn.found with
      | .error error => .error (.load error)
      | .ok mapping => .ok (turn.call.statistics mapping) := by
  induction calls generalizing s held with
  | nil => exact fun turn hturn => absurd hturn List.not_mem_nil
  | cons call rest ih =>
      obtain ⟨hstarts, -, hanswer⟩ :=
        @Starts.run ⟨call, s⟩ path held h (hpath call List.mem_cons_self)
      intro turn hturn
      obtain rfl | hturn := List.mem_cons.mp hturn
      · exact hanswer
      · exact ih hstarts (fun later hlater => hpath later (List.mem_cons_of_mem call hlater))
          turn hturn

lemma call_mem_of_mem_turns {turn : Turn} (h : turn ∈ turns calls s) : turn.call ∈ calls := by
  induction calls generalizing s with
  | nil => exact absurd h List.not_mem_nil
  | cons call rest ih =>
      obtain rfl | h := List.mem_cons.mp h
      · exact List.mem_cons_self
      · exact List.mem_cons_of_mem call (ih h)

end Turns

/-! ### What is left in closed form -/

section Left

variable {runs : List Turn}

lemma written_cons (held : Option ByteArray) (bytes : ByteArray) (outputs : List ByteArray) :
    written (some (held.getD .empty ++ bytes)) outputs = written held (bytes :: outputs) := by
  cases outputs with
  | nil => simp [written]
  | cons next rest => simp [written, ByteArray.append_assoc]

/-- Runs that remove nothing write behind each other. -/
lemma foldl_leaves (h : ∀ turn ∈ runs, ¬ turn.Removes) (held : Option ByteArray) :
    runs.foldl (fun held turn => turn.leaves held) held = written held (outputs runs) := by
  induction runs generalizing held with
  | nil => rfl
  | cons turn rest ih =>
      have hturn := h turn List.mem_cons_self
      rw [List.foldl_cons, ih fun later hlater => h later (List.mem_cons_of_mem turn hlater),
        outputs, outputs, Turn.leaves]
      cases houtput : turn.output? with
      | none =>
          rw [List.filterMap_cons_none houtput, if_neg hturn]
          rfl
      | some bytes =>
          rw [List.filterMap_cons_some houtput, if_neg hturn, ← written_cons]
          rfl

/-- What is behind the last removal is all there is. -/
lemma foldl_leaves_removal {before after : List Turn} {turn : Turn} (hturn : turn.Removes)
    (hafter : ∀ later ∈ after, ¬ later.Removes) (held : Option ByteArray) :
    (before ++ turn :: after).foldl (fun held turn => turn.leaves held) held
      = written none (outputs (turn :: after)) := by
  rw [List.foldl_append, List.foldl_cons, foldl_leaves hafter, Turn.leaves, outputs, outputs]
  cases houtput : turn.output? with
  | none =>
      rw [List.filterMap_cons_none houtput, if_pos hturn]
      rfl
  | some bytes =>
      rw [List.filterMap_cons_some houtput, if_pos hturn, ← written_cons]
      rfl

lemma written_eq_none_iff {held : Option ByteArray} {outputs : List ByteArray} :
    written held outputs = none ↔ held = none ∧ outputs = [] := by
  rw [written]
  split_ifs with houtputs <;> simp [houtputs]

lemma outputs_eq_nil_iff : outputs runs = [] ↔ ∀ turn ∈ runs, ¬ turn.Succeeds := by
  rw [outputs, List.filterMap_eq_nil_iff]
  refine forall₂_congr fun turn _ => ?_
  rw [Turn.Succeeds, Turn.output?]
  cases turn.found with
  | error error => simp [Except.toOption]
  | ok mapping => simp [Except.toOption]

lemma Holds.absent_iff {t : FileTree} {path : String} {held : Option ByteArray}
    (h : Holds t path held) : t.read path = .error (.unopened .notFound) ↔ held = none := by
  cases held with
  | none => simpa [Holds] using h
  | some bytes =>
      rw [Holds] at h
      simp [h]

end Left

section

variable {path : String} {initial : Option ByteArray} {s : Machine} {calls : List Call}

/-- Without a removal all outputs stand behind what was there at first. -/
lemma Starts.kept (h : Starts s.files path initial)
    (hpath : ∀ call ∈ calls, call.config.output = path)
    (hnone : ∀ turn ∈ turns calls s, ¬ turn.Removes) :
    Holds (finish calls s).files path (written initial (outputs (turns calls s))) := by
  rw [← foldl_leaves hnone]
  exact (h.sequence hpath).1.holds

/-- With a removal the outputs from the last one on are all there is. -/
lemma Starts.removed (h : Starts s.files path initial)
    (hpath : ∀ call ∈ calls, call.config.output = path) {before after : List Turn} {turn : Turn}
    (hturns : turns calls s = before ++ turn :: after) (hturn : turn.Removes)
    (hafter : ∀ later ∈ after, ¬ later.Removes) :
    Holds (finish calls s).files path (written none (outputs (turn :: after))) := by
  rw [← foldl_leaves_removal hturn hafter, ← hturns]
  exact (h.sequence hpath).1.holds

/-- There is no output in the end if there was none at first and no run wrote one,
or if no run from the last removal on wrote one, and else there is. -/
lemma Starts.absent_iff (h : Starts s.files path initial)
    (hpath : ∀ call ∈ calls, call.config.output = path) :
    (finish calls s).files.read path = .error (.unopened .notFound) ↔
      ((∀ turn ∈ turns calls s, ¬ turn.Removes) ∧ initial = none
          ∧ ∀ turn ∈ turns calls s, ¬ turn.Succeeds)
        ∨ ∃ before turn after, turns calls s = before ++ turn :: after ∧ turn.Removes
          ∧ (∀ later ∈ after, ¬ later.Removes) ∧ ∀ run ∈ turn :: after, ¬ run.Succeeds := by
  constructor
  · intro habsent
    obtain hnone | ⟨before, turn, after, hturns, hturn, hafter⟩ :=
      exists_last_or_forall (p := fun turn : Turn => ¬ turn.Removes) (turns calls s)
    · have hwritten := (h.kept hpath hnone).absent_iff.mp habsent
      obtain ⟨hinitial, houtputs⟩ := written_eq_none_iff.mp hwritten
      exact .inl ⟨hnone, hinitial, outputs_eq_nil_iff.mp houtputs⟩
    · rw [not_not] at hturn
      have hwritten := (h.removed hpath hturns hturn hafter).absent_iff.mp habsent
      obtain ⟨-, houtputs⟩ := written_eq_none_iff.mp hwritten
      exact .inr ⟨before, turn, after, hturns, hturn, hafter, outputs_eq_nil_iff.mp houtputs⟩
  · rintro (⟨hnone, hinitial, hfailed⟩ | ⟨before, turn, after, hturns, hturn, hafter, hfailed⟩)
    · refine (h.kept hpath hnone).absent_iff.mpr ?_
      exact written_eq_none_iff.mpr ⟨hinitial, outputs_eq_nil_iff.mpr hfailed⟩
    · refine (h.removed hpath hturns hturn hafter).absent_iff.mpr ?_
      exact written_eq_none_iff.mpr ⟨rfl, outputs_eq_nil_iff.mpr hfailed⟩

/-- **Runs that share an output path.** At the path there is in the end what was
there at first, unless a run removed it, and behind it the outputs, in order, of
the runs that found schemas, from the last removing one on. A run that finds no
schemas answers why, and at most removes the output. -/
theorem regeneration (hstarts : Starts s.files path initial)
    (hpath : ∀ call ∈ calls, call.config.output = path) :
    ((∀ turn ∈ turns calls s, ¬ turn.Removes) →
        Holds (finish calls s).files path (written initial (outputs (turns calls s))))
      ∧ (∀ before turn after, turns calls s = before ++ turn :: after → turn.Removes →
        (∀ later ∈ after, ¬ later.Removes) →
          Holds (finish calls s).files path (written none (outputs (turn :: after))))
      ∧ ((finish calls s).files.read path = .error (.unopened .notFound) ↔
        ((∀ turn ∈ turns calls s, ¬ turn.Removes) ∧ initial = none
            ∧ ∀ turn ∈ turns calls s, ¬ turn.Succeeds)
          ∨ ∃ before turn after, turns calls s = before ++ turn :: after ∧ turn.Removes
            ∧ (∀ later ∈ after, ¬ later.Removes) ∧ ∀ run ∈ turn :: after, ¬ run.Succeeds)
      ∧ FileTree.Spares {placeOf path} s.files (finish calls s).files
      ∧ (∀ turn ∈ turns calls s, ∀ mapping, turn.found = .ok mapping →
        turn.answer = .ok (turn.call.statistics mapping))
      ∧ ∀ turn ∈ turns calls s, ∀ error, turn.found = .error error →
        turn.answer = .error (.load error)
          ∧ (turn.after.files = turn.start.files
            ∨ turn.Removes ∧ turn.start.files.remove path = .ok turn.after.files) := by
  refine ⟨hstarts.kept hpath, fun before turn after => hstarts.removed hpath,
    hstarts.absent_iff hpath, (hstarts.sequence hpath).2, ?_, ?_⟩
  · intro turn hturn mapping hfound
    rw [hstarts.answers hpath turn hturn, hfound]
  · intro turn hturn error hfound
    rw [← hpath turn.call (call_mem_of_mem_turns hturn)]
    exact turn.answer_of_error hfound

end

/-- A run that prints nothing, on a document that is a file. -/
def quietCall (source output : String) (removeExisting documentation : Bool) : Call where
  config :=
    { source := .file source
      output := output
      typesOnly := false
      documentation := documentation
      removeExisting := removeExisting
      verbose := false
      quiet := true }
  colors := ⟨false, .dark⟩
  web := fun _ => none

/-- A document with one schema, which has an example. -/
def noteDocument : ByteArray :=
  ("\x7b\"components\": \x7b\"schemas\": "
    ++ "\x7b\"Note\": \x7b\"type\": \"string\", \"example\": \"la\"\x7d\x7d\x7d\x7d").toUTF8

/-- A machine with that document and another file. -/
def noteMachine : Machine where
  files := ⟨[(["note.json"], .file noteDocument), (["b.ts"], .file "old\n".toUTF8)]⟩
  time := "[TIME]"

/-- A run that makes the directories, one that removes the output and then finds no
document, and two that write behind each other. -/
def mixedCalls : List Call :=
  [quietCall "note.json" "out/types/note.ts" false true, quietCall "gone.json" "out/types/note.ts" true true,
    quietCall "note.json" "out/types/note.ts" false false, quietCall "note.json" "out/types/note.ts" false true]

/-- What the last three of these runs leave. -/
def mixedOutput : ByteArray :=
  ("export type Note = string\r\n"
    ++ "\r\n/**\r\n* la\r\n**/\r\nexport type Note = string\r\n").toUTF8

theorem regeneration_mixedCalls :
    Starts noteMachine.files "out/types/note.ts" none
      ∧ (∀ call ∈ mixedCalls, call.config.output = "out/types/note.ts")
      ∧ (finish mixedCalls noteMachine).files.read "out/types/note.ts" = .ok mixedOutput := by
  have hstarts : Starts noteMachine.files "out/types/note.ts" none :=
    .absent (show pathParts "out/types/note.ts" = ["out", "types"] ++ ["note.ts"] by decide)
      ⟨by decide, by decide, by decide, by decide⟩ rfl (by decide +kernel)
  have hpath : ∀ call ∈ mixedCalls, call.config.output = "out/types/note.ts" := by decide
  have hturns : ∃ before turn after, turns mixedCalls noteMachine = before ++ turn :: after
      ∧ turn.Removes ∧ (∀ later ∈ after, ¬ later.Removes)
      ∧ turn :: after = (turns mixedCalls noteMachine).drop 1 :=
    ⟨[_], _, _, rfl, rfl, by decide, rfl⟩
  have hwritten : written none (outputs ((turns mixedCalls noteMachine).drop 1))
      = some mixedOutput := by decide +kernel
  obtain ⟨before, turn, after, hturns, hturn, hafter, hdrop⟩ := hturns
  have hholds := (regeneration hstarts hpath).2.1 before turn after hturns hturn hafter
  rw [hdrop, hwritten] at hholds
  exact ⟨hstarts, hpath, hholds⟩

/-- The removal looks for the output before the directories on its way are made: a
file behind a directory that is missing is not there to be removed, and the output
is written behind its bytes. -/
theorem removal_before_directories :
    noteMachine.files.read "a/../b.ts" = .error (.unopened .notFound)
      ∧ ((createDirectories ⟨false, ["a", ".."]⟩ : Online _) (fun _ => none) noteMachine).1 = .ok ()
      ∧ outputs (turns [quietCall "note.json" "a/../b.ts" true false] noteMachine)
        = ["export type Note = string\r\n".toUTF8]
      ∧ (finish [quietCall "note.json" "a/../b.ts" true false] noteMachine).files.read "a/../b.ts"
        = .ok "old\nexport type Note = string\r\n".toUTF8
      ∧ (finish [quietCall "note.json" "a/../b.ts" true false] noteMachine).files.read "a/../b.ts"
        ≠ .ok "export type Note = string\r\n".toUTF8 := by
  refine ⟨?_, ?_, ?_, ?_, ?_⟩ <;> decide +kernel

end SchemaTypes
