import SchemaTypes.Proofs.Regeneration

/-!
What a run leaves, and answers, hangs on the schemas of its document only.

* `SchemasAt`: a document has a mapping at its place for schemas, which is what
  `componentSchemas` looks for;
* `Stands`: what is at an output path, and what is there once the missing
  directories on its way are made;
* `Turn.Apart`: the document of a run is not its output file, so that the removal
  of the output leaves the document alone (`Turn.found_of_loaded`);
* `Turn.Fit.run`: the answer of a run, and the bytes that it leaves;
* `schemas_decide`: runs of the same schemas answer and leave the same, and a run
  without schemas answers so;
* `previous_bytes_behind_directories`: the state of an output path before a run is
  more than what can be read there.
-/

namespace SchemaTypes

/-! ### Documents -/

/-- The document has the mapping at its place for schemas. -/
def SchemasAt (document : Json) (mapping : Fields) : Prop :=
  ∃ outer inner : Fields, document = .obj outer ∧ outer.get? "components" = some (.obj inner)
    ∧ inner.get? "schemas" = some (.obj mapping)

lemma componentSchemas_of_schemasAt {document : Json} {mapping : Fields}
    (h : SchemasAt document mapping) : componentSchemas document = .ok mapping := by
  obtain ⟨outer, inner, rfl, hcomponents, hschemas⟩ := h
  simp [componentSchemas, Json.fields?, hcomponents, hschemas]

lemma schemasAt_of_componentSchemas {document : Json} {mapping : Fields}
    (h : componentSchemas document = .ok mapping) : SchemasAt document mapping := by
  rw [componentSchemas] at h
  split at h
  · rename_i found hfound
    cases h
    obtain ⟨outer, houter, hrest⟩ := Option.bind_eq_some_iff.mp hfound
    obtain ⟨components, hcomponents, hrest⟩ := Option.bind_eq_some_iff.mp hrest
    obtain ⟨inner, hinner, hschemas⟩ := Option.bind_eq_some_iff.mp hrest
    cases document <;> cases houter
    cases components <;> cases hinner
    exact ⟨outer, inner, rfl, hcomponents, hschemas⟩
  · cases h

lemma componentSchemas_of_forall_not {document : Json} (h : ∀ mapping, ¬ SchemasAt document mapping) :
    componentSchemas document = .error .missingSchemas := by
  cases hfound : componentSchemas document with
  | ok mapping => exact absurd (schemasAt_of_componentSchemas hfound) (h mapping)
  | error error =>
      rw [componentSchemas] at hfound
      split at hfound
      · cases hfound
      · cases hfound
        rfl

/-! ### Output paths -/

/-- What is at an output path as the files are, none standing for no file, and what is
there once the missing directories on its way are made. -/
inductive Stands (t : FileTree) (path : String) : Option ByteArray → Option ByteArray → Prop
  | file {bytes : ByteArray} (hread : t.read path = .ok bytes) :
      Stands t path (some bytes) (some bytes)
  | absent {front : List String} {name : String} {opened : FileTree} {parent : Place}
      {later : Option ByteArray} (habsent : t.read path = .error (.unopened .notFound))
      (hparts : pathParts path = front ++ [name]) (hname : IsName name)
      (hreach : t.reach [] front = some (opened, parent))
      (hentry : opened.get? (parent ++ [name]) = later.map .file) : Stands t path none later

namespace FileTree

variable {t t' : FileTree} {path : String} {bytes : ByteArray}

lemma remove_of_read_notFound (h : t.read path = .error (.unopened .notFound)) :
    t.remove path = .error .notFound := by
  rw [read] at h
  rw [remove]
  split at h
  · cases h
    rfl
  · cases h
  · split at h
    · rfl
    · cases h
    · split_ifs at h
      cases h

lemma locate_of_read (h : t.read path = .ok bytes) :
    t.locate path = .ok (.entry (placeOf path) false) := by
  obtain ⟨front, name, parent, hparts, hname, hwalk, -⟩ := parts_of_read h
  rw [placeOf_of_reach hparts hname (reach_of_walk hwalk)]
  exact locate_of_walk hparts hname hwalk

/-- A file that is spared stays as it is. -/
lemma Spares.file {touched : Set Place} {place : Place} (h : Spares touched t t')
    (hplace : place ∉ touched) (hfile : t.get? place = some (.file bytes)) :
    t'.get? place = some (.file bytes) := by
  obtain hsame | ⟨hfree, -⟩ := h place hplace
  · exact hsame.trans hfile
  · simp [hfree] at hfile

/-- What is removed was a file at the place that the path spells. -/
lemma spares_remove (h : t.remove path = .ok t') :
    Spares {placeOf path} t t' ∧ t.Retains t' := by
  rw [remove] at h
  split at h
  · cases h
  · cases h
  · rename_i place marked hlocate
    split at h
    · cases h
    · cases h
    · rename_i held hfile
      split_ifs at h with hmarked
      cases h
      rw [Bool.not_eq_true] at hmarked
      obtain rfl := placeOf_of_locate (hmarked ▸ hlocate)
      have hplace : placeOf path ≠ [] := fun hroot => by simp [hroot] at hfile
      have hspares := spares_erase t hplace
      exact ⟨hspares, hspares.retains (by simp [hfile])⟩

/-- A removal elsewhere leaves a file as it is. -/
lemma read_remove {source : String} (h : t.remove path = .ok t')
    (hplace : placeOf source ≠ placeOf path) (hread : t.read source = .ok bytes) :
    t'.read source = .ok bytes := by
  obtain ⟨hspares, hretains⟩ := spares_remove h
  obtain ⟨front, name, parent, hparts, hname, hwalk, hfile⟩ := parts_of_read hread
  rw [placeOf_of_reach hparts hname (reach_of_walk hwalk)] at hplace
  have hentry : t'.get? (parent ++ [name]) = (some bytes).map .file := hspares.file hplace hfile
  exact holds_of_walk hparts hname (walk_mono hretains hwalk) hentry

lemma locate_of_remove (h : t.remove path = .ok t') :
    t.locate path = .ok (.entry (placeOf path) false) := by
  rw [remove] at h
  split at h
  · cases h
  · cases h
  · rename_i place marked hlocate
    split at h
    · cases h
    · cases h
    · split_ifs at h with hmarked
      rw [Bool.not_eq_true] at hmarked
      subst hmarked
      rw [placeOf_of_locate hlocate]
      exact hlocate

end FileTree

/-! ### Runs -/

namespace Turn

variable (turn : Turn)

/-- The document at the source of the run. -/
def loaded : Except LoadError Json :=
  ((loadDocument turn.call.config.source : Online _) turn.call.web turn.start).1

/-- The document of the run is not a file that its output path names. -/
def Apart : Prop :=
  ∀ path, turn.call.config.source = .file path →
    turn.start.files.locate path ≠ turn.start.files.locate turn.call.config.output

/-- A run on a document that has the mapping, at an output path that stands as given. -/
structure Fit (mapping : Fields) (now later : Option ByteArray) : Prop where
  loaded : ∃ document, turn.loaded = .ok document ∧ SchemasAt document mapping
  apart : turn.Apart
  stands : Stands turn.start.files turn.call.config.output now later

/-- The bytes in front of the output. -/
def kept (now later : Option ByteArray) : ByteArray :=
  if turn.Removes ∧ now.isSome then .empty else later.getD .empty

variable {turn}

/-- The document is read as it is before the removal of the output. -/
lemma read_cleared (hapart : turn.Apart) {path : String} {bytes : ByteArray}
    (hsource : turn.call.config.source = .file path)
    (hread : turn.start.files.read path = .ok bytes) :
    (turn.call.cleared turn.start).files.read path = .ok bytes := by
  obtain hsame | ⟨-, hremove⟩ := turn.call.cleared_files turn.start
  · rw [hsame, hread]
  · have hplace : placeOf path ≠ placeOf turn.call.config.output := by
      intro hplace
      refine hapart path hsource ?_
      rw [FileTree.locate_of_read hread, FileTree.locate_of_remove hremove, hplace]
    exact FileTree.read_remove hremove hplace hread

/-- The removal of the output file does not change what a run loads. -/
lemma found_of_loaded (hapart : turn.Apart) {document : Json}
    (hloaded : turn.loaded = .ok document) : turn.found = componentSchemas document := by
  have hdocument : turn.loaded
      = documentAt turn.call.web turn.start.files turn.call.config.source :=
    (leads_loadDocument _ _ _ turn.start rfl).1
  have hfound : turn.found = (documentAt turn.call.web (turn.call.cleared turn.start).files
      turn.call.config.source).bind componentSchemas := by
    rw [← (leads_loadDocument _ _ _ (turn.call.cleared turn.start) rfl).1]
    rfl
  rw [hdocument] at hloaded
  suffices hsame : documentAt turn.call.web (turn.call.cleared turn.start).files
      turn.call.config.source = .ok document by
    rw [hfound, hsame]
    rfl
  cases hsource : turn.call.config.source with
  | remote address =>
      rw [hsource] at hloaded
      exact hloaded
  | file path =>
      rw [hsource, documentAt] at hloaded
      cases hread : turn.start.files.read path with
      | error fault => simp [hread] at hloaded
      | ok bytes =>
          rw [documentAt, read_cleared hapart hsource hread]
          simpa [hread] using hloaded

/-- **One run.** The answer of a run, and the bytes that it leaves at its output path,
are given by the mapping, what is asked of it and how the output path stands. -/
lemma Fit.run {mapping : Fields} {now later : Option ByteArray} (h : turn.Fit mapping now later) :
    turn.answer = .ok (turn.call.statistics mapping)
      ∧ turn.after.files.read turn.call.config.output
        = .ok (turn.kept now later ++ output turn.call.config.documentation mapping) := by
  obtain ⟨document, hloaded, hschemas⟩ := h.loaded
  have hfound : turn.found = .ok mapping := by
    rw [found_of_loaded h.apart hloaded, componentSchemas_of_schemasAt hschemas]
  cases h.stands with
  | file hread =>
      rename_i bytes
      obtain ⟨hstarts, -, hanswer⟩ := Starts.run (.file hread) rfl
      rw [hfound] at hanswer
      have hleaves : turn.leaves (some bytes)
          = some (turn.kept (some bytes) (some bytes)
            ++ output turn.call.config.documentation mapping) := by
        rw [leaves, output?, hfound, kept]
        by_cases hremoves : turn.Removes <;> simp [hremoves, Except.toOption]
      rw [hleaves] at hstarts
      exact ⟨hanswer, hstarts.holds⟩
  | absent habsent hparts hname hreach hentry =>
      -- nothing can be removed, but the directories may bring up a file
      have hcleared : (turn.call.cleared turn.start).files = turn.start.files :=
        Call.cleared_files_error _ _ (FileTree.remove_of_read_notFound habsent)
      obtain ⟨t, hwrite, hread, -⟩ := exists_leads_writeOutput hparts hname hreach hentry
        turn.call.web (output turn.call.config.documentation mapping)
      rw [← hcleared] at hwrite
      obtain ⟨hanswer, hfiles⟩ := Call.run_of_ok hfound hwrite
      have hkept : turn.kept none later = later.getD .empty := if_neg (by simp)
      rw [hkept, after, hfiles]
      exact ⟨hanswer, hread⟩

/-- A run on a document without schemas answers so. -/
lemma answer_of_missing (hapart : turn.Apart) {document : Json}
    (hloaded : turn.loaded = .ok document) (hmissing : ∀ mapping, ¬ SchemasAt document mapping) :
    turn.answer = .error (.load .missingSchemas) := by
  have hfound : turn.found = .error .missingSchemas := by
    rw [found_of_loaded hapart hloaded, componentSchemas_of_forall_not hmissing]
  exact (Call.run_of_error hfound).1

end Turn

/-- **Only the schemas count.** Two runs on documents with the same schemas, which
both are to remove the output or both not, and to write documentation or not, and
whose output paths stand the same, end with the same statistics and leave the same
bytes, whatever the formats, the places and the other parts of the documents, and
whatever they are to print. A run on a document that parses but has no mapping at the
place for schemas answers so, whatever else. -/
theorem schemas_decide :
    (∀ (first second : Turn) (mapping : Fields) (now later : Option ByteArray),
      first.Fit mapping now later → second.Fit mapping now later →
      first.call.config.documentation = second.call.config.documentation →
      first.call.config.removeExisting = second.call.config.removeExisting →
      ∃ statistics bytes,
        (first.answer = .ok statistics ∧ second.answer = .ok statistics)
          ∧ first.after.files.read first.call.config.output = .ok bytes
          ∧ second.after.files.read second.call.config.output = .ok bytes)
      ∧ ∀ (turn : Turn) (document : Json), turn.loaded = .ok document → turn.Apart →
        (∀ mapping, ¬ SchemasAt document mapping) →
        turn.answer = .error (.load .missingSchemas) := by
  refine ⟨fun first second mapping now later hfirst hsecond hdocumentation hremove => ?_,
    fun turn document hloaded hapart hmissing => Turn.answer_of_missing hapart hloaded hmissing⟩
  obtain ⟨hanswer, hread⟩ := hfirst.run
  obtain ⟨hanswer', hread'⟩ := hsecond.run
  have hstatistics : second.call.statistics mapping = first.call.statistics mapping := by
    rw [Call.statistics, Call.statistics, hdocumentation]
  have hremoves : second.Removes = first.Removes := congrArg (· = true) hremove.symm
  have hkept : second.kept now later = first.kept now later := by
    simp only [Turn.kept, hremoves]
  rw [hstatistics] at hanswer'
  rw [hkept, ← hdocumentation] at hread'
  exact ⟨_, _, ⟨hanswer, hanswer'⟩, hread, hread'⟩

/-- A run on the document with one schema that has an example. -/
def fileTurn : Turn := ⟨quietCall "note.json" "out/types/note.ts" true true, noteMachine⟩

/-- A run on another document of the same schemas, which is YAML and on the web, that
is to show all there is to show in colours. -/
def webTurn : Turn where
  call :=
    { config :=
        { source := .remote
            { scheme := .https
              userinfo := []
              host := .domain "example.com".toList
              port := none
              path := "/api.yaml".toList
              query := none
              fragment := none }
          output := "api.ts"
          typesOnly := true
          documentation := true
          removeExisting := true
          verbose := true
          quiet := false }
      colors := ⟨true, .light⟩
      web := fun _ => some
        ("openapi: 3.0.0\ncomponents:\n  schemas:\n"
          ++ "    Note: \x7btype: string, example: la\x7d\n").toUTF8 }
  start := { files := ⟨[(["b.ts"], .directory)]⟩, time := "[TIME]" }

/-- The mapping of both documents. -/
def noteSchemas : Fields := [("Note", .obj [("type", .str "string"), ("example", .str "la")])]

/-- A turn on a document without schemas: the mapping is not where it belongs. -/
def bareTurn : Turn :=
  ⟨quietCall "bare.json" "bare.json.ts" true true,
    { files := ⟨[(["bare.json"], .file "\x7b\"components\": [1]\x7d".toUTF8)]⟩, time := "[TIME]" }⟩

theorem schemas_decide_notes :
    fileTurn.Fit noteSchemas none none ∧ webTurn.Fit noteSchemas none none
      ∧ (∃ statistics bytes,
        (fileTurn.answer = .ok statistics ∧ webTurn.answer = .ok statistics)
          ∧ fileTurn.after.files.read "out/types/note.ts" = .ok bytes
          ∧ webTurn.after.files.read "api.ts" = .ok bytes)
      ∧ bareTurn.answer = .error (.load .missingSchemas) := by
  have hfile : fileTurn.Fit noteSchemas none none := by
    refine ⟨⟨.obj [("components", .obj [("schemas", .obj noteSchemas)])], by decide +kernel,
      _, _, rfl, rfl, rfl⟩, ?_, ?_⟩
    · rintro path ⟨rfl⟩
      decide +kernel
    · exact .absent (by decide +kernel)
        (show pathParts "out/types/note.ts" = ["out", "types"] ++ ["note.ts"] by decide)
        ⟨by decide, by decide, by decide, by decide⟩ rfl (by decide +kernel)
  have hweb : webTurn.Fit noteSchemas none none := by
    refine ⟨⟨.obj [("openapi", .str "3.0.0"), ("components", .obj [("schemas", .obj noteSchemas)])],
      by decide +kernel, _, _, rfl, rfl, rfl⟩, ?_, ?_⟩
    · rintro path ⟨⟩
    · exact .absent (by decide +kernel) (show pathParts "api.ts" = [] ++ ["api.ts"] by decide)
        ⟨by decide, by decide, by decide, by decide⟩ rfl (by decide +kernel)
  have hbare : bareTurn.loaded = .ok (.obj [("components", .arr [.num (.integer 1)])]) := by
    decide +kernel
  have hapart : bareTurn.Apart := by
    rintro path ⟨rfl⟩
    decide +kernel
  have hmissing : ∀ mapping,
      ¬ SchemasAt (.obj [("components", .arr [.num (.integer 1)])]) mapping := by
    rintro mapping ⟨outer, inner, ⟨rfl⟩, hcomponents, -⟩
    cases hcomponents
  exact ⟨hfile, hweb, schemas_decide.1 _ _ _ _ _ hfile hweb rfl rfl,
    schemas_decide.2 _ _ hbare hapart hmissing⟩

/-- The state of an output path before a run is more than what can be read there: of
two paths at which there is no file, one can come to lead to a file when the missing
directories on its way are made. -/
theorem previous_bytes_behind_directories :
    let call := quietCall "note.json" "a/../b.ts" true false
    let bare : Machine := { noteMachine with files := ⟨[(["note.json"], .file noteDocument)]⟩ }
    let first : Turn := ⟨call, bare⟩
    let second : Turn := ⟨call, noteMachine⟩
    first.loaded = second.loaded ∧ first.found = .ok noteSchemas ∧ second.found = .ok noteSchemas
      ∧ first.Apart ∧ second.Apart
      ∧ first.start.files.read "a/../b.ts" = .error (.unopened .notFound)
      ∧ second.start.files.read "a/../b.ts" = .error (.unopened .notFound)
      ∧ first.after.files.read "a/../b.ts" = .ok "export type Note = string\r\n".toUTF8
      ∧ second.after.files.read "a/../b.ts" = .ok "old\nexport type Note = string\r\n".toUTF8
      ∧ first.after.files.read "a/../b.ts" ≠ second.after.files.read "a/../b.ts" := by
  refine ⟨?_, ?_, ?_, ?apart, ?apart', ?_, ?_, ?_, ?_, ?_⟩
  case apart | apart' =>
      rintro path ⟨rfl⟩
      decide +kernel
  all_goals decide +kernel

end SchemaTypes
