import SchemaTypes.Proofs.Effects

/-!
What runs say on the console.

* `tinted`, `Warning.words`: the texts of the console, letter by letter;
* `Remark`: what is said at once, on either of the two streams;
* `Heard`: the remarks that have been made from one state of a machine to another;
* `Says`: a program ends with an answer and remarks as described; `Tells`: it makes the
  given remarks, whatever its answer is;
* `Journal.messages`, `Journal.results`: what a run says before its outcome is known,
  and of declarations that it has written;
* `says_run`: the remarks of a run, from those of its stages;
* `run_console`: a quiet run says nothing. Any other writes its warnings to the
  standard error if it is verbose and comes to its end, and the statistics and the
  success are shown then only.
-/

namespace SchemaTypes

/-! ### Texts -/

/-- A text between the escapes that set its colour and the usual one. -/
def tinted (color : Color) (text : String) : String := color.code ++ text ++ "\x1b[39m"

lemma paint_eq_tinted (color : Color) (text : String) : color.paint text = tinted color text := rfl

/-- The words for a place inside of a schema. -/
def Location.words : Location → String
  | schema => "schema"
  | property key => "property '" ++ key ++ "'"
  | items place => place.words ++ " items"

lemma Location.text_eq_words (place : Location) : place.text = place.words := by
  induction place with
  | schema => rfl
  | property key => rfl
  | items place ih => rw [text, words, ih]

/-- The words of a warning: the name of its schema, and what is malformed there. -/
def Warning.words (w : Warning) : String :=
  "Schema '" ++ w.schema ++ "': " ++
    match w.finding with
    | .opaqueNode place => place.words ++ " has no usable type, rendered as unknown"
    | .memberWithoutReference index =>
      "anyOf entry " ++ toString index ++ " has no $ref, rendered as unknown"
    | .malformedUnion => "anyOf is not a non-empty list, rendered as unknown"
    | .malformedItems place => place.words ++ " has malformed array items, passed through"
    | .malformedProperties => "properties is not a mapping, emitted as an empty type"

/-- The text of a warning has just these words. -/
lemma Warning.message_eq_words (w : Warning) : w.message = w.words := by
  obtain ⟨schema, finding⟩ := w
  cases finding <;> simp only [message, Finding.text, words, Location.text_eq_words] <;> rfl

/-! ### Remarks -/

/-- What a run says at once. -/
inductive Remark where
  /-- A line behind the time of day. -/
  | notice (message : String)
  | statistic (label value : String)
  | blank
  | warning (found : Warning)
  | success

namespace Remark

/-- What a remark writes to the standard output. -/
def output (palette : Palette) (time : String) : Remark → String
  | notice message => tinted palette.timestamp time ++ " " ++ message ++ "\n"
  | statistic label value =>
    "            " ++ tinted palette.label label ++ " " ++ tinted palette.value value ++ "\n"
  | blank => "\n"
  | warning _ => ""
  | success => tinted palette.timestamp time ++ " "
      ++ tinted palette.success "Successfully generated TypeScript types" ++ "\n"

/-- What a remark writes to the standard error. -/
def errors (palette : Palette) : Remark → String
  | warning found =>
    tinted palette.accent "Warning:" ++ " " ++ tinted palette.primary found.words ++ "\n"
  | _ => ""

end Remark

variable {φ : Type}

/-- From one state of a machine to the other the given remarks have been made. -/
structure Heard (palette : Palette) (said : List Remark) (s s' : MachineOf φ) : Prop where
  time : s'.time = s.time
  output : s'.output = s.output ++ String.join (said.map (Remark.output palette s.time))
  errors : s'.errors = s.errors ++ String.join (said.map (Remark.errors palette))

section

variable {palette : Palette} {s s' s'' : MachineOf φ} {said more : List Remark}

/-- A change of the files is not heard. -/
lemma heard_files (s : MachineOf φ) (t : φ) : Heard palette [] s { s with files := t } :=
  ⟨rfl, String.append_empty.symm, String.append_empty.symm⟩

lemma Heard.refl (s : MachineOf φ) : Heard palette [] s s := heard_files s s.files

/-- Remarks one after the other. -/
lemma Heard.trans (h : Heard palette said s s') (h' : Heard palette more s' s'') :
    Heard palette (said ++ more) s s'' where
  time := h'.time.trans h.time
  output := by
    rw [h'.output, h.output, h.time, List.map_append, String.join_append, String.append_assoc]
  errors := by
    rw [h'.errors, h.errors, List.map_append, String.join_append, String.append_assoc]

end

/-! ### Programs that make remarks -/

/-- From the machine `s` the program ends with an answer and remarks as described. -/
def Says {α : Type} (around : Surroundings φ) (palette : Palette) (x : Guarded φ α)
    (s : MachineOf φ) (post : α → List Remark → Prop) : Prop :=
  ∃ said, post (x around s).1 said ∧ Heard palette said s (x around s).2

/-- The program makes just these remarks, whatever its answer is. -/
def Tells {α : Type} (around : Surroundings φ) (palette : Palette) (x : Guarded φ α)
    (said : List Remark) : Prop :=
  ∀ s : MachineOf φ, Heard palette said s (x around s).2

section

variable {α β : Type} {around : Surroundings φ} {palette : Palette} {said more : List Remark}

lemma Says.pure {post : α → List Remark → Prop} {a : α} (h : post a []) (s : MachineOf φ) :
    Says around palette (Pure.pure a) s post :=
  ⟨[], h, .refl s⟩

/-- What is said goes before what the rest says. -/
lemma Tells.says_bind {x : Guarded φ α} {k : α → Guarded φ β} {s : MachineOf φ}
    {post : β → List Remark → Prop} (hx : Tells around palette x said)
    (hk : Says around palette (k (x around s).1) (x around s).2 fun b more =>
      post b (said ++ more)) :
    Says around palette (x >>= k) s post := by
  obtain ⟨more, hpost, hheard⟩ := hk
  exact ⟨said ++ more, hpost, (hx s).trans hheard⟩

/-- What is said may be described with less. -/
lemma Says.mono {x : Guarded φ α} {s : MachineOf φ} {post post' : α → List Remark → Prop}
    (hx : Says around palette x s post) (h : ∀ a said, post a said → post' a said) :
    Says around palette x s post' := by
  obtain ⟨said, hpost, hheard⟩ := hx
  exact ⟨said, h _ said hpost, hheard⟩

lemma Tells.pure (a : α) : Tells around palette (Pure.pure a) [] := fun s => .refl s

/-- Programs one after the other make their remarks one after the other. -/
lemma Tells.bind {x : Guarded φ α} {k : α → Guarded φ β} (hx : Tells around palette x said)
    (hk : ∀ a, Tells around palette (k a) more) :
    Tells around palette (x >>= k) (said ++ more) :=
  fun s => (hx s).trans (hk _ _)

/-- A step that says nothing before the rest. -/
lemma Tells.mute_bind {x : Guarded φ α} {k : α → Guarded φ β} (hx : Tells around palette x [])
    (hk : ∀ a, Tells around palette (k a) said) : Tells around palette (x >>= k) said :=
  hx.bind hk

/-- A remark before the rest. -/
lemma Tells.cons {remark : Remark} {x : Guarded φ α} {k : α → Guarded φ β}
    (hx : Tells around palette x [remark]) (hk : ∀ a, Tells around palette (k a) more) :
    Tells around palette (x >>= k) (remark :: more) :=
  hx.bind hk

lemma Tells.ite {c : Prop} [Decidable c] {x y : Guarded φ α} (hx : Tells around palette x said)
    (hy : Tells around palette y more) :
    Tells around palette (if c then x else y) (if c then said else more) := by
  split_ifs
  · exact hx
  · exact hy

end

/-! ### Files -/

section

variable {α : Type} {around : Surroundings φ} {palette : Palette}

/-- A refusal is not heard. -/
lemma tells_unlessRefused {request : FileRequest} {path : String} {refused : FileFault → α}
    {action : StateM (MachineOf φ) α} (h : ∀ s, Heard palette [] s (action s).2) :
    Tells around palette (Guarded.unlessRefused request path refused action) [] := by
  intro s
  rw [Guarded.unlessRefused]
  split
  · exact .refl s
  · exact h s

/-- A change is not heard, be it refused or not. -/
lemma heard_change {ε : Type} (f : φ → Except ε φ) (s : MachineOf φ) :
    Heard palette [] s (Machine.change f s).2 := by
  rw [Machine.change]
  split
  · exact heard_files s _
  · exact .refl s

variable [FileSystem φ]

lemma tells_readFile (path : String) : Tells around palette (Host.readFile path) [] :=
  tells_unlessRefused fun s => .refl s

lemma tells_removeFile (path : String) : Tells around palette (Host.removeFile path) [] :=
  tells_unlessRefused (heard_change _)

lemma tells_makeDirectory (path : String) : Tells around palette (Host.makeDirectory path) [] :=
  tells_unlessRefused (heard_change _)

lemma tells_isDirectory (path : String) : Tells around palette (Host.isDirectory path) [] :=
  tells_unlessRefused fun s => .refl s

/-- Appending to a file is not heard, however much of the bytes it takes. -/
lemma tells_appendFile (path : String) (bytes : ByteArray) :
    Tells around palette (Host.appendFile path bytes) [] := by
  have hwithin (s : MachineOf φ) :
      Heard palette [] s (Guarded.appendWithin around path bytes s).2 := by
    let taken := (around.capacity s.files path bytes).elim bytes fun limit =>
      bytes.extract 0 limit.1
    have happended : (Guarded.appendWithin around path bytes s).2
        = ((Host.appendFile path taken : StateM (MachineOf φ) _) s).2 := rfl
    rw [happended]
    exact heard_change _ s
  exact fun s => tells_unlessRefused hwithin s

lemma tells_fetch (address : Url) : Tells around palette (Host.fetch address) [] :=
  fun s => .refl s

/-- Making directories is not heard. -/
lemma tells_createMissing (paths : List Path) :
    Tells around palette (createMissing paths) [] := by
  induction paths with
  | nil => exact .pure _
  | cons path rest ih =>
      -- where no directory can be made it is looked whether there is one
      have hlook (fault : FileFault) : Tells around palette
          (do return if ← Host.isDirectory path.toString then .ok () else .error fault :
            Guarded φ (Except FileFault Unit)) [] :=
        (tells_isDirectory _).mute_bind fun _ => .pure _
      rw [createMissing]
      refine (tells_makeDirectory _).mute_bind fun made => ?_
      split
      · exact .pure _
      · refine ih.mute_bind fun above => ?_
        split
        · exact .pure _
        · refine (tells_makeDirectory _).mute_bind fun again => ?_
          split
          · exact .pure _
          · exact hlook _
      · exact hlook _

/-- Writing an output is not heard. -/
lemma tells_writeOutput (path : String) (bytes : ByteArray) :
    Tells around palette (writeOutput path bytes) [] := by
  rw [writeOutput]
  refine (tells_createMissing _).mute_bind fun made => ?_
  split
  · exact .pure _
  · refine (tells_appendFile _ _).mute_bind fun appended => ?_
    split <;> exact .pure _

lemma tells_loadSchemas (source : Source) : Tells around palette (loadSchemas source) [] := by
  have hdocument : Tells around palette (loadDocument source) [] := by
    cases source with
    | remote address =>
        refine (tells_fetch _).mute_bind fun bytes => ?_
        split <;> exact .pure _
    | file path =>
        refine (tells_readFile _).mute_bind fun bytes => ?_
        split <;> exact .pure _
  exact hdocument.mute_bind fun _ => .pure _

end

/-! ### Journals -/

section

variable {palette : Palette} {s : MachineOf φ}

/-- A remark that writes to the standard output only. -/
lemma heard_output {remark : Remark} (h : remark.errors palette = "") :
    Heard palette [remark] s { s with output := s.output ++ remark.output palette s.time } :=
  ⟨rfl, by simp, by simp [h]⟩

/-- A warning is written to the standard error. -/
lemma heard_warning (found : Warning) :
    Heard palette [.warning found] s
      { s with errors := s.errors ++ Journal.warningLine palette found } :=
  ⟨rfl, by simp [Remark.output], by
    simp [Remark.errors, Journal.warningLine, paint_eq_tinted, Warning.message_eq_words]⟩

end

namespace Journal

variable (j : Journal)

/-- What is said unless the run is quiet. -/
def aloud (said : List Remark) : List Remark := if !j.config.quiet then said else []

lemma aloud_of_quiet (h : j.config.quiet = true) (said : List Remark) : j.aloud said = [] := by
  simp [aloud, h]

lemma aloud_of_loud (h : j.config.quiet = false) (said : List Remark) : j.aloud said = said := by
  simp [aloud, h]

@[simp] lemma aloud_nil : j.aloud [] = [] := ite_self _

lemma aloud_append (said more : List Remark) :
    j.aloud (said ++ more) = j.aloud said ++ j.aloud more := by
  unfold aloud
  split_ifs <;> rfl

/-- The messages for verbose runs. -/
def details (messages : List String) : List String := if j.config.verbose then messages else []

/-- What is said of the removal of the output file. -/
def removalMessages : Except FileFault Unit → List String
  | .ok _ => j.details [s!"Removed existing output: {j.config.output}"]
  | .error .notFound => []
  | .error fault =>
    j.details [s!"Could not remove existing output {j.config.output}: {fault.message}"]

/-- What is said of schemas before their declarations are generated. -/
def generatingMessages (c : Collection) : List String :=
  (if c.isEmpty then [tinted j.palette.accent "No schemas found in components.schemas"] else [])
    ++ [tinted j.palette.primary s!"Generating TypeScript types for {c.size} schemas..."]
    ++ (if j.config.typesOnly then
      j.details ["Types-only mode: type declarations are the only output"] else [])
    ++ (if !j.config.documentation then j.details ["Documentation blocks disabled"] else [])

/-- What a run says before its outcome is known: of the removal of the output file, if
that is asked for, of its source, and of the schemas there, if any are found. -/
def messages (removed : Except FileFault Unit) (found : Option Collection) : List String :=
  (if j.config.removeExisting then j.removalMessages removed else [])
    ++ [tinted j.palette.primary s!"Loading OpenAPI spec from: {j.config.source.text}"]
    ++ found.elim [] fun c =>
      j.generatingMessages c ++ [tinted j.palette.primary s!"Writing to: {j.config.output}"]

/-- The labels and values of the statistics that are shown. -/
def shown (statistics : Statistics) : List (String × String) :=
  [("Types generated:", toString statistics.types),
    ("", s!"{statistics.records} object types"),
    ("", s!"{statistics.unions} unions"),
    ("", s!"{statistics.aliases} aliases"),
    ("Properties:", toString statistics.properties)]
    ++ (if j.config.documentation then
      [("Documentation blocks:", toString statistics.documentation)] else [])
    ++ [("Lines written:", toString statistics.lines)]
    ++ (if !statistics.warnings.isEmpty then
      [("Warnings:", toString statistics.warnings.length)] else [])

/-- What is said of warnings. -/
def warned (found : List Warning) : List Remark :=
  if !found.isEmpty && j.config.verbose then .blank :: found.map .warning else []

/-- What a run says of declarations that it has written. -/
def results (statistics : Statistics) : List Remark :=
  (j.shown statistics).map (fun (label, value) => .statistic label value)
    ++ j.warned statistics.warnings ++ [.blank, .success]

/-- What a run says of its outcome. -/
def outcome : Except RunError Statistics → List Remark
  | .error _ => []
  | .ok statistics => j.results statistics

/-- The program says just these remarks unless the run is quiet. -/
def Voices {α : Type} (around : Surroundings φ) (x : Guarded φ α) (said : List Remark) : Prop :=
  Tells around j.palette x (j.aloud said)

section

variable {j : Journal} {α β : Type} {around : Surroundings φ} {said more : List Remark}

lemma voices_of_quiet {x : Guarded φ α} (hx : Tells around j.palette x []) :
    j.Voices around x [] := by
  rwa [Voices, aloud_nil]

lemma Voices.bind {x : Guarded φ α} {k : α → Guarded φ β} (hx : j.Voices around x said)
    (hk : ∀ a, j.Voices around (k a) more) : j.Voices around (x >>= k) (said ++ more) := by
  rw [Voices, aloud_append]
  exact Tells.bind hx hk

/-- A remark before the rest. -/
lemma Voices.cons {remark : Remark} {x : Guarded φ α} {k : α → Guarded φ β}
    (hx : j.Voices around x [remark]) (hk : ∀ a, j.Voices around (k a) more) :
    j.Voices around (x >>= k) (remark :: more) :=
  hx.bind hk

/-- A step that may be left out before the rest. -/
lemma Voices.step {c : Prop} [Decidable c] {x : Guarded φ Unit} {k : Unit → Guarded φ β}
    (hx : j.Voices around x said) (hk : ∀ a, j.Voices around (k a) more) :
    j.Voices around (if c then x >>= k else k ()) ((if c then said else []) ++ more) := by
  split_ifs
  · exact hx.bind hk
  · exact hk ()

/-- A step that a quiet run leaves out. -/
lemma voices_unless_quiet {x : Guarded φ Unit}
    (hx : (!j.config.quiet) = true → j.Voices around x said) :
    j.Voices around (if !j.config.quiet then x else Pure.pure ()) said := by
  split_ifs with hquiet
  · exact hx hquiet
  · rw [Voices, aloud, if_neg hquiet]
    exact .pure ()

/-- A step that may be left out. -/
lemma Voices.optional {c : Prop} [Decidable c] {x : Guarded φ Unit}
    (hx : j.Voices around x said) :
    j.Voices around (if c then x else Pure.pure ()) (if c then said else []) := by
  split_ifs
  · exact hx
  · exact voices_of_quiet (.pure ())

end

variable [FileSystem φ] (around : Surroundings φ)

lemma voices_info (message : String) : j.Voices around (j.info message) [.notice message] :=
  .ite (fun _ => heard_output rfl) (.pure _)

lemma voices_detail (message : String) :
    j.Voices around (j.detail message) ((j.details [message]).map .notice) := by
  rw [details, apply_ite (List.map _)]
  exact (voices_info j around message).optional

lemma voices_statistic (label value : String) :
    j.Voices around (j.statistic label value) [.statistic label value] :=
  .ite (fun _ => heard_output rfl) (.pure _)

/-- The removal of an output is told, unless there was none. -/
lemma voices_removal (removed : Except FileFault Unit) :
    j.Voices around (j.removal removed) ((j.removalMessages removed).map .notice) := by
  cases removed with
  | ok done => exact voices_detail j around _
  | error fault =>
      cases fault with
      | notFound => exact voices_of_quiet (.pure ())
      | _ => exact voices_detail j around _

/-- The schemas are announced. -/
lemma voices_generating (c : Collection) :
    j.Voices around (j.generating c) ((j.generatingMessages c).map .notice) := by
  simp only [generatingMessages, List.map_append, apply_ite (List.map _), List.map_nil,
    List.map_cons, List.append_assoc]
  refine .step (voices_info j around _) fun _ => .bind (voices_info j around _) fun _ => ?_
  exact .step (voices_detail j around _) fun _ => .optional (voices_detail j around _)

/-- Warnings are said aloud if they are said at all. -/
lemma tells_warnings (found : List Warning) :
    Tells around j.palette (j.warnings found) (j.warned found) := by
  have hlist (l : List Warning) : Tells around j.palette
      (l.forM fun w => Host.printError (warningLine j.palette w)) (l.map .warning) := by
    induction l with
    | nil => exact .pure _
    | cons w l ih => exact .cons (fun _ => heard_warning w) fun _ => ih
  exact .ite (.cons (fun _ => heard_output rfl) fun _ => hlist found) (.pure _)

lemma voices_warnings (found : List Warning) (hquiet : (!j.config.quiet) = true) :
    j.Voices around (j.warnings found) (j.warned found) := by
  rw [Voices, aloud, if_pos hquiet]
  exact tells_warnings j around found

/-- The success is told behind an empty line. -/
lemma voices_success : j.Voices around j.success [.blank, .success] :=
  .ite (.cons (fun _ => heard_output rfl) fun _ _ => heard_output rfl) (.pure _)

/-- The statistics and the warnings are shown. -/
lemma voices_report (statistics : Statistics) :
    j.Voices around (j.report statistics)
      ((j.shown statistics).map (fun (label, value) => .statistic label value)
        ++ j.warned statistics.warnings) := by
  refine voices_unless_quiet fun hquiet => ?_
  simp only [shown, List.map_append, apply_ite (List.map _), List.map_nil, List.map_cons,
    List.append_assoc, List.cons_append, List.nil_append]
  refine .cons (voices_statistic j around _ _) fun _ => ?_
  refine .cons (voices_statistic j around _ _) fun _ => ?_
  refine .cons (voices_statistic j around _ _) fun _ => ?_
  refine .cons (voices_statistic j around _ _) fun _ => ?_
  refine .cons (voices_statistic j around _ _) fun _ => ?_
  refine .step (voices_statistic j around _ _) fun _ => ?_
  refine .cons (voices_statistic j around _ _) fun _ => ?_
  exact .step (voices_statistic j around _ _) fun _ => voices_warnings j around _ hquiet

end Journal

/-! ### Runs -/

section

variable [FileSystem φ] {around : Surroundings φ}

/-- The removal of the output file before the rest of a run. -/
lemma says_clearing {β : Type} {j : Journal} {k : Unit → Guarded φ β} {s : MachineOf φ}
    {post : β → List Remark → Prop}
    (hk : ∀ s', Says around j.palette (k ()) s' fun b said =>
      let removed := ((Host.removeFile j.config.output : Guarded φ _) around s).1
      let messages := if j.config.removeExisting then j.removalMessages removed else []
      post b (j.aloud (messages.map .notice) ++ said)) :
    Says around j.palette
      (if j.config.removeExisting = true then
        Host.removeFile j.config.output >>= fun removed => j.removal removed >>= k
      else k ())
      s post := by
  split_ifs at hk ⊢ with hremove
  · exact (tells_removeFile _).says_bind ((j.voices_removal around _).says_bind (hk _))
  · simp only [List.map_nil, j.aloud_nil, List.nil_append] at hk
    exact hk s

/-- An output that cannot be written is no load error. -/
lemma writeOutput_ne_load (path : String) (bytes : ByteArray) (s : MachineOf φ)
    (error : LoadError) :
    ((writeOutput path bytes : Guarded φ _) around s).1 ≠ .error (.load error) := by
  have hends : Ends around (writeOutput path bytes : Guarded φ _) s.files
      fun answer _ => answer ≠ .error (.load error) := by
    rw [writeOutput]
    refine (ends_any _ _).bind fun made t' _ => ?_
    split
    · exact .pure (by simp)
    · refine (ends_any _ _).bind fun appended t' _ => ?_
      split <;> exact .pure (by simp)
  exact hends s rfl

/-- **What a run says.** First what it says of its stages, as far as it comes, and then
of the outcome; nothing at all if it is quiet. -/
lemma says_run (around : Surroundings φ) (config : Config) (colors : Colors) (s : MachineOf φ) :
    let j : Journal := ⟨config, colors.palette⟩
    let removed := ((Host.removeFile config.output : Guarded φ _) around s).1
    Says around colors.palette (run config colors) s fun answer said =>
      ∃ found : Option Collection, (found = none ↔ ∃ error, answer = .error (.load error))
        ∧ said = j.aloud ((j.messages removed found).map .notice ++ j.outcome answer) := by
  intro j removed
  rw [run]
  refine says_clearing (j := j) fun s' => ?_
  refine (j.voices_info around _).says_bind ?_
  refine (tells_loadSchemas _).says_bind ?_
  split
  · -- no schemas: the run ends before it announces any
    refine .pure ⟨none, by simp, ?_⟩ _
    simp only [List.append_nil, ← Journal.aloud_append]
    simp [Journal.messages, Journal.outcome, j, removed, paint_eq_tinted]
  · rename_i mapping hfound
    generalize Collection.ofFields mapping = generated
    obtain ⟨c, warnings⟩ := generated
    refine (j.voices_generating around c).says_bind ?_
    refine (j.voices_info around _).says_bind ?_
    -- with schemas found all that is left to be said is the outcome
    refine Says.mono (?_ : Says _ _ _ _ fun answer said =>
      (∀ error, answer ≠ .error (.load error)) ∧ said = j.aloud (j.outcome answer)) ?_
    · split
      · -- the declarations are refused
        exact .pure ⟨nofun, j.aloud_nil.symm⟩ _
      · refine (tells_writeOutput _ _).says_bind ?_
        split
        · -- the output cannot be written, which is another answer than a load error
          rename_i error herror
          refine .pure ⟨fun e he => ?_, j.aloud_nil.symm⟩ _
          exact writeOutput_ne_load _ _ _ e (herror.trans (by rw [Except.error.inj he]))
        · -- the statistics and the warnings, and after them the success
          refine (j.voices_report around _).says_bind ?_
          refine (j.voices_success around).says_bind ?_
          refine .pure ⟨nofun, ?_⟩ _
          rw [List.nil_append, List.append_nil, ← Journal.aloud_append]
          rfl
    · -- the announcements go before the outcome, all of them aloud or none
      rintro answer _ ⟨hload, rfl⟩
      refine ⟨some c, by simpa using hload, ?_⟩
      simp only [List.nil_append, ← Journal.aloud_append]
      simp [Journal.messages, j, removed, paint_eq_tinted]

end

/-! ### The two streams -/

/-- Notices are no errors. -/
lemma errors_notices (palette : Palette) (messages : List String) :
    String.join ((messages.map Remark.notice).map (Remark.errors palette)) = "" :=
  join_eq_empty (by simp [Remark.errors])

namespace Journal

variable (j : Journal) (statistics : Statistics)

/-- Warnings are errors. -/
lemma errors_warned (found : List Warning) :
    String.join ((j.warned found).map (Remark.errors j.palette))
      = if j.config.verbose then
        String.join (found.map fun w => (Remark.warning w).errors j.palette)
      else "" := by
  have hlist : (found.map Remark.warning).map (Remark.errors j.palette)
      = found.map fun w => (Remark.warning w).errors j.palette := List.map_map
  have hblank : Remark.errors j.palette .blank = "" := rfl
  cases found with
  | nil =>
      rw [List.map_nil, String.join_nil, ite_self]
      rfl
  | cons w rest =>
      rw [warned, List.isEmpty_cons, Bool.not_false, Bool.true_and, ← hlist]
      split_ifs
      · rw [List.map_cons, String.join_cons, hblank, String.empty_append]
      · rfl

/-- Of the results, only the warnings are errors. -/
lemma errors_results :
    String.join ((j.results statistics).map (Remark.errors j.palette))
      = if j.config.verbose then
        String.join (statistics.warnings.map fun w => (Remark.warning w).errors j.palette)
      else "" := by
  have hshown : String.join (((j.shown statistics).map fun (label, value) =>
      Remark.statistic label value).map (Remark.errors j.palette)) = "" :=
    join_eq_empty (by simp [Remark.errors])
  have hend : String.join ([Remark.blank, .success].map (Remark.errors j.palette)) = "" := rfl
  rw [results, List.map_append, List.map_append, String.join_append, String.join_append, hshown,
    hend, String.empty_append, String.append_empty, errors_warned]

/-- The number of warnings is shown if there are any. -/
lemma mem_results_warnings (value : String) :
    .statistic "Warnings:" value ∈ j.results statistics
      ↔ statistics.warnings ≠ [] ∧ value = toString statistics.warnings.length := by
  simp [results, shown, warned]

end Journal

/-- **What a run writes to the console.** A quiet run writes nothing, whatever becomes of
it. Another one writes messages to the standard output, by which it says what it does;
if it fails, nothing else is written. If it succeeds, then the results stand behind them,
and a verbose run writes the warnings of its statistics to the standard error. The number
of warnings is among the results if there are any. -/
theorem run_console [FileSystem φ] (around : Surroundings φ) (config : Config) (colors : Colors)
    (s : MachineOf φ) :
    let j : Journal := ⟨config, colors.palette⟩
    let ran := (run config colors : Guarded φ _) around s
    let removed := ((Host.removeFile config.output : Guarded φ _) around s).1
    let text (said : List Remark) : String :=
      String.join (said.map (Remark.output colors.palette s.time))
    (config.quiet = true → ran.2.output = s.output ∧ ran.2.errors = s.errors)
      ∧ (config.quiet = false → ∃ found : Option Collection,
        (found = none ↔ ∃ error, ran.1 = .error (.load error))
          ∧ (∀ error, ran.1 = .error error →
            ran.2.output = s.output ++ text ((j.messages removed found).map .notice)
              ∧ ran.2.errors = s.errors)
          ∧ ∀ statistics, ran.1 = .ok statistics →
            ran.2.output
                = s.output ++ text ((j.messages removed found).map .notice ++ j.results statistics)
              ∧ ran.2.errors = s.errors ++ if config.verbose then
                String.join (statistics.warnings.map fun w =>
                  tinted colors.palette.accent "Warning:" ++ " "
                    ++ tinted colors.palette.primary w.words ++ "\n") else "")
      ∧ ∀ statistics value, .statistic "Warnings:" value ∈ j.results statistics
        ↔ statistics.warnings ≠ [] ∧ value = toString statistics.warnings.length := by
  intro j ran removed text
  obtain ⟨said, ⟨found, hfound, rfl⟩, hheard⟩ := says_run around config colors s
  refine ⟨fun hquiet => ?_, fun hquiet => ⟨found, hfound, fun error herror => ?_,
    fun statistics hstatistics => ?_⟩, j.mem_results_warnings⟩
  · rw [j.aloud_of_quiet hquiet] at hheard
    exact ⟨hheard.output.trans String.append_empty, hheard.errors.trans String.append_empty⟩
  · rw [j.aloud_of_loud hquiet, herror, Journal.outcome, List.append_nil] at hheard
    refine ⟨hheard.output, ?_⟩
    rw [hheard.errors, errors_notices, String.append_empty]
  · rw [j.aloud_of_loud hquiet, hstatistics, Journal.outcome] at hheard
    refine ⟨hheard.output, ?_⟩
    rw [hheard.errors, List.map_append, String.join_append, errors_notices, String.empty_append]
    exact congrArg _ (j.errors_results statistics)

end SchemaTypes
