import SchemaTypes.Proofs.Output

/-!
What is counted of lines.

* `Statistics.ofMilestones`, `Statistics.ofLines`: the counts of what lines
  complete;
* addition of statistics: every count is added, and the warnings stand one
  behind the other; `ofLines_append` says that lines are counted one by one;
* `Emitter.tally`: what an emitter has counted so far;
* `Emitter.tally_write`: a line is counted if it is written and flushed, and
  else nothing is;
* `generateSchemas_eq_ofLines`: on a destination that never fails a generation
  writes and counts all lines of its mapping.
-/

namespace SchemaTypes

lemma toUTF8_terminated_append (front back : List String) :
    (terminated (front ++ back)).toUTF8 = (terminated front).toUTF8 ++ (terminated back).toUTF8 := by
  induction front with
  | nil => simp
  | cons line rest ih =>
      rw [List.cons_append, toUTF8_terminated_cons, toUTF8_terminated_cons, ih,
        ByteArray.append_assoc]

/-- Bytes one after the other. -/
def inSuccession (parts : List ByteArray) : ByteArray := parts.foldr (· ++ ·) .empty

@[simp] lemma inSuccession_nil : inSuccession [] = .empty := rfl

@[simp] lemma inSuccession_cons (part : ByteArray) (rest : List ByteArray) :
    inSuccession (part :: rest) = part ++ inSuccession rest := rfl

namespace Statistics

/-- The counts of milestones. -/
def ofMilestones (reached : List Milestone) : Statistics where
  types := reached.count .record + reached.count .union + reached.count .alias
  records := reached.count .record
  unions := reached.count .union
  aliases := reached.count .alias
  properties := reached.count .property
  documentation := reached.count .documentation

/-- The counts of lines and of what they complete. -/
def ofLines (lines : List Line) : Statistics :=
  { ofMilestones (lines.filterMap Line.completes) with lines := lines.length }

/-- A milestone is counted once for each line that completes it. -/
lemma count_completes (lines : List Line) (milestone : Milestone) :
    (lines.filterMap Line.completes).count milestone
      = lines.countP (·.completes = some milestone) := by
  induction lines with
  | nil => rfl
  | cons line rest ih =>
      rw [List.countP_cons, ← ih]
      cases hline : line.completes with
      | none => simp [List.filterMap_cons_none hline]
      | some reached => simp [List.filterMap_cons_some hline, List.count_cons]

/-- What no line completes is not counted. -/
lemma count_completes_eq_zero {lines : List Line} {milestone : Milestone}
    (h : ∀ line ∈ lines, line.completes ≠ some milestone) :
    (lines.filterMap Line.completes).count milestone = 0 := by
  rw [count_completes]
  exact List.countP_eq_zero.mpr fun line hline => by simpa using h line hline

/-! ### Sums -/

/-- Every count is added; the warnings stand one behind the other. -/
instance : Add Statistics where
  add s t :=
    { types := s.types + t.types
      records := s.records + t.records
      unions := s.unions + t.unions
      aliases := s.aliases + t.aliases
      properties := s.properties + t.properties
      documentation := s.documentation + t.documentation
      lines := s.lines + t.lines
      warnings := s.warnings ++ t.warnings }

instance : Zero Statistics := ⟨{}⟩

lemma add_def (s t : Statistics) :
    s + t =
      { types := s.types + t.types
        records := s.records + t.records
        unions := s.unions + t.unions
        aliases := s.aliases + t.aliases
        properties := s.properties + t.properties
        documentation := s.documentation + t.documentation
        lines := s.lines + t.lines
        warnings := s.warnings ++ t.warnings } := rfl

lemma zero_def : (0 : Statistics) = {} := rfl

protected lemma add_assoc (s t u : Statistics) : s + t + u = s + (t + u) := by
  simp only [add_def, Nat.add_assoc, List.append_assoc]

protected lemma add_zero (s : Statistics) : s + 0 = s := by
  simp [add_def, zero_def]

protected lemma zero_add (s : Statistics) : 0 + s = s := by
  simp [add_def, zero_def]

/-- Counts without warnings may be added in any order. -/
lemma add_comm_of_warnings {s : Statistics} (h : s.warnings = []) (t : Statistics) :
    s + t = t + s := by
  simp only [add_def, h, List.nil_append, List.append_nil, Nat.add_comm]

lemma ofMilestones_append (before after : List Milestone) :
    ofMilestones (before ++ after) = ofMilestones before + ofMilestones after := by
  simp only [ofMilestones, add_def, List.count_append, List.append_nil, Nat.add_zero, mk.injEq,
    and_self, and_true]
  omega

@[simp] lemma ofLines_nil : ofLines [] = 0 := rfl

lemma ofLines_append (before after : List Line) :
    ofLines (before ++ after) = ofLines before + ofLines after := by
  simp only [ofLines, List.filterMap_append, List.length_append, ofMilestones_append]
  rfl

/-- Recording a milestone adds its count. -/
lemma record_eq_add (s : Statistics) (milestone : Milestone) :
    s.record milestone = s + ofMilestones [milestone] := by
  cases milestone <;> simp [record, ofMilestones, add_def]

/-- A blank line is one line more, and completes nothing. -/
lemma ofLines_blank : ofLines [.blank] = { lines := 1 } := rfl

/-- Lines that complete nothing count as lines only. -/
lemma add_lines_add (s t : Statistics) (n : ℕ) :
    s + { lines := n } + t = { s + t with lines := s.lines + t.lines + n } := by
  simp only [add_def, Nat.add_zero, List.append_nil, Nat.add_right_comm s.lines n t.lines]

lemma warn_lines (s : Statistics) (n : ℕ) (found : List Warning) :
    { s with lines := n }.warn found = { s.warn found with lines := n } := rfl

/-- Counts and warnings are added side by side. -/
lemma warn_ofLines_add (front back : List Line) (found further : List Warning) :
    (ofLines front + ofLines back).warn (found ++ further)
      = (ofLines front).warn found + (ofLines back).warn further := by
  simp [warn, add_def, ofLines, ofMilestones]

end Statistics

/-! ### Emitters -/

namespace Emitter

/-- What an emitter has counted so far: what it completed, and the lines. -/
def tally (e : Emitter) : Statistics := { e.statistics with lines := e.out.lines }

/-- The end of the writing is one more flush; it gives back what was counted. -/
lemma finish_eq (e : Emitter) :
    e.finish = if e.out.sink.flushLimit.all (e.out.sink.flushes < ·) then
        .ok e.tally { e.out.sink with flushes := e.out.sink.flushes + 1 }
      else .error .brokenPipe e.out.sink := by
  rw [finish, LineSink.close, Sink.flush]
  split_ifs <;> rfl

/-- A line that is written and flushed is counted with what it completes; of one
that fails nothing is counted. -/
lemma tally_write (line : Line) (e : Emitter) :
    (finalState (write line e)).tally
      = match LineSink.writeLine line.text e.out with
        | .ok _ _ => e.tally + Statistics.ofLines [line]
        | .error _ _ => e.tally := by
  rw [write_eq, LineSink.writeLine_eq]
  split_ifs
  · obtain ⟨text, completes⟩ := line
    cases completes with
    | none => simp [finalState, tally, Statistics.ofLines, Statistics.ofMilestones,
        Statistics.add_def]
    | some milestone =>
        simp [finalState, tally, Statistics.record_eq_add, Statistics.ofLines,
          Statistics.ofMilestones, Statistics.add_def]
  · rfl
  · rfl

/-- Lines that are all written are all counted. -/
lemma tally_of_writeAll_ok {lines : List Line} {e e' : Emitter}
    (h : writeAll lines e = .ok () e') : e'.tally = e.tally + Statistics.ofLines lines := by
  induction lines generalizing e with
  | nil =>
      cases h
      rw [Statistics.ofLines_nil, Statistics.add_zero]
  | cons line rest ih =>
      have hline := tally_write line e
      rw [writeAll_cons_eq] at h
      cases hwrite : write line e with
      | error fault s => simp [hwrite] at h
      | ok _ s =>
          rw [hwrite] at h hline
          rw [write_eq] at hwrite
          cases hout : LineSink.writeLine line.text e.out with
          | error fault out => simp [hout] at hwrite
          | ok _ out =>
              rw [hout] at hline
              have htally : s.tally = e.tally + Statistics.ofLines [line] := hline
              rw [ih h, htally, Statistics.add_assoc, ← Statistics.ofLines_append,
                List.singleton_append]

/-- A destination that never fails takes all lines. -/
lemma writeAll_unlimited (lines : List Line) (e : Emitter) (hsink : e.out = ⟨{}, 0⟩) :
    ∃ e', writeAll lines e = .ok () e'
      ∧ e'.out = ⟨{ held := (terminated (lines.map Line.text)).toUTF8, flushes := lines.length },
          lines.length⟩ := by
  obtain ⟨hfailure, hout⟩ := writeAll_out lines e
  rw [hsink, LineSink.writeTexts_unlimited] at hfailure hout
  obtain ⟨_, e', hrun⟩ := (failure?_eq_none_iff _).mp hfailure
  rw [hrun] at hout
  refine ⟨e', hrun, ?_⟩
  simpa [finalState] using hout

end Emitter

/-- On a destination that never fails a generation writes all lines of its
collection, with one flush for each and one at the end, and counts them and what
they complete. -/
lemma generate_unlimited (c : Collection) (found : List Warning) (documentation : Bool) :
    generate c found documentation {}
      = .ok ((Statistics.ofLines (c.lines documentation)).warn found)
          { held := (terminated (c.texts documentation)).toUTF8
            flushes := (c.lines documentation).length + 1 } := by
  obtain ⟨e, hrun, hout⟩ :=
    Emitter.writeAll_unlimited (c.lines documentation) (Emitter.new {} documentation) rfl
  have htally := Emitter.tally_of_writeAll_ok hrun
  rw [show (Emitter.new {} documentation).tally = 0 from rfl, Statistics.zero_add] at htally
  rw [generate, Emitter.emit_eq_writeAll, show (Emitter.new {} documentation).documentation
    = documentation from rfl, hrun]
  simp only [Emitter.finish_eq, htally, hout, Option.all_none, if_true, Collection.texts]

/-- The lines of the declarations of a mapping, with what they complete. -/
def schemaLines (documentation : Bool) (mapping : Fields) : List Line :=
  (Collection.ofFields mapping).1.lines documentation

/-- **On a destination that never fails** a generation writes and counts all
lines of its mapping. -/
theorem generateSchemas_eq_ofLines (mapping : Fields) (documentation : Bool) :
    generateSchemas mapping documentation {}
      = .ok ((Statistics.ofLines (schemaLines documentation mapping)).warn
            (Collection.ofFields mapping).2)
          { held := (terminated ((schemaLines documentation mapping).map Line.text)).toUTF8
            flushes := (schemaLines documentation mapping).length + 1 } :=
  generate_unlimited _ _ documentation

end SchemaTypes
