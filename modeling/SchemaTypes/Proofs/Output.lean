import SchemaTypes.Proofs.Emission
import SchemaTypes.Proofs.LineSink

/-!
The output of a generation.

* `map_text_completingLast`, `map_text_separated`: the texts of a layout, without
  what its lines complete;
* `Emitter.writeAll_out`: what the emitter does to its line sink is the writing
  of the texts of its lines, whatever it counts;
* `generate_eq_writeOut`: a generation is the writing of the lines of its
  collection and a last flush;
* `generateSchemas_limited`: what is left in a destination that refuses at any
  byte or at any flush, and with which fault the generation ends.
-/

namespace SchemaTypes

/-! ### The texts of a layout -/

/-- The texts of the lines of a collection. -/
def Collection.texts (documentation : Bool) (c : Collection) : List String :=
  (c.lines documentation).map Line.text

lemma map_text_completingLast (milestone : Milestone) :
    ∀ texts, (completingLast milestone texts).map Line.text = texts
  | [] => rfl
  | [_] => rfl
  | text :: next :: rest => by
      rw [completingLast, List.map_cons, map_text_completingLast milestone (next :: rest)]
      rfl

lemma map_text_separated :
    ∀ groups : List (List Line),
      (separated groups).map Line.text = [""].intercalate (groups.map (·.map Line.text))
  | [] => rfl
  | [group] => by simp [separated]
  | group :: next :: rest => by
      have ih := map_text_separated (next :: rest)
      simp only [separated, List.map_append, List.map_cons, ih, List.intercalate_cons_cons,
        List.append_assoc]
      rfl

/-! ### From the emitter to its line sink -/

namespace Emitter

lemma record_eq (milestone : Milestone) (e : Emitter) :
    record milestone e = .ok () { e with statistics := e.statistics.record milestone } := rfl

/-- A line is counted for what it completes only once it is written and flushed. -/
lemma write_eq (line : Line) (e : Emitter) :
    write line e =
      match LineSink.writeLine line.text e.out with
      | .ok _ out =>
        .ok () { e with out, statistics := line.completes.elim e.statistics e.statistics.record }
      | .error fault out => .error fault { e with out } := by
  obtain ⟨text, completes⟩ := line
  cases hline : LineSink.writeLine text e.out <;> cases completes <;>
    simp [write, writeLine, hline, bind, EStateM.bind, record_eq, pure, EStateM.pure]

lemma writeAll_cons_eq (line : Line) (lines : List Line) (e : Emitter) :
    writeAll (line :: lines) e =
      match write line e with
      | .ok _ e' => writeAll lines e'
      | .error fault e' => .error fault e' := by
  simp only [writeAll_cons, bind, EStateM.bind]
  cases write line e <;> rfl

/-- The line sink of an emitter sees the texts of the lines, one after the
other. -/
lemma writeAll_out (lines : List Line) (e : Emitter) :
    failure? (writeAll lines e) = failure? (LineSink.writeTexts (lines.map Line.text) e.out)
      ∧ (finalState (writeAll lines e)).out
        = finalState (LineSink.writeTexts (lines.map Line.text) e.out) := by
  induction lines generalizing e with
  | nil => exact ⟨rfl, rfl⟩
  | cons line rest ih =>
      rw [writeAll_cons_eq, write_eq, List.map_cons, LineSink.writeTexts_cons]
      cases LineSink.writeLine line.text e.out with
      | ok _ out => exact ih _
      | error fault out => exact ⟨rfl, rfl⟩

end Emitter

/-- **A generation writes the lines of its collection**, flushes once more, and
counts the lines. -/
theorem generate_eq_writeOut (c : Collection) (warnings : List Warning) (documentation : Bool)
    (sink : Sink) :
    mapAnswer Statistics.lines (generate c warnings documentation sink)
      = LineSink.writeOut (c.texts documentation) sink := by
  obtain ⟨hfailure, hout⟩ :=
    Emitter.writeAll_out (c.lines documentation) (Emitter.new sink documentation)
  rw [show (Emitter.new sink documentation).out = ⟨sink, 0⟩ from rfl] at hfailure hout
  rw [generate, Emitter.emit_eq_writeAll, LineSink.writeOut, Collection.texts,
    show (Emitter.new sink documentation).documentation = documentation from rfl]
  cases hrun : Emitter.writeAll (c.lines documentation) (Emitter.new sink documentation) with
  | error fault e =>
      rw [hrun] at hfailure hout
      obtain ⟨s, hs⟩ := (failure?_eq_some_iff _ _).mp hfailure.symm
      rw [hs] at hout ⊢
      exact congrArg (fun out => EStateM.Result.error fault out.sink) hout
  | ok _ e =>
      rw [hrun] at hfailure hout
      obtain ⟨_, s, hs⟩ := (failure?_eq_none_iff _).mp hfailure.symm
      rw [hs] at hout ⊢
      obtain rfl : e.out = s := hout
      cases hclose : e.out.close <;> simp [Emitter.finish, hclose, mapAnswer, Statistics.warn]

/-! ### Destinations that refuse -/

/-- The lines of the declarations of a mapping. -/
def schemaTexts (documentation : Bool) (mapping : Fields) : List String :=
  (Collection.ofFields mapping).1.texts documentation

lemma generateSchemas_eq_writeOut (mapping : Fields) (documentation : Bool) (sink : Sink) :
    mapAnswer Statistics.lines (generateSchemas mapping documentation sink)
      = LineSink.writeOut (schemaTexts documentation mapping) sink :=
  generate_eq_writeOut _ _ documentation sink

/-- A destination without limits takes all lines, each with its flush. -/
lemma generateSchemas_unlimited (mapping : Fields) (documentation : Bool) :
    ∃ statistics, generateSchemas mapping documentation {}
        = .ok statistics
            { held := (terminated (schemaTexts documentation mapping)).toUTF8
              flushes := (schemaTexts documentation mapping).length + 1 }
      ∧ statistics.lines = (schemaTexts documentation mapping).length := by
  have hrun := generateSchemas_eq_writeOut mapping documentation {}
  rw [LineSink.writeOut_unlimited] at hrun
  cases hresult : generateSchemas mapping documentation {} with
  | error fault sink => simp [hresult, mapAnswer] at hrun
  | ok statistics sink =>
      simp only [hresult, mapAnswer, EStateM.Result.ok.injEq] at hrun
      exact ⟨statistics, by rw [hrun.2], hrun.1⟩

/-- **A generation into a destination that refuses.** Let `texts` be the lines
that a destination without limits is given. A destination for at most `L` bytes
and `F` flushes sees the lines up to the first whose flush it refuses, and holds
their first `L` bytes, whether the generation succeeds or fails. It succeeds
just if all lines fit and each of them, and the end, can be flushed; a byte that
does not fit is noticed before a flush that is refused. -/
theorem generateSchemas_limited (mapping : Fields) (documentation : Bool) (L F : ℕ) :
    let texts := schemaTexts documentation mapping
    let seen := (terminated (texts.take (min texts.length (F + 1)))).toUTF8
    let result := generateSchemas mapping documentation (.limited L F)
    (∃ statistics, generateSchemas mapping documentation {}
          = .ok statistics
              { held := (terminated texts).toUTF8, flushes := texts.length + 1 }
        ∧ statistics.lines = texts.length)
      ∧ ((∃ statistics sink, result = .ok statistics sink)
          ↔ (terminated texts).toUTF8.size ≤ L ∧ texts.length + 1 ≤ F)
      ∧ (finalState result).held = seen.extract 0 L
      ∧ ∀ fault sink, result = .error fault sink →
          fault = if L < seen.size then .storageFull else .brokenPipe := by
  intro texts seen result
  have hseen : LineSink.reached F texts = seen := by
    rw [LineSink.reached, List.take_eq_take_min, Nat.min_comm]
  -- if all flushes are allowed, every line is seen
  have hall : texts.length ≤ F → seen = (terminated texts).toUTF8 := fun hflushes => by
    rw [show seen = (terminated (texts.take (min texts.length (F + 1)))).toUTF8 from rfl,
      List.take_of_length_le (by omega)]
  have hrun : mapAnswer Statistics.lines result = LineSink.writeOut texts (.limited L F) :=
    generateSchemas_eq_writeOut mapping documentation (.limited L F)
  obtain ⟨hheld, hfailure⟩ := LineSink.writeOut_limited texts L F
  rw [← hrun, finalState_mapAnswer, hseen] at hheld
  rw [← hrun, failure?_mapAnswer, hseen] at hfailure
  refine ⟨generateSchemas_unlimited mapping documentation, ?_, hheld, ?_⟩
  · rw [← failure?_eq_none_iff, hfailure]
    constructor
    · intro hnone
      split_ifs at hnone with hfull hlast
      rw [← hall (by omega)]
      omega
    · rintro ⟨hfits, hflushes⟩
      rw [hall (by omega), if_neg (by omega), if_neg (by omega)]
  · intro fault sink herror
    rw [herror, failure?] at hfailure
    split_ifs at hfailure ⊢ with hfull hlast
    · exact Option.some.inj hfailure
    · exact Option.some.inj hfailure

end SchemaTypes
