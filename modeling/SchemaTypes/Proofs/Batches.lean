import SchemaTypes.Proofs.Refusal
import SchemaTypes.Proofs.Succession

/-!
Collections written by one emitter.

* `Emitter.emitAll`: one collection after the other, whether or not the writing
  of those before has failed;
* `Collection.ends`, `groupEnds`: the schemas in the order of their writing, each
  with the number of lines up to the end of its declaration;
* `count_take_lines`: the declarations that some first lines complete are those
  that end among them;
* `Going.emitAll`, `Over.emitAll`: what a sequence of collections makes of an
  emitter;
* `emitAll_limited`: on a destination with limits, the counts are at all times
  those of the lines that were written and flushed.
-/

namespace SchemaTypes

/-! ### Where declarations end -/

/-- Whether the milestone is the end of a declaration. -/
def Milestone.IsDeclaration (milestone : Milestone) : Prop :=
  milestone = .record ∨ milestone = .union ∨ milestone = .alias

/-- The schemas of a collection, each with the number of lines up to the end of
its declaration. -/
def Collection.ends (documentation : Bool) (c : Collection) : List (SchemaNode × ℕ) :=
  c.schemas.zipIdx.map fun ((_, node), i) =>
    (node, (Collection.lines documentation ⟨c.schemas.take (i + 1)⟩).length)

/-- The schemas of collections written one after the other, each with the number
of lines up to the end of its declaration. -/
def groupEnds (documentation : Bool) : List Collection → List (SchemaNode × ℕ)
  | [] => []
  | c :: rest =>
    c.ends documentation ++ (groupEnds documentation rest).map fun (node, stop) =>
      (node, (c.lines documentation).length + stop)

/-- How many declarations of a kind end among the first `n` lines. -/
def declared (documentation : Bool) (cs : List Collection) (n : ℕ) (milestone : Milestone) : ℕ :=
  (groupEnds documentation cs).countP fun (node, stop) =>
    node.milestone = milestone ∧ stop ≤ n

section

variable (documentation : Bool)

lemma completes_of_mem_completingLast {milestone : Milestone} {texts : List String} {line : Line}
    (h : line ∈ completingLast milestone texts) :
    line.completes = none ∨ line.completes = some milestone := by
  induction texts with
  | nil => cases h
  | cons text rest ih =>
      cases rest with
      | nil =>
          obtain rfl := List.mem_singleton.mp h
          exact Or.inr rfl
      | cons next rest =>
          obtain rfl | hrest := List.mem_cons.mp h
          · exact Or.inl rfl
          · exact ih hrest

/-- The lines of documentation end no declaration. -/
lemma completes_documentationLines {indent : Indent} {p : Property} {line : Line}
    (h : line ∈ p.documentationLines documentation indent) {milestone : Milestone}
    (hdeclaration : milestone.IsDeclaration) : line.completes ≠ some milestone := by
  rw [Property.documentationLines] at h
  split at h
  · split at h
    · obtain rfl | hblock := List.mem_cons.mp h
      · simp [Line.blank, Line.plain]
      · obtain hnone | hsome := completes_of_mem_completingLast hblock
        · simp [hnone]
        · rw [hsome]
          rintro ⟨⟩
          simp [Milestone.IsDeclaration] at hdeclaration
    · cases h
  · cases h

/-- The last line of a schema, and no other, ends its declaration. -/
lemma exists_lines_eq_concat (name : String) (node : SchemaNode) :
    ∃ front last, node.lines documentation name = front ++ [last]
      ∧ last.completes = some node.milestone
      ∧ ∀ line ∈ front, ∀ milestone, milestone.IsDeclaration →
        line.completes ≠ some milestone := by
  cases node with
  | record type =>
      refine ⟨_, _, rfl, rfl, fun line hline milestone hdeclaration => ?_⟩
      obtain rfl | hbody := List.mem_cons.mp hline
      · simp [Line.plain]
      · obtain ⟨⟨key, p⟩, -, hentry⟩ := List.mem_flatMap.mp hbody
        obtain hdoc | hproperty := List.mem_append.mp hentry
        · exact completes_documentationLines documentation hdoc hdeclaration
        · obtain rfl := List.mem_singleton.mp hproperty
          rintro ⟨⟩
          simp [Milestone.IsDeclaration] at hdeclaration
  | union type => exact ⟨[], _, rfl, rfl, by simp⟩
  | property p =>
      exact ⟨_, _, rfl, rfl, fun line hline milestone =>
        completes_documentationLines documentation hline⟩

/-- Some first lines of a schema, with or without a gap in front, end its
declaration just if they are all of them. -/
lemma count_take_group {gap : List Line} (hgap : ∀ line ∈ gap, line = .blank) (name : String)
    (node : SchemaNode) {milestone : Milestone} (hdeclaration : milestone.IsDeclaration) (n : ℕ) :
    (((gap ++ node.lines documentation name).take n).filterMap Line.completes).count milestone
      = if node.milestone = milestone ∧ (gap ++ node.lines documentation name).length ≤ n then 1
        else 0 := by
  obtain ⟨front, last, hlines, hlast, hfront⟩ := exists_lines_eq_concat documentation name node
  have hnone : ∀ line ∈ gap ++ front, line.completes ≠ some milestone := by
    intro line hline
    obtain hblank | hline := List.mem_append.mp hline
    · rw [hgap line hblank]
      simp [Line.blank, Line.plain]
    · exact hfront line hline milestone hdeclaration
  rw [hlines, ← List.append_assoc, List.length_append, List.length_singleton]
  by_cases hall : (gap ++ front).length + 1 ≤ n
  · have htake : (gap ++ front ++ [last]).take n = gap ++ front ++ [last] :=
      List.take_of_length_le (by rwa [List.length_append, List.length_singleton])
    rw [htake, List.filterMap_append, List.count_append,
      Statistics.count_completes_eq_zero hnone, List.filterMap_cons_some hlast,
      List.filterMap_nil, List.count_singleton, Nat.zero_add]
    simp only [hall, and_true, beq_iff_eq]
  · have htake : (gap ++ front ++ [last]).take n = (gap ++ front).take n :=
      List.take_append_of_le_length (by omega)
    rw [htake, Statistics.count_completes_eq_zero fun line hline =>
      hnone line (List.mem_of_mem_take hline), if_neg fun h => hall h.2]

lemma length_lines_pos (name : String) (node : SchemaNode) :
    0 < (node.lines documentation name).length := by
  obtain ⟨front, last, hlines, -, -⟩ := exists_lines_eq_concat documentation name node
  rw [hlines, List.length_append, List.length_singleton]
  exact Nat.succ_pos _

lemma ends_concat (schemas : List (String × SchemaNode)) (name : String) (node : SchemaNode) :
    Collection.ends documentation ⟨schemas ++ [(name, node)]⟩
      = Collection.ends documentation ⟨schemas⟩
        ++ [(node, (Collection.lines documentation ⟨schemas ++ [(name, node)]⟩).length)] := by
  rw [Collection.ends, Collection.ends, List.zipIdx_append, List.map_append]
  congr 1
  · refine List.map_congr_left fun entry hentry => ?_
    have hindex : entry.2 < schemas.length := by simpa using List.snd_lt_of_mem_zipIdx hentry
    simp only [List.take_append_of_le_length (Nat.succ_le_of_lt hindex)]
  · have hall : (schemas ++ [(name, node)]).take (schemas.length + 1) = schemas ++ [(name, node)] :=
      List.take_of_length_le (by rw [List.length_append, List.length_singleton])
    simp [hall]

/-- **The declarations that some first lines complete** are those that end among
them. -/
lemma count_take_lines (schemas : List (String × SchemaNode)) {milestone : Milestone}
    (hdeclaration : milestone.IsDeclaration) (n : ℕ) :
    (((Collection.lines documentation ⟨schemas⟩).take n).filterMap Line.completes).count milestone
      = (Collection.ends documentation ⟨schemas⟩).countP fun (node, stop) =>
          node.milestone = milestone ∧ stop ≤ n := by
  induction schemas using List.reverseRecOn with
  | nil => simp [Collection.lines, Collection.ends, separated]
  | append_singleton schemas entry ih =>
      obtain ⟨name, node⟩ := entry
      have hgap : ∀ line ∈ gapLines schemas [(name, node)], line = .blank := by
        intro line hline
        rw [gapLines] at hline
        split at hline
        · exact List.mem_singleton.mp hline
        · cases hline
      have hgroup := count_take_group documentation hgap name node hdeclaration
        (n - (Collection.lines documentation ⟨schemas⟩).length)
      have hpos := length_lines_pos documentation name node
      have hsingle : Collection.lines documentation ⟨[(name, node)]⟩
          = node.lines documentation name := rfl
      rw [ends_concat, List.countP_append, ← ih, Collection.lines_append, List.append_assoc,
        List.take_append, List.filterMap_append, List.count_append, hsingle, hgroup,
        List.countP_singleton]
      -- the declaration is not empty, so that it ends behind the lines before it
      congr 1
      simp only [List.length_append, decide_eq_true_eq]
      refine if_congr (and_congr_right fun _ => ?_) rfl rfl
      omega

/-- No declaration ends before it begins. -/
lemma pos_of_mem_ends (schemas : List (String × SchemaNode)) {group : SchemaNode × ℕ}
    (h : group ∈ Collection.ends documentation ⟨schemas⟩) : 0 < group.2 := by
  induction schemas using List.reverseRecOn with
  | nil => cases h
  | append_singleton schemas entry ih =>
      obtain ⟨name, node⟩ := entry
      rw [ends_concat] at h
      obtain hbefore | hlast := List.mem_append.mp h
      · exact ih hbefore
      · obtain rfl := List.mem_singleton.mp hlast
        have hpos : 0 < (Collection.lines documentation ⟨[(name, node)]⟩).length :=
          length_lines_pos documentation name node
        simp only [Collection.lines_append, List.length_append]
        omega

lemma pos_of_mem_groupEnds {cs : List Collection} {group : SchemaNode × ℕ}
    (h : group ∈ groupEnds documentation cs) : 0 < group.2 := by
  induction cs generalizing group with
  | nil => cases h
  | cons c rest ih =>
      obtain hfirst | hlater := List.mem_append.mp h
      · exact pos_of_mem_ends documentation c.schemas hfirst
      · obtain ⟨later, hmem, rfl⟩ := List.mem_map.mp hlater
        exact Nat.add_pos_right _ (ih hmem)

/-- **The declarations that some first lines of several collections complete** are
those that end among them. -/
lemma count_take_batches (cs : List Collection) {milestone : Milestone}
    (hdeclaration : milestone.IsDeclaration) (n : ℕ) :
    (((cs.flatMap (Collection.lines documentation)).take n).filterMap Line.completes).count
        milestone
      = declared documentation cs n milestone := by
  induction cs generalizing n with
  | nil => simp [declared, groupEnds]
  | cons c rest ih =>
      have hfirst := count_take_lines documentation c.schemas hdeclaration n
      rw [List.flatMap_cons, List.take_append, List.filterMap_append, List.count_append, hfirst,
        ih, declared, declared, groupEnds, List.countP_append, List.countP_map]
      congr 1
      refine List.countP_congr fun group hgroup => ?_
      have hpos := pos_of_mem_groupEnds documentation hgroup
      simp only [Function.comp_apply, decide_eq_true_eq]
      refine and_congr_right fun _ => ?_
      omega

end

/-! ### One emitter for several collections -/

namespace Emitter

/-- Writes collections one after the other, also after failures; tells how each
writing fails, if it does. -/
def emitAll : List Collection → Emitter → List (Option WriteFault) × Emitter
  | [], e => ([], e)
  | c :: rest, e =>
    let result := emit c e
    let (faults, last) := emitAll rest (finalState result)
    (failure? result :: faults, last)

section

variable {L F : ℕ} {documentation : Bool} {done : List Line} {e : Emitter}

lemma emitAll_cons (c : Collection) (rest : List Collection) (e : Emitter) :
    emitAll (c :: rest) e
      = (failure? (emit c e) :: (emitAll rest (finalState (emit c e))).1,
          (emitAll rest (finalState (emit c e))).2) := rfl

lemma lines_ne_nil {c : Collection} (hne : c.schemas ≠ []) : c.lines documentation ≠ [] := by
  obtain ⟨⟨name, node⟩, rest, hschemas⟩ := List.exists_cons_of_ne_nil hne
  have hpos := length_lines_pos documentation name node
  intro hnil
  rw [Collection.lines, hschemas, List.map_cons, separated_cons, List.append_eq_nil_iff] at hnil
  have hgroup : node.lines documentation name = [] := hnil.1
  rw [hgroup] at hpos
  exact absurd hpos (Nat.lt_irrefl 0)

/-- Once a line has been refused, every collection with a schema fails. -/
lemma Over.emit (h : Over L F documentation done e) {c : Collection} (hne : c.schemas ≠ []) :
    ∃ fault e', emit c e = .error fault e' ∧ Over L F documentation done e' := by
  rw [emit_eq_writeAll, h.documentation_eq]
  exact h.writeAll (lines_ne_nil hne)

/-- Once a line has been refused, further collections complete nothing. -/
lemma Over.emitAll (h : Over L F documentation done e) (cs : List Collection) :
    Over L F documentation done (emitAll cs e).2 := by
  induction cs generalizing e with
  | nil => exact h
  | cons c rest ih =>
      rw [emitAll_cons]
      by_cases hempty : c.schemas = []
      · have hemit : Emitter.emit c e = .ok () e := by
          rw [emit_eq_writeAll, Collection.lines, hempty]
          rfl
        rw [hemit]
        exact ih h
      · obtain ⟨fault, e', hemit, hover⟩ := h.emit hempty
        rw [hemit]
        exact ih hover

/-- **Collections written one after the other**: they are all completed, or one
of them fails and just the lines before the first that passes a limit are. -/
lemma Going.emitAll (h : Going L F documentation done e) (cs : List Collection) :
    ((∀ fault ∈ (emitAll cs e).1, fault = none)
        ∧ Going L F documentation (done ++ cs.flatMap (Collection.lines documentation))
          (emitAll cs e).2)
      ∨ (∃ fault ∈ (emitAll cs e).1, fault ≠ none)
        ∧ ∃ n < (cs.flatMap (Collection.lines documentation)).length,
          Exceeds L F (done ++ (cs.flatMap (Collection.lines documentation)).take (n + 1))
            ∧ Over L F documentation (done ++ (cs.flatMap (Collection.lines documentation)).take n)
              (emitAll cs e).2 := by
  induction cs generalizing done e with
  | nil =>
      refine Or.inl ⟨fun fault hfault => absurd hfault List.not_mem_nil, ?_⟩
      rwa [List.flatMap_nil, List.append_nil]
  | cons c rest ih =>
      have hemit : emit c e = Emitter.writeAll (c.lines documentation) e := by
        rw [emit_eq_writeAll, h.documentation_eq]
      rw [emitAll_cons, List.flatMap_cons, hemit]
      obtain ⟨e', hrun, hgoing⟩ | ⟨n, hn, hexceeds, fault, e', hrun, hover⟩ :=
        h.writeAll (c.lines documentation)
      · rw [hrun]
        obtain ⟨hfaults, hgoing'⟩ | ⟨⟨fault, hfault, hne⟩, n, hn, hexceeds, hover⟩ := ih hgoing
        · rw [List.append_assoc] at hgoing'
          refine Or.inl ⟨fun fault hfault => ?_, hgoing'⟩
          obtain rfl | hlater := List.mem_cons.mp hfault
          · rfl
          · exact hfaults fault hlater
        · -- the limit is passed behind all lines of the first collection
          have htake : ∀ k, (c.lines documentation
                ++ rest.flatMap (Collection.lines documentation)).take
                  ((c.lines documentation).length + k)
              = c.lines documentation
                ++ (rest.flatMap (Collection.lines documentation)).take k := fun k => by
            rw [List.take_length_add_append]
          rw [List.append_assoc] at hexceeds hover
          refine Or.inr ⟨⟨fault, List.mem_cons_of_mem _ hfault, hne⟩,
            (c.lines documentation).length + n, ?_, ?_, ?_⟩
          · rw [List.length_append]
            omega
          · rw [Nat.add_assoc, htake]
            exact hexceeds
          · rw [htake]
            exact hover
      · -- the limit is passed within the first collection
        have htake : ∀ k ≤ (c.lines documentation).length, (c.lines documentation
              ++ rest.flatMap (Collection.lines documentation)).take k
            = (c.lines documentation).take k := fun k hk => List.take_append_of_le_length hk
        rw [hrun]
        refine Or.inr ⟨⟨some fault, List.mem_cons_self, nofun⟩, n, ?_, ?_, ?_⟩
        · rw [List.length_append]
          omega
        · rw [htake (n + 1) hn]
          exact hexceeds
        · rw [htake n hn.le]
          exact hover.emitAll rest

end

/-- What an emitter is left with that writes one collection to a destination that
never fails. -/
def alone (documentation : Bool) (c : Collection) : Emitter :=
  finalState (emit c (Emitter.new {} documentation))

lemma alone_eq (documentation : Bool) (c : Collection) :
    (alone documentation c).out.sink.held
        = (terminated ((c.lines documentation).map Line.text)).toUTF8
      ∧ (alone documentation c).tally = Statistics.ofLines (c.lines documentation) := by
  obtain ⟨e, hrun, hout⟩ :=
    writeAll_unlimited (c.lines documentation) (Emitter.new {} documentation) rfl
  have htally := tally_of_writeAll_ok hrun
  rw [show (Emitter.new {} documentation).tally = 0 from rfl, Statistics.zero_add] at htally
  rw [alone, emit_eq_writeAll, show (Emitter.new {} documentation).documentation
    = documentation from rfl, hrun]
  exact ⟨congrArg (fun out : LineSink => out.sink.held) hout, htally⟩

/-- Lines of several collections are the outputs of each, one after the other,
and are counted as the sum of what each counts. -/
lemma alone_flatMap (documentation : Bool) (cs : List Collection) :
    (terminated ((cs.flatMap (Collection.lines documentation)).map Line.text)).toUTF8
        = inSuccession (cs.map fun c => (alone documentation c).out.sink.held)
      ∧ Statistics.ofLines (cs.flatMap (Collection.lines documentation))
        = (cs.map fun c => (alone documentation c).tally).sum := by
  induction cs with
  | nil => exact ⟨by simp, rfl⟩
  | cons c rest ih =>
      obtain ⟨hheld, htally⟩ := alone_eq documentation c
      constructor
      · rw [List.flatMap_cons, List.map_append, toUTF8_terminated_append, ih.1, List.map_cons,
          inSuccession_cons, hheld]
      · rw [List.flatMap_cons, Statistics.ofLines_append, ih.2, List.map_cons, List.sum_cons,
          htally]

end Emitter

namespace Emitter

section

variable {L F : ℕ} {documentation : Bool} {done : List Line} {e : Emitter}

/-- What is counted of completed lines, field by field. -/
lemma Completed.counts (h : Completed L F documentation done e) :
    e.out.lines = done.length
      ∧ e.statistics.types
        = e.statistics.records + e.statistics.unions + e.statistics.aliases
      ∧ e.statistics.records = (done.filterMap Line.completes).count .record
      ∧ e.statistics.unions = (done.filterMap Line.completes).count .union
      ∧ e.statistics.aliases = (done.filterMap Line.completes).count .alias
      ∧ e.statistics.properties = done.countP (·.completes = some .property)
      ∧ e.statistics.documentation = done.countP (·.completes = some .documentation) := by
  have htally := h.tally_eq
  simp only [tally, Statistics.ofLines, Statistics.ofMilestones, Statistics.mk.injEq] at htally
  obtain ⟨htypes, hrecords, hunions, haliases, hproperties, hdocumentation, hlines, -⟩ := htally
  rw [Statistics.count_completes] at hproperties hdocumentation
  exact ⟨hlines, by rw [htypes, hrecords, hunions, haliases], hrecords, hunions, haliases,
    hproperties, hdocumentation⟩

/-- Collections leave an emitter with the lines that it could complete, and
everything else as the limits have it. -/
lemma emitAll_completed (documentation : Bool) (L F : ℕ) (cs : List Collection) :
    let lines := cs.flatMap (Collection.lines documentation)
    let faults := (emitAll cs (.new (.limited L F) documentation)).1
    let e := (emitAll cs (.new (.limited L F) documentation)).2
    ∃ n ≤ lines.length, Completed L F documentation (lines.take n) e
      ∧ (n < lines.length → Exceeds L F (lines.take (n + 1)))
      ∧ e.out.sink.flushLimit = some F
      ∧ ((∀ fault ∈ faults, fault = none) → n = lines.length
        ∧ e.out.sink.held = (terminated (lines.map Line.text)).toUTF8)
      ∧ ((∃ fault ∈ faults, fault ≠ none) → e.out.sink.Spent L F) := by
  intro lines faults e
  obtain ⟨hfaults, hgoing⟩ | ⟨⟨fault, hfault, hne⟩, n, hn, hexceeds, hover⟩ :=
    (going_new L F documentation).emitAll cs
  · rw [List.nil_append] at hgoing
    refine ⟨lines.length, le_rfl, ?_, fun h => absurd h (Nat.lt_irrefl _), hgoing.flushed,
      fun _ => ⟨rfl, hgoing.held_eq⟩, ?_⟩
    · rw [List.take_length]
      exact hgoing.toCompleted
    · rintro ⟨fault, hfault, hne⟩
      exact absurd (hfaults fault hfault) hne
  · rw [List.nil_append] at hexceeds hover
    exact ⟨n, hn.le, hover.toCompleted, fun _ => hexceeds, hover.spent.flushed,
      fun h => absurd (h fault hfault) hne, fun _ => hover.spent⟩

end

end Emitter

/-- **The counts of an emitter.** Collections are written one after the other to
a destination for at most `L` bytes and `F` flushes, whether or not those before
have failed. Then the first `n` of all their lines are written and flushed, as
many as fit and no more, and

* `n` is the number of lines counted and of flushes;
* a declaration is counted, by its kind, just if it ends among these lines; a
  property if its line is among them, and a block if its closing line is;
* if no writing has failed, the output is that of each collection, one after the
  other, and the counts are the sums of theirs;
* if one has failed, every collection with a schema fails from then on, and no
  count changes;
* the end of the writing takes one more flush, and gives back the counts. -/
theorem emitAll_limited (documentation : Bool) (L F : ℕ) (cs : List Collection) :
    let lines := cs.flatMap (Collection.lines documentation)
    let size (written : List Line) := (terminated (written.map Line.text)).toUTF8.size
    let faults := (Emitter.emitAll cs (.new (.limited L F) documentation)).1
    let e := (Emitter.emitAll cs (.new (.limited L F) documentation)).2
    let n := e.out.lines
    (n ≤ lines.length ∧ n ≤ F ∧ size (lines.take n) ≤ L
        ∧ (n < lines.length → n = F ∨ L < size (lines.take (n + 1))))
      ∧ e.out.sink.flushes = n
      ∧ e.statistics.types
        = e.statistics.records + e.statistics.unions + e.statistics.aliases
      ∧ e.statistics.records = declared documentation cs n .record
      ∧ e.statistics.unions = declared documentation cs n .union
      ∧ e.statistics.aliases = declared documentation cs n .alias
      ∧ e.statistics.properties = (lines.take n).countP (·.completes = some .property)
      ∧ e.statistics.documentation = (lines.take n).countP (·.completes = some .documentation)
      ∧ ((∀ fault ∈ faults, fault = none) →
        e.out.sink.held
            = inSuccession (cs.map fun c => (Emitter.alone documentation c).out.sink.held)
          ∧ e.tally = (cs.map fun c => (Emitter.alone documentation c).tally).sum)
      ∧ ((∃ fault ∈ faults, fault ≠ none) → ∀ c : Collection, c.schemas ≠ [] →
        ∃ fault e', Emitter.emit c e = .error fault e' ∧ e'.tally = e.tally)
      ∧ e.finish = if n < F then
          .ok { e.statistics with lines := n } { e.out.sink with flushes := n + 1 }
        else .error .brokenPipe e.out.sink := by
  intro lines size faults e n
  obtain ⟨k, hk, hcompleted, hexceeds, hlimit, hall, hspent⟩ :=
    Emitter.emitAll_completed documentation L F cs
  obtain ⟨hlines, htypes, hrecords, hunions, haliases, hproperties, hdocumentation⟩ :=
    hcompleted.counts
  have hlength : (lines.take k).length = k := List.length_take_of_le hk
  obtain rfl : n = k := hlines.trans hlength
  have hflushes : e.out.sink.flushes = n := hcompleted.flushes_eq.trans hlength
  have hfits : ¬ (L < size (lines.take n) ∨ F < n) := by
    have hfits := hcompleted.fits
    rwa [Exceeds, hlength] at hfits
  refine ⟨⟨hk, by omega, by omega, fun hlt => ?_⟩, hflushes, htypes, ?_, ?_, ?_, hproperties,
    hdocumentation, fun hnone => ?_, fun hsome c hne => ?_, ?_⟩
  · obtain hbytes | hpassed := hexceeds hlt
    · exact Or.inr hbytes
    · rw [List.length_take_of_le hlt] at hpassed
      exact Or.inl (by omega)
  · exact hrecords.trans (count_take_batches documentation cs (Or.inl rfl) n)
  · exact hunions.trans (count_take_batches documentation cs (Or.inr (Or.inl rfl)) n)
  · exact haliases.trans (count_take_batches documentation cs (Or.inr (Or.inr rfl)) n)
  · obtain ⟨hn, hheld⟩ := hall hnone
    obtain ⟨houtputs, hsums⟩ := Emitter.alone_flatMap documentation cs
    refine ⟨hheld.trans houtputs, ?_⟩
    rw [← hsums, hcompleted.tally_eq, List.take_of_length_le hn.ge]
  · have hover : Emitter.Over L F documentation (lines.take n) e :=
      { hcompleted with spent := hspent hsome }
    obtain ⟨fault, e', hemit, hover'⟩ := hover.emit hne
    exact ⟨fault, e', hemit, hover'.tally_eq.trans hcompleted.tally_eq.symm⟩
  · rw [Emitter.finish_eq, hlimit, hflushes, Option.all_some]
    simp only [decide_eq_true_eq]
    rfl

end SchemaTypes
