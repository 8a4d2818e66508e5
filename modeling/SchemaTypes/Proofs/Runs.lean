import SchemaTypes.Proofs.Decoding
import SchemaTypes.Proofs.Effects
import SchemaTypes.Proofs.Tally

/-!
One run.

* `Call`: what is asked of a run, and the web it sees;
* `Call.cleared`: the machine on which a run looks for its document, an output
  file that is to be removed being gone;
* `Call.found`: the schemas it finds there;
* `Call.run_of_error`: a run that finds no schemas ends with the reason, and does
  nothing to the files but the removal;
* `Call.run_of_ok`: a run that finds schemas ends as the writing of their
  declarations does.
-/

namespace SchemaTypes

/-- What is asked of a run, and the web it sees. -/
structure Call where
  config : Config
  colors : Colors
  web : Web

namespace Call

/-- The run of a call on a machine. -/
def run (c : Call) : StateM Machine (Except RunError Statistics) :=
  SchemaTypes.run (m := Online) c.config c.colors c.web

/-- The machine on which a run looks for its document: an output file that is to be
removed is gone. -/
def cleared (c : Call) (s : Machine) : Machine :=
  if c.config.removeExisting then
    ((Host.removeFile c.config.output : StateM Machine (Except FileFault Unit)) s).2
  else s

/-- The schemas that a run finds at its source. -/
def found (c : Call) (s : Machine) : Except LoadError Fields :=
  ((loadSchemas c.config.source : Online (Except LoadError Fields)) c.web (c.cleared s)).1

/-- What a run reports of the schemas it finds. -/
def statistics (c : Call) (mapping : Fields) : Statistics :=
  (Statistics.ofLines (schemaLines c.config.documentation mapping)).warn
    (Collection.ofFields mapping).2

variable (c : Call) (s : Machine)

lemma cleared_of_not (h : ¬ c.config.removeExisting = true) : c.cleared s = s := if_neg h

lemma cleared_files_ok {t : FileTree} (hremove : c.config.removeExisting = true)
    (hfiles : s.files.remove c.config.output = .ok t) : (c.cleared s).files = t := by
  simp [cleared, hremove, Host.removeFile, Machine.change, FileSystem.remove, hfiles]

lemma cleared_files_error {fault : FileFault} (hfiles : s.files.remove c.config.output = .error fault) :
    (c.cleared s).files = s.files := by
  rw [cleared]
  split_ifs
  · simp [Host.removeFile, Machine.change, FileSystem.remove, hfiles]
  · rfl

/-- Before it looks for its document a run at most removes its output file. -/
lemma cleared_files :
    (c.cleared s).files = s.files
      ∨ c.config.removeExisting = true
        ∧ s.files.remove c.config.output = .ok (c.cleared s).files := by
  by_cases hremove : c.config.removeExisting = true
  · cases hfiles : s.files.remove c.config.output with
    | error fault => exact .inl (cleared_files_error c s hfiles)
    | ok files => exact .inr ⟨hremove, by rw [cleared_files_ok c s hremove hfiles]⟩
  · exact .inl (by rw [cleared_of_not c s hremove])

lemma leads_clearing {β : Type} {j : Journal} {k : Unit → Online β} {b : β} {t : FileTree}
    (hk : Leads c.web (k ()) (c.cleared s).files b t) :
    Leads c.web
      (if c.config.removeExisting = true then
        Host.removeFile c.config.output >>= fun answer => j.removal answer >>= k
      else k ())
      s.files b t := by
  split_ifs with hremove
  · cases hfiles : s.files.remove c.config.output with
    | error fault =>
        rw [cleared_files_error c s hfiles] at hk
        refine (leads_change_error hfiles).bind ?_
        exact ((Journal.silent_removal j _).leads _).bind hk
    | ok files =>
        rw [cleared_files_ok c s hremove hfiles] at hk
        refine (leads_change_ok hfiles).bind ?_
        exact ((Journal.silent_removal j _).leads _).bind hk
  · rwa [cleared_of_not c s hremove] at hk

variable {c s}

/-- A run that finds no schemas ends with the reason, and does nothing to the files
but the removal. -/
lemma run_of_error {error : LoadError} (hfound : c.found s = .error error) :
    (c.run s).1 = .error (.load error) ∧ (c.run s).2.files = (c.cleared s).files := by
  have hload := leads_loadSchemas c.web c.config.source (c.cleared s)
  rw [show ((loadSchemas c.config.source : Online _) c.web (c.cleared s)).1 = .error error
    from hfound] at hload
  refine leads_clearing c s ?_ s rfl
  refine ((Journal.silent_loading _).leads _).bind ?_
  exact hload.bind (.pure _ _)

/-- A run that finds schemas ends as the writing of their declarations does. -/
lemma run_of_ok {mapping : Fields} {t : FileTree} (hfound : c.found s = .ok mapping)
    (hwrite : Leads c.web (writeOutput c.config.output (output c.config.documentation mapping))
      (c.cleared s).files (.ok ()) t) :
    (c.run s).1 = .ok (c.statistics mapping) ∧ (c.run s).2.files = t := by
  have hload := leads_loadSchemas c.web c.config.source (c.cleared s)
  rw [show ((loadSchemas c.config.source : Online _) c.web (c.cleared s)).1 = .ok mapping
    from hfound] at hload
  refine leads_clearing c s ?_ s rfl
  refine ((Journal.silent_loading _).leads _).bind ?_
  refine hload.bind ?_
  have hgenerate := generateSchemas_eq_ofLines mapping c.config.documentation
  rw [output, hgenerate] at hwrite
  rw [generateSchemas] at hgenerate
  rw [statistics]
  dsimp only
  generalize Collection.ofFields mapping = generated at hgenerate ⊢
  obtain ⟨collection, warnings⟩ := generated
  refine ((Journal.silent_generating _ _).leads _).bind ?_
  refine ((Journal.silent_writing _).leads _).bind ?_
  dsimp only at hgenerate
  rw [hgenerate]
  refine hwrite.bind ?_
  refine ((Journal.silent_report _ _).leads _).bind ?_
  exact ((Journal.silent_success _).leads _).bind (.pure _ _)

end Call

end SchemaTypes
