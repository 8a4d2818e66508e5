import SchemaTypes.Proofs.Regeneration
import SchemaTypes.Proofs.Volumes

/-!
What becomes of the document that a run reads.

* `ends_writeOutput`, `ends_loadSchemas`, `ends_clearing`: what the stages of a run
  do to files that may refuse anything; `ends_run` puts them together;
* `Clears`: the removal of the output file is asked for and goes through;
* `document_after_run`: the document of a run can be read afterwards with the same
  bytes unless the output path leads to its file, and if so, with what was written
  behind them; it cannot be read if the removal takes away what is on the way to it.
-/

namespace SchemaTypes

/-! ### Operations that may be refused -/

section

variable {φ : Type} [FileSystem φ] {around : Surroundings φ} {t : φ}

/-- A removal that nothing stands against. -/
lemma leads_removeFile_ok {t' : φ} {path : String}
    (hrefusal : around.refusal t .remove path = none) (h : FileSystem.remove t path = .ok t') :
    Leads around (Host.removeFile path : Guarded φ _) t (.ok ()) t' := by
  rintro s rfl
  simp [Host.removeFile, Guarded.unlessRefused, hrefusal, Machine.change, h]

/-- Any other removal leaves the files alone. -/
lemma leads_removeFile_error {path : String}
    (h : ¬ (around.refusal t .remove path = none ∧ ∃ t', FileSystem.remove t path = .ok t')) :
    ∃ fault, Leads around (Host.removeFile path : Guarded φ _) t (.error fault) t := by
  cases hrefusal : around.refusal t .remove path with
  | some fault =>
      refine ⟨fault, ?_⟩
      rintro s rfl
      simp [Host.removeFile, Guarded.unlessRefused, hrefusal]
  | none =>
      cases hremove : FileSystem.remove t path with
      | ok t' => exact absurd ⟨hrefusal, t', hremove⟩ h
      | error fault =>
          refine ⟨fault, ?_⟩
          rintro s rfl
          simp [Host.removeFile, Guarded.unlessRefused, hrefusal, Machine.change, hremove]

/-- A file is read as it is, or the reading is refused. -/
lemma ends_readFile (around : Surroundings φ) (t : φ) (path : String) :
    Ends around (Host.readFile path : Guarded φ _) t fun answer t' =>
      t' = t ∧ (answer = FileSystem.read t path ∨ ∃ fault, answer = .error (.unopened fault)) := by
  rintro s rfl
  cases hrefusal : around.refusal s.files .read path with
  | some fault => simp [Host.readFile, Guarded.unlessRefused, hrefusal]
  | none => simp [Host.readFile, Guarded.unlessRefused, hrefusal]

lemma ends_isDirectory (around : Surroundings φ) (t : φ) (path : String) :
    Ends around (Host.isDirectory path : Guarded φ _) t fun _ t' => t' = t := by
  rintro s rfl
  cases hrefusal : around.refusal s.files .inspect path <;>
    simp [Host.isDirectory, Guarded.unlessRefused, hrefusal]

/-- A directory is made, or nothing happens. -/
lemma ends_makeDirectory (around : Surroundings φ) (t : φ) (path : String) :
    Ends around (Host.makeDirectory path : Guarded φ _) t fun _ t' =>
      t' = t ∨ FileSystem.makeDirectory t path = .ok t' := by
  rintro s rfl
  cases hrefusal : around.refusal s.files .makeDirectory path with
  | some fault => exact .inl (by simp [Host.makeDirectory, Guarded.unlessRefused, hrefusal])
  | none =>
      cases hmake : FileSystem.makeDirectory s.files path <;>
        simp [Host.makeDirectory, Guarded.unlessRefused, hrefusal, Machine.change, hmake]

/-- Bytes are appended as a whole, or nothing happens. -/
lemma files_appendFile (s : MachineOf φ) (path : String) (bytes : ByteArray) :
    ((Host.appendFile path bytes : StateM (MachineOf φ) _) s).2.files = s.files
      ∨ FileSystem.append s.files path bytes
        = .ok ((Host.appendFile path bytes : StateM (MachineOf φ) _) s).2.files := by
  cases happend : FileSystem.append s.files path bytes with
  | error fault => exact .inl (by simp [Host.appendFile, Machine.change, happend, Except.mapError])
  | ok t' => exact .inr (by simp [Host.appendFile, Machine.change, happend, Except.mapError])

/-- A front part of the bytes is appended, or nothing happens. -/
lemma ends_appendFile (around : Surroundings φ) (t : φ) (path : String) (bytes : ByteArray) :
    Ends around (Host.appendFile path bytes : Guarded φ _) t fun _ t' =>
      t' = t ∨ ∃ written rest, written ++ rest = bytes
        ∧ FileSystem.append t path written = .ok t' := by
  rintro s rfl
  cases hrefusal : around.refusal s.files .append path with
  | some fault => exact .inl (by simp [Host.appendFile, Guarded.unlessRefused, hrefusal])
  | none =>
      have haction : (Host.appendFile path bytes : Guarded φ _) around s
          = Guarded.appendWithin around path bytes s := by
        simp [Host.appendFile, Guarded.unlessRefused, hrefusal]
      let taken := (around.capacity s.files path bytes).elim bytes fun limit =>
        bytes.extract 0 limit.1
      have happended : (Guarded.appendWithin around path bytes s).2
          = ((Host.appendFile path taken : StateM (MachineOf φ) _) s).2 := rfl
      have htaken : ∃ rest, taken ++ rest = bytes := by
        cases hlimit : around.capacity s.files path bytes with
        | none => exact ⟨.empty, by simp [taken, hlimit]⟩
        | some limit =>
            refine ⟨bytes.extract limit.1 bytes.size, ?_⟩
            simp [taken, hlimit, ByteArray.extract_append_extract]
      rw [haction, happended]
      refine (files_appendFile s path taken).imp_right fun happend => ?_
      obtain ⟨rest, hrest⟩ := htaken
      exact ⟨taken, rest, hrest, happend⟩

end

/-! ### The stages of a run -/

section

variable (around : Surroundings Volume) (v : Volume)

/-- Whatever is refused, at most directories are made. -/
lemma ends_createMissing (paths : List Path) :
    Ends around (createMissing paths : Guarded Volume _) v fun _ v' => Volume.Keeps v v' := by
  induction paths generalizing v with
  | nil => exact .pure (.refl _)
  | cons path rest ih =>
      have hmake (v₁ : Volume) : Ends around (Host.makeDirectory path.toString : Guarded Volume _)
          v₁ fun _ v₂ => Volume.Keeps v₁ v₂ := by
        refine (ends_makeDirectory around v₁ _).mono fun answer v₂ h => ?_
        obtain rfl | hmade := h
        · exact .refl _
        · exact Volume.keeps_makeDirectory hmade
      -- where no directory can be made it is looked whether there is one
      have hlook : ∀ (fault : FileFault) (v' : Volume), Volume.Keeps v v' →
          Ends around (do return if ← Host.isDirectory path.toString then .ok () else .error fault)
            v' fun (_ : Except FileFault Unit) v'' => Volume.Keeps v v'' :=
        fun fault v' h => (ends_isDirectory around v' _).bind fun _ v'' hsame =>
          .pure (hsame ▸ h)
      rw [createMissing]
      refine (hmake v).bind fun answer v' h => ?_
      split
      · exact .pure h
      · refine (ih v').bind fun above v₁ h₁ => ?_
        split
        · exact .pure (h.trans h₁)
        · refine (hmake v₁).bind fun again v₂ h₂ => ?_
          split
          · exact .pure ((h.trans h₁).trans h₂)
          · exact hlook _ _ ((h.trans h₁).trans h₂)
      · exact hlook _ _ h

/-- Whatever is refused, at most the output grows, by what is to be written. -/
lemma ends_writeOutput (path : String) (bytes : ByteArray) :
    Ends around (writeOutput path bytes : Guarded Volume _) v fun _ v' =>
      Volume.Grows path bytes v v' := by
  rw [writeOutput]
  refine (ends_createMissing around v _).bind fun answer opened h => ?_
  split
  · exact .pure (h.grows _ _)
  · refine (ends_appendFile around opened path bytes).bind fun answer v' happend => ?_
    have hgrows : Volume.Grows path bytes v v' := by
      obtain rfl | ⟨written, rest, hbytes, happend⟩ := happend
      · exact h.grows _ _
      · exact h.trans_grows (Volume.grows_append hbytes happend)
    split
    · exact .pure hgrows
    · exact .pure hgrows
    · exact .pure hgrows

/-- What a run can find when it looks for its schemas in a file: that it cannot be
read, or what is made of its bytes. -/
inductive Finds (v : Volume) (path : String) : Except LoadError Fields → Prop
  | unreadable (fault : ReadFault) : Finds v path (.error (.unreadable path fault))
  | read {bytes : ByteArray} (hread : v.read path = .ok bytes) :
      Finds v path ((parseDocument (Source.file path).format bytes.toList).bind componentSchemas)

lemma ends_loadSchemas (path : String) :
    Ends around (loadSchemas (.file path) : Guarded Volume _) v fun found v' =>
      v' = v ∧ Finds v path found := by
  have hdocument : Ends around (loadDocument (.file path) : Guarded Volume _) v fun document v' =>
      v' = v ∧ Finds v path (document.bind componentSchemas) := by
    rw [loadDocument]
    refine (ends_readFile around v path).bind fun answer v' h => ?_
    obtain ⟨rfl, hanswer⟩ := h
    split
    · exact .pure ⟨rfl, .unreadable _⟩
    · obtain hread | ⟨fault, hfault⟩ := hanswer
      · exact .pure ⟨rfl, .read hread.symm⟩
      · cases hfault
  exact hdocument.bind fun document v' h => .pure h

end

/-! ### Runs -/

/-- The removal of the output file is asked for and goes through. -/
def Clears (config : Config) (around : Surroundings Volume) (v : Volume) : Prop :=
  config.removeExisting = true ∧ around.refusal v .remove config.output = none
    ∧ ∃ v', v.remove config.output = .ok v'

/-- The files as a run starts to look for its document. -/
inductive Cleared (config : Config) (around : Surroundings Volume) (v : Volume) : Volume → Prop
  | kept (h : ¬ Clears config around v) : Cleared config around v v
  | removed {v' : Volume} (h : Clears config around v) (hremove : v.remove config.output = .ok v') :
      Cleared config around v v'

section

variable {config : Config} {around : Surroundings Volume} {v cleared : Volume}

lemma exists_cleared (config : Config) (around : Surroundings Volume) (v : Volume) :
    ∃ v', Cleared config around v v' := by
  by_cases h : Clears config around v
  · obtain ⟨hremove, hrefusal, v', hv'⟩ := h
    exact ⟨v', .removed ⟨hremove, hrefusal, v', hv'⟩ hv'⟩
  · exact ⟨v, .kept h⟩

/-- The removal of the output file before the rest of a run. -/
lemma ends_clearing {β : Type} {j : Journal} {k : Unit → Guarded Volume β}
    {post : β → Volume → Prop} (h : Cleared config around v cleared)
    (hk : Ends around (k ()) cleared post) :
    Ends around
      (if config.removeExisting = true then
        Host.removeFile config.output >>= fun answer => j.removal answer >>= k
      else k ())
      v post := by
  cases h with
  | kept h =>
      split_ifs with hremove
      · have hfails : ¬ (around.refusal v .remove config.output = none
            ∧ ∃ v', FileSystem.remove v config.output = .ok v') :=
          fun hclears => h ⟨hremove, hclears⟩
        obtain ⟨fault, hfault⟩ := leads_removeFile_error hfails
        exact hfault.ends (.silent_bind (Journal.silent_removal j _) hk)
      · exact hk
  | removed h hremoved =>
      rw [if_pos h.1]
      refine (leads_removeFile_ok h.2.1 hremoved).ends ?_
      exact .silent_bind (Journal.silent_removal j _) hk

/-- Whatever is refused, a run that finds no schemas ends there, and else the output
at most grows by the declarations of the schemas. -/
lemma ends_run {source : String} (hsource : config.source = .file source)
    (h : Cleared config around v cleared) (colors : Colors) :
    Ends around (run config colors : Guarded Volume _) v fun answer v' =>
      (∃ error, Finds cleared source (.error error) ∧ answer = .error (.load error)
        ∧ v' = cleared)
      ∨ ∃ mapping, Finds cleared source (.ok mapping)
        ∧ Volume.Grows config.output (output config.documentation mapping) cleared v' := by
  rw [run]
  refine ends_clearing h ?_
  refine .silent_bind (Journal.silent_loading _) ?_
  rw [hsource]
  refine (ends_loadSchemas around cleared source).bind fun found v' hfound => ?_
  obtain ⟨rfl, hfound⟩ := hfound
  split
  · exact .pure (.inl ⟨_, hfound, rfl, rfl⟩)
  · rename_i mapping
    have hgenerate := generateSchemas_eq_ofLines mapping config.documentation
    have houtput : output config.documentation mapping
        = (terminated ((schemaLines config.documentation mapping).map Line.text)).toUTF8 := by
      rw [output, hgenerate]
      rfl
    rw [generateSchemas] at hgenerate
    generalize Collection.ofFields mapping = generated at hgenerate ⊢
    obtain ⟨collection, warnings⟩ := generated
    refine .silent_bind (Journal.silent_generating _ _) ?_
    refine .silent_bind (Journal.silent_writing _) ?_
    dsimp only at hgenerate
    rw [hgenerate]
    refine (ends_writeOutput around v' config.output _).bind fun answer v'' hgrows => ?_
    rw [← houtput] at hgrows
    split
    · exact .pure (.inr ⟨mapping, hfound, hgrows⟩)
    · refine .silent_bind (Journal.silent_report _ _) ?_
      refine .silent_bind (Journal.silent_success _) ?_
      exact .pure (.inr ⟨mapping, hfound, hgrows⟩)

variable {source : String} {bytes : ByteArray}

/-- A document that is not behind what is removed is still there when it is read. -/
lemma Cleared.read (h : Cleared config around v cleared)
    (hkept : ¬ (Clears config around v ∧ v.OnWay config.output source))
    (hread : v.read source = .ok bytes) : cleared.read source = .ok bytes := by
  cases h with
  | kept _ => exact hread
  | removed hclears hremove =>
      exact Volume.read_remove hremove (fun hway => hkept ⟨hclears, hway⟩) hread

/-- A document behind what is removed is gone when it is to be read. -/
lemma Cleared.read_onWay (h : Cleared config around v cleared) (hclears : Clears config around v)
    (hway : v.OnWay config.output source) :
    cleared.read source = .error (.unopened .notFound) := by
  cases h with
  | kept hkept => exact absurd hclears hkept
  | removed _ hremove => exact Volume.read_remove_onWay hremove hway

lemma Finds.of_read {mapping : Fields} (h : Finds v source (.ok mapping))
    (hread : v.read source = .ok bytes) :
    (parseDocument (Source.file source).format bytes.toList).bind componentSchemas
      = .ok mapping := by
  generalize hfound : (.ok mapping : Except LoadError Fields) = found at h
  cases h with
  | unreadable fault => cases hfound
  | read hread' =>
      rw [hread] at hread'
      cases hread'
      rfl

lemma Finds.of_error {found : Except LoadError Fields} {fault : ReadFault}
    (h : Finds v source found) (hread : v.read source = .error fault) :
    ∃ fault, found = .error (.unreadable source fault) := by
  cases h with
  | unreadable fault => exact ⟨fault, rfl⟩
  | read hread' =>
      rw [hread] at hread'
      cases hread'

end

/-- **The document of a run.** Whatever the files refuse, and however paths lead to
them, by links or by one of several names of a file: unless the removal of the output
is asked for, goes through and takes away what is on the way to the document, the
document can be read after the run with the same bytes, or, if the output path leads
to the same file in the end, with what was written of the declarations of its own
schemas behind them. If the removal takes away what is on the way, then there is
nothing to be read after the run, which answers that its source cannot be read. -/
theorem document_after_run (around : Surroundings Volume) (config : Config) (colors : Colors)
    {source : String} (hsource : config.source = .file source) {s : MachineOf Volume}
    {bytes : ByteArray} (hread : s.files.read source = .ok bytes) :
    let ended := (run config colors : Guarded Volume _) around s
    let severed := Clears config around s.files ∧ s.files.OnWay config.output source
    (¬ severed → ¬ ended.2.files.SameFile config.output source →
        ended.2.files.read source = .ok bytes)
      ∧ (¬ severed → ∃ written, ended.2.files.read source = .ok (bytes ++ written)
        ∧ (written ≠ .empty → ended.2.files.SameFile config.output source
          ∧ ∃ mapping rest,
            (parseDocument config.source.format bytes.toList).bind componentSchemas = .ok mapping
              ∧ written ++ rest = output config.documentation mapping))
      ∧ (severed → ended.2.files.read source = .error (.unopened .notFound)
        ∧ ∃ fault, ended.1 = .error (.load (.unreadable source fault))) := by
  obtain ⟨cleared, hcleared⟩ := exists_cleared config around s.files
  have hends := ends_run hsource hcleared colors s rfl
  intro ended severed
  have hkept : ¬ severed → ∃ written, ended.2.files.read source = .ok (bytes ++ written)
      ∧ (written ≠ .empty → ended.2.files.SameFile config.output source
        ∧ ∃ mapping rest,
          (parseDocument config.source.format bytes.toList).bind componentSchemas = .ok mapping
            ∧ written ++ rest = output config.documentation mapping) := by
    intro hsevered
    have hstill := hcleared.read hsevered hread
    obtain ⟨error, -, -, hfiles⟩ | ⟨mapping, hfinds, hgrows⟩ := hends
    · refine ⟨.empty, ?_, fun hne => absurd rfl hne⟩
      rw [ByteArray.append_empty, hfiles]
      exact hstill
    · obtain ⟨written, rest, hbytes, hafter, hsame⟩ := hgrows.read hstill
      refine ⟨written, hafter, fun hne => ⟨hsame hne, mapping, rest, ?_, hbytes⟩⟩
      rw [hsource]
      exact hfinds.of_read hstill
  refine ⟨fun hsevered happart => ?_, hkept, fun hsevered => ?_⟩
  · obtain ⟨written, hafter, hwritten⟩ := hkept hsevered
    obtain rfl : written = .empty := by
      by_contra hne
      exact happart (hwritten hne).1
    rwa [ByteArray.append_empty] at hafter
  · have hgone := hcleared.read_onWay hsevered.1 hsevered.2
    obtain ⟨error, hfinds, hanswer, hfiles⟩ | ⟨mapping, hfinds, -⟩ := hends
    · obtain ⟨fault, hfault⟩ := hfinds.of_error hgone
      cases hfault
      rw [hfiles]
      exact ⟨hgone, fault, hanswer⟩
    · obtain ⟨fault, hfault⟩ := hfinds.of_error hgone
      cases hfault

/-- What is in a volume with a document that has two names, and a link to one of them. -/
def noteEntries : List (Place × VolumeEntry) :=
  [(["home"], .directory), (["home", "note.json"], .file 0),
    (["home", "latest"], .link "note.json"), (["kept.json"], .file 0)]

lemma zero_of_mem_noteEntries {place : Place} {node : ℕ}
    (h : (place, .file node) ∈ noteEntries) : node = 0 := by
  simp only [noteEntries, List.mem_cons, Prod.mk.injEq, VolumeEntry.file.injEq, reduceCtorEq,
    List.not_mem_nil, and_false, false_or, or_false] at h
  obtain h | h := h
  · exact h.2
  · exact h.2

/-- That volume, with the directory of the link as the current one. -/
def noteVolume : Volume where
  entries := fun place => noteEntries.lookup place
  contents := fun _ => noteDocument
  current := ["home"]
  unused := 1
  named := by
    intro place node h
    obtain ⟨before, after, hentries, -⟩ := List.lookup_eq_some_iff.mp h
    have hmem : (place, .file node) ∈ noteEntries := by simp [hentries]
    rw [zero_of_mem_noteEntries hmem]
    exact Nat.one_pos

def linkMachine : MachineOf Volume := { files := noteVolume, time := "[TIME]" }

/-- Files that refuse removals, and have room for seven bytes more. -/
def grudging : Surroundings Volume where
  web := fun _ => none
  refusal := fun _ request _ => if request = .remove then some .permissionDenied else none
  capacity := fun _ _ _ => some (7, .other 28 "No space left on device")

/-- The end of a run on the document by the name of the link, with documentation and
with the removal of the output. -/
def linkRun (around : Surroundings Volume) (output : String) :
    Except RunError Statistics × MachineOf Volume :=
  (run (quietCall "latest" output true true).config ⟨false, .dark⟩ : Guarded Volume _) around
    linkMachine

/-- A document is read by way of a link. Another output leaves it alone; an output that
is its other name is written behind it; and with the name removed that the link leads to
it is out of reach. -/
theorem document_after_run_grudging :
    noteVolume.read "latest" = .ok noteDocument
      ∧ (linkRun grudging "out.ts").2.files.read "latest" = .ok noteDocument
      ∧ (∃ written,
        (linkRun grudging "../kept.json").2.files.read "latest" = .ok (noteDocument ++ written)
          ∧ (written ≠ .empty →
            (linkRun grudging "../kept.json").2.files.SameFile "../kept.json" "latest"
              ∧ ∃ mapping rest, (parseDocument .json noteDocument.toList).bind componentSchemas
                  = .ok mapping
                ∧ written ++ rest = output true mapping))
      ∧ (linkRun willing "note.json").2.files.read "latest" = .error (.unopened .notFound) := by
  have hread : noteVolume.read "latest" = .ok noteDocument := by decide +kernel
  have hkept (output : String) :
      ¬ Clears (quietCall "latest" output true true).config grudging noteVolume := by
    rintro ⟨-, hrefusal, -⟩
    cases hrefusal
  refine ⟨hread, ?_, ?_, ?_⟩
  · have hout : (linkRun grudging "out.ts").2.files.fileAt "out.ts" = some 1 := by decide +kernel
    have hlatest : (linkRun grudging "out.ts").2.files.fileAt "latest" = some 0 := by decide +kernel
    refine (document_after_run grudging _ _ rfl hread).1 (fun h => hkept _ h.1) ?_
    rintro ⟨node, hnode, hnode'⟩
    cases hout.symm.trans hnode
    cases hlatest.symm.trans hnode'
  · exact (document_after_run grudging _ _ rfl hread).2.1 fun h => hkept _ h.1
  · have hlocate : noteVolume.locate false "note.json"
        = .ok (.entry ["home", "note.json"] false) := by decide +kernel
    have hentry : noteVolume.get? ["home", "note.json"] = some (.file 0) := by decide +kernel
    have hremove : noteVolume.remove "note.json"
        = .ok (noteVolume.erase ["home", "note.json"]) := by
      simp [Volume.remove, hlocate, hentry]
    have hway : noteVolume.OnWay "note.json" "latest" := ⟨_, hlocate, by decide +kernel⟩
    exact ((document_after_run willing _ _ rfl hread).2.2 ⟨⟨rfl, rfl, _, hremove⟩, hway⟩).1

/-- The machine after a run whose output path is that of its document. -/
def overwritten (removeExisting : Bool) : MachineOf Volume :=
  ((run (quietCall "note.json" "note.json" removeExisting false).config ⟨false, .dark⟩ :
    Guarded Volume _) willing linkMachine).2

/-- If the output path is that of the document, then the document is removed before
it is read, or it has the declarations behind it. -/
theorem document_overwritten :
    noteVolume.read "note.json" = .ok noteDocument
      ∧ (overwritten true).files.read "note.json" = .error (.unopened .notFound)
      ∧ (overwritten false).files.read "note.json"
        = .ok (noteDocument ++ "export type Note = string\r\n".toUTF8)
      ∧ ∀ removeExisting,
        (overwritten removeExisting).files.read "note.json" ≠ .ok noteDocument := by
  refine ⟨?_, ?_, ?_, ?_⟩ <;> decide +kernel

end SchemaTypes
