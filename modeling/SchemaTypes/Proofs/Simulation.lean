import SchemaTypes.Generation.Program
import SchemaTypes.Proofs.Effects

/-!
Programs on two hosts.

* `Simulates`: a relation of programs on two hosts that holds of what programs are made
  of, which are the operations of hosts and sequences;
* `Simulates.writeOutput`, `Simulates.loadSchemas`, `Simulates.report`: it holds of the
  stages of a run, and so of runs and of calls of the program (`Simulates.run`,
  `Simulates.program`);
* `run_willing`: where nothing is refused, runs go as if nothing could be.
-/

namespace SchemaTypes

/-- A relation of programs on two hosts that holds of what programs are made of. -/
structure Simulates {m m' : Type → Type} [Monad m] [Host m] [Monad m'] [Host m']
    (R : (α : Type) → m α → m' α → Prop) : Prop where
  pure {α : Type} (a : α) : R α (Pure.pure a) (Pure.pure a)
  bind {α β : Type} {x : m α} {x' : m' α} {k : α → m β} {k' : α → m' β} (hx : R α x x')
    (hk : ∀ a, R β (k a) (k' a)) : R β (x >>= k) (x' >>= k')
  readFile (path : String) : R _ (Host.readFile path) (Host.readFile path)
  removeFile (path : String) : R _ (Host.removeFile path) (Host.removeFile path)
  makeDirectory (path : String) : R _ (Host.makeDirectory path) (Host.makeDirectory path)
  isDirectory (path : String) : R _ (Host.isDirectory path) (Host.isDirectory path)
  appendFile (path : String) (bytes : ByteArray) :
    R _ (Host.appendFile path bytes) (Host.appendFile path bytes)
  fetch (address : Url) : R _ (Host.fetch address) (Host.fetch address)
  timestamp : R _ Host.timestamp Host.timestamp
  print (text : String) : R _ (Host.print text) (Host.print text)
  printError (text : String) : R _ (Host.printError text) (Host.printError text)

namespace Simulates

variable {m m' : Type → Type} [Monad m] [Host m] [Monad m'] [Host m']
  {R : (α : Type) → m α → m' α → Prop} (h : Simulates R)

include h

/-- A step that may be left out. -/
lemma optional (c : Prop) [Decidable c] {x : m Unit} {x' : m' Unit} (hx : R Unit x x') :
    R Unit (if c then x else Pure.pure ()) (if c then x' else Pure.pure ()) := by
  split_ifs
  · exact hx
  · exact h.pure ()

/-- A step that may be left out before the rest. -/
lemma step {β : Type} (c : Prop) [Decidable c] {x : m Unit} {x' : m' Unit} {k : Unit → m β}
    {k' : Unit → m' β} (hx : R Unit x x') (hk : ∀ a, R β (k a) (k' a)) :
    R β (if c then x >>= k else k ()) (if c then x' >>= k' else k' ()) := by
  split_ifs
  · exact h.bind hx hk
  · exact hk ()

/-! ### Files -/

/-- Missing directories are made alike, by induction on those above. -/
lemma createMissing (paths : List Path) :
    R _ (SchemaTypes.createMissing paths) (SchemaTypes.createMissing paths) := by
  induction paths with
  | nil => exact h.pure _
  | cons path rest ih =>
      rw [SchemaTypes.createMissing, SchemaTypes.createMissing]
      refine h.bind (h.makeDirectory _) fun made => ?_
      split
      · exact h.pure _
      · refine h.bind ih fun above => ?_
        split
        · exact h.pure _
        · refine h.bind (h.makeDirectory _) fun again => ?_
          split
          · exact h.pure _
          · exact h.bind (h.isDirectory _) fun _ => h.pure _
      · exact h.bind (h.isDirectory _) fun _ => h.pure _

/-- An output is written alike. -/
lemma writeOutput (path : String) (bytes : ByteArray) :
    R _ (SchemaTypes.writeOutput path bytes) (SchemaTypes.writeOutput path bytes) := by
  rw [SchemaTypes.writeOutput, SchemaTypes.writeOutput]
  refine h.bind (h.createMissing _) fun made => ?_
  split
  · exact h.pure _
  · refine h.bind (h.appendFile _ _) fun appended => ?_
    split <;> exact h.pure _

/-- Schemas are loaded alike, from the web and from files. -/
lemma loadSchemas (source : Source) :
    R _ (SchemaTypes.loadSchemas source) (SchemaTypes.loadSchemas source) := by
  refine h.bind ?_ fun document => h.pure _
  cases source with
  | remote address =>
      refine h.bind (h.fetch _) fun bytes => ?_
      split <;> exact h.pure _
  | file path =>
      refine h.bind (h.readFile _) fun bytes => ?_
      split <;> exact h.pure _

/-! ### Journals -/

section

variable (j : Journal)

/-- The lines of a journal are said alike. -/
lemma info (message : String) : R _ (j.info message) (j.info message) :=
  h.optional _ (h.bind h.timestamp fun _ => h.print _)

lemma detail (message : String) : R _ (j.detail message) (j.detail message) :=
  h.optional _ (h.info j message)

lemma statistic (label value : String) : R _ (j.statistic label value) (j.statistic label value) :=
  h.optional _ (h.print _)

lemma removal (answer : Except FileFault Unit) : R _ (j.removal answer) (j.removal answer) := by
  rw [Journal.removal.eq_def, Journal.removal.eq_def]
  split
  · exact h.detail j _
  · exact h.pure ()
  · exact h.detail j _

lemma generating (c : Collection) : R _ (j.generating c) (j.generating c) :=
  h.step _ (h.info j _) fun _ => h.bind (h.info j _) fun _ =>
    h.step _ (h.detail j _) fun _ => h.optional _ (h.detail j _)

/-- Warnings are said alike, one by one. -/
lemma warnings (found : List Warning) : R _ (j.warnings found) (j.warnings found) := by
  have hlist (l : List Warning) :
      R _ (l.forM fun w => Host.printError (Journal.warningLine j.palette w))
        (l.forM fun w => Host.printError (Journal.warningLine j.palette w)) := by
    induction l with
    | nil => exact h.pure ()
    | cons w l ih => exact h.bind (h.printError _) fun _ => ih
  exact h.optional _ (h.bind (h.print _) fun _ => hlist found)

/-- The statistics are said alike. -/
lemma report (statistics : Statistics) : R _ (j.report statistics) (j.report statistics) := by
  refine h.optional _ ?_
  refine h.bind (h.statistic j _ _) fun _ => h.bind (h.statistic j _ _) fun _ => ?_
  refine h.bind (h.statistic j _ _) fun _ => h.bind (h.statistic j _ _) fun _ => ?_
  refine h.bind (h.statistic j _ _) fun _ => ?_
  refine h.step _ (h.statistic j _ _) fun _ => h.bind (h.statistic j _ _) fun _ => ?_
  exact h.step _ (h.statistic j _ _) fun _ => h.warnings j _

lemma success : R _ j.success j.success :=
  h.optional _ (h.bind (h.print _) fun _ => h.bind h.timestamp fun _ => h.print _)

end

/-! ### Runs -/

/-- The removal of the output file before the rest of a run. -/
lemma clearing {β : Type} (j : Journal) {k : Unit → m β} {k' : Unit → m' β}
    (hk : R β (k ()) (k' ())) :
    R β
      (if j.config.removeExisting = true then
        Host.removeFile j.config.output >>= fun removed => j.removal removed >>= k
      else k ())
      (if j.config.removeExisting = true then
        Host.removeFile j.config.output >>= fun removed => j.removal removed >>= k'
      else k' ()) := by
  split_ifs
  · exact h.bind (h.removeFile _) fun removed => h.bind (h.removal j _) fun _ => hk
  · exact hk

/-- **Runs keep the relation.** -/
theorem run (config : Config) (colors : Colors) :
    R _ (SchemaTypes.run config colors) (SchemaTypes.run config colors) := by
  let j : Journal := ⟨config, colors.palette⟩
  rw [SchemaTypes.run, SchemaTypes.run]
  refine h.clearing j ?_
  refine h.bind (h.info j _) fun _ => h.bind (h.loadSchemas _) fun found => ?_
  split
  · exact h.pure _
  · rename_i mapping
    generalize Collection.ofFields mapping = generated
    obtain ⟨c, warnings⟩ := generated
    refine h.bind (h.generating j c) fun _ => h.bind (h.info j _) fun _ => ?_
    split
    · exact h.pure _
    · refine h.bind (h.writeOutput _ _) fun written => ?_
      split
      · exact h.pure _
      · exact h.bind (h.report j _) fun _ => h.bind (h.success j) fun _ => h.pure _

/-- **Calls of the program keep the relation.** -/
theorem program (arguments : List String) (e : Environment) :
    R _ (SchemaTypes.program arguments e) (SchemaTypes.program arguments e) := by
  have harguments : R _ (runArguments arguments e) (runArguments arguments e) := by
    rw [runArguments, runArguments]
    split
    · exact h.pure _
    · exact h.bind (h.run _ _) fun _ => h.pure _
  rw [SchemaTypes.program, SchemaTypes.program]
  refine h.bind harguments fun ended => ?_
  split
  · exact h.pure _
  · exact h.bind (h.print _) fun _ => h.pure _
  · exact h.bind (h.print _) fun _ => h.pure _
  · exact h.bind (h.printError _) fun _ => h.pure _
  · exact h.bind (h.printError _) fun _ => h.pure _

end Simulates

/-! ### Refusals -/

/-- Where nothing is refused a guarded program goes as a plain one. -/
def Unguarded (φ : Type) (α : Type) (x : Guarded φ α) (x' : StateM (MachineOf φ) α) : Prop :=
  ∀ s, x willing s = x' s

section

variable {φ : Type} [FileSystem φ]

/-- Where there is room for all bytes they are appended as they are. -/
lemma appendWithin_willing (path : String) (bytes : ByteArray) (s : MachineOf φ) :
    Guarded.appendWithin willing path bytes s
      = (Host.appendFile path bytes : StateM (MachineOf φ) _) s := by
  have hbind (answer : Except AppendFault Unit) : answer.bind (fun _ => .ok ()) = answer := by
    cases answer <;> rfl
  exact Prod.ext (hbind _) rfl

lemma simulates_unguarded : Simulates (Unguarded φ) where
  pure a s := rfl
  bind {_ _ x x' k k'} hx hk s := by
    show k (x willing s).1 willing (x willing s).2 = k' (x' s).1 (x' s).2
    rw [hx, hk]
  readFile path s := rfl
  removeFile path s := rfl
  makeDirectory path s := rfl
  isDirectory path s := rfl
  appendFile path bytes s := appendWithin_willing path bytes s
  fetch address s := rfl
  timestamp s := rfl
  print text s := rfl
  printError text s := rfl

/-- A run on files that refuse nothing is a plain run. -/
theorem run_willing (config : Config) (colors : Colors) (s : MachineOf φ) :
    (run config colors : Guarded φ _) willing s = (run config colors : StateM _ _) s :=
  simulates_unguarded.run config colors s

end

end SchemaTypes
