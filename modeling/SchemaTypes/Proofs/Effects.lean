import SchemaTypes.Generation.Run
import SchemaTypes.Proofs.Paths

/-!
What programs do to the files of a machine.

* `Ends`: from some files a program ends with an answer and files as described,
  whatever the time and the console;
* `Leads`: from some files it leads to others, with an answer;
* `Silent`: a program that leaves the files alone; all that a journal says is
  silent;
* `leads_createDirectories`: making the directories on a way that can be made;
* `leads_writeOutput`: writing an output makes the directories on its way and
  appends its bytes;
* `leads_loadDocument`: loading leaves the files alone, and the document hangs on
  them and the web only (`documentAt`).
-/

namespace SchemaTypes

/-! ### Programs and files -/

/-- Programs on a machine with files of a kind that also see what is around it. -/
abbrev Around (φ ρ : Type) := ReaderT ρ (StateM (MachineOf φ))

/-- From the files `t` the program ends with an answer and files as described. -/
def Ends {φ ρ α : Type} (env : ρ) (x : Around φ ρ α) (t : φ) (post : α → φ → Prop) : Prop :=
  ∀ s : MachineOf φ, s.files = t → post (x env s).1 (x env s).2.files

/-- From the files `t` the program leads to the files `t'`, with the answer `a`. -/
def Leads {φ ρ α : Type} (env : ρ) (x : Around φ ρ α) (t : φ) (a : α) (t' : φ) : Prop :=
  Ends env x t fun answer after => answer = a ∧ after = t'

/-- The program leaves the files alone. -/
def Silent {φ ρ α : Type} (env : ρ) (x : Around φ ρ α) : Prop :=
  ∀ s : MachineOf φ, (x env s).2.files = s.files

section

variable {φ ρ α β : Type} {env : ρ}

lemma Ends.pure {post : α → φ → Prop} {a : α} {t : φ} (h : post a t) :
    Ends env (Pure.pure a : Around φ ρ α) t post := by
  rintro s rfl
  exact h

/-- What a program ends with is what the rest of it starts with. -/
lemma Ends.bind {x : Around φ ρ α} {k : α → Around φ ρ β} {t : φ}
    {middle : α → φ → Prop} {post : β → φ → Prop} (hx : Ends env x t middle)
    (hk : ∀ a t', middle a t' → Ends env (k a) t' post) : Ends env (x >>= k) t post :=
  fun s hs => hk _ _ (hx s hs) (x env s).2 rfl

/-- What a program ends with may be described with less. -/
lemma Ends.mono {x : Around φ ρ α} {t : φ} {post post' : α → φ → Prop} (hx : Ends env x t post)
    (h : ∀ a t', post a t' → post' a t') : Ends env x t post' :=
  fun s hs => h _ _ (hx s hs)

/-- What a program ends with may be left open. -/
lemma ends_any (x : Around φ ρ α) (t : φ) : Ends env x t fun _ _ => True :=
  fun _ _ => trivial

lemma Leads.pure (a : α) (t : φ) : Leads env (Pure.pure a : Around φ ρ α) t a t :=
  Ends.pure ⟨rfl, rfl⟩

/-- What leads somewhere, and goes on from there. -/
lemma Leads.ends {x : Around φ ρ α} {k : α → Around φ ρ β} {t t' : φ} {a : α}
    {post : β → φ → Prop} (hx : Leads env x t a t') (hk : Ends env (k a) t' post) :
    Ends env (x >>= k) t post :=
  Ends.bind hx fun _ _ hmiddle => hmiddle.1 ▸ hmiddle.2 ▸ hk

/-- One way after the other. -/
lemma Leads.bind {x : Around φ ρ α} {k : α → Around φ ρ β} {t t' t'' : φ} {a : α} {b : β}
    (hx : Leads env x t a t') (hk : Leads env (k a) t' b t'') : Leads env (x >>= k) t b t'' :=
  hx.ends hk

/-- A silent program leads nowhere else. -/
lemma Silent.leads {x : Around φ ρ Unit} (hx : Silent env x) (t : φ) :
    Leads env x t () t :=
  fun s hs => ⟨rfl, (hx s).trans hs⟩

lemma Silent.pure (a : α) : Silent env (Pure.pure a : Around φ ρ α) := fun _ => rfl

/-- Silent programs one after the other. -/
lemma Silent.bind {x : Around φ ρ α} {k : α → Around φ ρ β} (hx : Silent env x)
    (hk : ∀ a, Silent env (k a)) : Silent env (x >>= k) :=
  fun s => (hk (x env s).1 (x env s).2).trans (hx s)

lemma Silent.ite {c : Prop} [Decidable c] {x y : Around φ ρ α} (hx : Silent env x)
    (hy : Silent env y) : Silent env (if c then x else y) := by
  split_ifs
  · exact hx
  · exact hy

/-- A step that may be left out before the rest. -/
lemma Silent.step {c : Prop} [Decidable c] {x : Around φ ρ Unit} {k : Unit → Around φ ρ β}
    (hx : Silent env x) (hk : ∀ a, Silent env (k a)) :
    Silent env (if c then x >>= k else k ()) :=
  .ite (hx.bind hk) (hk ())

/-- A silent step before the rest. -/
lemma Ends.silent_bind {x : Around φ ρ Unit} {k : Unit → Around φ ρ β} {t : φ}
    {post : β → φ → Prop} (hx : Silent env x) (hk : Ends env (k ()) t post) :
    Ends env (x >>= k) t post := (hx.leads t).ends hk

end

/-! ### The console -/

/-- The clock and the console leave the files alone. -/
class ConsoleApart (φ ρ : Type) [Host (Around φ ρ)] : Prop where
  timestamp (env : ρ) : Silent env (Host.timestamp : Around φ ρ String)
  print (env : ρ) (text : String) : Silent env (Host.print text : Around φ ρ Unit)
  printError (env : ρ) (text : String) : Silent env (Host.printError text : Around φ ρ Unit)

instance : ConsoleApart FileTree Web where
  timestamp _ _ := rfl
  print _ _ _ := rfl
  printError _ _ _ := rfl

instance {φ : Type} [FileSystem φ] : ConsoleApart φ (Surroundings φ) where
  timestamp _ _ := rfl
  print _ _ _ := rfl
  printError _ _ _ := rfl

section

variable {φ ρ : Type} {env : ρ}

/-- A silent program for each element of a list. -/
lemma silent_forM {α : Type} {f : α → Around φ ρ PUnit} (hf : ∀ a, Silent env (f a)) (l : List α) :
    Silent env (l.forM f) := by
  induction l with
  | nil => exact .pure _
  | cons a l ih => exact (hf a).bind fun _ => ih

namespace Journal

variable [Host (Around φ ρ)] [ConsoleApart φ ρ] (j : Journal)

/-- A line of a journal leaves the files alone. -/
lemma silent_info (message : String) : Silent env (j.info message : Around φ ρ Unit) :=
  .ite ((ConsoleApart.timestamp _).bind fun _ => ConsoleApart.print _ _) (.pure _)

lemma silent_detail (message : String) : Silent env (j.detail message : Around φ ρ Unit) :=
  .ite (silent_info j message) (.pure _)

lemma silent_statistic (label value : String) :
    Silent env (j.statistic label value : Around φ ρ Unit) :=
  .ite (ConsoleApart.print _ _) (.pure _)

lemma silent_loading : Silent env (j.loading : Around φ ρ Unit) := silent_info j _

lemma silent_writing : Silent env (j.writing : Around φ ρ Unit) := silent_info j _

lemma silent_success : Silent env (j.success : Around φ ρ Unit) :=
  .ite ((ConsoleApart.print _ _).bind fun _ => (ConsoleApart.timestamp _).bind fun _ =>
    ConsoleApart.print _ _) (.pure _)

/-- What is said of the schemas that are found. -/
lemma silent_generating (c : Collection) : Silent env (j.generating c : Around φ ρ Unit) :=
  .step (silent_info j _) fun _ => (silent_info j _).bind fun _ =>
    .step (silent_detail j _) fun _ => .ite (silent_detail j _) (.pure _)

/-- The warnings, on either stream. -/
lemma silent_warnings (found : List Warning) : Silent env (j.warnings found : Around φ ρ Unit) :=
  .ite ((ConsoleApart.print _ _).bind fun _ =>
    silent_forM (fun _ => ConsoleApart.printError _ _) found) (.pure _)

/-- What is said of a run that comes to its end. -/
lemma silent_report (statistics : Statistics) :
    Silent env (j.report statistics : Around φ ρ Unit) := by
  refine .ite ?_ (.pure _)
  refine (silent_statistic j _ _).bind fun _ => (silent_statistic j _ _).bind fun _ => ?_
  refine (silent_statistic j _ _).bind fun _ => (silent_statistic j _ _).bind fun _ => ?_
  refine (silent_statistic j _ _).bind fun _ => ?_
  refine .step (silent_statistic j _ _) fun _ => (silent_statistic j _ _).bind fun _ => ?_
  exact .step (silent_statistic j _ _) fun _ => silent_warnings j _

/-- What is said of the removal of the output. -/
lemma silent_removal (answer : Except FileFault Unit) :
    Silent env (j.removal answer : Around φ ρ Unit) := by
  rw [removal.eq_def]
  split
  · exact silent_detail j _
  · exact .pure _
  · exact silent_detail j _

end Journal

end

/-- Files that refuse nothing, and no web. -/
def willing {φ : Type} : Surroundings φ where
  web := fun _ => none
  refusal := fun _ _ _ => none
  capacity := fun _ _ _ => none

/-! ### Operations on files -/

section

variable {web : Web} {t t' : FileTree} {path : String}

/-- A change that goes through leads to the changed files. -/
lemma leads_change_ok {ε : Type} {f : FileTree → Except ε FileTree} (h : f t = .ok t') :
    Leads web (fun _ => Machine.change f : Online (Except ε Unit)) t (.ok ()) t' := by
  intro s hs
  subst hs
  simp [Machine.change, h]

/-- A change that is refused leads nowhere else. -/
lemma leads_change_error {ε : Type} {f : FileTree → Except ε FileTree} {fault : ε}
    (h : f t = .error fault) :
    Leads web (fun _ => Machine.change f : Online (Except ε Unit)) t (.error fault) t := by
  intro s hs
  subst hs
  simp [Machine.change, h]

lemma leads_isDirectory (web : Web) (t : FileTree) (path : String) :
    Leads web (Host.isDirectory path) t (t.isDirectory path) t := by
  rintro s rfl
  exact ⟨rfl, rfl⟩

/-- A directory that can be made is made. -/
lemma leads_makeDirectory_ok (h : t.makeDirectory path = .ok t') :
    Leads web (Host.makeDirectory path) t (.ok ()) t' := leads_change_ok h

lemma leads_makeDirectory_error {fault : FileFault} (h : t.makeDirectory path = .error fault) :
    Leads web (Host.makeDirectory path) t (.error fault) t := leads_change_error h

/-- Bytes that can be appended are appended. -/
lemma leads_appendFile_ok {bytes : ByteArray} (h : t.append path bytes = .ok t') :
    Leads web (Host.appendFile path bytes) t (.ok ()) t' :=
  leads_change_ok (congrArg (Except.mapError AppendFault.unopened) h)

end

/-! ### Directories -/

section

variable {web : Web}

/-- Making the last directory of a path whose way is there, when a directory that
is there already is taken for made. -/
lemma leads_enter {t t' : FileTree} {p : Path} (hp : p.Proper) {front : List String}
    {last : String} (hparts : p.parts = front ++ [last]) {parent stop : Place}
    (hwalk : t.walk [] front = .ok parent) (hreach : t.reach parent [last] = some (t', stop))
    {k : Except FileFault Unit → Online (Except FileFault Unit)}
    (hmade : k (.ok ()) = Pure.pure (.ok ()))
    (hthere : k (.error .alreadyExists) = do
      return if ← Host.isDirectory p.toString then .ok () else .error .alreadyExists) :
    Leads web (Host.makeDirectory p.toString >>= k) t (.ok ()) t' := by
  obtain hmake | ⟨hmake, hdir, rfl⟩ := FileTree.enter hp hparts hwalk hreach
  · refine (leads_makeDirectory_ok hmake).bind ?_
    rw [hmade]
    exact .pure _ _
  · refine (leads_makeDirectory_error hmake).bind ?_
    rw [hthere]
    refine (leads_isDirectory web _ _).bind ?_
    rw [hdir]
    exact .pure _ _

/-- A path stands in front of those above it. -/
lemma withParents_snoc (isAbsolute : Bool) (front : List String) (last : String) :
    Path.withParents ⟨isAbsolute, front ++ [last]⟩
      = ⟨isAbsolute, front ++ [last]⟩ :: Path.withParents ⟨isAbsolute, front⟩ := by
  rw [Path.withParents, Path.withParents, List.length_append, List.length_singleton,
    List.range_succ_eq_map, List.map_cons, List.map_map]
  congr 1
  · simp
  · refine List.map_congr_left fun n hn => ?_
    have hlength : front.length - n ≤ front.length := by omega
    simp [List.take_append_of_le_length hlength]

/-- The directories on a way that can be made are made. -/
lemma leads_createMissing (isAbsolute : Bool) {parts : List String}
    (hp : Path.Proper ⟨isAbsolute, parts⟩) {t t' : FileTree} {stop : Place}
    (hreach : t.reach [] parts = some (t', stop)) :
    Leads web (createMissing (Path.withParents ⟨isAbsolute, parts⟩)) t (.ok ()) t' := by
  induction parts using List.reverseRecOn generalizing t t' stop with
  | nil =>
      cases hreach
      exact .pure _ _
  | append_singleton front last ih =>
      have hfront : Path.Proper ⟨isAbsolute, front⟩ := fun part hpart =>
        hp part (List.mem_append_left _ hpart)
      rw [FileTree.reach_append] at hreach
      obtain ⟨⟨opened, parent⟩, hbefore, hlast⟩ := Option.bind_eq_some_iff.mp hreach
      rw [withParents_snoc, createMissing]
      obtain ⟨hwalk, rfl⟩ | hwalk := FileTree.walk_of_reach hbefore
      · exact leads_enter hp rfl hwalk hlast rfl rfl
      · -- the directory above is missing; it is made first, and then this one
        have hmissing : t.makeDirectory (Path.toString ⟨isAbsolute, front ++ [last]⟩)
            = .error .notFound := by
          rw [FileTree.makeDirectory, FileTree.locate_toString t hp rfl, hwalk]
          rfl
        refine (leads_makeDirectory_error hmissing).bind ?_
        refine (ih hfront hbefore).bind ?_
        exact leads_enter hp rfl (FileTree.reach_walk hbefore) hlast rfl rfl

/-- Making a directory and those above it follows the way to it. -/
lemma leads_createDirectories {p : Path} (hp : p.Proper) {t t' : FileTree} {stop : Place}
    (hreach : t.reach [] p.parts = some (t', stop)) :
    Leads web (createDirectories p) t (.ok ()) t' :=
  leads_createMissing p.isAbsolute hp hreach

end

/-! ### Outputs -/

section

variable {web : Web}

/-- Writing an output makes the directories on its way and appends its bytes. -/
lemma leads_writeOutput {t opened t' : FileTree} {path name : String} {front : List String}
    {parent : Place} {bytes : ByteArray} (hparts : pathParts path = front ++ [name])
    (hname : IsName name) (hreach : t.reach [] front = some (opened, parent))
    (happend : opened.append path bytes = .ok t') :
    Leads web (writeOutput path bytes) t (.ok ()) t' := by
  obtain ⟨above, habove, hp, hsteps⟩ := Path.parent?_ofString hparts hname
  have hway : t.reach [] above.parts = some (opened, parent) := by
    rw [← FileTree.reach_steps, hsteps, FileTree.reach_steps, hreach]
  rw [writeOutput, habove, Option.getD_some]
  refine (leads_createDirectories hp hway).bind ?_
  exact (leads_appendFile_ok happend).bind (.pure _ _)

end

/-! ### Loading -/

/-- A file is read as it is. -/
lemma leads_readFile (web : Web) (t : FileTree) (path : String) :
    Leads web (Host.readFile path) t (t.read path) t := by
  rintro s rfl
  exact ⟨rfl, rfl⟩

/-- What is on the web is fetched as it is there. -/
lemma leads_fetch (web : Web) (t : FileTree) (address : Url) :
    Leads web (Host.fetch address) t (web address) t := by
  rintro s rfl
  exact ⟨rfl, rfl⟩

/-- The document at a source. -/
def documentAt (web : Web) (t : FileTree) : Source → Except LoadError Json
  | .remote address =>
    match web address with
    | none => .error (.fetch address)
    | some bytes => parseDocument (Source.remote address).format bytes.toList
  | .file path =>
    match t.read path with
    | .error fault => .error (.unreadable path fault)
    | .ok bytes => parseDocument (Source.file path).format bytes.toList

/-- A document is loaded from where it is. -/
lemma leads_loadDocument (web : Web) (t : FileTree) (source : Source) :
    Leads web (loadDocument source) t (documentAt web t source) t := by
  cases source with
  | remote address =>
      refine (leads_fetch web t address).bind ?_
      rw [documentAt]
      cases web address with
      | none => exact .pure _ _
      | some bytes => exact .pure _ _
  | file path =>
      refine (leads_readFile web t path).bind ?_
      rw [documentAt]
      cases t.read path with
      | error fault => exact .pure _ _
      | ok bytes => exact .pure _ _

/-- Loading leaves the files alone, and what it finds hangs on them only. -/
lemma leads_loadSchemas (web : Web) (source : Source) (s : Machine) :
    Leads web (loadSchemas source) s.files ((loadSchemas source : Online _) web s).1 s.files := by
  have hload : Leads web (loadSchemas source) s.files
      ((documentAt web s.files source).bind componentSchemas) s.files :=
    (leads_loadDocument web s.files source).bind (.pure _ _)
  rw [(hload s rfl).1]
  exact hload

end SchemaTypes
