import SchemaTypes.Proofs.Output

/-!
The skeleton of an output.

* `Shape`, `Skeleton`: what an output says of a collection: the names, which of
  them are records, the keys, marks and type expressions, and the documentation
  entries;
* `Shape.texts`, `Skeleton.texts`: the lines that a skeleton is written as;
* `Skeleton.Legible`: names, keys, type expressions and entries that cannot be
  taken for the marks around them;
* `schemaTexts_eq_texts`: a generation writes the lines of the skeleton of its
  mapping, and nothing else of the mapping reaches the output;
* `Skeleton.Legible.oneLine`: each line of a legible skeleton is one line.
-/

namespace SchemaTypes

/-- What an output says of a property of a record. -/
structure PropertyShape where
  key : String
  isOptional : Bool
  type : String
  entries : List String
deriving DecidableEq

/-- What an output says of a schema. -/
inductive Shape where
  | record (properties : List PropertyShape)
  /-- A union or a top-level type, with the documentation above it. -/
  | single (type : String) (entries : List String)
deriving DecidableEq

/-- What an output says of a collection, in the order of the collection. -/
abbrev Skeleton := List (String × Shape)

/-! ### From collections to skeletons -/

section

variable (documentation : Bool)

/-- The documentation entries of a property that reach the output. -/
def Property.shown (p : Property) : List String :=
  if documentation then ((p.documentation .top).map DocBlock.entries).getD [] else []

def RecordType.shape (type : RecordType) : Shape :=
  .record (type.properties.map fun (key, p) =>
    ⟨key, !type.isRequired key, p.render, p.shown documentation⟩)

def SchemaNode.shape : SchemaNode → Shape
  | record type => type.shape documentation
  | union type => .single type.render []
  | property p => .single p.render (p.shown documentation)

def Collection.skeleton (c : Collection) : Skeleton :=
  c.schemas.map fun (name, node) => (name, node.shape documentation)

end

/-! ### The lines of a skeleton -/

/-- A blank line and a block, if there is any entry. -/
def entryTexts (indent : Indent) (entries : List String) : List String :=
  if entries = [] then [] else "" :: (DocBlock.mk indent entries).lines

def PropertyShape.text (p : PropertyShape) : String :=
  "  " ++ p.key ++ (if p.isOptional then "?" else "") ++ ": " ++ p.type

def PropertyShape.texts (p : PropertyShape) : List String :=
  entryTexts .property p.entries ++ [p.text]

def Shape.texts (name : String) : Shape → List String
  | record properties =>
    (declarationHead name ++ "\x7b") :: properties.flatMap PropertyShape.texts ++ ["\x7d"]
  | single type entries => entryTexts .top entries ++ [declarationHead name ++ type]

def Skeleton.texts (s : Skeleton) : List String :=
  [""].intercalate (s.map fun (name, shape) => shape.texts name)

@[simp] lemma Skeleton.texts_nil : Skeleton.texts [] = [] := rfl

@[simp] lemma Skeleton.texts_singleton (name : String) (shape : Shape) :
    Skeleton.texts [(name, shape)] = shape.texts name := by
  simp [Skeleton.texts]

/-- Between two schemas stands an empty line. -/
@[simp] lemma Skeleton.texts_cons_cons (name : String) (shape : Shape) (next : String × Shape)
    (rest : Skeleton) :
    Skeleton.texts ((name, shape) :: next :: rest)
      = shape.texts name ++ "" :: Skeleton.texts (next :: rest) := by
  simp [Skeleton.texts, List.intercalate_cons_cons]

/-! ### A generation writes a skeleton -/

/-- The lines of a documentation block say the entries that are shown. -/
lemma map_text_documentationLines (documentation : Bool) (indent : Indent) (p : Property) :
    (p.documentationLines documentation indent).map Line.text
      = entryTexts indent (p.shown documentation) := by
  cases documentation with
  | false => rfl
  | true =>
      by_cases hdoc : (p.kind.isDocumentable && !p.entries.isEmpty) = true
      · have hne : p.entries ≠ [] := by
          simp only [Bool.and_eq_true, Bool.not_eq_true', List.isEmpty_eq_false_iff] at hdoc
          exact hdoc.2
        simp only [Property.documentationLines, Property.shown, Property.documentation, if_true,
          if_pos hdoc, Option.map_some, Option.getD_some, entryTexts, if_neg hne,
          DocBlock.documentationLines, List.map_cons, map_text_completingLast]
        rfl
      · simp only [Property.documentationLines, Property.shown, Property.documentation, if_true,
          if_neg hdoc]
        rfl

/-- The lines of a schema are those of its shape. -/
lemma map_text_lines (documentation : Bool) (name : String) (node : SchemaNode) :
    (node.lines documentation name).map Line.text = (node.shape documentation).texts name := by
  cases node with
  | record type =>
      simp only [SchemaNode.lines, SchemaNode.shape, RecordType.shape, Shape.texts, List.map_append,
        List.map_cons, RecordType.bodyLines, List.map_flatMap, List.flatMap_map]
      congr 2
      refine List.flatMap_congr fun entry _ => ?_
      obtain ⟨key, p⟩ := entry
      rw [map_text_documentationLines, PropertyShape.texts]
      congr 1
      cases hrequired : type.isRequired key <;>
        simp [RecordType.propertyLine, RecordType.propertyText, PropertyShape.text, hrequired]
  | union type => rfl
  | property p =>
      simp only [SchemaNode.lines, List.map_append, map_text_documentationLines]
      rfl

/-- **What reaches the output of a collection is its skeleton.** -/
theorem texts_eq_texts_skeleton (documentation : Bool) (c : Collection) :
    c.texts documentation = (c.skeleton documentation).texts := by
  rw [Collection.texts, Collection.lines, map_text_separated, Skeleton.texts]
  simp only [Collection.skeleton, List.map_map]
  congr 1
  exact List.map_congr_left fun entry _ => map_text_lines documentation entry.1 entry.2

/-- The skeleton of the collection that a mapping is read into. -/
def schemaSkeleton (documentation : Bool) (mapping : Fields) : Skeleton :=
  (Collection.ofFields mapping).1.skeleton documentation

/-- A skeleton has the names of its mapping. -/
lemma map_fst_schemaSkeleton (documentation : Bool) (mapping : Fields) :
    (schemaSkeleton documentation mapping).map Prod.fst = mapping.map Prod.fst := by
  simp only [schemaSkeleton, Collection.skeleton, Collection.ofFields, List.map_map]
  rfl

/-- The lines of a mapping are those of its skeleton. -/
lemma schemaTexts_eq_texts (documentation : Bool) (mapping : Fields) :
    schemaTexts documentation mapping = (schemaSkeleton documentation mapping).texts :=
  texts_eq_texts_skeleton documentation _

/-! ### Legible skeletons -/

/-- A text without any of some characters. -/
def Without (chars : List Char) (text : String) : Prop := ∀ c ∈ text.toList, c ∉ chars

-- over the characters of the text, not over all characters
instance (chars : List Char) (text : String) : Decidable (Without chars text) :=
  List.decidableBAll (· ∉ chars) text.toList

/-- A text on one line. -/
def OneLine (text : String) : Prop := Without ['\r', '\n'] text

instance (text : String) : Decidable (OneLine text) :=
  inferInstanceAs (Decidable (Without _ text))

/-- A key that ends at its mark or colon, a type and entries on one line each. -/
def PropertyShape.Legible (p : PropertyShape) : Prop :=
  Without [':', '?', '\r', '\n'] p.key ∧ OneLine p.type ∧ ∀ entry ∈ p.entries, OneLine entry

/-- Legible properties, or a type on one line that does not look like the
beginning of a record. -/
def Shape.Legible : Shape → Prop
  | record properties => ∀ p ∈ properties, p.Legible
  | single type entries => OneLine type ∧ type ≠ "\x7b" ∧ ∀ entry ∈ entries, OneLine entry

/-- Legible schemas, with names that end at a space. -/
def Skeleton.Legible (s : Skeleton) : Prop :=
  ∀ entry ∈ s, Without [' ', '\r', '\n'] entry.1 ∧ entry.2.Legible

instance : DecidablePred PropertyShape.Legible := fun _ => inferInstanceAs (Decidable (_ ∧ _))

instance : DecidablePred Shape.Legible
  | .record properties => inferInstanceAs (Decidable (∀ p ∈ properties, p.Legible))
  | .single _ _ => inferInstanceAs (Decidable (_ ∧ _))

instance : DecidablePred Skeleton.Legible := fun s =>
  inferInstanceAs (Decidable (∀ entry ∈ s, _ ∧ _))

section

variable {chars : List Char}

@[simp] lemma without_append {front back : String} :
    Without chars (front ++ back) ↔ Without chars front ∧ Without chars back := by
  simp [Without, String.toList_append, or_imp, forall_and]

/-- A text without some characters is without fewer of them. -/
lemma Without.mono {more : List Char} {text : String} (h : Without more text)
    (hsub : chars ⊆ more) : Without chars text :=
  fun c hc hmem => h c hc (hsub hmem)

end

/-- Entries of one line each make lines. -/
lemma oneLine_entryTexts (indent : Indent) {entries : List String}
    (h : ∀ entry ∈ entries, OneLine entry) : ∀ text ∈ entryTexts indent entries, OneLine text := by
  have hblanks : OneLine indent.blanks := by cases indent <;> decide
  have hmarks : ∀ mark ∈ DocBlock.opening :: entries.map DocBlock.entryLine ++ [DocBlock.closing],
      OneLine mark := by
    simp only [List.cons_append, List.mem_cons, List.mem_append, List.mem_map, List.not_mem_nil,
      or_false]
    rintro mark (rfl | ⟨entry, hentry, rfl⟩ | rfl)
    · decide
    · exact without_append.mpr ⟨by decide, h entry hentry⟩
    · decide
  rw [entryTexts]
  split
  · simp
  · intro text htext
    obtain rfl | htext := List.mem_cons.mp htext
    · decide
    · obtain ⟨mark, hmark, rfl⟩ := List.mem_map.mp htext
      exact without_append.mpr ⟨hblanks, hmarks mark hmark⟩

/-- The lines of a legible property are single lines. -/
lemma PropertyShape.Legible.oneLine {p : PropertyShape} (h : p.Legible) :
    ∀ text ∈ p.texts, OneLine text := by
  obtain ⟨hkey, htype, hentries⟩ := h
  intro text htext
  obtain hentry | hproperty := List.mem_append.mp htext
  · exact oneLine_entryTexts .property hentries text hentry
  · obtain rfl := List.mem_singleton.mp hproperty
    have hkey' : OneLine p.key := hkey.mono (by simp)
    have hmark : OneLine (if p.isOptional then "?" else "") := by split <;> decide
    simp only [OneLine, PropertyShape.text, without_append] at hkey' htype hmark ⊢
    exact ⟨⟨⟨⟨by decide, hkey'⟩, hmark⟩, by decide⟩, htype⟩

/-- A declaration begins on one line. -/
lemma oneLine_declarationHead {name : String} (h : Without [' ', '\r', '\n'] name) :
    OneLine (declarationHead name) := by
  have hname : OneLine name := h.mono (by simp)
  simp only [OneLine, declarationHead, without_append] at hname ⊢
  exact ⟨⟨by decide, hname⟩, by decide⟩

/-- The lines of a legible shape are single lines. -/
lemma Shape.Legible.oneLine {shape : Shape} (h : shape.Legible) {name : String}
    (hname : Without [' ', '\r', '\n'] name) : ∀ text ∈ shape.texts name, OneLine text := by
  have hhead := oneLine_declarationHead hname
  cases shape with
  | record properties =>
      intro text htext
      simp only [Shape.texts, List.cons_append, List.mem_cons, List.mem_append, List.mem_flatMap,
        List.not_mem_nil, or_false] at htext
      obtain rfl | ⟨p, hp, htext⟩ | rfl := htext
      · exact without_append.mpr ⟨hhead, by decide⟩
      · exact (h p hp).oneLine text htext
      · decide
  | single type entries =>
      obtain ⟨htype, -, hentries⟩ := h
      intro text htext
      obtain hentry | htext := List.mem_append.mp htext
      · exact oneLine_entryTexts .top hentries text hentry
      · obtain rfl := List.mem_singleton.mp htext
        exact without_append.mpr ⟨hhead, htype⟩

/-- Each line of a legible skeleton is one line of its output. -/
lemma Skeleton.Legible.oneLine {s : Skeleton} (h : s.Legible) : ∀ text ∈ s.texts, OneLine text := by
  induction s with
  | nil => simp [Skeleton.texts]
  | cons entry rest ih =>
      obtain ⟨name, shape⟩ := entry
      obtain ⟨hname, hshape⟩ := h (name, shape) List.mem_cons_self
      have hentry := hshape.oneLine hname
      have hrest := ih fun later hlater => h later (List.mem_cons_of_mem _ hlater)
      cases rest with
      | nil => simpa using hentry
      | cons next rest =>
          intro text htext
          rw [Skeleton.texts_cons_cons, List.mem_append, List.mem_cons] at htext
          obtain htext | rfl | htext := htext
          · exact hentry text htext
          · decide
          · exact hrest text htext

end SchemaTypes
