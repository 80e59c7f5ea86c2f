import Mathlib.Data.List.Forall2
import ApiTypes.Proofs.Schema.Merge

/-!
# Shapes in memory

In memory a shape is a node with the places of its parts, and a part may belong to several nodes. What
is added to a memory changes no shape in it. A copy of a node has lists of its own, so a name that is
written to one of them is in the copy only.
-/

namespace ApiTypes

namespace Schema

/-! ## Memory -/

structure Marks where
  kind : Kind
  name : String
  description : Json
  required : Bool
  deprecated : Bool
  nullable : Bool

def marks (schema : Schema) : Marks :=
  { kind := schema.kind, name := schema.name, description := schema.description,
    required := schema.required, deprecated := schema.deprecated, nullable := schema.nullable }

abbrev Place := Nat

/-- A shape in memory. Its lists and its table have places of their own, as they can be written to. -/
structure Node where
  marks : Marks
  enumValues : Place
  items : Option Place
  properties : Place
  additional : Option Place
  heritage : Place
  indexPath : Place

inductive Cell where
  | node (value : Node)
  | literals (values : List Json)
  | table (entries : List (PropertyName × Place))
  | names (values : List String)

namespace Cell

def node? : Cell → Option Node
  | .node value => some value
  | _ => none

def literals? : Cell → Option (List Json)
  | .literals values => some values
  | _ => none

def table? : Cell → Option (List (PropertyName × Place))
  | .table entries => some entries
  | _ => none

def names? : Cell → Option (List String)
  | .names values => some values
  | _ => none

end Cell

/-- The places in use, from the first on. -/
abbrev Memory := List Cell

/-- All that a node is made of: its lists and its table themselves, and the places of the shapes inside
it. -/
structure Contents where
  marks : Marks
  enumValues : List Json
  items : Option Place
  properties : List (PropertyName × Place)
  additional : Option Place
  heritage : List String
  indexPath : List String

def contents (schema : Schema) (items : Option Place) (properties : List (PropertyName × Place))
    (additional : Option Place) : Contents :=
  { marks := schema.marks, enumValues := schema.enumValues, items, properties, additional,
    heritage := schema.heritage, indexPath := schema.indexPath }

namespace Memory

variable {memory after : Memory} {place : Place} {schema found : Schema} {contents : Contents}

/-- What is at a place, if it is of the sort that `part` takes out of a cell. -/
def read {α : Type} (memory : Memory) (part : Cell → Option α) (place : Place) : Option α :=
  memory[place]?.bind part

def contents? (memory : Memory) (place : Place) : Option Contents := do
  let node ← memory.read Cell.node? place
  let enumValues ← memory.read Cell.literals? node.enumValues
  let properties ← memory.read Cell.table? node.properties
  let heritage ← memory.read Cell.names? node.heritage
  let indexPath ← memory.read Cell.names? node.indexPath
  return {
    marks := node.marks, enumValues, items := node.items, properties,
    additional := node.additional, heritage, indexPath }

/-- A new node, with a new table and new lists, and its place. -/
def build (memory : Memory) (contents : Contents) : Place × Memory :=
  let start := memory.length
  let node : Node :=
    { marks := contents.marks, enumValues := start, items := contents.items,
      properties := start + 1, additional := contents.additional, heritage := start + 2,
      indexPath := start + 3 }
  (start + 4, memory ++ [.literals contents.enumValues, .table contents.properties,
    .names contents.heritage, .names contents.indexPath, .node node])

/-- A copy of a node with copies of its lists and of its table. The shapes inside it are shared. -/
def clone (memory : Memory) (place : Place) : Option (Place × Memory) :=
  (memory.contents? place).map memory.build

def buildOpen (memory : Memory) : Place × Memory :=
  memory.build (openObject.contents none [] none)

/-- Writes a name to the end of the index path of a node. -/
def lengthen (memory : Memory) (place : Place) (name : String) : Option Memory := do
  let node ← memory.read Cell.node? place
  let indexPath ← memory.read Cell.names? node.indexPath
  return memory.set node.indexPath (.names (indexPath ++ [name]))

/-! ## Shapes in memory -/

/-- A place holds a shape: there is a node that is made of what the shape says, and the places of the
shapes inside it hold those. -/
inductive Holds (memory : Memory) : Place → Schema → Prop
  | intro {place : Place} {schema : Schema} {items additional : Option Place}
      {properties : List (PropertyName × Place)}
      (hcontents : memory.contents? place = some (schema.contents items properties additional))
      (hitems : Option.Rel (Holds memory) items schema.items)
      (hnames : properties.map (·.1) = schema.properties.map (·.1))
      (hproperties : List.Forall₂ (fun property entry => Holds memory entry.2 property.2)
        schema.properties properties)
      (hadditional : Option.Rel (Holds memory) additional schema.additional) :
      Holds memory place schema

/-- What a memory holds is still there when it has grown. -/
theorem read_extended {α : Type} {part : Cell → Option α} {value : α} (h : memory <+: after)
    (hread : memory.read part place = some value) : after.read part place = some value := by
  obtain ⟨tail, rfl⟩ := h
  obtain ⟨cell, hcell, hpart⟩ := Option.bind_eq_some_iff.mp hread
  have hplace : place < memory.length := (List.getElem?_eq_some_iff.mp hcell).1
  rw [read, List.getElem?_append_left hplace, hcell]
  exact hpart

/-- The contents of a node are its marks and what its parts read as. -/
theorem contents?_eq_some :
    memory.contents? place = some contents ↔ ∃ node, memory.read Cell.node? place = some node ∧
      node.marks = contents.marks ∧ node.items = contents.items ∧
      node.additional = contents.additional ∧
      memory.read Cell.literals? node.enumValues = some contents.enumValues ∧
      memory.read Cell.table? node.properties = some contents.properties ∧
      memory.read Cell.names? node.heritage = some contents.heritage ∧
      memory.read Cell.names? node.indexPath = some contents.indexPath := by
  obtain ⟨marks, values, items, table, additional, heritage, path⟩ := contents
  simp only [contents?, Option.bind_eq_bind, Option.bind_eq_some_iff, Option.pure_def,
    Option.some.injEq, Contents.mk.injEq]
  constructor
  · rintro ⟨node, hnode, _, hvalues, _, htable, _, hheritage, _, hpath, rfl, rfl, rfl, rfl, rfl,
      rfl, rfl⟩
    exact ⟨node, hnode, rfl, rfl, rfl, hvalues, htable, hheritage, hpath⟩
  · rintro ⟨node, hnode, rfl, rfl, rfl, hvalues, htable, hheritage, hpath⟩
    exact ⟨node, hnode, _, hvalues, _, htable, _, hheritage, _, hpath, rfl, rfl, rfl, rfl, rfl, rfl,
      rfl⟩

theorem contents?_extended (h : memory <+: after)
    (hcontents : memory.contents? place = some contents) :
    after.contents? place = some contents := by
  obtain ⟨node, hnode, hmarks, hitems, hadditional, hvalues, htable, hheritage, hpath⟩ :=
    contents?_eq_some.mp hcontents
  exact contents?_eq_some.mpr ⟨node, read_extended h hnode, hmarks, hitems, hadditional,
    read_extended h hvalues, read_extended h htable, read_extended h hheritage,
    read_extended h hpath⟩

theorem rel_imp {holds other : Place → Schema → Prop} {part : Option Place} {inner : Option Schema}
    (hinner : ∀ schema ∈ inner, ∀ place, holds place schema → other place schema)
    (h : Option.Rel holds part inner) : Option.Rel other part inner := by
  cases h with
  | none => exact .none
  | some h => exact .some (hinner _ rfl _ h)

/-- What is added to a memory does not change what its places hold. -/
theorem Holds.extended (hextends : memory <+: after) (h : Holds memory place schema) :
    Holds after place schema := by
  induction schema using Schema.induct generalizing place with
  | step schema ihItems ihProperties ihAdditional =>
    obtain ⟨hcontents, hitems, hnames, hproperties, hadditional⟩ := h
    have hentries := (List.forall₂_and_left _ _).mpr ⟨ihProperties, hproperties⟩
    exact .intro (contents?_extended hextends hcontents)
      (rel_imp (fun item hmem _ => ihItems item hmem) hitems) hnames
      (hentries.imp fun _ _ ⟨hkept, h⟩ => hkept h)
      (rel_imp (fun rest hmem _ => ihAdditional rest hmem) hadditional)

/-- A part of a node holds one shape at most, if each inner place does. -/
theorem rel_unique {holds : Place → Schema → Prop} {part : Option Place}
    {first second : Option Schema} (hfirst : Option.Rel holds part first)
    (hsecond : Option.Rel holds part second)
    (hunique : ∀ schema ∈ first, ∀ place other, holds place schema → holds place other →
      schema = other) : first = second := by
  cases hfirst with
  | none =>
    cases hsecond
    rfl
  | some hfirst =>
    rcases hsecond with hsecond | _
    rw [hunique _ rfl _ _ hfirst hsecond]

theorem table_unique {holds : Place → Schema → Prop} {first second : Properties}
    {entries : List (PropertyName × Place)}
    (hnames : first.map (·.1) = second.map (·.1))
    (hfirst : List.Forall₂ (fun property entry => holds entry.2 property.2) first entries)
    (hsecond : List.Forall₂ (fun property entry => holds entry.2 property.2) second entries)
    (hunique : ∀ property ∈ first, ∀ place other, holds place property.2 → holds place other →
      property.2 = other) : first = second := by
  induction hfirst generalizing second with
  | nil =>
    cases hsecond
    rfl
  | cons hheld _ ih =>
    obtain _ | ⟨hother, hrest⟩ := hsecond
    obtain ⟨hkept, hinner⟩ := List.forall_mem_cons.mp hunique
    obtain ⟨hname, hnames⟩ := List.cons.inj hnames
    rw [Prod.ext hname (hkept _ _ hheld hother), ih hnames hrest hinner]

/-- A place holds one shape at most. -/
theorem Holds.unique (h : Holds memory place schema) (hother : Holds memory place found) :
    schema = found := by
  induction schema using Schema.induct generalizing place found with
  | step schema ihItems ihProperties ihAdditional =>
    obtain ⟨hcontents, hitems, hnames, hproperties, hadditional⟩ := h
    obtain ⟨hsame, hitemsOther, hnamesOther, hpropertiesOther, hadditionalOther⟩ := hother
    obtain ⟨hmarks, hvalues, rfl, rfl, rfl, hheritage, hpath⟩ :=
      Contents.mk.inj (Option.some.inj (hcontents.symm.trans hsame))
    have hitem := rel_unique hitems hitemsOther fun item hmem _ _ => ihItems item hmem
    have htable := table_unique (hnames.symm.trans hnamesOther) hproperties hpropertiesOther
      fun property hmem _ _ => ihProperties property hmem
    have hrest := rel_unique hadditional hadditionalOther fun rest hmem _ _ => ihAdditional rest hmem
    obtain ⟨hkind, hname, hdescription, hrequired, hdeprecated, hnullable⟩ := Marks.mk.inj hmarks
    obtain ⟨_⟩ := schema
    obtain ⟨_⟩ := found
    simp_all

/-! ## New nodes -/

/-- Building a shape only adds cells. -/
theorem build_extends (contents : Contents) : memory <+: (memory.build contents).2 :=
  List.prefix_append _ _

theorem contents?_build (contents : Contents) :
    (memory.build contents).2.contents? (memory.build contents).1 = some contents := by
  simp [build, contents?, read, Cell.node?, Cell.literals?, Cell.table?, Cell.names?]

/-- A name that is written to the index path of a new node might have been there from the start. -/
theorem lengthen_build (contents : Contents) (name : String) :
    (memory.build contents).2.lengthen (memory.build contents).1 name =
      some (memory.build { contents with indexPath := contents.indexPath ++ [name] }).2 := by
  simp [build, lengthen, read, Cell.node?, Cell.names?, List.set_append_right]

/-- A new node holds the shape that it is made of. -/
theorem holds_build {items additional : Option Place} {properties : List (PropertyName × Place)}
    (hitems : Option.Rel (Holds memory) items schema.items)
    (hnames : properties.map (·.1) = schema.properties.map (·.1))
    (hproperties : List.Forall₂ (fun property entry => Holds memory entry.2 property.2)
      schema.properties properties)
    (hadditional : Option.Rel (Holds memory) additional schema.additional) :
    Holds (memory.build (schema.contents items properties additional)).2
      (memory.build (schema.contents items properties additional)).1 schema := by
  have hkept : ∀ {place inner}, Holds memory place inner →
      Holds (memory.build (schema.contents items properties additional)).2 place inner :=
    Holds.extended (build_extends _)
  exact .intro (contents?_build _) (rel_imp (fun _ _ _ => hkept) hitems) hnames
    (hproperties.imp fun _ _ => hkept) (rel_imp (fun _ _ _ => hkept) hadditional)

theorem holds_buildOpen : Holds memory.buildOpen.2 memory.buildOpen.1 openObject :=
  holds_build .none rfl .nil .none

/-- The step through a reference: the copy holds the reference with a longer path, and what was in
memory is there as before. -/
theorem exists_lengthened (h : Holds memory place schema) (name : String) :
    ∃ copy copied after, memory.clone place = some (copy, copied) ∧
      copied.lengthen copy name = some after ∧ memory <+: after ∧
      Holds after copy { schema with indexPath := schema.indexPath ++ [name] } := by
  obtain @⟨_, _, items, additional, table, hcontents, hitems, hnames, hproperties, hadditional⟩ := h
  have hclone : memory.clone place =
      some (memory.build (schema.contents items table additional)) := by
    rw [clone, hcontents]
    rfl
  have hcopy := @holds_build memory { schema with indexPath := schema.indexPath ++ [name] } items
    additional table hitems hnames hproperties hadditional
  exact ⟨_, _, _, hclone, lengthen_build _ name, build_extends _, hcopy⟩

end Memory

end Schema

end ApiTypes
