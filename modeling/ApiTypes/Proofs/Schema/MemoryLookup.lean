import ApiTypes.Proofs.Schema.Lookup
import ApiTypes.Proofs.Schema.Memory

/-!
# Lookups in memory

A lookup goes from place to place. At a reference it copies the node and writes the name of the
property to the index path of the copy, so the shapes in memory stay as they were, and the place at the
end holds what the lookup in the shape itself finds.
-/

namespace ApiTypes

namespace Schema

namespace Memory

variable {memory : Memory} {place : Place} {schema : Schema}

/-- Follows the segments from a place; `all` are the segments from the start, for messages. There is an
outcome unless a place holds something else than its node says. -/
def lookupFrom (all : List String) : List String → Place → Memory →
    Option (Except Error Place × Memory)
  | [], place, memory => some (.ok place, memory)
  | "" :: rest, place, memory => lookupFrom all rest place memory
  | ["properties"], _, memory => some (.error (.propertyNameMissing all), memory)
  | "properties" :: name :: rest, place, memory => do
    let node ← memory.read Cell.node? place
    match node.marks.kind with
    | .reference =>
      let (copy, memory) ← memory.clone place
      let memory ← memory.lengthen copy name
      lookupFrom all rest copy memory
    | .object =>
      let table ← memory.read Cell.table? node.properties
      match table.find? fun entry => entry.1.same (.text name) with
      | some entry => lookupFrom all rest entry.2 memory
      | none => some (.error (.unknownProperty name), memory)
    | kind => some (.error (.propertyOf name kind), memory)
  | "items" :: rest, place, memory => do
    let node ← memory.read Cell.node? place
    match node.marks.kind with
    | .reference => some (.ok memory.buildOpen.1, memory.buildOpen.2)
    | .array =>
      match node.items with
      | some item => lookupFrom all rest item memory
      | none => lookupFrom all rest memory.buildOpen.1 memory.buildOpen.2
    | kind => some (.error (.itemsOf kind), memory)
  | segment :: _, _, memory => some (.error (.unknownSegment segment all), memory)

/-- The place at the end of the segments, or the error, and the memory after the lookup. -/
def lookup (segments : List String) (place : Place) (memory : Memory) :
    Option (Except Error Place × Memory) :=
  lookupFrom segments segments place memory

/-- A property is found in memory where the shape has one of that name. -/
theorem rel_find? {holds : Place → Schema → Prop} {table : Properties}
    {entries : List (PropertyName × Place)} (hnames : entries.map (·.1) = table.map (·.1))
    (h : List.Forall₂ (fun property entry => holds entry.2 property.2) table entries)
    (name : PropertyName) :
    Option.Rel (fun entry inner => holds entry.2 inner)
      (entries.find? fun entry => entry.1.same name) (Properties.find? name table) := by
  induction h with
  | nil => exact .none
  | @cons property entry table entries hfirst _ ih =>
    have hname : entry.1 = property.1 := (List.cons.inj hnames).1
    rw [List.find?_cons, Properties.find?_cons, hname]
    cases property.1.same name with
    | true => exact .some hfirst
    | false => exact ih (List.cons.inj hnames).2

/-- The node of a shape, as a lookup reads it. -/
theorem Holds.exists_node (h : Holds memory place schema) :
    ∃ node item, memory.read Cell.node? place = some node ∧ node.marks.kind = schema.kind ∧
      node.items = item ∧ Option.Rel (Holds memory) item schema.items := by
  obtain ⟨hcontents, hitems, _⟩ := h
  obtain ⟨node, hnode, hmarks, hitem, _⟩ := contents?_eq_some.mp hcontents
  exact ⟨node, _, hnode, congrArg Marks.kind hmarks, hitem, hitems⟩

/-- The entry for a name in the table of a shape, as a lookup reads it. -/
theorem Holds.exists_entry (h : Holds memory place schema) (name : PropertyName) :
    ∃ node table entry, memory.read Cell.node? place = some node ∧
      node.marks.kind = schema.kind ∧ memory.read Cell.table? node.properties = some table ∧
      (table.find? fun entry => entry.1.same name) = entry ∧
      Option.Rel (fun entry inner => Holds memory entry.2 inner) entry
        (Properties.find? name schema.properties) := by
  obtain ⟨hcontents, _, hnames, hproperties, _⟩ := h
  obtain ⟨node, hnode, hmarks, _, _, _, htable, _⟩ := contents?_eq_some.mp hcontents
  exact ⟨node, _, _, hnode, congrArg Marks.kind hmarks, htable, rfl,
    rel_find? hnames hproperties name⟩

/-! ## Lookups -/

/-- What a lookup in memory gives for what a lookup in the shape gives: a place that holds the shape
that is found, or the same error. -/
inductive Answers (memory : Memory) : Except Error Place → Except Error Schema → Prop
  | found {place : Place} {schema : Schema} (h : Holds memory place schema) :
      Answers memory (.ok place) (.ok schema)
  | refused (error : Error) : Answers memory (.error error) (.error error)

/-- A lookup in memory leaves everything as it was, and answers as the lookup in the shape does. -/
theorem lookupFrom_of_holds (all segments : List String) (h : Holds memory place schema) :
    ∃ outcome after, lookupFrom all segments place memory = some (outcome, after) ∧
      memory <+: after ∧ Answers after outcome (Schema.lookupFrom all segments schema) := by
  -- Each case of the look-up reads one node, which the heap holds; what is built on the way is
  -- added behind.
  fun_induction Schema.lookupFrom all segments schema generalizing place memory with
  | case1 schema => exact ⟨_, _, rfl, List.prefix_rfl, .found h⟩
  | case2 schema rest ih => exact ih h
  | case3 => exact ⟨_, _, rfl, List.prefix_rfl, .refused _⟩
  | case4 name rest schema hkind ih =>
    obtain ⟨node, _, hnode, hmark, _⟩ := h.exists_node
    obtain ⟨copy, copied, lengthened, hclone, hlengthen, hkept, hcopy⟩ := exists_lengthened h name
    obtain ⟨outcome, after, hlookup, hextends, hanswers⟩ := ih hcopy
    refine ⟨outcome, after, ?_, hkept.trans hextends, hanswers⟩
    rw [lookupFrom]
    simp [hnode, hmark, hkind, hclone, hlengthen, hlookup]
  | case5 name rest schema hkind property hproperty ih =>
    obtain ⟨node, table, entry, hnode, hmark, htable, hfound, hentry⟩ := h.exists_entry (.text name)
    rw [hproperty] at hentry
    cases hentry with
    | some hheld =>
      obtain ⟨outcome, after, hlookup, hextends, hanswers⟩ := ih hheld
      refine ⟨outcome, after, ?_, hextends, hanswers⟩
      rw [lookupFrom]
      simp [hnode, hmark, hkind, htable, hfound, hlookup]
  | case6 name rest schema hkind hproperty =>
    obtain ⟨node, table, entry, hnode, hmark, htable, hfound, hentry⟩ := h.exists_entry (.text name)
    rw [hproperty] at hentry
    cases hentry with
    | none =>
      refine ⟨_, _, ?_, List.prefix_rfl, .refused _⟩
      rw [lookupFrom]
      simp [hnode, hmark, hkind, htable, hfound]
  | case7 name rest schema hreference hobject =>
    obtain ⟨node, _, hnode, hmark, _⟩ := h.exists_node
    refine ⟨_, _, ?_, List.prefix_rfl, .refused _⟩
    rw [lookupFrom]
    simp only [hnode, Option.bind_eq_bind, Option.bind_some, hmark]
  | case8 rest schema hkind =>
    obtain ⟨node, _, hnode, hmark, _⟩ := h.exists_node
    refine ⟨_, _, ?_, build_extends _, .found holds_buildOpen⟩
    rw [lookupFrom]
    simp only [hnode, Option.bind_eq_bind, Option.bind_some, hmark, hkind]
    rfl
  | case9 rest schema hkind ih =>
    obtain ⟨node, item, hnode, hmark, hitem, hitems⟩ := h.exists_node
    rw [lookupFrom]
    simp only [hnode, Option.bind_eq_bind, Option.bind_some, hmark, hkind, hitem]
    generalize schema.items = inner at hitems ih
    cases hitems with
    | none =>
      obtain ⟨outcome, after, hlookup, hextends, hanswers⟩ := ih holds_buildOpen
      exact ⟨outcome, after, hlookup, (build_extends _).trans hextends, hanswers⟩
    | some hheld => exact ih hheld
  | case10 rest schema hreference harray =>
    obtain ⟨node, _, hnode, hmark, _⟩ := h.exists_node
    refine ⟨_, _, ?_, List.prefix_rfl, .refused _⟩
    rw [lookupFrom]
    simp only [hnode, Option.bind_eq_bind, Option.bind_some, hmark]
  | case11 segment rest schema =>
    refine ⟨_, _, ?_, List.prefix_rfl, .refused _⟩
    rw [lookupFrom] <;> assumption

end Memory

open Memory (Holds Answers)

/-- A lookup may be made in two parts: if the first segments are followed and none of them asks a
reference for its items, all segments together lead where the second ones lead from the shape that the
first ones lead to. And no lookup changes a shape: in a memory where a place holds the shape, the
lookup leaves every place in use as it was, so that this one holds the shape and no other, and gives
a place that holds what is found, or the same error. -/
theorem lookup_composes (schema : Schema) :
    (∀ before after found, schema.lookup before = .ok found →
      ¬schema.AsksReferenceItems before →
        SameOutcome (schema.lookup (before ++ after)) (found.lookup after)) ∧
    ∀ memory place, Holds memory place schema → ∀ segments, ∃ outcome after,
      Memory.lookup segments place memory = some (outcome, after) ∧ memory <+: after ∧
        (∀ held, Holds after place held ↔ held = schema) ∧
          Answers after outcome (schema.lookup segments) := by
  refine ⟨fun before after found => lookup_append before after, ?_⟩
  intro memory place hheld segments
  obtain ⟨outcome, after, hlookup, hextends, hanswers⟩ :=
    Memory.lookupFrom_of_holds segments segments hheld
  have hkept := hheld.extended hextends
  refine ⟨outcome, after, hlookup, hextends, fun held => ⟨fun h => h.unique hkept, ?_⟩, hanswers⟩
  rintro rfl
  exact hkept

def petsSchema : Schema :=
  { kind := .array, items := some (reference "Pet") }

/-- A shop with an array of pets and its best pet. -/
def shopSchema : Schema :=
  { properties := [(.text "items", petsSchema), (.text "best", reference "Pet")] }

def petMemory : Place × Memory :=
  Memory.build [] ((reference "Pet").contents none [] none)

def petsMemory : Place × Memory :=
  petMemory.2.build (petsSchema.contents (some petMemory.1) [] none)

def shopMemory : Place × Memory :=
  petsMemory.2.build (shopSchema.contents none
    [(.text "items", petsMemory.1), (.text "best", petMemory.1)] none)

theorem holds_shopMemory : Holds shopMemory.2 shopMemory.1 shopSchema := by
  have hpet : Holds petMemory.2 petMemory.1 (reference "Pet") :=
    Memory.holds_build .none rfl .nil .none
  have hpets : Holds petsMemory.2 petsMemory.1 petsSchema :=
    Memory.holds_build (.some hpet) rfl .nil .none
  have hbest : Holds petsMemory.2 petMemory.1 (reference "Pet") :=
    hpet.extended (Memory.build_extends _)
  exact Memory.holds_build .none rfl (.cons hpets (.cons hbest .nil)) .none

theorem lookup_composes_shop :
    shopSchema.lookup ["properties", "items", "", "items"] = .ok (reference "Pet") ∧
      ¬shopSchema.AsksReferenceItems ["properties", "items", "", "items"] ∧
      SameOutcome (shopSchema.lookup ["properties", "items", "", "items", "properties", "items"])
        (.ok (derived "Pet" ["items"])) ∧
      SameOutcome (shopSchema.lookup ["properties", "items", "", "items", "name"])
        ((reference "Pet").lookup ["name"]) ∧
      Holds shopMemory.2 shopMemory.1 shopSchema ∧
      ∃ outcome after, Memory.lookup ["properties", "best", "properties", "items"] shopMemory.1
          shopMemory.2 = some (outcome, after) ∧ shopMemory.2 <+: after ∧
        (∀ held, Holds after shopMemory.1 held ↔ held = shopSchema) ∧
          Answers after outcome (.ok (derived "Pet" ["items"])) := by
  obtain ⟨hsuccession, hmemory⟩ := lookup_composes shopSchema
  have hfound : shopSchema.lookup ["properties", "items", "", "items"] = .ok (reference "Pet") := rfl
  have hasks : ¬shopSchema.AsksReferenceItems ["properties", "items", "", "items"] := by
    rintro ⟨before, after, node, hsplit, hlookup, hkind⟩
    have hbefore : before = ["properties"] ∨ before = ["properties", "items", ""] := by
      rcases before with _ | ⟨_, _ | ⟨_, _ | ⟨_, _ | ⟨_, _⟩⟩⟩⟩ <;> simp_all
    rcases hbefore with rfl | rfl
    · cases hlookup
    · cases hlookup
      cases hkind
  refine ⟨hfound, hasks, ?_, hsuccession _ ["name"] _ hfound hasks, holds_shopMemory, ?_⟩
  · exact hsuccession _ ["properties", "items"] _ hfound hasks
  · exact hmemory _ _ holds_shopMemory _

end Schema

end ApiTypes
