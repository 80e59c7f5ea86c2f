import ApiTypes.Proofs.Outcome
import ApiTypes.Schema.Fragment

/-!
# Building a shape, function by function

One equation for each function that goes through a fragment, so that no proof about built shapes
opens the recursion again.
-/

namespace ApiTypes

theorem mem_of_lookup {α : Type} {name : String} {value : α} {list : List (String × α)}
    (h : list.lookup name = some value) : (name, value) ∈ list := by
  rcases List.lookup_eq_some_iff.mp h with ⟨before, after, rfl, _⟩
  simp

theorem lookup_filter {α : Type} {p : String → Bool} {list : List (String × α)} {name : String}
    (h : p name = true) : (list.filter fun entry => p entry.1).lookup name = list.lookup name := by
  induction list with
  | nil => rfl
  | cons entry list ih =>
    by_cases hentry : p entry.1 = true
    · rw [List.filter_cons_of_pos (by simp [hentry]), List.lookup_cons, List.lookup_cons, ih]
    · have hne : name ≠ entry.1 := fun hsame => hentry (hsame ▸ h)
      rw [List.filter_cons_of_neg (by simp [hentry]), ih, List.lookup_cons, beq_false_of_ne hne]

theorem lookup_filter_of_not {α : Type} {p : String → Bool} {list : List (String × α)}
    {name : String} (h : p name = false) :
    (list.filter fun entry => p entry.1).lookup name = none := by
  rw [List.lookup_eq_none_iff]
  intro entry hmem
  refine bne_iff_ne.mpr fun hsame => ?_
  have hkept : p entry.1 = true := (List.mem_filter.mp hmem).2
  rw [← hsame, h] at hkept
  cases hkept

namespace Schema

variable {scope : Scope} {members : List (String × Json)}

/-- A reference is resolved, and its other members are not read. -/
theorem ofFragment_reference {target : String}
    (h : (Json.object members).reference? = some target) :
    ofFragment scope (.object members) = scope.resolve target := by
  rw [ofFragment, h]

/-- A composition is built, and its marks are put on the result. -/
theorem ofFragment_composition (href : (Json.object members).reference? = none)
    (h : Members.has members "allOf" = true) :
    ofFragment scope (.object members) = composed members <$> ofComposition scope members := by
  rw [ofFragment, href]
  exact if_pos h

theorem ofFragment_plain (href : (Json.object members).reference? = none)
    (h : Members.has members "allOf" = false) :
    ofFragment scope (.object members) = ofPlain scope members := by
  rw [ofFragment, href]
  exact if_neg (by simp [h])

/-- The three ways in which a fragment is built: it declares nothing, it is a reference, or it is an
object whose members describe the shape. -/
theorem ofFragment_cases {value : Json} {schema : Schema}
    (h : ofFragment scope value = .ok schema) :
    ((value = .null ∨ value = .bool true) ∧ schema = openObject) ∨
      ∃ members, value = .object members ∧
        ((∃ target, (Json.object members).reference? = some target ∧
            scope.resolve target = .ok schema) ∨
          ((Json.object members).reference? = none ∧
            if Members.has members "allOf" then
              ∃ whole, ofComposition scope members = .ok whole ∧ composed members whole = schema
            else ofPlain scope members = .ok schema)) := by
  unfold ofFragment at h
  split at h
  · exact .inl ⟨.inl rfl, (Except.ok.inj h).symm⟩
  · exact .inl ⟨.inr rfl, (Except.ok.inj h).symm⟩
  · rename_i members
    apply Or.inr
    refine ⟨members, rfl, ?_⟩
    split at h
    · exact .inl ⟨_, ‹_›, h⟩
    · refine .inr ⟨‹_›, ?_⟩
      by_cases hall : Members.has members "allOf" = true
      · rw [if_pos hall] at h ⊢
        exact map_eq_ok.mp h
      · rw [if_neg hall] at h ⊢
        exact h
  · cases h

/-! ## The members beside a composition -/

theorem lookup_siblings {name : String} (h : name ≠ "allOf") :
    (siblings members).lookup name = members.lookup name :=
  lookup_filter (p := fun name => name != "allOf") (bne_iff_ne.mpr h)

theorem lookup_siblings_allOf : (siblings members).lookup "allOf" = none :=
  lookup_filter_of_not (p := fun name => name != "allOf") rfl

theorem ofFragment_siblings (href : (Json.object members).reference? = none) :
    ofFragment scope (.object (siblings members)) = ofPlain scope (siblings members) := by
  apply ofFragment_plain
  · simp only [Json.reference?] at href ⊢
    rw [lookup_siblings (by decide)]
    exact href
  · rw [Members.has, lookup_siblings_allOf]
    rfl

/-! ## One equation for each function -/

/-- The composition of the branches under `allOf`. -/
def branchesShape (scope : Scope) : Option Json → Except Error Schema
  | some (.array branches) => ofBranches scope empty branches
  | other => ofNoBranches (other.getD .null)

def itemsShape (scope : Scope) : Option Json → Except Error (Option Schema)
  | none => .ok none
  | some .null => .ok none
  | some items => some <$> ofFragment scope items

theorem itemsShape_some {fragment : Json} (h : fragment ≠ .null) :
    itemsShape scope (some fragment) = some <$> ofFragment scope fragment := by
  cases fragment <;> first | rfl | exact absurd rfl h

def tableShapes (scope : Scope) (required : List String) :
    Option Json → Except Error (List (PropertyName × Schema))
  | none => .ok []
  | some (.object table) => ofProperties scope required table
  | some value => noTable value

def tableEntries : Option Json → Members
  | some (.object table) => table
  | _ => []

def propertyNames (members : Members) : List String :=
  (tableEntries (members.lookup "properties")).map (·.1)

def furtherShape (scope : Scope) : Option Json → Except Error (Option Schema)
  | some (.bool true) => .ok (some openObject)
  | some (.object fragment) => some <$> ofFragment scope (.object fragment)
  | _ => .ok none

/-- A composition merges its branches, and then its own properties if it has any. -/
theorem ofComposition_eq_ok {schema : Schema} : ofComposition scope members = .ok schema ↔
    ∃ whole, branchesShape scope (members.lookup "allOf") = .ok whole ∧
      if Members.has members "properties" then
        ∃ own, ofPlain scope (siblings members) = .ok own ∧ whole.merge own = .ok schema
      else whole = schema := by
  rw [ofComposition, bind_eq_ok]
  -- The recursion looks at the value in place, so each form that it tells apart is gone through.
  refine exists_congr fun whole => and_congr ?_ ?_
  · generalize members.lookup "allOf" = found
    rcases found with _ | _ | _ | _ | _ | _ | branches | _ <;> rfl
  · split
    · exact bind_eq_ok
    · simp

theorem ofItems_eq : ofItems scope members = itemsShape scope (members.lookup "items") := by
  rw [ofItems]
  generalize members.lookup "items" = found
  rcases found with _ | _ | _ | _ | _ | _ | _ | _ <;> rfl

/-- The three parts of a table: what is required, the properties, the shape of further ones. -/
theorem ofTable_eq_ok {table : Properties × Option Schema} :
    ofTable scope members = .ok table ↔
      ∃ required, requiredNames members = .ok required ∧
        ∃ properties, tableShapes scope required (members.lookup "properties") = .ok properties ∧
          ∃ additional,
            furtherShape scope (members.lookup "additionalProperties") = .ok additional ∧
              (Properties.ofList properties, additional) = table := by
  rw [ofTable, bind_eq_ok]
  refine exists_congr fun required => and_congr_right fun _ => ?_
  rw [bind_eq_ok]
  refine exists_congr fun properties => and_congr ?_ ?_
  · generalize members.lookup "properties" = found
    rcases found with _ | _ | _ | _ | _ | _ | _ | table <;> rfl
  · rw [bind_eq_ok]
    refine exists_congr fun additional => and_congr ?_ (by simp)
    generalize members.lookup "additionalProperties" = found
    rcases found with _ | _ | ⟨_ | _⟩ | _ | _ | _ | _ | fragment <;> rfl

/-- The plain shape that the parts of a fragment make up. -/
def plainShape (members : Members) (kind : Kind) (listed : Bool) (items : Option Schema)
    (table : Properties × Option Schema) (literals : List Json × Bool) : Schema where
  kind
  description := (Members.get members "description").orElse (.string "")
  deprecated := (Members.get members "deprecated").isTruthy
  nullable := listed || declaresNullable members || literals.2
  enumValues := literals.1
  items
  properties := table.1
  additional := table.2

/-- The parts of a plain fragment: its kind, its items, its table and its enumeration. -/
theorem ofPlain_eq_ok {schema : Schema} : ofPlain scope members = .ok schema ↔
    ∃ kind listed, Kind.ofFragment members = .ok (kind, listed) ∧
      ∃ items, (if kind = .array then ofItems scope members else .ok none) = .ok items ∧
        ∃ table, (if kind = .object then ofTable scope members else .ok ([], none)) = .ok table ∧
          ∃ literals, enumeration members = .ok literals ∧
            plainShape members kind listed items table literals = schema := by
  rw [ofPlain, bind_eq_ok, Prod.exists]
  refine exists_congr fun kind => exists_congr fun listed => and_congr_right fun _ => ?_
  refine ite_bind_eq_ok.trans (exists_congr fun items => and_congr_right fun _ => ?_)
  refine ite_bind_eq_ok.trans (exists_congr fun table => and_congr_right fun _ => ?_)
  refine bind_eq_ok.trans (exists_congr fun literals => and_congr_right fun _ => ?_)
  simp [plainShape]

theorem ofNoBranches_eq_ok {value : Json} {schema : Schema} (h : ofNoBranches value = .ok schema) :
    schema = empty := by
  rw [ofNoBranches, bind_eq_ok] at h
  rcases h with ⟨elements, _, h⟩
  cases elements with
  | nil => exact (Except.ok.inj h).symm
  | cons first rest => cases h

theorem noTable_eq_ok {value : Json} {list : List (PropertyName × Schema)}
    (h : noTable value = .ok list) : list = [] := by
  rw [noTable, bind_eq_ok] at h
  rcases h with ⟨_, _, h⟩
  exact (Except.ok.inj h).symm

/-- The properties of a table stand in its order, each built from its fragment. -/
theorem ofProperties_eq_ok {required : List String} {table : List (String × Json)}
    {properties : List (PropertyName × Schema)} :
    ofProperties scope required table = .ok properties ↔
      List.Forall₂ (fun entry property => ∃ schema, ofFragment scope entry.2 = .ok schema ∧
        property = (.text entry.1,
          { schema with required := schema.required || required.contains entry.1 }))
        table properties := by
  induction table generalizing properties with
  | nil => simp [ofProperties, eq_comm]
  | cons entry table ih =>
    rcases entry with ⟨name, fragment⟩
    rw [ofProperties]
    simp only [bind_eq_ok, pure_eq_ok, Except.ok.injEq, ih, List.forall₂_cons_left_iff]
    constructor
    · intro h
      rcases h with ⟨schema, hschema, rest, hrest, rfl⟩
      exact ⟨_, rest, ⟨schema, hschema, rfl⟩, hrest, rfl⟩
    · intro h
      rcases h with ⟨_, rest, ⟨schema, hschema, rfl⟩, hrest, rfl⟩
      exact ⟨schema, hschema, rest, hrest, rfl⟩

theorem tableShapes_of_object {required : List String} {value : Option Json}
    (h : ∀ table ∈ value, ∃ entries, table = .object entries) :
    tableShapes scope required value = ofProperties scope required (tableEntries value) := by
  cases value with
  | none => rw [tableShapes, tableEntries, ofProperties]; simp
  | some table =>
    rcases h table rfl with ⟨entries, rfl⟩
    rfl

/-- A value that is no table describes no property. -/
theorem tableShapes_eq_ok {required : List String} {value : Option Json}
    {properties : List (PropertyName × Schema)}
    (h : tableShapes scope required value = .ok properties) :
    ofProperties scope required (tableEntries value) = .ok properties := by
  unfold tableShapes at h
  -- Beside a table, only what is empty is accepted.
  split at h
  · rw [← Except.ok.inj h, tableEntries, ofProperties]
    simp
  · exact h
  · rename_i value hobject
    have hnone : tableEntries (some value) = [] := by
      cases value <;> first | rfl | exact absurd rfl (hobject _)
    rw [noTable_eq_ok h, hnone, ofProperties]

/-- The branches are built one by one and merged in their order. -/
theorem ofBranches_eq_ok {whole result : Schema} {branches : List Json} :
    ofBranches scope whole branches = .ok result ↔
      ∃ parts, List.Forall₂ (fun branch part => ofFragment scope branch = .ok part)
        branches parts ∧ parts.foldlM merge whole = .ok result := by
  induction branches generalizing whole with
  | nil => simp [ofBranches]
  | cons branch branches ih =>
    rw [ofBranches]
    simp only [bind_eq_ok, ih, List.forall₂_cons_left_iff]
    constructor
    · intro h
      rcases h with ⟨part, hpart, next, hnext, parts, hparts, hresult⟩
      refine ⟨part :: parts, ⟨part, parts, hpart, hparts, rfl⟩, ?_⟩
      rw [List.foldlM_cons, hnext]
      exact hresult
    · intro h
      rcases h with ⟨_, ⟨part, parts, hpart, hparts, rfl⟩, hresult⟩
      rw [List.foldlM_cons, bind_eq_ok] at hresult
      rcases hresult with ⟨next, hnext, hrest⟩
      exact ⟨part, hpart, next, hnext, parts, hparts, hrest⟩

/-! ## A schema that only composes -/

/-- The schema that does nothing but compose the branches. -/
def allOf (branches : List Json) : Json :=
  .object [("allOf", .array branches)]

/-- A fragment that is a composition only is the merge of its branches. -/
theorem ofFragment_allOf (branches : List Json) :
    ofFragment scope (allOf branches) = ofBranches scope empty branches := by
  have hdescription : Members.get [("allOf", .array branches)] "description" = .null := rfl
  have hnullable : declaresNullable [("allOf", .array branches)] = false := rfl
  -- Without a description and a flag of its own, the schema leaves the composition as it is.
  have hcomposed : composed [("allOf", .array branches)] = id := by
    funext whole
    cases whole
    simp only [composed, hdescription, hnullable, Bool.or_false]
    rfl
  have hbranches : ofComposition scope [("allOf", .array branches)] =
      ofBranches scope empty branches := by
    rw [ofComposition]
    exact bind_pure _
  rw [allOf, ofFragment_composition rfl rfl, hcomposed, hbranches, id_map]

end Schema

end ApiTypes
