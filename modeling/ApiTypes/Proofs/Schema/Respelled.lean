import ApiTypes.Proofs.Schema.Within

/-!
# References in another spelling

A fragment in which the targets of all references are spelled anew is built to the same shape, in a
scope where each new target stands for what the old one stood for. Nothing else of a scope plays a
part in building a fragment.
-/

namespace ApiTypes

/-- The members with their values changed one by one; a value may be changed by its name. -/
def Members.mapValues (f : String → Json → Json) (members : Members) : Members :=
  members.map fun member => (member.1, f member.1 member.2)

theorem Members.lookup_mapValues (f : String → Json → Json) (members : Members) (name : String) :
    (Members.mapValues f members).lookup name = (members.lookup name).map (f name) := by
  unfold mapValues
  induction members with
  | nil => rfl
  | cons member members ih =>
    rw [List.map_cons, List.lookup_cons, List.lookup_cons, ih]
    cases hname : name == member.1 with
    | true => rw [beq_iff_eq.mp hname]; rfl
    | false => rfl

theorem Members.get_mapValues {f : String → Json → Json} {members : Members} {name : String}
    (h : f name .null = .null) :
    Members.get (Members.mapValues f members) name = f name (Members.get members name) := by
  rw [Members.get, Members.get, lookup_mapValues]
  cases members.lookup name with
  | none => exact h.symm
  | some value => rfl

namespace Fragment

mutual

/-- A fragment with the targets of its references, and of those inside it, in another spelling. -/
def respelled (spell : String → String) : Json → Json
  | .object members => .object (respelledMembers spell members)
  | value => value

def respelledMembers (spell : String → String) : List (String × Json) → List (String × Json)
  | [] => []
  | (name, value) :: rest =>
    (name, respelledMember spell name value) :: respelledMembers spell rest

/-- The value of a member of that name. Only the members that hold fragments are gone into. -/
def respelledMember (spell : String → String) (name : String) : Json → Json
  | .string target => .string (if name = "$ref" then spell target else target)
  | .array branches => .array (if name = "allOf" then respelledList spell branches else branches)
  | .object members =>
    if name = "properties" then .object (respelledTable spell members)
    else if name = "items" ∨ name = "additionalProperties" then
      .object (respelledMembers spell members)
    else .object members
  | value => value

def respelledList (spell : String → String) : List Json → List Json
  | [] => []
  | fragment :: rest => respelled spell fragment :: respelledList spell rest

def respelledTable (spell : String → String) : List (String × Json) → List (String × Json)
  | [] => []
  | (name, fragment) :: rest => (name, respelled spell fragment) :: respelledTable spell rest

end

variable {spell : String → String}

theorem respelledList_eq (fragments : List Json) :
    respelledList spell fragments = fragments.map (respelled spell) := by
  induction fragments with
  | nil => rfl
  | cons fragment rest ih => rw [respelledList, ih, List.map_cons]

theorem respelledTable_eq (table : Members) :
    respelledTable spell table = Members.mapValues (fun _ => respelled spell) table := by
  induction table with
  | nil => rfl
  | cons entry rest ih => rw [respelledTable, ih, Members.mapValues, Members.mapValues, List.map_cons]

theorem respelledMembers_eq (members : Members) :
    respelledMembers spell members = Members.mapValues (respelledMember spell) members := by
  induction members with
  | nil => rfl
  | cons member rest ih =>
    rw [respelledMembers, ih, Members.mapValues, Members.mapValues, List.map_cons]

theorem lookup_respelledMembers (members : Members) (name : String) :
    (respelledMembers spell members).lookup name =
      (members.lookup name).map (respelledMember spell name) := by
  rw [respelledMembers_eq, Members.lookup_mapValues]

mutual

/-- Spelled as they are, the targets leave a fragment as it is. -/
theorem respelled_id : ∀ fragment, respelled id fragment = fragment
  | .object members => by rw [respelled, respelledMembers_id members]
  | .null | .bool _ | .int _ | .double _ | .string _ | .array _ => rfl

theorem respelledMembers_id : ∀ members, respelledMembers id members = members
  | [] => rfl
  | (name, value) :: rest => by
    rw [respelledMembers, respelledMember_id name value, respelledMembers_id rest]

theorem respelledMember_id (name : String) : ∀ value, respelledMember id name value = value
  | .array branches => by simp [respelledMember, respelledList_id branches]
  | .object members => by
    simp [respelledMember, respelledTable_id members, respelledMembers_id members]
  | .null | .bool _ | .int _ | .double _ | .string _ => by simp [respelledMember]

theorem respelledList_id : ∀ fragments, respelledList id fragments = fragments
  | [] => rfl
  | fragment :: rest => by rw [respelledList, respelled_id fragment, respelledList_id rest]

theorem respelledTable_id : ∀ table, respelledTable id table = table
  | [] => rfl
  | (name, fragment) :: rest => by
    rw [respelledTable, respelled_id fragment, respelledTable_id rest]

end

/-! ## What is left as it is -/

/-- The names of the members with a reference or with fragments. -/
def respelledNames : List String :=
  ["$ref", "properties", "items", "additionalProperties", "allOf"]

theorem respelledMember_of_not_mem {name : String} (h : name ∉ respelledNames) (value : Json) :
    respelledMember spell name value = value := by
  simp only [respelledNames, List.mem_cons, List.not_mem_nil, or_false, not_or] at h
  obtain ⟨href, hproperties, hitems, hadditional, hall⟩ := h
  cases value <;> simp [respelledMember, href, hproperties, hitems, hadditional, hall]

/-- Only the members that hold fragments or a reference are respelled. -/
theorem get_respelledMembers (members : Members) {name : String} (h : name ∉ respelledNames) :
    Members.get (respelledMembers spell members) name = Members.get members name := by
  rw [Members.get, lookup_respelledMembers]
  cases hfound : members.lookup name with
  | none => simp [Members.get, hfound]
  | some value => simp [Members.get, hfound, respelledMember_of_not_mem h]

theorem has_respelledMembers (members : Members) (name : String) :
    Members.has (respelledMembers spell members) name = Members.has members name := by
  rw [Members.has, lookup_respelledMembers, Option.isSome_map, Members.has]

theorem reference?_respelledMembers (spell : String → String) (members : Members) :
    (Json.object (respelledMembers spell members)).reference? =
      (Json.object members).reference?.map spell := by
  simp only [Json.reference?, lookup_respelledMembers]
  cases members.lookup "$ref" with
  | none => rfl
  | some value => cases value <;> simp [respelledMember]

theorem siblings_respelledMembers (members : Members) :
    Schema.siblings (respelledMembers spell members) =
      respelledMembers spell (Schema.siblings members) := by
  rw [respelledMembers_eq, respelledMembers_eq, Schema.siblings, Schema.siblings,
    Members.mapValues, Members.mapValues, List.filter_map]
  rfl

theorem kind_respelledMembers (members : Members) :
    Kind.ofFragment (respelledMembers spell members) = Kind.ofFragment members := by
  have htype : Members.get (respelledMembers spell members) "type" = Members.get members "type" :=
    get_respelledMembers members (by decide)
  have henum : Members.get (respelledMembers spell members) "enum" = Members.get members "enum" :=
    get_respelledMembers members (by decide)
  simp only [Kind.ofFragment, Kind.typeTag, Kind.untagged, htype, henum]

theorem enumeration_respelledMembers (members : Members) :
    Schema.enumeration (respelledMembers spell members) = Schema.enumeration members := by
  have henum : Members.get (respelledMembers spell members) "enum" = Members.get members "enum" :=
    get_respelledMembers members (by decide)
  simp only [Schema.enumeration, henum]

theorem requiredNames_respelledMembers (members : Members) :
    Schema.requiredNames (respelledMembers spell members) = Schema.requiredNames members := by
  have hrequired : Members.get (respelledMembers spell members) "required" =
      Members.get members "required" :=
    get_respelledMembers members (by decide)
  simp only [Schema.requiredNames, hrequired]

theorem declaresNullable_respelledMembers (members : Members) :
    Schema.declaresNullable (respelledMembers spell members) = Schema.declaresNullable members := by
  have hnullable : Members.get (respelledMembers spell members) "nullable" =
      Members.get members "nullable" :=
    get_respelledMembers members (by decide)
  have hextension : Members.get (respelledMembers spell members) "x-nullable" =
      Members.get members "x-nullable" :=
    get_respelledMembers members (by decide)
  simp only [Schema.declaresNullable, hnullable, hextension]

theorem composed_respelledMembers (members : Members) :
    Schema.composed (respelledMembers spell members) = Schema.composed members := by
  have hdescription : Members.get (respelledMembers spell members) "description" =
      Members.get members "description" :=
    get_respelledMembers members (by decide)
  funext whole
  simp only [Schema.composed, hdescription, declaresNullable_respelledMembers]

/-- The marks of a fragment are not among those members. -/
theorem plainShape_respelledMembers (members : Members) :
    Schema.plainShape (respelledMembers spell members) = Schema.plainShape members := by
  have hdescription : Members.get (respelledMembers spell members) "description" =
      Members.get members "description" :=
    get_respelledMembers members (by decide)
  have hdeprecated : Members.get (respelledMembers spell members) "deprecated" =
      Members.get members "deprecated" :=
    get_respelledMembers members (by decide)
  funext kind listed items table literals
  simp only [Schema.plainShape, hdescription, hdeprecated, declaresNullable_respelledMembers]

end Fragment

/-! ## What is built -/

namespace Schema

open Fragment

variable {scope other : Scope} {spell : String → String} {members : Members}

section Parts

variable (ih : ∀ inner, Child inner (.object members) → ∀ schema,
  ofFragment other (respelled spell inner) = .ok schema ↔ ofFragment scope inner = .ok schema)
include ih

theorem ofItems_respelled (items : Option Schema) :
    ofItems other (respelledMembers spell members) = .ok items ↔
      ofItems scope members = .ok items := by
  rw [ofItems_eq, ofItems_eq, lookup_respelledMembers]
  cases hfound : members.lookup "items" with
  | none => rfl
  | some fragment =>
    have hsame : respelledMember spell "items" fragment = respelled spell fragment := by
      cases fragment <;> simp [respelledMember, respelled]
    rw [Option.map_some, hsame]
    -- Items that are null count as missing.
    by_cases hnull : fragment = .null
    · subst hnull
      rw [respelled]
      · rfl
      · simp
    · have hother : respelled spell fragment ≠ .null := by
        cases fragment <;> simp_all [respelled]
      rw [itemsShape_some hnull, itemsShape_some hother, map_eq_ok, map_eq_ok]
      exact exists_congr fun schema => and_congr_left fun _ => ih fragment (.item hfound) schema

theorem tableShapes_respelled (required : List String) (properties : List (PropertyName × Schema)) :
    tableShapes other required ((respelledMembers spell members).lookup "properties") =
        .ok properties ↔
      tableShapes scope required (members.lookup "properties") = .ok properties := by
  rw [lookup_respelledMembers]
  cases hfound : members.lookup "properties" with
  | none => rfl
  | some value =>
    cases value with
    | object table =>
      rw [Option.map_some, respelledMember, if_pos rfl, tableShapes, tableShapes, ofProperties_eq_ok,
        ofProperties_eq_ok, respelledTable_eq, Members.mapValues, List.forall₂_map_left_iff]
      refine forall₂_congr_of_mem fun entry hentry property => exists_congr fun schema => ?_
      exact and_congr_left fun _ => ih entry.2 (.property hfound hentry) schema
    | _ => simp [respelledMember, tableShapes]

theorem furtherShape_respelled (additional : Option Schema) :
    furtherShape other ((respelledMembers spell members).lookup "additionalProperties") =
        .ok additional ↔
      furtherShape scope (members.lookup "additionalProperties") = .ok additional := by
  rw [lookup_respelledMembers]
  cases hfound : members.lookup "additionalProperties" with
  | none => rfl
  | some value =>
    -- Only an object is a fragment and respelled as one.
    cases value with
    | object fragment =>
      have hsame : respelledMember spell "additionalProperties" (.object fragment) =
          respelled spell (.object fragment) := by
        simp [respelledMember, respelled]
      rw [Option.map_some, hsame, respelled, furtherShape, furtherShape, map_eq_ok, map_eq_ok,
        ← respelled]
      exact exists_congr fun schema => and_congr_left fun _ => ih _ (.further hfound) schema
    | bool b => cases b <;> simp [respelledMember, furtherShape]
    | _ => simp [respelledMember, furtherShape]

theorem branchesShape_respelled (whole : Schema) :
    branchesShape other ((respelledMembers spell members).lookup "allOf") = .ok whole ↔
      branchesShape scope (members.lookup "allOf") = .ok whole := by
  rw [lookup_respelledMembers]
  cases hfound : members.lookup "allOf" with
  | none => rfl
  | some value =>
    cases value with
    | array branches =>
      rw [Option.map_some, respelledMember, if_pos rfl, branchesShape, branchesShape,
        ofBranches_eq_ok, ofBranches_eq_ok, respelledList_eq]
      refine exists_congr fun parts => and_congr_left fun _ => ?_
      rw [List.forall₂_map_left_iff]
      exact forall₂_congr_of_mem fun branch hbranch part => ih branch (.branch hfound hbranch) part
    | _ => simp [respelledMember, branchesShape]

theorem ofTable_respelled (table : Properties × Option Schema) :
    ofTable other (respelledMembers spell members) = .ok table ↔ ofTable scope members = .ok table := by
  simp only [ofTable_eq_ok, requiredNames_respelledMembers, tableShapes_respelled ih,
    furtherShape_respelled ih]

/-- A plain fragment describes the same shape when it is respelled, if its parts do. -/
theorem ofPlain_respelled (schema : Schema) :
    ofPlain other (respelledMembers spell members) = .ok schema ↔
      ofPlain scope members = .ok schema := by
  rw [ofPlain_eq_ok, ofPlain_eq_ok, kind_respelledMembers, enumeration_respelledMembers,
    plainShape_respelledMembers]
  refine exists_congr fun kind => exists_congr fun listed => and_congr_right fun _ =>
    exists_congr fun items => and_congr ?_ (exists_congr fun table => and_congr_left fun _ => ?_)
  · split
    · exact ofItems_respelled ih items
    · rfl
  · split
    · exact ofTable_respelled ih table
    · rfl

theorem ofComposition_respelled (href : (Json.object members).reference? = none)
    (hall : Members.has members "allOf" = true) (schema : Schema) :
    ofComposition other (respelledMembers spell members) = .ok schema ↔
      ofComposition scope members = .ok schema := by
  have hreference := reference?_respelledMembers spell members
  rw [href, Option.map_none] at hreference
  -- The induction is over fragments, so what stands beside the branches is taken as one.
  have hbeside : ∀ own, ofPlain other (siblings (respelledMembers spell members)) = .ok own ↔
      ofPlain scope (siblings members) = .ok own := by
    intro own
    rw [← ofFragment_siblings hreference, ← ofFragment_siblings href, siblings_respelledMembers,
      ← respelled]
    exact ih _ (.beside hall) own
  simp only [ofComposition_eq_ok, branchesShape_respelled ih, has_respelledMembers, hbeside]

end Parts

/-- A fragment in another spelling is built to the same shape. -/
theorem ofFragment_respelled (fragment : Json)
    (hresolve : ∀ inner, Within inner fragment → ∀ target, inner.reference? = some target →
      ∀ schema, other.resolve (spell target) = .ok schema ↔ scope.resolve target = .ok schema)
    (schema : Schema) :
    ofFragment other (respelled spell fragment) = .ok schema ↔
      ofFragment scope fragment = .ok schema := by
  -- The induction is along the building; only a reference asks the scope for anything.
  induction fragment using Fragment.induct generalizing schema with
  | step fragment ih =>
    cases fragment with
    | object members =>
      have hinside : ∀ inner, Child inner (.object members) → ∀ schema,
          ofFragment other (respelled spell inner) = .ok schema ↔
            ofFragment scope inner = .ok schema := fun inner hchild schema =>
        ih inner hchild
          (fun deeper hdeeper => hresolve deeper (hdeeper.trans (Within.refl _ |>.child hchild)))
          schema
      rw [respelled]
      have hreference := reference?_respelledMembers spell members
      cases htarget : (Json.object members).reference? with
      | some target =>
        rw [htarget, Option.map_some] at hreference
        rw [ofFragment_reference hreference, ofFragment_reference htarget]
        exact hresolve _ (Within.refl _) target htarget schema
      | none =>
        rw [htarget, Option.map_none] at hreference
        cases hall : Members.has members "allOf" with
        | false =>
          rw [ofFragment_plain hreference ((has_respelledMembers members _).trans hall),
            ofFragment_plain htarget hall]
          exact ofPlain_respelled hinside schema
        | true =>
          rw [ofFragment_composition hreference ((has_respelledMembers members _).trans hall),
            ofFragment_composition htarget hall, composed_respelledMembers, map_eq_ok, map_eq_ok]
          refine exists_congr fun whole => and_congr_left fun _ => ?_
          exact ofComposition_respelled hinside htarget hall whole
    | bool b => cases b <;> simp [respelled, ofFragment]
    | _ => simp [respelled, ofFragment]

end Schema

end ApiTypes
