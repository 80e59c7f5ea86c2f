import ApiTypes.Proofs.Locality
import ApiTypes.Proofs.Text.Pointer

/-!
# References to shared objects

A reference to a shared object is looked up once, under the name that follows its root as it is
written. The escapes of that name are not read, as they are in a reference to a definition, and a
shared object that is a reference itself is not looked up in turn.
-/

namespace ApiTypes

/-! ## Names -/

/-- What follows the root of a reference is a name in the section of the root. -/
theorem Document.lookupShared_eq_some {document : Document} {root name : String}
    {table members : Members} (h : document.sharedSection root = .object table) :
    document.lookupShared (root ++ name) (some root) = some members ↔
      table.lookup name = some (.object members) := by
  rw [sharedSection] at h
  simp only [lookupShared, Text.after?_append, Option.bind_eq_bind, Option.bind_some, h,
    Members.get]
  cases table.lookup name with
  | none => simp
  | some value => cases value <;> simp

/-- A name written as a segment refers to the definition of that name. -/
theorem Scope.resolve_encodeSegment (scope : Scope) {kept : Char → Bool} (hkept : kept '%' = false)
    {name : String} (hname : name ∈ scope.names) :
    scope.resolve (scope.dialect.definitionsRoot ++
      String.ofList (Text.encodeSegment kept name.toList)) = .ok (.reference name) := by
  simp only [resolve, Text.after?_append, Text.pointerSegments_encodeSegment hkept, if_pos hname]
  rfl

/-- A name written as a segment is read as that name and refers to its definition. A shared object is
found by it if and only if its characters are all written as themselves, or if the section has the
same object under the segment. -/
theorem Document.lookupShared_encodeSegment {document : Document} {root name : String}
    {table members : Members} {kept : Char → Bool} (hkept : kept '%' = false)
    (hsection : document.sharedSection root = .object table)
    (hentry : table.lookup name = some (.object members)) :
    Text.pointerSegments (String.ofList (Text.encodeSegment kept name.toList)) = [name] ∧
    (∀ scope : Scope, scope.document = document → name ∈ scope.names →
      scope.resolve (document.dialect.definitionsRoot ++
        String.ofList (Text.encodeSegment kept name.toList)) = .ok (.reference name)) ∧
    document.lookupShared (root ++ name) (some root) = some members ∧
    (document.lookupShared (root ++ String.ofList (Text.encodeSegment kept name.toList))
        (some root) = some members ↔
      (∀ c ∈ name.toList, Text.isPlain kept c = true) ∨
        table.lookup (String.ofList (Text.encodeSegment kept name.toList)) =
          some (.object members)) := by
  refine ⟨Text.pointerSegments_encodeSegment hkept name, ?_,
    (lookupShared_eq_some hsection).mpr hentry, ?_⟩
  · rintro scope rfl hname
    exact scope.resolve_encodeSegment hkept hname
  · -- The tail is the key as it stands, so it must spell the name or be a name itself.
    rw [lookupShared_eq_some hsection]
    constructor
    · exact .inr
    · rintro (hplain | hsame)
      · rw [(Text.encodeSegment_eq_iff kept _).mpr hplain, String.ofList_toList]
        exact hentry
      · exact hsame

/-- The characters that are never escaped in references. -/
def Text.isUnreserved (c : Char) : Bool :=
  c.isAlphanum || ['-', '.', '_', '~'].contains c

def sharing (definitions parameters responses : Members) : Document where
  dialect := .swagger2
  members := [("definitions", .object definitions), ("parameters", .object parameters),
    ("responses", .object responses)]

section Sharing

variable (definitions parameters responses : Members)

theorem sharing_parameters :
    (sharing definitions parameters responses).sharedSection "#/parameters/" =
      .object parameters := by
  have hroot : Document.rootSegments "#/parameters/" = ["parameters"] := by decide +kernel
  rw [Document.sharedSection, hroot]
  rfl

theorem sharing_responses :
    (sharing definitions parameters responses).sharedSection "#/responses/" =
      .object responses := by
  have hroot : Document.rootSegments "#/responses/" = ["responses"] := by decide +kernel
  rw [Document.sharedSection, hroot]
  rfl

end Sharing

def limitParameter : Members :=
  [("name", .string "limit"), ("in", .string "query"), ("type", .string "integer")]

/-- The theorem at a name with a slash and a letter above ASCII. -/
theorem Document.lookupShared_encodeSegment_slash :
    let document := sharing [("a/ö", .object [])] [("a/ö", .object limitParameter)] []
    Text.encodeSegment Text.isUnreserved "a/ö".toList = "a~1%C3%B6".toList ∧
    Text.pointerSegments "a~1%C3%B6" = ["a/ö"] ∧
    (⟨document, ["a/ö"]⟩ : Scope).resolve "#/definitions/a~1%C3%B6" = .ok (.reference "a/ö") ∧
    document.lookupShared "#/parameters/a/ö" (some "#/parameters/") = some limitParameter ∧
    document.lookupShared "#/parameters/a~1%C3%B6" (some "#/parameters/") ≠
      some limitParameter := by
  intro document
  have hsegment : Text.encodeSegment Text.isUnreserved "a/ö".toList = "a~1%C3%B6".toList := by
    decide +kernel
  have hsection : document.sharedSection "#/parameters/" =
      .object [("a/ö", .object limitParameter)] := sharing_parameters _ _ _
  have hentry : List.lookup "a/ö" [("a/ö", Json.object limitParameter)] =
      some (.object limitParameter) := rfl
  have hpercent : Text.isUnreserved '%' = false := by decide
  obtain ⟨hread, hresolve, hfound, hescaped⟩ :=
    lookupShared_encodeSegment hpercent hsection hentry
  rw [hsegment] at hread hresolve hescaped
  refine ⟨hsegment, hread, hresolve ⟨document, ["a/ö"]⟩ rfl List.mem_cons_self, hfound, ?_⟩
  intro h
  rcases hescaped.mp h with hplain | hother
  · exact absurd (hplain '/' (by simp)) (by decide)
  · rw [String.ofList_toList] at hother
    simp [List.lookup_cons] at hother

/-- A shared parameter is not found by its name with the slash escaped. -/
theorem Document.not_lookupShared_of_slash :
    let document := sharing [] [("a/b", .object limitParameter)] []
    document.sharedSection "#/parameters/" = .object [("a/b", .object limitParameter)] ∧
    Text.encodeSegment Text.isUnreserved "a/b".toList = "a~1b".toList ∧
    document.lookupShared "#/parameters/a~1b" (some "#/parameters/") = none := by
  refine ⟨sharing_parameters _ _ _, by decide +kernel, ?_⟩
  exact Option.isNone_iff_eq_none.mp (by decide +kernel)

/-! ## Chains -/

/-- The entries that the references from a target on lead to, one after the other. Each is a
reference to the next, and the last one is no reference. -/
inductive ReferenceChain (find : String → Option Members) : String → List Members → Prop
  | last {target : String} {entry : Members} (hfound : find target = some entry)
      (hend : (Json.object entry).reference? = none) : ReferenceChain find target [entry]
  | step {target next : String} {entry : Members} {rest : List Members}
      (hfound : find target = some entry) (hnext : (Json.object entry).reference? = some next)
      (hrest : ReferenceChain find next rest) : ReferenceChain find target (entry :: rest)

namespace ReferenceChain

variable {find : String → Option Members} {target : String} {entry : Members} {rest : List Members}

theorem found (h : ReferenceChain find target (entry :: rest)) : find target = some entry := by
  cases h <;> assumption

theorem reference?_eq_none (h : ReferenceChain find target [entry]) :
    (Json.object entry).reference? = none := by
  cases h with
  | last _ hend => exact hend
  | step _ _ hrest => cases hrest

end ReferenceChain

def withoutReference (members : Members) : Members :=
  members.filter fun member => member.1 != "$ref"

theorem lookup_withoutReference (members : Members) {name : String} (h : name ≠ "$ref") :
    (withoutReference members).lookup name = members.lookup name :=
  lookup_filter (p := fun name => name != "$ref") (bne_iff_ne.mpr h)

theorem reference?_withoutReference (members : Members) :
    (Json.object (withoutReference members)).reference? = none := by
  have hnone : (withoutReference members).lookup "$ref" = none :=
    lookup_filter_of_not (p := fun name => name != "$ref") rfl
  rw [Json.reference?, hnone]

/-! ## Responses and request bodies -/

namespace Schema

variable {scope : Scope}

theorem contentSchema_withoutReference (dialect : Dialect) (members : Members) :
    contentSchema dialect (withoutReference members) = contentSchema dialect members := by
  have hschema : (withoutReference members).lookup "schema" = members.lookup "schema" :=
    lookup_withoutReference members (by decide)
  have hcontent : (withoutReference members).lookup "content" = members.lookup "content" :=
    lookup_withoutReference members (by decide)
  cases dialect <;> simp only [contentSchema, Members.get, hschema, hcontent]

theorem ofContent_of_members {raw : Json} {members : Members}
    (h : contentMembers scope raw = .ok members) :
    ofContent scope raw = ofContent scope (.object (withoutReference members)) := by
  have hinline : contentMembers scope (.object (withoutReference members)) =
      .ok (withoutReference members) := by
    rw [contentMembers, reference?_withoutReference]
    rfl
  simp only [ofContent, h, hinline, ok_bind, contentSchema_withoutReference]

theorem ofContent_nil : ofContent scope (.object []) = .ok .empty := by
  cases hdialect : scope.dialect <;>
    simp [ofContent, contentMembers, Json.reference?, Json.members, contentSchema, hdialect,
      Members.get, Json.orElse, Json.isTruthy, Json.isNull, jsonMedia?]

end Schema

/-! ## Parameters -/

/-- The members of a parameter that do not describe its value. -/
def placing : List String := ["name", "in", "$ref"]

/-- The inline parameter that has its place from one object and is described by another one. -/
def placedParameter (placed described : Members) : Members :=
  ("name", Members.get placed "name") :: ("in", Members.get placed "in") ::
    described.filter fun member => !placing.contains member.1

namespace Schema

variable {scope : Scope}

/-- What a parameter describes depends on a few of its members, and on the schema written among
them. -/
theorem ofParameter_congr {raw other : Json} {members described : Members}
    (hraw : parameterMembers scope raw = .ok members)
    (hother : parameterMembers scope other = .ok described)
    (hlookup : ∀ name ∈ ["schema", "content", "required", "description", "deprecated"],
      described.lookup name = members.lookup name)
    (hinline : inlineMembers described = inlineMembers members) :
    ofParameter scope raw = ofParameter scope other := by
  simp only [List.forall_mem_cons] at hlookup
  obtain ⟨hschema, hcontent, hrequired, hdescription, hdeprecated, _⟩ := hlookup
  simp only [ofParameter, hraw, hother, ok_bind, parameterSchema, Members.get, hschema, hcontent,
    hrequired, hdescription, hdeprecated, hinline]

theorem lookup_placedParameter {placed described : Members} {name : String}
    (h : name ∉ placing) :
    (placedParameter placed described).lookup name = described.lookup name := by
  have hkept : (!placing.contains name) = true := by
    rw [Bool.not_eq_true', List.contains_eq_mem]
    exact decide_eq_false h
  simp only [placing, List.mem_cons, List.not_mem_nil, or_false, not_or] at h
  rw [placedParameter, List.lookup_cons, beq_false_of_ne h.1, List.lookup_cons,
    beq_false_of_ne h.2.1]
  exact lookup_filter (p := fun name => !placing.contains name) hkept

/-- The schema that stands among the members is that of the entry which describes the parameter. -/
theorem inlineMembers_placedParameter (placed described : Members) :
    inlineMembers (placedParameter placed described) = inlineMembers described := by
  -- Neither the place of a parameter nor a reference is among what describes its value.
  have hkept : ∀ name ∈ ["type", "items", "enum", "x-nullable"], (!placing.contains name) = true := by
    decide
  rw [inlineMembers, placedParameter, List.filter_cons_of_neg (by simp),
    List.filter_cons_of_neg (by simp), List.filter_filter, inlineMembers]
  refine List.filter_congr ?_
  rintro ⟨name, value⟩ _
  show (["type", "items", "enum", "x-nullable"].contains name && !placing.contains name) =
    ["type", "items", "enum", "x-nullable"].contains name
  cases hinline : ["type", "items", "enum", "x-nullable"].contains name with
  | false => rfl
  | true => exact hkept name (List.contains_iff_mem.mp hinline)

theorem reference?_placedParameter (placed described : Members) :
    (Json.object (placedParameter placed described)).reference? = none := by
  have hnone : (placedParameter placed described).lookup "$ref" = none :=
    lookup_filter_of_not (p := fun name => !placing.contains name) rfl
  rw [Json.reference?, hnone]

/-- The placed entry describes what the entry it is described by describes. -/
theorem ofParameter_placedParameter {raw : Json} {placed described : Members}
    (h : parameterMembers scope raw = .ok described) :
    ofParameter scope raw = ofParameter scope (.object (placedParameter placed described)) := by
  have hother : parameterMembers scope (.object (placedParameter placed described)) =
      .ok (placedParameter placed described) := by
    rw [parameterMembers, reference?_placedParameter]
  refine ofParameter_congr h hother ?_ (inlineMembers_placedParameter placed described)
  have hapart : ∀ name ∈ ["schema", "content", "required", "description", "deprecated"],
      name ∉ placing := by decide
  exact fun name hname => lookup_placedParameter (hapart name hname)

end Schema

namespace Exchange

variable {scope : Scope} {exchange : Exchange}

/-- An exchange without the parameters that have no place. -/
def slots (exchange : Exchange) : Exchange :=
  { exchange with skipped := [] }

def slotOf (name location : Json) : Except Malformed (Option Slot) :=
  if !name.isTruthy then .ok none
  else if location.isText "body" then .ok (some .body)
  else if !location.isKey then .error .key
  else .ok (Slot.ofLocation? location)

/-- Where a parameter goes depends on its name and its location only. -/
theorem destination_eq {raw : Json} {members : Members}
    (h : resolved scope raw = .object members) :
    destination scope raw =
      (slotOf (Members.get members "name") (Members.get members "in")).map
        (Option.map fun slot => (slot, Members.get members "name", members)) := by
  simp only [destination, h, slotOf]
  split
  · rfl
  · split
    · rfl
    · split <;> rfl

/-- Parameters of one place that describe one shape change the slots in the same way. -/
theorem slots_add_congr {raw other : Json} {members described : Members}
    (hraw : resolved scope raw = .object members)
    (hother : resolved scope other = .object described)
    (hname : Members.get described "name" = Members.get members "name")
    (hin : Members.get described "in" = Members.get members "in")
    (hshape : Schema.ofParameter scope (.object members) =
      Schema.ofParameter scope (.object described)) :
    slots <$> exchange.add scope raw = slots <$> exchange.add scope other := by
  simp only [add, place, destination_eq hraw, destination_eq hother, hname, hin]
  cases slotOf (Members.get members "name") (Members.get members "in") with
  | error cause => rfl
  | ok found =>
    cases found with
    | none => rfl
    | some slot => simp only [Except.map, Option.map_some, lift_ok, ok_bind, hshape]

theorem add_of_unnamed {raw : Json} {members : Members}
    (hraw : resolved scope raw = .object members)
    (hname : (Members.get members "name").isTruthy = false) :
    exchange.add scope raw = .ok { exchange with skipped := exchange.skipped ++ [raw] } := by
  simp only [add, place, destination_eq hraw, slotOf, hname, Bool.not_false, if_true]
  rfl

theorem resolved_object (scope : Scope) {members : Members}
    (h : (Json.object members).reference? = none) :
    resolved scope (.object members) = .object members := by
  rw [resolved, h]

end Exchange

/-! ## Chains that are not followed -/

/-- A reference is looked up once. To a shared response or request body it gives what is found there
read as it stands, without its own `$ref`. To a shared parameter it gives what is found there, if
that is no reference; otherwise the place of what is found and the description of what that refers
to. So a chain of references is the same as its end if it has no other entry. -/
theorem reference_followed_once (scope : Scope) {raw : Json} {target : String}
    (hraw : raw.reference? = some target) (entry : Members) (rest : List Members) :
    (ReferenceChain (fun target => (scope.content target).toOption) target (entry :: rest) →
      (rest = [] → Schema.ofContent scope raw = Schema.ofContent scope (.object entry)) ∧
      Schema.ofContent scope raw = Schema.ofContent scope (.object (withoutReference entry)) ∧
      (withoutReference entry = [] → Schema.ofContent scope raw = .ok .empty)) ∧
    (ReferenceChain scope.parameter? target (entry :: rest) → ∀ exchange : Exchange,
      (rest = [] →
        Exchange.slots <$> exchange.add scope raw =
          Exchange.slots <$> exchange.add scope (.object entry)) ∧
      (∀ next ∈ rest.head?,
        Exchange.slots <$> exchange.add scope raw =
          Exchange.slots <$> exchange.add scope (.object (placedParameter entry next))) ∧
      ((Members.get entry "name").isTruthy = false →
        exchange.add scope raw = .ok { exchange with skipped := exchange.skipped ++ [raw] })) := by
  constructor
  · intro hchain
    have hmembers : Schema.contentMembers scope raw = .ok entry := by
      rw [Schema.contentMembers, hraw]
      exact eq_ok_of_toOption hchain.found
    have hinline := Schema.ofContent_of_members hmembers
    refine ⟨?_, hinline, fun hnone => ?_⟩
    · rintro rfl
      have hentry : Schema.contentMembers scope (.object entry) = .ok entry := by
        rw [Schema.contentMembers, hchain.reference?_eq_none]
        rfl
      rw [hinline, Schema.ofContent_of_members hentry]
    · rw [hinline, hnone, Schema.ofContent_nil]
  · intro hchain exchange
    have hresolved : Exchange.resolved scope raw = .object entry := by
      simp only [Exchange.resolved, hraw, hchain.found, Option.map_some, Option.getD_some]
    refine ⟨?_, fun next hnext => ?_, Exchange.add_of_unnamed hresolved⟩
    · rintro rfl
      have hentry := Exchange.resolved_object scope hchain.reference?_eq_none
      exact Exchange.slots_add_congr hresolved hentry rfl rfl rfl
    · -- What the second entry says of the schema is read through the reference of the first.
      cases hchain with
      | last => cases hnext
      | step hfound htarget hrest =>
        cases rest with
        | nil => cases hrest
        | cons second later =>
          cases hnext
          have hdescribed : Schema.parameterMembers scope (.object entry) = .ok next := by
            rw [Schema.parameterMembers, htarget]
            simp only [hrest.found]
          have hplaced := Exchange.resolved_object scope
            (Schema.reference?_placedParameter entry next)
          refine Exchange.slots_add_congr hresolved hplaced rfl rfl ?_
          exact Schema.ofParameter_placedParameter hdescribed

/-- The object that refers to a target. -/
def referenceTo (target : String) : Members :=
  [("$ref", .string target)]

def textResponse : Members :=
  [("schema", .object [("type", .string "string")])]

/-- Shared parameters of which two refer to the third, one of them with a place of its own. -/
def chainedParameters : Members := [
  ("First", .object (referenceTo "#/parameters/Limit")),
  ("Placed", .object
    (("name", .string "count") :: ("in", .string "header") :: referenceTo "#/parameters/Limit")),
  ("Limit", .object limitParameter)]

def chainedResponses : Members := [
  ("First", .object (referenceTo "#/responses/Text")),
  ("Text", .object textResponse)]

def chained : Scope where
  document := sharing [] chainedParameters chainedResponses
  names := []

theorem chained_parameter? (name : String) {members : Members}
    (h : chainedParameters.lookup name = some (.object members)) :
    chained.parameter? ("#/parameters/" ++ name) = some members :=
  (Document.lookupShared_eq_some (sharing_parameters _ _ _)).mpr h

theorem chained_content (name : String) {members : Members}
    (h : chainedResponses.lookup name = some (.object members)) :
    (chained.content ("#/responses/" ++ name)).toOption = some members := by
  have hfound : chained.document.lookupShared ("#/responses/" ++ name) (some "#/responses/") =
      some members := (Document.lookupShared_eq_some (sharing_responses _ _ _)).mpr h
  have hcontent : chained.content ("#/responses/" ++ name) = .ok members := by
    rw [Scope.content]
    exact hfound ▸ rfl
  rw [hcontent]
  rfl

theorem chain_responses : ReferenceChain (fun target => (chained.content target).toOption)
    "#/responses/First" [referenceTo "#/responses/Text", textResponse] :=
  .step (chained_content "First" rfl) rfl (.last (chained_content "Text" rfl) rfl)

theorem chain_parameters : ReferenceChain chained.parameter? "#/parameters/First"
    [referenceTo "#/parameters/Limit", limitParameter] :=
  .step (chained_parameter? "First" rfl) rfl
    (.last (chained_parameter? "Limit" rfl) rfl)

/-- The theorem at a chain of two to a response, at its end alone, and at two chains to a parameter:
one begins with a place of its own, the other one with none. -/
theorem reference_followed_once_chained :
    Schema.ofContent chained (.object (referenceTo "#/responses/First")) = .ok .empty ∧
    Schema.ofContent chained (.object (referenceTo "#/responses/Text")) =
      Schema.ofContent chained (.object textResponse) ∧
    ∀ exchange : Exchange,
      Exchange.slots <$> exchange.add chained (.object (referenceTo "#/parameters/Placed")) =
        Exchange.slots <$> exchange.add chained (.object [("name", .string "count"),
          ("in", .string "header"), ("type", .string "integer")]) ∧
      exchange.add chained (.object (referenceTo "#/parameters/First")) =
        .ok { exchange with
          skipped := exchange.skipped ++ [.object (referenceTo "#/parameters/First")] } := by
  have hend : ReferenceChain (fun target => (chained.content target).toOption) "#/responses/Text"
      [textResponse] := .last (chained_content "Text" rfl) rfl
  have hplaced : ReferenceChain chained.parameter? "#/parameters/Placed"
      [("name", .string "count") :: ("in", .string "header") :: referenceTo "#/parameters/Limit",
        limitParameter] :=
    .step (chained_parameter? "Placed" rfl) rfl
      (.last (chained_parameter? "Limit" rfl) rfl)
  refine ⟨?_, ?_, fun exchange => ⟨?_, ?_⟩⟩
  · exact ((reference_followed_once chained rfl _ _).1 chain_responses).2.2 rfl
  · exact ((reference_followed_once chained rfl _ _).1 hend).1 rfl
  · exact ((reference_followed_once chained rfl _ _).2 hplaced exchange).2.1 _ rfl
  · exact ((reference_followed_once chained rfl _ _).2 chain_parameters exchange).2.2 rfl

/-- Through a chain of two a response becomes void and a parameter has no place. -/
theorem chained_lost :
    (ReferenceChain (fun target => (chained.content target).toOption) "#/responses/First"
        [referenceTo "#/responses/Text", textResponse] ∧
      (Schema.ofContent chained (.object (referenceTo "#/responses/First"))).toOption.map
        Schema.kind = some .empty ∧
      (Schema.ofContent chained (.object textResponse)).toOption.map Schema.kind = some .string) ∧
    ReferenceChain chained.parameter? "#/parameters/First"
        [referenceTo "#/parameters/Limit", limitParameter] ∧
      (({} : Exchange).add chained (.object (referenceTo "#/parameters/First"))).toOption.map
        (fun exchange => exchange.query.kind) = some .empty ∧
      (({} : Exchange).add chained (.object limitParameter)).toOption.map
        (fun exchange => exchange.query.kind) = some .object := by
  refine ⟨⟨chain_responses, ?_, ?_⟩, chain_parameters, ?_, ?_⟩ <;> decide +kernel

end ApiTypes
