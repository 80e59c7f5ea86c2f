import ApiTypes.Proofs.Json.Numerals
import ApiTypes.Proofs.Schema.Formed
import ApiTypes.Proofs.Text.Quoted
import ApiTypes.Proofs.TypeScript.Parts
import ApiTypes.Proofs.TypeScript.Rendering

/-!
# Literals stand for their values

The union of an enumeration lists a literal for each value, in order. A text between double quotes,
a truth value and a decimal numeral are literals, and each is read as the value for which it was
written. The infinities and what is no number have no numeral: these, and no other values, are
written as words that are no literals.
-/

namespace ApiTypes.TypeScript

open Schema

/-! ## Reading literals -/

/-- The text that stands between double quotes without control characters, of which the first quote
is read already. -/
def quotedValue? (cs : List Char) : Option Json :=
  match Text.readQuoted cs with
  | some (content, []) => some (.string (String.ofList content))
  | _ => none

/-- The value of a literal: of a text between double quotes, of a truth value, or of a decimal
numeral with a minus before it or without. -/
def literalValue? (text : String) : Option Json :=
  match text.toList with
  | '"' :: cs => quotedValue? cs
  | ['t', 'r', 'u', 'e'] => some (.bool true)
  | ['f', 'a', 'l', 's', 'e'] => some (.bool false)
  | cs => Json.readNumber? cs

/-- Whether there is a literal for a value: not for a double that is no finite number. -/
def hasLiteral : Json → Bool
  | .double x => x.isFinite
  | _ => true

/-- The text of a number reads back as that number. -/
theorem literalValue?_of_readNumber? {text : String} {number : Json}
    (h : Json.readNumber? text.toList = some number) : literalValue? text = some number := by
  unfold literalValue?
  split
  · rename_i hlist
    rw [hlist] at h
    cases h
  · rename_i hlist
    rw [hlist] at h
    cases h
  · rename_i hlist
    rw [hlist] at h
    cases h
  · exact h

theorem literalValue?_quoted (s : String) : literalValue? (Text.quoted s) = some (.string s) := by
  have hlist : (Text.quoted s).toList = '"' :: (s.toList.flatMap Text.quoteChar ++ ['"']) := by
    rw [Text.quoted, String.toList_ofList]
    rfl
  unfold literalValue?
  rw [hlist]
  show quotedValue? (s.toList.flatMap Text.quoteChar ++ ['"']) = _
  rw [quotedValue?, Text.readQuoted_quoted]
  dsimp only
  rw [String.ofList_toList]

/-- A literal is read as the value for which it was written, if there is a literal for it. -/
theorem literalValue?_literal {value : Json} {text : String} (h : literal value = .ok text) :
    literalValue? text = if hasLiteral value then some value else none := by
  cases value <;> cases h
  case bool b => cases b <;> rfl
  case int i => exact literalValue?_of_readNumber? (Json.readNumber?_int i)
  case string s => exact literalValue?_quoted s
  case double x =>
    cases hfinite : x.isFinite with
    | true =>
      rw [hasLiteral, hfinite]
      exact literalValue?_of_readNumber? (Json.readNumber?_double hfinite)
    | false =>
      rw [hasLiteral, hfinite]
      have hword : ∀ word ∈ ["nan", "inf", "-inf"], literalValue? word = none := by decide
      exact hword x.text (Binary64.text_nonfinite hfinite)

/-! ## The union of an enumeration -/

/-- The union of literals of one kind. -/
theorem typeText_union {schema : Schema} (huniform : schema.Uniform)
    (hprimitive : schema.kind.isPrimitive = true) (hsome : schema.enumValues ≠ []) (depth : Int) :
    ∃ texts, typeText depth schema =
        .ok (String.intercalate " | " texts ++ if schema.nullable then " | null" else "") ∧
      List.Forall₂ (fun value text => literal value = .ok text) schema.enumValues texts := by
  have hrendered : FailsOnMalformed True (schema.enumValues.mapM literal) :=
    literals_rendered huniform
  obtain ⟨texts, htexts⟩ := hrendered.exists_ok trivial
  refine ⟨texts, ?_, mapM_eq_ok.mp htexts⟩
  rw [typeText_literals hprimitive hsome, checkLiterals_eq_ok huniform, ok_bind, htexts, ok_bind]
  cases schema.nullable with
  | true => rfl
  | false => exact congrArg Except.ok (String.append_empty).symm

/-- The literals of a shape are the values of the enumeration in its fragment, without null. -/
theorem enumValues_of_plain {scope : Scope} {members : Members} {values : List Json}
    {schema : Schema} (henum : members.lookup "enum" = some (.array values))
    (h : ofPlain scope members = .ok schema) :
    schema.enumValues = values.filter (!·.isNull) ∧ schema.Uniform := by
  obtain ⟨kind, listed, _, items, _, table, _, found, hfound, rfl⟩ := ofPlain_eq_ok.mp h
  refine ⟨?_, kind_of_enumeration hfound⟩
  have hget : Members.get members "enum" = .array values := by rw [Members.get, henum]; rfl
  show found.1 = _
  unfold Schema.enumeration at hfound
  rw [hget] at hfound
  dsimp only at hfound
  -- An empty list is passed over, and has no literals anyway.
  split at hfound
  · exact literals_eq_ok hfound
  · rename_i hfalsy
    have hnil : values = [] := by
      cases values with
      | nil => rfl
      | cons value values => exact absurd rfl hfalsy
    rw [hnil, ← Except.ok.inj hfound]
    rfl

/-- A fragment with an enumeration has the values of the enumeration but for null, in order, as its
literals. At every depth, the type of a primitive shape with literals is their union, and each literal
is read as the value for which it is written, unless that is an infinity or no number: then there is
no value that it is read as. -/
theorem typeText_enumeration {scope : Scope} {members : Members} {values : List Json}
    {schema : Schema} (href : (Json.object members).reference? = none)
    (hplain : Members.has members "allOf" = false)
    (henum : members.lookup "enum" = some (.array values))
    (hschema : ofFragment scope (.object members) = .ok schema) :
    schema.enumValues = values.filter (!·.isNull) ∧
      (schema.kind.isPrimitive = true → schema.enumValues ≠ [] → ∀ depth, ∃ texts,
        typeText depth schema =
          .ok (String.intercalate " | " texts ++ if schema.nullable then " | null" else "") ∧
        List.Forall₂ (fun value text => literal value = .ok text ∧
            literalValue? text = if hasLiteral value then some value else none)
          schema.enumValues texts) := by
  rw [ofFragment_plain href hplain] at hschema
  obtain ⟨hvalues, huniform⟩ := enumValues_of_plain henum hschema
  refine ⟨hvalues, fun hprimitive hsome depth => ?_⟩
  obtain ⟨texts, htext, htexts⟩ := typeText_union huniform hprimitive hsome depth
  exact ⟨texts, htext, htexts.imp fun _ _ h => ⟨h, literalValue?_literal h⟩⟩

/-- Three numbers. -/
def numberLiterals : List Json :=
  [.double (.ofDecimal true ⟨15, -1⟩), .int (-70), .double (.ofDecimal false ⟨1, 22⟩)]

def numberShape : Schema :=
  { kind := .number, nullable := true, enumValues := numberLiterals }

theorem typeText_enumeration_numbers :
    ofFragment noDefinitions (.object [("enum", .array (.null :: numberLiterals))]) =
        .ok numberShape ∧
      typeText 0 numberShape = .ok "-1.5 | -70 | 1e+22 | null" ∧
      (∀ value ∈ numberLiterals, hasLiteral value = true) ∧
      ∃ texts, typeText 0 numberShape = .ok (String.intercalate " | " texts ++ " | null") ∧
        List.Forall₂ (fun value text => literal value = .ok text ∧
          literalValue? text = if hasLiteral value then some value else none)
          numberLiterals texts := by
  have hbuilt : ofFragment noDefinitions (.object [("enum", .array (.null :: numberLiterals))]) =
      .ok numberShape := by
    rw [ofFragment_plain rfl rfl]
    exact ofPlain_eq_ok.mpr ⟨.number, false, rfl, none, rfl, ([], none), rfl, (numberLiterals, true),
      rfl, rfl⟩
  have hall : ∀ value ∈ numberLiterals, hasLiteral value = true := by
    rw [← List.all_eq_true]
    decide +kernel
  obtain ⟨_, hunion⟩ := typeText_enumeration rfl rfl rfl hbuilt
  exact ⟨hbuilt, eq_ok_of_toOption (by decide +kernel), hall, hunion rfl (List.cons_ne_nil _ _) 0⟩

/-- A numeral that no double is large enough for is read as an infinity, which is written as a
word. -/
theorem typeText_infinity :
    ∃ value schema, Json.read "1e999" = .ok value ∧
      ofFragment noDefinitions (.object [("enum", .array [value])]) = .ok schema ∧
      schema.enumValues = [value] ∧ typeText 0 schema = .ok "inf" ∧ literalValue? "inf" = none := by
  refine ⟨.double (.infinity false),
    { kind := .number, enumValues := [.double (.infinity false)] }, rfl, ?_, rfl, ?_, by decide⟩
  · rw [ofFragment_plain rfl rfl]
    exact ofPlain_eq_ok.mpr ⟨.number, false, rfl, none, rfl, ([], none), rfl,
      ([.double (.infinity false)], false), rfl, rfl⟩
  · exact eq_ok_of_toOption (by decide +kernel)

end ApiTypes.TypeScript
