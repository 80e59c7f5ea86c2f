import ApiTypes.Proofs.Naming
import ApiTypes.Proofs.Rendering
import ApiTypes.Proofs.TwoRuns
import ApiTypes.Proofs.TypeScript.Members
import ApiTypes.Proofs.TypeScript.Parts

/-!
# Where enumerations are wanted

A shape that only has literals for its values is declared as the union of these or, where
enumerations are wanted, as an enumeration of them. Nothing else in the generated file depends on
what is wanted: a file without enumerations and one with enumerations have the same parts, and only
the declarations of such shapes differ.
-/

namespace ApiTypes

/-- A shape that is declared as an enumeration, where that is wanted: it is primitive and not
nullable, and it has literals, none of which is a truth value. -/
structure Schema.DeclaresEnum (schema : Schema) : Prop where
  primitive : schema.kind.isPrimitive = true
  notNullable : schema.nullable = false
  literals : schema.enumValues ≠ []
  notBoolean : ∀ value ∈ schema.enumValues, ∀ b, value ≠ .bool b

namespace Block

open TypeScript

def DeclaresEnum : Block → Prop
  | .comment _ => False
  | .declaration _ schema => schema.DeclaresEnum

/-- The text of a part without enumerations and its text with enumerations: they are the same, or one
is a name for the union of the literals and the other an enumeration whose values are these
literals, in order. -/
inductive Forms : Block → String → String → Prop
  | same {block : Block} (h : ¬block.DeclaresEnum) (text : String) : Forms block text text
  | union {name : String} {schema : Schema} (h : schema.DeclaresEnum) {alternatives : List String}
      {members : List (String × String)}
      (halternatives : schema.enumValues.mapM literal = .ok alternatives)
      (hmembers : members.map (·.2) = alternatives) :
      Forms (.declaration name schema)
        (typeAlias (identifier name) (String.intercalate " | " alternatives))
        (enumeration (identifier name) members)

end Block

namespace TypeScript

variable {schema : Schema} {values : List Json} {name : String}

/-! ## Literals -/

theorem literalType_eq_boolean {value : Json} :
    LiteralType.ofJson value = .boolean ↔ ∃ b, value = .bool b := by
  cases value <;> simp [LiteralType.ofJson]

/-- The check of an enumeration compares every literal with the first, so they are all of its
type. -/
theorem literalType_of_check (h : checkLiterals values = .ok ()) {first value : Json}
    (hfirst : values.head? = some first) (hvalue : value ∈ values) :
    LiteralType.ofJson value = LiteralType.ofJson first := by
  cases values with
  | nil => cases hvalue
  | cons head rest =>
    cases hfirst
    rw [checkLiterals, List.map_cons] at h
    dsimp only at h
    split at h
    · rename_i hall
      rcases List.mem_cons.mp hvalue with rfl | hmem
      · rfl
      · exact beq_iff_eq.mp (List.all_eq_true.mp hall _ (List.mem_map_of_mem hmem))
    · cases h

theorem exists_memberName_of_literal {value : Json} {text : String} (h : literal value = .ok text) :
    ∃ name, memberName value = .ok name := by
  cases value <;> cases h <;> exact ⟨_, rfl⟩

theorem literals_of_enumMembers {members : List (String × String)}
    (h : enumMembers values = .ok members) : values.mapM literal = .ok (members.map (·.2)) := by
  obtain ⟨_, _, _, hliterals⟩ := enumMembers_eq_ok h
  exact mapM_eq_ok.mpr (List.forall₂_map_right_iff.mpr hliterals)

/-- Whatever has literals has the members of an enumeration, and the literals are their values. -/
theorem enumMembers_of_literals {alternatives : List String}
    (h : values.mapM literal = .ok alternatives) :
    ∃ members, enumMembers values = .ok members ∧ members.map (·.2) = alternatives := by
  have hrendered : FailsOnMalformed True (enumMembers values) := by
    refine .bind (.mapM fun value hvalue => ?_) fun _ _ => .ok _
    obtain ⟨text, _, htext⟩ := exists_of_forall₂ (mapM_eq_ok.mp h) hvalue
    obtain ⟨name, hname⟩ := exists_memberName_of_literal htext
    rw [hname, htext]
    exact .ok _
  obtain ⟨members, hmembers⟩ := hrendered.exists_ok trivial
  exact ⟨members, hmembers, Except.ok.inj ((literals_of_enumMembers hmembers).symm.trans h)⟩

/-! ## Declarations -/

theorem isEnumeration_off (schema : Schema) : isEnumeration false schema = .ok false := by
  simp [isEnumeration]

/-- Where enumerations are wanted, there are three cases: a shape that is declared as one, a shape
that is not, and literals of several types, which are refused. -/
theorem isEnumeration_cases (schema : Schema) :
    (isEnumeration true schema = .ok true ∧ schema.DeclaresEnum ∧
      checkLiterals schema.enumValues = .ok ()) ∨
    (isEnumeration true schema = .ok false ∧ ¬schema.DeclaresEnum) ∨
    ∃ error, isEnumeration true schema = .error error ∧ schema.kind.isPrimitive = true ∧
      schema.enumValues ≠ [] ∧ checkLiterals schema.enumValues = .error error := by
  by_cases hlisted : schema.kind.isPrimitive = true ∧ schema.nullable = false ∧
      schema.enumValues ≠ []
  · obtain ⟨hprimitive, hnullable, hsome⟩ := hlisted
    -- A candidate is decided by its literals: they are checked first, and booleans are no members.
    have hcheck : isEnumeration true schema = (do
        checkLiterals schema.enumValues
        return schema.enumValues.head?.map LiteralType.ofJson != some .boolean) := by
      simp [isEnumeration, hprimitive, hnullable, hsome]
    rw [hcheck]
    cases hresult : checkLiterals schema.enumValues with
    | error error => exact .inr (.inr ⟨error, rfl, hprimitive, hsome, rfl⟩)
    | ok =>
      obtain ⟨first, hfirst⟩ := Option.isSome_iff_exists.mp
        (List.isSome_head?.mpr hsome)
      have htypes : ∀ value ∈ schema.enumValues,
          LiteralType.ofJson value = LiteralType.ofJson first :=
        fun _ => literalType_of_check hresult hfirst
      rw [ok_bind, hfirst, Option.map_some]
      by_cases hboolean : LiteralType.ofJson first = .boolean
      · refine .inr (.inl ⟨by rw [hboolean]; rfl, fun h => ?_⟩)
        obtain ⟨b, rfl⟩ := literalType_eq_boolean.mp hboolean
        exact h.notBoolean _ (List.mem_of_head? hfirst) b rfl
      · refine .inl ⟨?_, ⟨hprimitive, hnullable, hsome, fun value hvalue b hb => ?_⟩, rfl⟩
        · simpa using hboolean
        · exact hboolean ((htypes value hvalue).symm.trans (literalType_eq_boolean.mpr ⟨b, hb⟩))
  · -- Anything else is turned down before its literals are looked at.
    refine .inr (.inl ⟨?_, fun h => hlisted ⟨h.primitive, h.notNullable, h.literals⟩⟩)
    rw [isEnumeration, if_pos]
    by_contra hnone
    simp only [Bool.or_eq_true, Bool.not_eq_true', not_or, Bool.not_eq_false, Bool.not_eq_true,
      List.isEmpty_eq_false_iff] at hnone
    exact hlisted ⟨hnone.1.1.1, hnone.2, hnone.1.1.2⟩

/-- What is not declared as an enumeration is declared the same way whether these are wanted or
not. -/
theorem declaration_of_not_declaresEnum (h : ¬schema.DeclaresEnum) (name : String) :
    declaration true schema name = declaration false schema name := by
  unfold declaration
  refine bind_congr fun found => ?_
  cases found with
  | some list => rfl
  | none =>
    rw [isEnumeration_off]
    rcases isEnumeration_cases schema with ⟨_, henum, _⟩ | ⟨hwanted, _⟩ |
      ⟨error, hwanted, hprimitive, hsome, hcheck⟩
    · exact absurd henum h
    · rw [hwanted]
    -- Without enumerations it is the union that is refused.
    · rw [hwanted]
      simp only [ok_bind, Bool.false_eq_true, if_false]
      rw [typeText_literals hprimitive hsome, hcheck]
      rfl

theorem interfaceFields?_of_declaresEnum (h : schema.DeclaresEnum) :
    interfaceFields? schema = .ok none := by
  have hobject : schema.kind ≠ .object := fun hobject => by
    simpa [hobject, Kind.isPrimitive] using h.primitive
  rw [interfaceFields?, if_neg hobject]

/-- With no enumerations wanted, an enumeration is written as the union of its literals. -/
theorem declaration_union (h : schema.DeclaresEnum) (name : String) :
    declaration false schema name = (do
      checkLiterals schema.enumValues
      let alternatives ← schema.enumValues.mapM literal
      return typeAlias (identifier name) (String.intercalate " | " alternatives)) := by
  unfold declaration
  rw [interfaceFields?_of_declaresEnum h, isEnumeration_off]
  simp only [ok_bind, Bool.false_eq_true, if_false]
  rw [typeText_literals h.primitive h.literals]
  simp only [h.notNullable, Bool.false_eq_true, if_false, bind_assoc, pure_bind]

/-- With enumerations wanted, it is written as one, a member to each literal. -/
theorem declaration_enumeration (h : schema.DeclaresEnum) (name : String) :
    declaration true schema name = (do
      checkLiterals schema.enumValues
      let members ← enumMembers schema.enumValues
      return enumeration (identifier name) members) := by
  unfold declaration
  rw [interfaceFields?_of_declaresEnum h]
  rcases isEnumeration_cases schema with ⟨hwanted, _, hcheck⟩ | ⟨_, hnot⟩ |
    ⟨error, hwanted, _, _, hcheck⟩
  · rw [hwanted, hcheck]
    rfl
  · exact absurd h hnot
  · rw [hwanted, hcheck]
    rfl

/-- The declaration of a shape is the same whether enumerations are wanted or not, or it is the union
of the literals in one case and the enumeration of the same literals in the other. -/
theorem declaration_forms (schema : Schema) (name : String) :
    Matches (Block.Forms (.declaration name schema)) (declaration false schema name)
      (declaration true schema name) := by
  by_cases h : schema.DeclaresEnum
  · rw [declaration_union h, declaration_enumeration h]
    refine (Matches.refl _).bind_eq fun _ => ?_
    -- Both forms print the same literals, so both fail or neither does.
    cases hliterals : schema.enumValues.mapM literal with
    | error error =>
      cases hmembers : enumMembers schema.enumValues with
      | error other => exact .error _ _
      | ok members =>
        rw [literals_of_enumMembers hmembers] at hliterals
        cases hliterals
    | ok alternatives =>
      obtain ⟨members, hmembers, hvalues⟩ := enumMembers_of_literals hliterals
      rw [hmembers]
      exact .ok (.union h hliterals hvalues)
  · have hblock : ¬Block.DeclaresEnum (.declaration name schema) := h
    rw [declaration_of_not_declaresEnum h]
    exact (Matches.refl _).imp fun text _ hsame => hsame ▸ .same hblock text

/-- The keyword tells a name for a type from an enumeration. -/
theorem typeAlias_ne_enumeration (name text : String) (members : List (String × String)) :
    typeAlias name text ≠ enumeration name members := by
  intro hsame
  obtain ⟨rest, hrest⟩ := enumeration_eq name members
  -- The eighth letter is the first that the two keywords do not share.
  have htype : ∀ text, ("export type " ++ text).toList[7]? = some 't' := by
    intro text
    rw [String.toList_append]
    rfl
  have henum : ∀ text, ("export " ++ "enum" ++ text).toList[7]? = some 'e' := by
    intro text
    rw [String.toList_append]
    rfl
  have htexts : "export type " ++ name ++ " = " ++ text ++ ";" =
      "export " ++ "enum" ++ " " ++ name ++ " " ++ rest := hsame.trans hrest
  simp only [String.append_assoc] at htexts
  have hletter := congrArg (fun text => text.toList[7]?) htexts
  rw [htype, ← String.append_assoc, henum] at hletter
  cases hletter

end TypeScript

/-! ## Generated files -/

namespace Block

open TypeScript

theorem text_forms (block : Block) : Matches block.Forms (block.text false) (block.text true) := by
  cases block with
  | comment text => exact .ok (.same id _)
  | declaration name schema => exact declaration_forms schema name

theorem Forms.ne_iff {block : Block} {off on : String} (h : block.Forms off on) :
    off ≠ on ↔ block.DeclaresEnum := by
  cases h with
  | same h => simp [h]
  | union h _ _ => exact iff_of_true (typeAlias_ne_enumeration _ _ _) h

end Block

namespace Analysis

variable {off on : Settings}

/-- For every document, the parts of the generated file without enumerations and with enumerations
are generated both or not at all. There are as many of them, and they differ exactly at the
declarations of top-level shapes that are primitive, not nullable, and have literals none of which is
a truth value. -/
theorem texts_forms (document : Document) (hoff : off.emitEnums.isTruthy = false)
    (hon : on.emitEnums.isTruthy = true) :
    Matches
      (fun aliases enumerations => ∃ analysis, ofDocument document = .ok analysis ∧
        aliases.length = analysis.blocks.length ∧ enumerations.length = analysis.blocks.length ∧
        ∀ (i : Nat) (block : Block), analysis.blocks[i]? = some block → ∃ without wanted,
          aliases[i]? = some without ∧ enumerations[i]? = some wanted ∧
          block.Forms without wanted ∧ (without ≠ wanted ↔ block.DeclaresEnum))
      (ofDocument document >>= Generation.texts off)
      (ofDocument document >>= Generation.texts on) := by
  cases hanalysis : ofDocument document with
  | error error => exact .error _ _
  | ok analysis =>
    rw [ok_bind, ok_bind]
    unfold Generation.texts
    rw [hoff, hon]
    -- The blocks are the same for both settings, and the texts are compared block by block.
    have hplaces := Matches.mapM_places fun block (_ : block ∈ analysis.blocks) => block.text_forms
    refine hplaces.imp fun aliases enumerations ⟨haliases, henumerations, hforms⟩ => ?_
    refine ⟨analysis, rfl, haliases, henumerations, fun i block hblock => ?_⟩
    obtain ⟨without, wanted, hwithout, hwanted, hform⟩ := hforms i block hblock
    exact ⟨without, wanted, hwithout, hwanted, hform, hform.ne_iff⟩

/-- The parts of the generated file for a description whose first definition is an enumeration, of
which the first is given. The literals of a parameter are a union. -/
def moodTexts (mood : String) : List String := [
  mood,
  "export interface Day \x7b\n  mood?: Mood;\n\x7d",
  "// GET /days",
  "export interface GetDaysQuery \x7b\n  // how many\n  limit?: 1 | 2;\n\x7d",
  "export type GetDaysResponse = void;",
  "export interface GetDaysRequest extends GetDaysQuery \x7b\x7d"]

theorem moodTexts_succ (mood other : String) (i : Nat) :
    (moodTexts mood)[i + 1]? = (moodTexts other)[i + 1]? :=
  rfl

theorem texts_forms_moods :
    (ofDocument moods >>= Generation.texts {}) =
        .ok (moodTexts "export type Mood = \"calm\" | \"mad\";") ∧
      (ofDocument moods >>= Generation.texts { emitEnums := .bool true }) =
        .ok (moodTexts "export enum Mood \x7b\n  CALM = \"calm\",\n  MAD = \"mad\",\n\x7d") ∧
      ∃ analysis, ofDocument moods = .ok analysis ∧
        ∀ (i : Nat) (block : Block), analysis.blocks[i]? = some block →
          (block.DeclaresEnum ↔ i = 0) := by
  have haliases : (ofDocument moods >>= Generation.texts {}) =
      .ok (moodTexts "export type Mood = \"calm\" | \"mad\";") :=
    eq_ok_of_toOption (by decide +kernel)
  have henumerations : (ofDocument moods >>= Generation.texts { emitEnums := .bool true }) =
      .ok (moodTexts "export enum Mood \x7b\n  CALM = \"calm\",\n  MAD = \"mad\",\n\x7d") :=
    eq_ok_of_toOption (by decide +kernel)
  have hoff : ({} : Settings).emitEnums.isTruthy = false := rfl
  have hon : ({ emitEnums := .bool true } : Settings).emitEnums.isTruthy = true := rfl
  obtain ⟨enumerations, hresult, analysis, hanalysis, _, _, hforms⟩ :=
    (texts_forms moods hoff hon).exists_ok haliases
  cases hresult.symm.trans henumerations
  refine ⟨haliases, henumerations, analysis, hanalysis, fun i block hblock => ?_⟩
  obtain ⟨without, wanted, hwithout, hwanted, _, hdiffer⟩ := hforms i block hblock
  rw [← hdiffer]
  cases i with
  | zero =>
    cases hwithout
    cases hwanted
    decide
  | succ i =>
    -- Behind the first part the two files are the same.
    refine iff_of_false (fun hne => hne ?_) (Nat.succ_ne_zero i)
    exact Option.some.inj (hwithout.symm.trans ((moodTexts_succ _ _ i).trans hwanted))

end Analysis

end ApiTypes
