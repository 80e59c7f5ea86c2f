import ApiTypes.Proofs.TypeScript.Comments
import ApiTypes.Proofs.TypeScript.Declaration

/-!
# The body of an interface

An interface and a type literal lay out their fields each in its own way. Both give the same lines,
since no comment on a field begins or ends with a blank: an interface is a header and the type literal
of the same object without its bases.
-/

namespace ApiTypes.TypeScript

variable {depth : Int} {schema : Schema} {list : List Field}

/-! ## Lines of fields -/

def Field.Trimmed (field : Field) : Prop :=
  ∀ comment ∈ field.comments, Text.trimEnd comment.toList = comment.toList

/-- The lines of a comment end in no blank. -/
theorem trimEnd_of_mem_commentLines {deprecated : Bool} {description : Json}
    {comments : List String} (h : commentLines deprecated description = .ok comments) :
    ∀ comment ∈ comments, Text.trimEnd comment.toList = comment.toList := by
  unfold commentLines at h
  split at h
  · cases h
    exact List.forall_mem_singleton.mpr (by decide)
  split at h
  · cases h
    simp
  split at h
  · cases h
    refine List.forall_mem_map.mpr fun line _ => ?_
    rw [String.toList_ofList, Text.trim, Text.trimEnd_trimEnd]
  · cases h

theorem trimmed_of_fields (h : fields depth schema = .ok list) : ∀ field ∈ list, field.Trimmed := by
  refine forall_field_of_fields h (fun property _ field hfield => ?_) fun rest _ type _ => ?_
  · exact trimEnd_of_mem_commentLines hfield.comments
  · exact fun comment hmem => nomatch hmem

/-- A comment of an interface is trimmed as in a type literal: what is trimmed there is the blank
after the slashes, if nothing follows it. -/
theorem commentLine_eq {comment : String} (h : Text.trimEnd comment.toList = comment.toList) :
    String.ofList (Text.trimEnd (indent 1 ++ "// " ++ comment).toList) =
      "  //" ++ if comment.isEmpty then "" else " " ++ comment := by
  rw [← String.toList_inj, String.toList_ofList, trimEnd_commentLine, Text.trimEnd, h]
  cases hcomment : comment.toList with
  | nil =>
    rw [String.toList_eq_nil_iff.mp hcomment]
    rfl
  | cons c cs =>
    have hfull : comment.isEmpty = false := by
      rw [String.isEmpty_eq_false_iff]
      rintro rfl
      cases hcomment
    rw [hfull, String.toList_append, if_neg Bool.false_ne_true, String.toList_append, hcomment]
    rfl

theorem Field.Trimmed.interfaceLines_eq {field : Field} (h : field.Trimmed) :
    field.interfaceLines = field.literalLines 1 := by
  rw [Field.interfaceLines, Field.literalLines]
  have hcomments := List.map_congr_left fun comment hmem => commentLine_eq (h comment hmem)
  rw [hcomments]
  rfl

/-! ## Interfaces -/

/-- What stands between the name of an interface and its body: the bases, if there are any. -/
def extendsText (heritage : List String) : String :=
  if heritage.isEmpty then "" else " extends " ++ ", ".intercalate (heritage.map identifier)

/-- With no blank before any line end, an interface is laid out as it was put together. -/
theorem interface_of_trimmed {heritage : List String} (h : ∀ field ∈ list, field.Trimmed)
    (name : String) :
    interface name (heritage.map identifier) list = "export interface " ++ name ++
      extendsText heritage ++ " " ++ if list.isEmpty then "\x7b\x7d" else typeLiteral 0 list := by
  have hlines : list.flatMap Field.interfaceLines = list.flatMap (Field.literalLines 1) :=
    List.flatMap_congr fun field hmem => (h field hmem).interfaceLines_eq
  have hclose : indent 0 ++ "\x7d" = "\x7d" := rfl
  dsimp only [interface]
  rw [typeLiteral, hlines, hclose, extendsText, List.isEmpty_map, Int.zero_add]

/-- The body of an interface: the type literal of the object without its bases, if that has any
fields. -/
def interfaceBody (schema : Schema) : Except Error String :=
  if schema.properties.isEmpty && schema.additional.isNone then .ok "\x7b\x7d"
  else typeText 0 { schema with heritage := [], nullable := false }

/-- The body of an interface is the type literal of its fields. -/
theorem interfaceBody_eq (hobject : schema.kind = .object) :
    interfaceBody schema = (do
      let list ← fields 1 schema
      return if list.isEmpty then "\x7b\x7d" else typeLiteral 0 list) := by
  have htype : typeText 0 { schema with heritage := [], nullable := false } = (do
      let list ← fields 1 schema
      return objectText 0 list []) :=
    @typeText_object { schema with heritage := [], nullable := false } hobject 0
  rw [interfaceBody, htype]
  -- An object without fields is an empty body, where as a type it is an open map.
  cases hfields : fields 1 schema with
  | error error =>
    split
    · rename_i hbare
      simp only [Bool.and_eq_true, List.isEmpty_iff, Option.isNone_iff_eq_none] at hbare
      rw [fields, hbare.1, hbare.2] at hfields
      cases hfields
    · rfl
  | ok list =>
    rw [← isEmpty_of_fields hfields, ok_bind, ok_bind]
    cases list with
    | nil => rfl
    | cons field list =>
      simp [objectText]

/-- An object with fields or bases is declared as a header and a body, and the body is the type
literal that the same object has without its bases and if it is not nullable. Where that type cannot
be rendered, there is no declaration either, for the same reason. -/
theorem declaration_eq_body (hobject : schema.kind = .object)
    (hfull : schema.properties ≠ [] ∨ schema.additional ≠ none ∨ schema.heritage ≠ [])
    (emitEnums : Bool) (name : String) :
    declaration emitEnums schema name = (do
      let body ← interfaceBody schema
      return "export interface " ++ identifier name ++ extendsText schema.heritage ++ " " ++
        body) := by
  rw [interfaceBody_eq hobject, declaration, interfaceFields?, if_pos hobject]
  cases hfields : fields 1 schema with
  | error error => rfl
  | ok list =>
    -- With a field or a base the shape is declared as an interface.
    have hsome : (list.isEmpty && schema.heritage.isEmpty) = false := by
      rw [Bool.eq_false_iff, Ne, Bool.and_eq_true, List.isEmpty_iff, List.isEmpty_iff,
        fields_eq_nil_iff hfields]
      tauto
    simp only [ok_bind, pure_eq_ok, hsome, Bool.false_eq_true, if_false,
      interface_of_trimmed (trimmed_of_fields hfields)]

/-- A tag with a text. -/
def tagSchema : Schema :=
  { properties := [(.text "text", { kind := .string, deprecated := true })], nullable := true }

def dogSchema : Schema :=
  { properties := [
      (.text "name", { kind := .string, required := true, description := .string "one\n \n two " }),
      (.text "tag-line", tagSchema)],
    additional := some { kind := .number },
    heritage := ["Pet", "3d"],
    nullable := true }

def dogBody : String :=
  "\x7b\n  // one\n  //\n  // two\n  name: string;\n" ++
    "  \"tag-line\"?: \x7b\n    // @deprecated\n    text?: string;\n  \x7d | null;\n" ++
    "  [index: string]: number;\n\x7d"

theorem declaration_eq_body_dog :
    dogSchema.kind = .object ∧ dogSchema.properties ≠ [] ∧
      interfaceBody dogSchema = .ok dogBody ∧
      declaration false dogSchema "dog" =
        .ok ("export interface dog extends Pet, _3d " ++ dogBody) := by
  have hbody : interfaceBody dogSchema = .ok dogBody := eq_ok_of_toOption (by decide +kernel)
  have hproperties : dogSchema.properties ≠ [] := List.cons_ne_nil _ _
  refine ⟨rfl, hproperties, hbody, ?_⟩
  rw [declaration_eq_body rfl (.inl hproperties), hbody]
  rfl

end ApiTypes.TypeScript
