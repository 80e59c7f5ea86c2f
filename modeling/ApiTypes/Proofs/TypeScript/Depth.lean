import ApiTypes.Proofs.Schema.Everywhere
import ApiTypes.Proofs.Text.Indented
import ApiTypes.Proofs.TypeScript.Compact

/-!
# Types at a depth

The depth at which a type expression begins is threaded through arrays, fields and bases, and only
indents: the type at a greater depth is the same text with blanks after its line feeds. All that is
written on a line of its own, keys, literals and comments, has no line feed.
-/

namespace ApiTypes

def PropertyName.OnOneLine : PropertyName → Prop
  | .text name => Text.OnOneLine name
  | .scalar _ => True

instance : DecidablePred PropertyName.OnOneLine
  | .text name => inferInstanceAs (Decidable (Text.OnOneLine name))
  | .scalar _ => isTrue trivial

/-- No property name in a shape, at any depth, has a line feed. -/
def Schema.NamesOnOneLine (schema : Schema) : Prop :=
  Everywhere (fun inner => ∀ property ∈ inner.properties, property.1.OnOneLine) schema

instance : DecidablePred Schema.NamesOnOneLine :=
  fun schema => inferInstanceAs (Decidable (Schema.Everywhere _ schema))

namespace TypeScript

open Text (OnOneLine blanks indented indented_append indented_of_onOneLine onOneLine_append)

variable {depth : Int} {steps : Nat} {schema : Schema} {list : List Field}

/-! ## Fields -/

/-- The blanks of further steps stand before those of a line. A depth below zero has no blanks to begin
with, so the law begins at zero. -/
theorem indent_add (hdepth : 0 ≤ depth) (steps : Nat) :
    indent (depth + steps) = blanks (2 * steps) ++ indent depth := by
  have hwidth : (2 * (depth + steps)).toNat = 2 * steps + (2 * depth).toNat := by omega
  rw [indent, indent, blanks, hwidth, List.replicate_add, String.ofList_append]

/-- A field with its type moved. -/
def Field.moved (steps : Nat) (field : Field) : Field :=
  { field with type := indented (2 * steps) field.type }

/-- A field of which only the type may have several lines. -/
structure Field.Single (field : Field) : Prop where
  key : OnOneLine field.key
  comments : ∀ comment ∈ field.comments, OnOneLine comment

/-- A field that is moved in has its further lines moved in. -/
theorem Field.Single.line_moved {field : Field} (h : field.Single) (steps : Nat) :
    (field.moved steps).line = indented (2 * steps) field.line := by
  have hmark : OnOneLine (if field.optional then "?" else "") := by
    cases field.optional <;> decide
  have hcolon : OnOneLine ": " := by decide
  have hend : OnOneLine ";" := by decide
  simp only [Field.line, indented_append, indented_of_onOneLine _ h.key,
    indented_of_onOneLine _ hmark, indented_of_onOneLine _ hcolon, indented_of_onOneLine _ hend]
  rfl

/-- The slashes keep the blanks before a comment, whatever is trimmed after them. -/
theorem commentLine_add (hdepth : 0 ≤ depth) (steps : Nat) (comment : String) :
    String.ofList (Text.trimEnd (indent (depth + steps) ++ "// " ++ comment).toList) =
      blanks (2 * steps) ++
        String.ofList (Text.trimEnd (indent depth ++ "// " ++ comment).toList) := by
  have hwidth : (2 * (depth + steps)).toNat = 2 * steps + (2 * depth).toNat := by omega
  rw [trimEnd_commentLine, trimEnd_commentLine, hwidth, blanks, ← String.ofList_append,
    List.replicate_add, List.append_assoc]

/-- The lines of a field in a type literal move in, its comments included. -/
theorem Field.Single.literalLines_moved {field : Field} (h : field.Single) (hdepth : 0 ≤ depth)
    (steps : Nat) :
    (field.moved steps).literalLines (depth + steps) =
      (field.literalLines depth).map fun line =>
        blanks (2 * steps) ++ indented (2 * steps) line := by
  have hindent := onOneLine_indent depth
  -- A comment is a single line, so that moving it changes nothing but its margin.
  have hcomment : ∀ comment ∈ field.comments,
      String.ofList (Text.trimEnd (indent (depth + steps) ++ "// " ++ comment).toList) =
        blanks (2 * steps) ++ indented (2 * steps)
          (String.ofList (Text.trimEnd (indent depth ++ "// " ++ comment).toList)) := by
    intro comment hmem
    have hmargin : OnOneLine (indent depth ++ "// ") := onOneLine_append.mpr ⟨hindent, by decide⟩
    have hline := onOneLine_append.mpr ⟨hmargin, h.comments comment hmem⟩
    rw [commentLine_add hdepth, indented_of_onOneLine _ (onOneLine_trimEnd hline)]
  have hline : indent (depth + steps) ++ (field.moved steps).line =
      blanks (2 * steps) ++ indented (2 * steps) (indent depth ++ field.line) := by
    rw [h.line_moved, indented_append, indented_of_onOneLine _ hindent, indent_add hdepth,
      String.append_assoc]
  rw [Field.literalLines, Field.literalLines, hline, List.map_append, List.map_map,
    List.map_singleton]
  exact congrArg (· ++ _) (List.map_congr_left hcomment)

/-- The braces move with the lines between them. -/
theorem typeLiteral_moved (h : ∀ field ∈ list, field.Single) (hdepth : 0 ≤ depth) (steps : Nat) :
    typeLiteral (depth + steps) (list.map (Field.moved steps)) =
      indented (2 * steps) (typeLiteral depth list) := by
  have hopen : OnOneLine "\x7b" := by decide
  have hclose : OnOneLine (indent depth ++ "\x7d") :=
    onOneLine_append.mpr ⟨onOneLine_indent depth, by decide⟩
  have hinner : depth + steps + 1 = depth + 1 + steps := by omega
  have hlines : (list.map (Field.moved steps)).flatMap (Field.literalLines (depth + steps + 1)) =
      (list.flatMap (Field.literalLines (depth + 1))).map fun line =>
        blanks (2 * steps) ++ indented (2 * steps) line := by
    rw [hinner, List.flatMap_map, List.map_flatMap]
    exact List.flatMap_congr fun field hmem => (h field hmem).literalLines_moved (by omega) steps
  rw [typeLiteral, typeLiteral, hlines, indent_add hdepth, List.append_assoc, List.append_assoc,
    List.singleton_append, List.singleton_append, Text.indented_lines,
    indented_of_onOneLine _ hopen, List.map_append, List.map_singleton,
    indented_of_onOneLine _ hclose, String.append_assoc]

/-! ## Nodes -/

/-- An object that is moved in has every line but the first moved in. -/
theorem objectText_moved (h : ∀ field ∈ list, field.Single) (hdepth : 0 ≤ depth) (steps : Nat)
    (heritage : List String) :
    objectText (depth + steps) (list.map (Field.moved steps)) heritage =
      indented (2 * steps) (objectText depth list heritage) := by
  -- Bases stand on one line, so that only the braces are moved.
  have hbases : (heritage.map identifier).map (indented (2 * steps)) = heritage.map identifier := by
    refine (List.map_congr_left fun base hmem => ?_).trans (List.map_id _)
    obtain ⟨name, _, rfl⟩ := List.mem_map.mp hmem
    exact indented_of_onOneLine _ (onOneLine_identifier name)
  have hseparator : OnOneLine " & " := by decide
  have hopen : OnOneLine openMap := by decide
  simp only [objectText, List.isEmpty_map]
  split
  · exact (indented_of_onOneLine _ hopen).symm
  · rw [Text.indented_intercalate, indented_of_onOneLine _ hseparator]
    split
    · rw [hbases]
    · rw [List.map_cons, hbases, typeLiteral_moved h hdepth]

/-- The alternative of a nullable shape is on the last line. -/
theorem indented_nullable (width : Nat) (nullable : Bool) (node : String) :
    (if nullable then indented width node ++ " | null" else indented width node) =
      indented width (if nullable then node ++ " | null" else node) := by
  have hnull : OnOneLine " | null" := by decide
  cases nullable with
  | false => rfl
  | true =>
    rw [if_pos rfl, if_pos rfl, indented_append, indented_of_onOneLine _ hnull]

/-! ## Types -/

/-- A result that is one line, if there is one, is not moved. -/
theorem indented_map_of_onOneLine {result : Except Error String} (width : Nat)
    (h : ∀ text, result = .ok text → OnOneLine text) : indented width <$> result = result := by
  cases result with
  | error error => rfl
  | ok text => exact congrArg Except.ok (indented_of_onOneLine width (h text rfl))

theorem onOneLine_keyText {name : PropertyName} {key : String} (hname : name.OnOneLine)
    (h : keyText name = .ok key) : OnOneLine key := by
  cases name with
  | scalar => cases h
  | text name =>
    cases h
    split
    · exact hname
    · exact Text.onOneLine_quoted name

theorem single_of_fields (hnames : ∀ property ∈ schema.properties, property.1.OnOneLine)
    (h : fields depth schema = .ok list) : ∀ field ∈ list, field.Single := by
  refine forall_field_of_fields h (fun property hmem field hfield => ?_) fun rest _ type _ => ?_
  · exact ⟨onOneLine_keyText (hnames property hmem) hfield.key,
      onOneLine_commentLines hfield.comments⟩
  · have hkey : OnOneLine "[index: string]" := by decide
    exact ⟨hkey, fun comment hmem => nomatch hmem⟩

/-- The type expression of a shape that begins further in is the same text with its later lines moved
as far, and where there is none, there is none for the same reason. -/
def Moves (depth : Int) (steps : Nat) (schema : Schema) : Prop :=
  typeText (depth + steps) schema = indented (2 * steps) <$> typeText depth schema

theorem propertyFields_add {table : Properties}
    (h : ∀ property ∈ table, Moves depth steps property.2) :
    propertyFields (depth + steps) table =
      List.map (Field.moved steps) <$> propertyFields depth table := by
  induction table with
  | nil => rfl
  | cons property table ih =>
    obtain ⟨name, inner⟩ := property
    obtain ⟨hfirst, hrest⟩ := List.forall_mem_cons.mp h
    simp only [Moves] at hfirst
    simp only [propertyFields, hfirst, ih hrest, map_eq_pure_bind, bind_assoc, pure_bind]
    rfl

theorem indexFields_add {additional : Option Schema}
    (h : ∀ rest ∈ additional, Moves depth steps rest) :
    indexFields (depth + steps) additional =
      List.map (Field.moved steps) <$> indexFields depth additional := by
  cases additional with
  | none => rfl
  | some rest =>
    have hrest := h rest rfl
    simp only [Moves] at hrest
    simp only [indexFields, hrest, map_eq_pure_bind, bind_assoc, pure_bind]
    rfl

theorem fields_add (hproperties : ∀ property ∈ schema.properties, Moves depth steps property.2)
    (hadditional : ∀ rest ∈ schema.additional, Moves depth steps rest) :
    fields (depth + steps) schema = List.map (Field.moved steps) <$> fields depth schema := by
  rw [fields, fields, propertyFields_add hproperties, indexFields_add hadditional]
  simp only [map_eq_pure_bind, bind_assoc, pure_bind, List.map_append]

theorem elementsText_add {items : Option Schema} (h : ∀ item ∈ items, Moves depth steps item) :
    elementsText (depth + steps) items = indented (2 * steps) <$> elementsText depth items := by
  have hopen : OnOneLine "(" := by decide
  have hclose : OnOneLine ")[]" := by decide
  have hbrackets : OnOneLine "[]" := by decide
  cases items with
  | none => exact (indented_map_of_onOneLine _ fun text htext => by cases htext; decide).symm
  | some item =>
    rw [elementsText, elementsText, h item rfl]
    simp only [map_eq_pure_bind, bind_assoc, pure_bind, apply_ite (indented (2 * steps)),
      indented_append, indented_of_onOneLine _ hopen, indented_of_onOneLine _ hclose,
      indented_of_onOneLine _ hbrackets]

/-- Only arrays and objects have parts that are written at a depth. -/
theorem typeText_leaf (harray : schema.kind ≠ .array) (hobject : schema.kind ≠ .object)
    (first second : Int) : typeText first schema = typeText second schema := by
  obtain ⟨kind⟩ := schema
  cases kind with
  | array => exact absurd rfl harray
  | object => exact absurd rfl hobject
  | reference | empty | string | number | boolean => rw [typeText, typeText]

/-- A type with no shape inside stands on one line. -/
theorem onOneLine_typeText_leaf (harray : schema.kind ≠ .array) (hobject : schema.kind ≠ .object)
    {text : String} (h : typeText depth schema = .ok text) : OnOneLine text := by
  obtain ⟨node, hnode, rfl⟩ := exists_node h
  have hline : OnOneLine node := by
    cases hnode with
    | reference => exact onOneLine_referenceText _ _
    | elements hkind => exact absurd hkind harray
    | object hkind => exact absurd hkind hobject
    | void => decide
    | primitive _ hnode => exact onOneLine_primitiveText hnode
  split
  · exact onOneLine_append.mpr ⟨hline, by decide⟩
  · exact hline

/-- Every type moves in with the depth: by induction over the shape. -/
theorem moves (hnames : schema.NamesOnOneLine) (hdepth : 0 ≤ depth) (steps : Nat) :
    Moves depth steps schema := by
  induction schema using Schema.induct generalizing depth with
  | step schema ihItems ihProperties ihAdditional =>
    by_cases harray : schema.kind = .array
    · -- The items of an array stand at the depth of the array itself.
      have hitems := elementsText_add fun item hmem =>
        ihItems item hmem (hnames.items item hmem) hdepth
      rw [Moves, typeText_array harray, typeText_array harray, hitems]
      simp only [map_eq_pure_bind, bind_assoc, pure_bind, indented_nullable]
    by_cases hobject : schema.kind = .object
    · -- The fields begin one step further in, at both depths.
      have hinner : depth + steps + 1 = depth + 1 + steps := by omega
      have hfields := fields_add
        (fun property hmem => ihProperties property hmem (hnames.properties property hmem)
          (Int.le_add_one hdepth))
        (fun rest hmem => ihAdditional rest hmem (hnames.additional rest hmem)
          (Int.le_add_one hdepth))
      rw [Moves, typeText_object hobject, typeText_object hobject, hinner, hfields]
      cases hlist : fields (depth + 1) schema with
      | error error => rfl
      | ok list =>
        simp only [map_ok, ok_bind, pure_eq_ok, indented_nullable,
          objectText_moved (single_of_fields hnames.here hlist) hdepth]
    · rw [Moves, typeText_leaf harray hobject (depth + steps) depth]
      exact (indented_map_of_onOneLine _ fun _ => onOneLine_typeText_leaf harray hobject).symm

/-- The type expression of a shape at any depth is the one at depth zero with two blanks for each step
put in after every line feed, if no property name has a line feed. A shape that has no type expression
at one of the depths has none at the other, for the same reason. -/
theorem typeText_depth (hnames : schema.NamesOnOneLine) (depth : Nat) :
    typeText depth schema = indented (2 * depth) <$> typeText 0 schema := by
  have hmoved := moves hnames (Int.le_refl 0) depth
  rwa [Moves, Int.zero_add] at hmoved

/-- A library: an array of books or `null`, whatever else there is of shelves, and a base. -/
def librarySchema : Schema :=
  { properties := [(.text "all books", { kind := .array, items := some bookSchema })],
    additional := some { properties := [(.text "shelf", { kind := .number, required := true })] },
    heritage := ["Building"] }
where
  bookSchema : Schema :=
    { properties := [(.text "title",
        { kind := .string, enumValues := [.string "a\nb"], description := .string "one\n\ntwo" })],
      nullable := true }

def libraryText : String :=
  "\x7b\n  \"all books\"?: (\x7b\n    // one\n    //\n    // two\n    title?: \"a\\nb\";\n  \x7d" ++
    " | null)[];\n  [index: string]: \x7b\n    shelf: number;\n  \x7d;\n\x7d & Building"

theorem typeText_depth_library :
    librarySchema.NamesOnOneLine ∧ typeText 0 librarySchema = .ok libraryText ∧
      typeText 2 librarySchema = .ok (indented 4 libraryText) := by
  have hnames : librarySchema.NamesOnOneLine := by decide +kernel
  have htext : typeText 0 librarySchema = .ok libraryText := eq_ok_of_toOption (by decide +kernel)
  refine ⟨hnames, htext, (typeText_depth hnames 2).trans ?_⟩
  rw [htext]
  rfl

/-- A name that ends in a line feed is written as it is, and the rest of its line is not indented. -/
example :
    let schema : Schema := { properties := [(.text "a\n", { kind := .string })] }
    (typeText 1 schema).toOption = some "\x7b\n    a\n?: string;\n  \x7d" := by
  decide +kernel

end TypeScript

end ApiTypes
