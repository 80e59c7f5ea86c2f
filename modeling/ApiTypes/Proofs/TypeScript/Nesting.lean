import ApiTypes.Proofs.Schema.Merge
import ApiTypes.Proofs.Text.Numerals
import ApiTypes.Proofs.TypeScript.Keys
import ApiTypes.Proofs.TypeScript.Scanning

/-!
# The elements of arrays

Whether a shape is compound is found out without its text, and decides on the parentheses around the
elements of an array. It says whether the type expression of the shape has an operator outside all
brackets. The brackets of an array therefore apply to the whole type of its elements.
-/

namespace ApiTypes.TypeScript

variable {depth : Int} {schema : Schema} {list : List Field} {text : String}

/-! ## Names and literals -/

theorem plain_of_isIdentifier {name : String} (h : isIdentifier name.toList = true) : Plain name := by
  have hmarks : marks.all (fun c => !isNameChar c) = true := by decide
  intro c hc hmark
  have hother := List.all_eq_true.mp hmarks c hmark
  rw [nameChars_of_isIdentifier h c hc] at hother
  cases hother

theorem plain_of_isNumeral (h : Text.IsNumeral text) : Plain text := by
  have hmarks : marks.all (fun c => !Text.isNumeralChar c) = true := by decide
  intro c hc hmark
  have hother := List.all_eq_true.mp hmarks c hmark
  rw [h c hc] at hother
  cases hother

theorem reads_identifier (name : String) : Reads (identifier name) false :=
  (plain_of_isIdentifier (isIdentifier_identifier name)).reads

theorem reads_literal {value : Json} (h : literal value = .ok text) : Reads text false := by
  cases value <;> cases h
  case bool b => cases b <;> exact Plain.reads (by decide)
  case int i => exact (plain_of_isNumeral (Text.isNumeral_int i)).reads
  case double x => exact (plain_of_isNumeral x.isNumeral_text).reads
  case string s => exact reads_quoted s

/-- A union of literals has its operator outermost, if there are two of them. -/
theorem reads_primitiveText {kind : Kind} {values : List Json}
    (h : primitiveText kind values = .ok text) : Reads text (decide (1 < values.length)) := by
  unfold primitiveText at h
  split at h
  · rename_i hempty
    cases h
    rw [List.isEmpty_iff.mp hempty]
    cases kind <;> exact Plain.reads (by decide)
  · simp only [bind_eq_ok, mapM_eq_ok] at h
    obtain ⟨_, _, alternatives, halternatives, h⟩ := h
    cases h
    rw [halternatives.length_eq]
    refine reads_intercalate reads_union fun text htext => ?_
    obtain ⟨value, _, hvalue⟩ := exists_of_forall₂ halternatives.flip htext
    exact reads_literal hvalue

theorem reads_referenceText (name : String) (indexPath : List String) :
    Reads (referenceText name indexPath) false := by
  have hsteps : ∀ steps : List String,
      Reads (String.join (steps.map fun step => "[" ++ Text.quoted step ++ "]")) false := by
    intro steps
    induction steps with
    | nil => exact Plain.reads (by decide)
    | cons step steps ih =>
      rw [List.map_cons, String.join_cons]
      exact (reads_brackets rfl rfl rfl (reads_quoted step)).append ih
  exact (reads_identifier name).append (hsteps indexPath)

theorem reads_openMap : Reads openMap false := by
  have hname : Reads "Record" false := Plain.reads (by decide)
  have harguments : Reads "string, any" false := Plain.reads (by decide)
  have hbrackets : Reads ("<" ++ "string, any" ++ ">") false := reads_brackets rfl rfl rfl harguments
  have hsplit : openMap = "Record" ++ ("<" ++ "string, any" ++ ">") := by decide
  rw [hsplit]
  exact hname.append hbrackets

/-! ## Fields -/

/-- A field whose key and type are read as code that closes its brackets, and whose comments are
lines. -/
structure Field.Reads (field : Field) : Prop where
  key : TypeScript.Reads field.key false
  type : ∃ operator, TypeScript.Reads field.type operator
  comments : field.KeepsLines

theorem reads_keyText {name : PropertyName} {key : String} (h : keyText name = .ok key) :
    Reads key false := by
  rcases keyText_cases h with hname | ⟨word, hword, rfl⟩ | ⟨text, rfl⟩
  · exact (plain_of_isIdentifier hname).reads
  · exact (plain_of_isIdentifier hword).reads.append (Plain.reads (by decide))
  · exact reads_quoted text

theorem Field.Reads.line {field : Field} (h : field.Reads) :
    ∃ operator, TypeScript.Reads field.line operator := by
  obtain ⟨operator, htype⟩ := h.type
  have hmark : Plain (if field.optional then "?" else "") := by
    cases field.optional <;> decide
  have hcolon : TypeScript.Reads ": " false := Plain.reads (by decide)
  have hend : TypeScript.Reads ";" false := Plain.reads (by decide)
  exact ⟨_, (((h.key.append hmark.reads).append hcolon).append htype).append hend⟩

theorem reads_indent (depth : Int) : Reads (indent depth) false := by
  refine Plain.reads fun c hc => ?_
  rw [indent, String.toList_ofList] at hc
  rw [List.eq_of_mem_replicate hc]
  decide

theorem Field.Reads.literalLines {field : Field} (h : field.Reads) (depth : Int) :
    ∀ line ∈ field.literalLines depth, ∃ operator, TypeScript.Reads (line ++ "\n") operator := by
  refine List.forall_mem_append.mpr
    ⟨List.forall_mem_map.mpr fun comment hmem => ?_, List.forall_mem_singleton.mpr ?_⟩
  · exact ⟨false, reads_commentLine depth (h.comments comment hmem)⟩
  · obtain ⟨operator, hline⟩ := h.line
    have hbreak : TypeScript.Reads "\n" false := Plain.reads (by decide)
    exact ⟨_, ((reads_indent depth).append hline).append hbreak⟩

/-- Lines between a first and a last one, each with the line feed at its end. -/
theorem intercalate_lines (first last : String) (lines : List String) :
    "\n".intercalate ([first] ++ lines ++ [last]) =
      first ++ ("\n" ++ String.join (lines.map (· ++ "\n"))) ++ last := by
  induction lines generalizing first with
  | nil => simp [String.intercalate_cons_cons]
  | cons line lines ih =>
    have hrest := ih line
    simp only [List.cons_append, List.nil_append] at hrest ⊢
    rw [String.intercalate_cons_cons, hrest, List.map_cons, String.join_cons]
    simp only [String.append_assoc]

/-- Within braces no operator is outermost. -/
theorem reads_typeLiteral (h : ∀ field ∈ list, field.Reads) (depth : Int) :
    Reads (typeLiteral depth list) false := by
  have hlines : ∀ line ∈ (list.flatMap (Field.literalLines (depth + 1))).map (· ++ "\n"),
      ∃ operator, Reads line operator := by
    refine List.forall_mem_map.mpr fun line hline => ?_
    obtain ⟨field, hmem, hline⟩ := List.mem_flatMap.mp hline
    exact (h field hmem).literalLines _ line hline
  obtain ⟨operator, hjoin⟩ := reads_join hlines
  have hbreak : Reads "\n" false := Plain.reads (by decide)
  have hinner := (hbreak.append hjoin).append (reads_indent depth)
  have hliteral := reads_brackets (rfl : "\x7b".toList = ['\x7b']) (rfl : "\x7d".toList = ['\x7d'])
    rfl hinner
  rw [typeLiteral, intercalate_lines]
  simpa only [String.append_assoc] using hliteral

theorem reads_of_fields
    (hproperties : ∀ property ∈ schema.properties, ∀ text,
      typeText depth property.2 = .ok text → ∃ operator, Reads text operator)
    (hadditional : ∀ rest ∈ schema.additional, ∀ text,
      typeText depth rest = .ok text → ∃ operator, Reads text operator)
    (h : fields depth schema = .ok list) : ∀ field ∈ list, field.Reads := by
  refine forall_field_of_fields h (fun property hmem field hfield => ?_) fun rest hrest type htype => ?_
  · exact ⟨reads_keyText hfield.key, hproperties property hmem _ hfield.type,
      endsLine_of_mem_commentLines hfield.comments⟩
  · have hname : Reads "index: string" false := Plain.reads (by decide)
    have hkey : Reads ("[" ++ "index: string" ++ "]") false := reads_brackets rfl rfl rfl hname
    exact ⟨hkey, hadditional rest hrest type htype, fun _ hmem => nomatch hmem⟩

/-! ## Types -/

/-- An object with bases is an intersection, if it has two parts. -/
theorem reads_objectText (h : ∀ field ∈ list, field.Reads) (depth : Int) (heritage : List String) :
    Reads (objectText depth list heritage)
      (decide (1 < heritage.length) || !list.isEmpty && !heritage.isEmpty) := by
  have hbases : ∀ base ∈ heritage.map identifier, Reads base false :=
    List.forall_mem_map.mpr fun name _ => reads_identifier name
  -- The parts of an intersection are the braces, if there are fields, and the bases.
  cases list with
  | nil =>
    rw [List.isEmpty_nil, Bool.not_true, Bool.false_and, Bool.or_false]
    cases heritage with
    | nil => exact reads_openMap
    | cons base heritage =>
      have hjoined := reads_intercalate reads_intersection hbases
      rwa [List.length_map] at hjoined
  | cons field list =>
    have hparts := reads_intercalate reads_intersection
      (List.forall_mem_cons.mpr ⟨reads_typeLiteral h depth, hbases⟩)
    have hlength : decide (1 < (typeLiteral depth (field :: list) :: heritage.map identifier).length) =
        (decide (1 < heritage.length) || !heritage.isEmpty) := by
      rw [List.length_cons, List.length_map]
      cases heritage <;> simp
    rw [hlength] at hparts
    exact hparts

/-- The element type of an array. It is `any` if nothing is known of the elements. -/
def elementType (depth : Int) : Option Schema → Except Error String
  | none => .ok "any"
  | some item => typeText depth item

/-- A type expression as an operand of whatever follows it: in parentheses, if it has an operator
outside its brackets. -/
def operand (type : String) : String :=
  if outermostOperator type = some true then "(" ++ type ++ ")" else type

/-- An operand is put in parentheses exactly if it has an operator outermost. -/
theorem operand_eq {type : String} {operator : Bool} (h : Reads type operator) :
    operand type = if operator then "(" ++ type ++ ")" else type := by
  cases operator <;> simp [operand, h.outermostOperator]

theorem reads_operand {type : String} {operator : Bool} (h : Reads type operator) :
    Reads (operand type) false := by
  rw [operand_eq h]
  cases operator with
  | false => exact h
  | true => exact reads_brackets rfl rfl rfl h

/-- Of an array, the element type is written as an operand before the brackets. -/
theorem exists_operand {items : Option Schema} {node : String}
    (hitems : ∀ item ∈ items, ∀ text, typeText depth item = .ok text → Reads text (isCompound item))
    (h : elementsText depth items = .ok node) :
    ∃ element, elementType depth items = .ok element ∧ Reads (operand element) false ∧
      node = operand element ++ "[]" := by
  cases items with
  | none =>
    cases h
    have hany : Reads "any" false := Plain.reads (by decide)
    exact ⟨"any", rfl, reads_operand hany, by rw [operand_eq hany]; rfl⟩
  | some item =>
    obtain ⟨element, helement, rfl⟩ := elementsText_some_eq_ok.mp h
    have hreads := hitems item rfl element helement
    refine ⟨element, helement, reads_operand hreads, ?_⟩
    -- Parentheses are put where the element has an operator outside of all brackets.
    rw [operand_eq hreads]
    split
    · show "(" ++ element ++ (")" ++ "[]") = "(" ++ element ++ ")" ++ "[]"
      exact String.append_assoc.symm
    · rfl

/-- Of the shapes that are not nullable, only those with literals and objects are compound. -/
theorem isCompound_of_kind (hprimitive : schema.kind.isPrimitive = false)
    (hobject : schema.kind ≠ .object) (hnull : schema.nullable = false) :
    isCompound schema = false := by
  simp [isCompound, hprimitive, hobject, hnull]

theorem isCompound_of_fields (hkind : schema.kind = .object) (hlist : fields depth schema = .ok list)
    (hnull : schema.nullable = false) : isCompound schema =
      (decide (1 < schema.heritage.length) || !list.isEmpty && !schema.heritage.isEmpty) := by
  simp [isCompound, hnull, hkind, Kind.isPrimitive, isEmpty_of_fields hlist]

/-- But for the alternative of a nullable shape, a type expression is compound as its shape is. -/
theorem reads_node {node : String}
    (hitems : ∀ item ∈ schema.items, ∀ text, typeText depth item = .ok text →
      Reads text (isCompound item))
    (hproperties : ∀ property ∈ schema.properties, ∀ text,
      typeText (depth + 1) property.2 = .ok text → Reads text (isCompound property.2))
    (hadditional : ∀ rest ∈ schema.additional, ∀ text,
      typeText (depth + 1) rest = .ok text → Reads text (isCompound rest))
    (h : NodeOf depth schema node) : ∃ operator, Reads node operator ∧
      (schema.nullable = false → isCompound schema = operator) := by
  -- Only objects with bases and lists of literals can have an operator on the outside.
  cases h with
  | reference hkind =>
    exact ⟨false, reads_referenceText _ _, isCompound_of_kind (by rw [hkind]; rfl) (by simp [hkind])⟩
  | elements hkind hnode =>
    obtain ⟨element, _, hoperand, rfl⟩ := exists_operand hitems hnode
    have hbrackets : Reads ("[" ++ "" ++ "]") false :=
      reads_brackets rfl rfl rfl (Plain.reads (by decide))
    exact ⟨false, hoperand.append hbrackets,
      isCompound_of_kind (by rw [hkind]; rfl) (by simp [hkind])⟩
  | object hkind hlist =>
    have hfields := reads_of_fields
      (fun property hmem text htext => ⟨_, hproperties property hmem text htext⟩)
      (fun rest hmem text htext => ⟨_, hadditional rest hmem text htext⟩) hlist
    exact ⟨_, reads_objectText hfields depth schema.heritage, isCompound_of_fields hkind hlist⟩
  | void hkind =>
    exact ⟨false, Plain.reads (by decide),
      isCompound_of_kind (by rw [hkind]; rfl) (by simp [hkind])⟩
  | primitive hkind hnode =>
    exact ⟨_, reads_primitiveText hnode, fun hnull => by simp [isCompound, hnull, hkind]⟩

/-- A type expression has an operator outside all brackets if and only if its shape is compound. -/
theorem reads_typeText (h : typeText depth schema = .ok text) : Reads text (isCompound schema) := by
  induction schema using Schema.induct generalizing depth text with
  | step schema ihItems ihProperties ihAdditional =>
    -- The parts stand in brackets, or are operands; only the operators of the node itself count.
    obtain ⟨node, hnode, rfl⟩ := exists_node h
    obtain ⟨operator, hreads, hcompound⟩ := reads_node (fun item hmem _ => ihItems item hmem)
      (fun property hmem _ => ihProperties property hmem) (fun rest hmem _ => ihAdditional rest hmem)
      hnode
    cases hnull : schema.nullable with
    | false =>
      rw [hcompound hnull]
      exact hreads
    | true =>
      have hnullText : Reads "null" false := Plain.reads (by decide)
      have hboth := hreads.append (reads_union.append hnullText)
      rw [Bool.or_false, Bool.or_true] at hboth
      rw [isCompound, if_pos hnull]
      exact hboth

/-! ## Arrays at any place -/

/-- The shapes whose type expressions are part of that of a shape, with the depths of their lines: the
shape itself, and the parts of its elements and fields. -/
inductive Part : Int → Schema → Int → Schema → Prop
  | self {depth : Int} {schema : Schema} : Part depth schema depth schema
  | element {depth inner : Int} {schema item part : Schema} (hkind : schema.kind = .array)
      (hitem : item ∈ schema.items) (hpart : Part depth item inner part) :
      Part depth schema inner part
  | property {depth inner : Int} {schema part : Schema} {property : PropertyName × Schema}
      (hkind : schema.kind = .object) (hproperty : property ∈ schema.properties)
      (hpart : Part (depth + 1) property.2 inner part) : Part depth schema inner part
  | rest {depth inner : Int} {schema rest part : Schema} (hkind : schema.kind = .object)
      (hrest : rest ∈ schema.additional) (hpart : Part (depth + 1) rest inner part) :
      Part depth schema inner part

/-- Whatever is inside a type that has a text has one. -/
theorem exists_text_of_part {inner : Int} {part : Schema} (hpart : Part depth schema inner part)
    (h : typeText depth schema = .ok text) : ∃ text, typeText inner part = .ok text := by
  induction hpart generalizing text with
  | self => exact ⟨text, h⟩
  | element hkind hitem _ ih =>
    rw [typeText_array hkind, bind_eq_ok, Option.mem_def.mp hitem] at h
    obtain ⟨node, hnode, _⟩ := h
    obtain ⟨element, helement, _⟩ := elementsText_some_eq_ok.mp hnode
    exact ih helement
  | property hkind hproperty _ ih =>
    rw [typeText_object hkind, bind_eq_ok] at h
    obtain ⟨list, hlist, _⟩ := h
    obtain ⟨own, _, hown, _, _⟩ := fields_eq_ok.mp hlist
    obtain ⟨field, _, hfield⟩ := exists_of_forall₂ hown hproperty
    exact ih hfield.type
  | rest hkind hrest _ ih =>
    rw [typeText_object hkind, bind_eq_ok] at h
    obtain ⟨list, hlist, _⟩ := h
    obtain ⟨_, index, _, hindex, _⟩ := fields_eq_ok.mp hlist
    obtain ⟨_, _, type, htype, _⟩ := exists_of_forall₂ hindex (Option.mem_toList.mpr hrest)
    exact ih htype

/-- A type expression has an operator outside its brackets, its literals and its comments if and only
if its shape is compound. Of each array in it, the element type is an operand without one, so the
brackets of the array apply to all of the element type. -/
theorem outermostOperator_typeText (h : typeText depth schema = .ok text) :
    outermostOperator text = some (isCompound schema) ∧
    ∀ inner array, Part depth schema inner array → array.kind = .array →
      ∃ element, elementType inner array.items = .ok element ∧
        outermostOperator (operand element) = some false ∧
        typeText inner array =
          .ok (operand element ++ "[]" ++ if array.nullable then " | null" else "") := by
  -- A part of what has a text has one too, to which the same is applied.
  refine ⟨(reads_typeText h).outermostOperator, fun inner array hpart harray => ?_⟩
  obtain ⟨text, htext⟩ := exists_text_of_part hpart h
  rw [typeText_array harray, bind_eq_ok] at htext
  obtain ⟨node, hnode, _⟩ := htext
  obtain ⟨element, helement, hoperand, rfl⟩ := exists_operand (fun _ _ _ => reads_typeText) hnode
  refine ⟨element, helement, hoperand.outermostOperator, ?_⟩
  rw [typeText_array harray, hnode, ok_bind]
  cases array.nullable with
  | false => exact congrArg Except.ok String.append_empty.symm
  | true => rfl

/-- An array of two literals, a bar and a bracket. -/
def marksSchema : Schema :=
  { kind := .array, items := some { kind := .string, enumValues := [.string "|", .string "]"] },
    description := .string "one | (two" }

def nestedSchema : Schema :=
  { kind := .array, items := some { properties := [(.text "a|b", marksSchema)], nullable := true } }

/-- The type expression of that array. The brackets and bars in its comment, its key and its literals
do not count. -/
def nestedText : String :=
  "(\x7b\n  // one | (two\n  \"a|b\"?: (\"|\" | \"]\")[];\n\x7d | null)[]"

theorem outermostOperator_typeText_nested :
    typeText 0 nestedSchema = .ok nestedText ∧ outermostOperator nestedText = some false ∧
      Part 0 nestedSchema 1 marksSchema ∧ marksSchema.kind = .array ∧
      ∃ element, elementType 1 marksSchema.items = .ok element ∧
        outermostOperator (operand element) = some false ∧
        typeText 1 marksSchema = .ok ("(" ++ element ++ ")" ++ "[]") := by
  have htext : typeText 0 nestedSchema = .ok nestedText := eq_ok_of_toOption (by decide +kernel)
  have hpart : Part 0 nestedSchema 1 marksSchema :=
    .element rfl rfl (.property rfl List.mem_cons_self .self)
  obtain ⟨hoperator, harrays⟩ := outermostOperator_typeText htext
  obtain ⟨element, helement, hoperand, harray⟩ := harrays 1 marksSchema hpart rfl
  have hliterals : elementType 1 marksSchema.items = .ok "\"|\" | \"]\"" :=
    eq_ok_of_toOption (by decide +kernel)
  obtain rfl : element = "\"|\" | \"]\"" := Except.ok.inj (helement.symm.trans hliterals)
  exact ⟨htext, hoperator, hpart, rfl, _, helement, hoperand, eq_ok_of_toOption (by decide +kernel)⟩

end ApiTypes.TypeScript
