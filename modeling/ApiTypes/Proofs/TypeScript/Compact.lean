import ApiTypes.Proofs.Schema.Merge
import ApiTypes.Proofs.Text.Numerals
import ApiTypes.Proofs.Text.Paragraphs
import ApiTypes.Proofs.TypeScript.Comments
import ApiTypes.Proofs.TypeScript.Declaration
import ApiTypes.Proofs.TypeScript.Keys
import ApiTypes.Proofs.TypeScript.Members

/-!
# What is rendered has no empty line

Names and literals stand on one line. What is put together from them, a type at any depth or a
declaration, has line feeds only between two lines that are not empty.
-/

namespace ApiTypes

open Text (OnOneLine Paragraph onOneLine_append onOneLine_ofList onOneLine_quoted)

namespace TypeScript

/-! ## Names and literals -/

theorem onOneLine_of_isNumeral {text : String} (h : Text.IsNumeral text) : OnOneLine text :=
  fun hmem => absurd (h '\n' hmem) (by decide)

theorem onOneLine_identifier (name : String) : OnOneLine (identifier name) :=
  onOneLine_of_isIdentifier (isIdentifier_identifier name)

theorem onOneLine_literal {value : Json} {text : String} (h : literal value = .ok text) :
    OnOneLine text := by
  cases value <;> cases h
  case bool b => cases b <;> decide
  case int i => exact onOneLine_of_isNumeral (Text.isNumeral_int i)
  case double x => exact onOneLine_of_isNumeral x.isNumeral_text
  case string s => exact onOneLine_quoted s

theorem onOneLine_enumMembers {values : List Json} {members : List (String × String)}
    (h : enumMembers values = .ok members) :
    ∀ member ∈ members, OnOneLine member.1 ∧ OnOneLine member.2 := by
  intro member hmember
  obtain ⟨_, _, _, hliterals⟩ := enumMembers_eq_ok h
  obtain ⟨value, _, hvalue⟩ := exists_of_forall₂ hliterals.flip hmember
  have hname := isMemberName_of_enumMembers h member hmember
  exact ⟨onOneLine_of_isIdentifier hname.1, onOneLine_literal hvalue⟩

/-- Literals and names of types stand on one line. -/
theorem onOneLine_primitiveText {kind : Kind} {values : List Json} {text : String}
    (h : primitiveText kind values = .ok text) : OnOneLine text := by
  unfold primitiveText at h
  split at h
  · cases h
    cases kind <;> decide
  · simp only [bind_eq_ok, mapM_eq_ok] at h
    obtain ⟨_, _, alternatives, halternatives, h⟩ := h
    cases h
    refine Text.onOneLine_intercalate (by decide) fun text htext => ?_
    obtain ⟨value, _, hvalue⟩ := exists_of_forall₂ halternatives.flip htext
    exact onOneLine_literal hvalue

theorem onOneLine_referenceText (name : String) (indexPath : List String) :
    OnOneLine (referenceText name indexPath) := by
  refine onOneLine_append.mpr ⟨onOneLine_identifier name, Text.onOneLine_join ?_⟩
  refine List.forall_mem_map.mpr fun step _ => ?_
  simp only [onOneLine_append]
  exact ⟨⟨by decide, onOneLine_quoted step⟩, by decide⟩

/-! ## Fields -/

theorem paragraph_of_isIdentifier {text : String} (h : isIdentifier text.toList = true) :
    Paragraph text := by
  refine (onOneLine_of_isIdentifier h).paragraph ?_
  rintro rfl
  cases h

/-- A property name is kept on one line, except that it may end in a line feed. -/
theorem paragraph_keyText {name : PropertyName} {key rest : String} (h : keyText name = .ok key)
    (hrest : Paragraph rest) : Paragraph (key ++ rest) := by
  rcases keyText_cases h with hname | ⟨word, hword, rfl⟩ | ⟨text, rfl⟩
  · exact (paragraph_of_isIdentifier hname).append hrest.toCompact
  · exact (paragraph_of_isIdentifier hword).below hrest
  · exact hrest.prepend (onOneLine_quoted text).compact

/-- A field whose key goes on with what follows it, and whose comments are lines. -/
structure Field.Compact (field : Field) : Prop where
  key : ∀ rest, Paragraph rest → Paragraph (field.key ++ rest)
  type : Text.Compact field.type
  comments : ∀ comment ∈ field.comments, OnOneLine comment

/-- A field is a paragraph, as its type has no empty line. -/
theorem Field.Compact.line {field : Field} (h : field.Compact) : Paragraph field.line := by
  have hmark : Paragraph ((if field.optional then "?" else "") ++ ": ") := by
    cases field.optional <;> exact OnOneLine.paragraph (by decide) (by decide)
  have hend : Text.Compact ";" := OnOneLine.compact (by decide)
  have hline : field.line =
      field.key ++ (((if field.optional then "?" else "") ++ ": ") ++ (field.type ++ ";")) := by
    simp only [Field.line, String.append_assoc]
  rw [hline]
  exact h.key _ (hmark.append (h.type.append hend))

theorem onOneLine_trimEnd {text : String} (h : OnOneLine text) :
    OnOneLine (String.ofList (Text.trimEnd text.toList)) :=
  onOneLine_ofList.mpr fun hmem => h (Text.mem_of_mem_trimEnd hmem)

/-- A comment that stands on one line is a line that is not empty, whatever precedes the slashes. -/
theorem paragraph_trimEnd (blanks : String) {comment : String} (hblanks : OnOneLine blanks)
    (hcomment : OnOneLine comment) :
    Paragraph (String.ofList (Text.trimEnd (blanks ++ "// " ++ comment).toList)) := by
  have hline : OnOneLine (blanks ++ "// " ++ comment) := by
    simp only [onOneLine_append]
    exact ⟨⟨hblanks, by decide⟩, hcomment⟩
  have hslash : '/' ∈ (blanks ++ "// " ++ comment).toList := by simp
  refine (onOneLine_trimEnd hline).paragraph ?_
  have hkept := Text.mem_trimEnd hslash (by decide)
  simpa using List.ne_nil_of_mem hkept

theorem onOneLine_commentLines {deprecated : Bool} {description : Json} {comments : List String}
    (h : commentLines deprecated description = .ok comments) :
    ∀ comment ∈ comments, OnOneLine comment := by
  intro comment hmem hbreak
  exact absurd (endsLine_of_mem_commentLines h comment hmem '\n' hbreak) (by decide)

theorem onOneLine_indent (depth : Int) : OnOneLine (indent depth) := by
  rw [indent, onOneLine_ofList, List.mem_replicate]
  simp

theorem Field.Compact.literalLines {field : Field} (h : field.Compact) (depth : Int) :
    ∀ line ∈ field.literalLines depth, Paragraph line := by
  have hindent := onOneLine_indent depth
  refine List.forall_mem_append.mpr
    ⟨List.forall_mem_map.mpr fun comment hmem => ?_, List.forall_mem_singleton.mpr ?_⟩
  · exact paragraph_trimEnd (indent depth) hindent (h.comments comment hmem)
  · exact h.line.prepend hindent.compact

theorem Field.Compact.interfaceLines {field : Field} (h : field.Compact) :
    ∀ line ∈ field.interfaceLines, Paragraph line := by
  have hslashes : Paragraph "  //" := OnOneLine.paragraph (by decide) (by decide)
  refine List.forall_mem_append.mpr
    ⟨List.forall_mem_map.mpr fun comment hmem => ?_, List.forall_mem_singleton.mpr ?_⟩
  · apply hslashes.append
    split
    · exact OnOneLine.compact (by decide)
    · exact (onOneLine_append.mpr ⟨by decide, h.comments comment hmem⟩).compact
  · exact h.line.prepend (OnOneLine.compact (by decide))

/-- Braces around the lines of fields. -/
theorem paragraph_braces {first last : String} {lines : List String} (hfirst : Paragraph first)
    (hlast : Paragraph last) (hlines : ∀ line ∈ lines, Paragraph line) :
    Paragraph ("\n".intercalate ([first] ++ lines ++ [last])) := by
  apply Paragraph.lines (by simp)
  have hbegin := List.forall_mem_append.mpr ⟨List.forall_mem_singleton.mpr hfirst, hlines⟩
  exact List.forall_mem_append.mpr ⟨hbegin, List.forall_mem_singleton.mpr hlast⟩

theorem paragraph_typeLiteral {list : List Field} (h : ∀ field ∈ list, field.Compact)
    (depth : Int) : Paragraph (typeLiteral depth list) := by
  have hopen : Paragraph "\x7b" := OnOneLine.paragraph (by decide) (by decide)
  have hclose : Paragraph "\x7d" := OnOneLine.paragraph (by decide) (by decide)
  have hend := hclose.prepend (onOneLine_indent depth).compact
  refine paragraph_braces hopen hend fun line hline => ?_
  obtain ⟨field, hmem, hline⟩ := List.mem_flatMap.mp hline
  exact (h field hmem).literalLines _ line hline

/-! ## Types -/

/-- The text of an object has no empty line. -/
theorem compact_objectText {list : List Field} (h : ∀ field ∈ list, field.Compact)
    (depth : Int) (heritage : List String) : Text.Compact (objectText depth list heritage) := by
  have hbases : ∀ base ∈ heritage.map identifier, Text.Compact base :=
    List.forall_mem_map.mpr fun name _ => (onOneLine_identifier name).compact
  unfold objectText
  split
  · exact OnOneLine.compact (by decide)
  · refine Text.Compact.intercalate (OnOneLine.compact (by decide)) ?_
    split
    · exact hbases
    · exact List.forall_mem_cons.mpr ⟨(paragraph_typeLiteral h depth).toCompact, hbases⟩

theorem compact_elementsText {items : Option Schema} {depth : Int} {text : String}
    (hitems : ∀ item ∈ items, ∀ text, typeText depth item = .ok text → Text.Compact text)
    (h : elementsText depth items = .ok text) : Text.Compact text := by
  cases items with
  | none =>
    cases h
    exact OnOneLine.compact (by decide)
  | some item =>
    obtain ⟨inner, hinner, rfl⟩ := elementsText_some_eq_ok.mp h
    have hcompact := hitems item rfl inner hinner
    split
    · exact ((OnOneLine.compact (by decide)).append hcompact).append (OnOneLine.compact (by decide))
    · exact hcompact.append (OnOneLine.compact (by decide))

theorem compact_of_fields {schema : Schema} {depth : Int} {list : List Field}
    (hproperties : ∀ property ∈ schema.properties, ∀ text,
      typeText depth property.2 = .ok text → Text.Compact text)
    (hadditional : ∀ rest ∈ schema.additional, ∀ text,
      typeText depth rest = .ok text → Text.Compact text)
    (h : fields depth schema = .ok list) : ∀ field ∈ list, field.Compact := by
  refine forall_field_of_fields h (fun property hmem field hfield => ?_) fun rest hrest type htype => ?_
  · exact ⟨fun _ => paragraph_keyText hfield.key, hproperties property hmem _ hfield.type,
      onOneLine_commentLines hfield.comments⟩
  · have hkey : Text.Compact "[index: string]" := OnOneLine.compact (by decide)
    exact ⟨fun _ hnext => hnext.prepend hkey, hadditional rest hrest type htype, fun _ hmem =>
      nomatch hmem⟩

/-- No type has an empty line in its text: by induction over the shape. -/
theorem compact_typeText {schema : Schema} {depth : Int} {text : String}
    (h : typeText depth schema = .ok text) : Text.Compact text := by
  induction schema using Schema.induct generalizing depth text with
  | step schema ihItems ihProperties ihAdditional =>
    -- A line ends in the text of a type only inside the braces of an object.
    obtain ⟨node, hnode, rfl⟩ := exists_node h
    have hcompact : Text.Compact node := by
      cases hnode with
      | reference => exact (onOneLine_referenceText _ _).compact
      | elements _ hnode => exact compact_elementsText (fun item hmem _ => ihItems item hmem) hnode
      | object _ hlist =>
        have hfields := compact_of_fields (fun property hmem _ => ihProperties property hmem)
          (fun rest hmem _ => ihAdditional rest hmem) hlist
        exact compact_objectText hfields depth schema.heritage
      | void => exact OnOneLine.compact (by decide)
      | primitive _ hnode => exact (onOneLine_primitiveText hnode).compact
    split
    · exact hcompact.append (OnOneLine.compact (by decide))
    · exact hcompact

/-! ## Declarations -/

theorem compact_fields {depth : Int} {schema : Schema} {list : List Field}
    (h : fields depth schema = .ok list) : ∀ field ∈ list, field.Compact :=
  compact_of_fields (fun _ _ _ => compact_typeText) (fun _ _ _ => compact_typeText) h

/-- An interface is a paragraph. -/
theorem paragraph_interface {name : String} {bases : List String} {list : List Field}
    (hname : OnOneLine name) (hbases : ∀ base ∈ bases, OnOneLine base)
    (h : ∀ field ∈ list, field.Compact) : Paragraph (interface name bases list) := by
  have hkeyword : Paragraph "export interface " := OnOneLine.paragraph (by decide) (by decide)
  have hopen : Paragraph "\x7b" := OnOneLine.paragraph (by decide) (by decide)
  have hclose : Paragraph "\x7d" := OnOneLine.paragraph (by decide) (by decide)
  unfold interface
  extract_lets extension body
  have hextension : OnOneLine extension := by
    unfold extension
    split
    · decide
    · exact onOneLine_append.mpr ⟨by decide, Text.onOneLine_intercalate (by decide) hbases⟩
  have hbody : Paragraph body := by
    unfold body
    split
    · exact OnOneLine.paragraph (by decide) (by decide)
    · refine paragraph_braces hopen hclose fun line hline => ?_
      obtain ⟨field, hmem, hline⟩ := List.mem_flatMap.mp hline
      exact (h field hmem).interfaceLines line hline
  have hblank : Text.Compact " " := OnOneLine.compact (by decide)
  exact (((hkeyword.append hname.compact).append hextension.compact).append hblank).append
    hbody.toCompact

theorem paragraph_enumeration {name : String} {members : List (String × String)}
    (hname : OnOneLine name) (h : ∀ member ∈ members, OnOneLine member.1 ∧ OnOneLine member.2) :
    Paragraph (enumeration name members) := by
  have hkeyword : Paragraph "export enum " := OnOneLine.paragraph (by decide) (by decide)
  have hopen : Text.Compact " \x7b" := OnOneLine.compact (by decide)
  have hclose : Paragraph "\x7d" := OnOneLine.paragraph (by decide) (by decide)
  have hmargin : Paragraph "  " := OnOneLine.paragraph (by decide) (by decide)
  refine paragraph_braces ((hkeyword.append hname.compact).append hopen) hclose ?_
  refine List.forall_mem_map.mpr fun member hmember => ?_
  obtain ⟨hkey, hliteral⟩ := h member hmember
  have hrest : OnOneLine (member.1 ++ " = " ++ member.2 ++ ",") := by
    simp only [onOneLine_append]
    exact ⟨⟨⟨hkey, by decide⟩, hliteral⟩, by decide⟩
  simpa only [String.append_assoc] using hmargin.append hrest.compact

theorem paragraph_typeAlias {name type : String} (hname : OnOneLine name)
    (h : Text.Compact type) : Paragraph (typeAlias name type) := by
  have hkeyword : Paragraph "export type " := OnOneLine.paragraph (by decide) (by decide)
  have hequal : Text.Compact " = " := OnOneLine.compact (by decide)
  have hend : Text.Compact ";" := OnOneLine.compact (by decide)
  exact (((hkeyword.append hname.compact).append hequal).append h).append hend

/-- A declaration has no empty line, and no line feed at its end. -/
theorem paragraph_declaration {emitEnums : Bool} {schema : Schema} {name text : String}
    (h : declaration emitEnums schema name = .ok text) : Paragraph text := by
  have hname := onOneLine_identifier name
  have hbases : ∀ base ∈ schema.heritage.map identifier, OnOneLine base :=
    List.forall_mem_map.mpr fun base _ => onOneLine_identifier base
  rcases declaration_cases h with
    ⟨list, hlist, rfl⟩ | ⟨_, ⟨members, hmembers, rfl⟩ | ⟨type, htype, rfl⟩⟩
  · exact paragraph_interface hname hbases (compact_fields (fields_of_interfaceFields? hlist))
  · exact paragraph_enumeration hname (onOneLine_enumMembers hmembers)
  · exact paragraph_typeAlias hname (compact_typeText htype)

/-- So has a comment, whatever its text. -/
theorem paragraph_comment (text : String) : Paragraph (comment text) := by
  have hlines : ∀ line ∈ Text.split '\n' text,
      Paragraph (String.ofList (Text.trimEnd ("// " ++ line).toList)) := by
    intro line hline
    obtain ⟨piece, hpiece, rfl⟩ := List.mem_map.mp hline
    have hkept : OnOneLine (String.ofList piece) := by
      rw [onOneLine_ofList]
      intro hbreak
      exact absurd (Text.of_mem_splitWhen hpiece '\n' hbreak) (by decide)
    have hparagraph := paragraph_trimEnd "" (by decide) hkept
    rwa [String.empty_append] at hparagraph
  refine Paragraph.lines ?_ (List.forall_mem_map.mpr hlines)
  rw [Text.split, List.map_map]
  exact List.map_eq_nil_iff.not.mpr (Text.splitWhen_ne_nil _ _)

/-- A comment on a text of one line is one line. -/
theorem onOneLine_comment {text : String} (h : OnOneLine text) : OnOneLine (comment text) := by
  have hline : OnOneLine ("// " ++ text) := onOneLine_append.mpr ⟨by decide, h⟩
  have hkept : ∀ c ∈ text.toList, (c == '\n') = false := by
    intro c hc
    rw [beq_eq_false_iff_ne]
    rintro rfl
    exact h hc
  have hsplit : Text.split '\n' text = [text] := by
    rw [Text.split, Text.splitWhen_of_forall hkept, List.map_singleton, String.ofList_toList]
  rw [comment, hsplit, List.map_singleton, String.intercalate_singleton, onOneLine_ofList]
  exact fun hmem => hline (Text.mem_of_mem_trimEnd hmem)

end TypeScript

end ApiTypes
