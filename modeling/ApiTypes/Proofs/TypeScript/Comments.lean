import ApiTypes.Proofs.Outcome
import ApiTypes.Proofs.Text.Cutting
import ApiTypes.Proofs.TypeScript.Parts
import ApiTypes.TypeScript.Declaration

/-!
# What stands in comments stays in comments

A comment goes on to the end of its line, and a program has more line ends than the line feed. A
description is cut at all of them before its lines become comments. The text of a comment on an
operation is cut at line feeds only.
-/

namespace ApiTypes

namespace TypeScript

/-! ## Lines of a program -/

/-- The characters that end a line of a program: line feed, carriage return, and the separators of
lines and of paragraphs. -/
def endsLine (c : Char) : Bool :=
  c == '\n' || c == '\r' || c == '\u2028' || c == '\u2029'

def programLines (text : String) : List (List Char) :=
  Text.splitWhen endsLine text.toList

/-- Whether a line begins, after its indentation, with two slashes. -/
def isCommentLine (line : List Char) : Bool :=
  ['/', '/'].isPrefixOf (line.dropWhile (· == ' '))

theorem isCommentLine_append (blanks : Nat) (rest : List Char) :
    isCommentLine (List.replicate blanks ' ' ++ '/' :: '/' :: rest) = true := by
  induction blanks with
  | zero => rfl
  | succ blanks ih =>
    rw [List.replicate_succ, List.cons_append]
    exact ih

theorem programLines_intercalate {texts : List String} (h : texts ≠ []) :
    programLines (String.intercalate "\n" texts) = texts.flatMap programLines := by
  induction texts with
  | nil => exact absurd rfl h
  | cons text texts ih =>
    cases texts with
    | nil => rw [String.intercalate_singleton, List.flatMap_singleton]
    | cons next texts =>
      have hjoined : (text ++ "\n" ++ String.intercalate "\n" (next :: texts)).toList =
          text.toList ++ '\n' :: (String.intercalate "\n" (next :: texts)).toList := by simp
      rw [String.intercalate_cons_cons, programLines, hjoined, Text.splitWhen_append_cons rfl,
        List.flatMap_cons, ← ih (List.cons_ne_nil _ _)]
      rfl

theorem trimEnd_slashes (cs : List Char) :
    Text.trimEnd ('/' :: '/' :: cs) = '/' :: '/' :: Text.trimEnd cs := by
  rw [Text.trimEnd_cons rfl, Text.trimEnd_cons rfl]

/-! ## Comments on operations -/

/-- A line of a comment begins with the two slashes, and goes on where its text does. -/
theorem programLines_commentLine (line : String) :
    ∃ first, isCommentLine first = true ∧
      programLines (String.ofList (Text.trimEnd ("// " ++ line).toList)) =
        first :: (Text.splitWhen endsLine (Text.trimEnd line.toList)).tail := by
  -- The blank after the slashes goes with the text, if all of the text is blank.
  obtain ⟨rest, hrest, htail⟩ : ∃ rest, Text.trimEnd ("// " ++ line).toList = '/' :: '/' :: rest ∧
      (Text.splitWhen endsLine rest).tail =
        (Text.splitWhen endsLine (Text.trimEnd line.toList)).tail := by
    refine ⟨Text.trimEnd (' ' :: line.toList), ?_, ?_⟩
    · rw [String.toList_append]
      exact trimEnd_slashes _
    · rw [Text.trimEnd]
      cases Text.trimEnd line.toList with
      | nil => rfl
      | cons c cs =>
        have hblank : ∀ c ∈ [' '], endsLine c = false := List.forall_mem_singleton.mpr rfl
        have hsplit : Text.splitWhen endsLine (' ' :: c :: cs) =
            (Text.splitWhen endsLine (c :: cs)).modifyHead ([' '] ++ ·) :=
          Text.splitWhen_append hblank (c :: cs)
        simp only [hsplit, List.tail_modifyHead]
  have hslashes : ∀ c ∈ ['/', '/'], endsLine c = false :=
    List.forall_mem_cons.mpr ⟨rfl, List.forall_mem_singleton.mpr rfl⟩
  have hsplit : Text.splitWhen endsLine ('/' :: '/' :: rest) =
      (Text.splitWhen endsLine rest).modifyHead (['/', '/'] ++ ·) :=
    Text.splitWhen_append hslashes rest
  rw [programLines, String.toList_ofList, hrest, ← htail, hsplit]
  cases hpieces : Text.splitWhen endsLine rest with
  | nil => exact absurd hpieces (Text.splitWhen_ne_nil _ _)
  | cons piece pieces => exact ⟨'/' :: '/' :: piece, isCommentLine_append 0 piece, rfl⟩

theorem comment_lines (text : String) :
    (∀ line ∈ programLines (comment text), isCommentLine line = true) ↔
      ∀ line ∈ Text.split '\n' text,
        ∀ piece ∈ (Text.splitWhen endsLine (Text.trimEnd line.toList)).tail,
          isCommentLine piece = true := by
  have hlines : (Text.split '\n' text).map (fun line =>
      String.ofList (Text.trimEnd ("// " ++ line).toList)) ≠ [] := by
    rw [Text.split, List.map_map]
    exact List.map_eq_nil_iff.not.mpr (Text.splitWhen_ne_nil _ _)
  -- A line of the text begins a comment; only what a line end within it cuts off can be none.
  rw [comment, programLines_intercalate hlines, List.flatMap_map]
  simp only [List.forall_mem_flatMap]
  refine forall_congr' fun line => forall_congr' fun _ => ?_
  obtain ⟨first, hfirst, hpieces⟩ := programLines_commentLine line
  rw [hpieces, List.forall_mem_cons]
  exact ⟨And.right, fun htail => ⟨hfirst, htail⟩⟩

/-! ## Comments on fields -/

/-- A comment of a field is split at every line end there is, so no line of it runs on. -/
theorem endsLine_of_mem_commentLines {deprecated : Bool} {description : Json}
    {comments : List String} (h : commentLines deprecated description = .ok comments) :
    ∀ comment ∈ comments, ∀ c ∈ comment.toList, endsLine c = false := by
  -- A description is cut at all line ends of a program, and at some more.
  have hends : ∀ c, Text.isLineEnd c = false → endsLine c = false := by
    intro c hc
    simp only [endsLine, Bool.or_eq_false_iff, beq_eq_false_iff_ne]
    refine ⟨⟨⟨?_, ?_⟩, ?_⟩, ?_⟩ <;> rintro rfl <;> cases hc
  unfold commentLines at h
  split at h
  · cases h
    have hdeprecated : "@deprecated".toList.all (fun c => !endsLine c) = true := by decide
    intro comment hmem c hc
    rw [List.mem_singleton.mp hmem] at hc
    simpa using List.all_eq_true.mp hdeprecated c hc
  split at h
  · cases h
    simp
  split at h
  · cases h
    intro comment hmem c hc
    obtain ⟨line, hline, rfl⟩ := List.mem_map.mp hmem
    rw [String.toList_ofList] at hc
    exact hends c (Text.isLineEnd_of_mem_lines hline c (Text.mem_of_mem_trim hc))
  · cases h

/-- Trimming stops at the slashes, so the indentation stays even if the comment is empty. -/
theorem trimEnd_commentLine (depth : Int) (comment : String) :
    Text.trimEnd (indent depth ++ "// " ++ comment).toList =
      List.replicate (2 * depth).toNat ' ' ++ '/' :: '/' :: Text.trimEnd (' ' :: comment.toList) := by
  rw [← trimEnd_slashes, ← Text.trimEnd_append (by simp [trimEnd_slashes])]
  simp [indent]

/-- No comment on a field holds a line end. -/
def Field.KeepsLines (field : Field) : Prop :=
  ∀ comment ∈ field.comments, ∀ c ∈ comment.toList, endsLine c = false

/-- The comments on the fields of a shape are those on its properties. -/
theorem keepsLines_of_fields {depth : Int} {schema : Schema} {list : List Field}
    (h : fields depth schema = .ok list) : ∀ field ∈ list, field.KeepsLines := by
  refine forall_field_of_fields h (fun property _ field hfield => ?_) fun rest _ type _ => ?_
  · exact endsLine_of_mem_commentLines hfield.comments
  · exact fun comment hmem => nomatch hmem

/-- Two slashes after blanks make a comment of a text without line ends. -/
theorem isCommentLine_of_toList {text : String} {blanks : Nat} {rest : List Char}
    (htext : text.toList = List.replicate blanks ' ' ++ '/' :: '/' :: rest)
    (hrest : ∀ c ∈ rest, endsLine c = false) :
    ∀ line ∈ programLines text, isCommentLine line = true := by
  have hkept : ∀ c ∈ text.toList, endsLine c = false := by
    intro c hc
    rw [htext, List.mem_append, List.mem_cons, List.mem_cons] at hc
    rcases hc with hblank | rfl | rfl | hmem
    · rw [List.eq_of_mem_replicate hblank]
      rfl
    · rfl
    · rfl
    · exact hrest c hmem
  intro line hline
  rw [programLines, Text.splitWhen_of_forall hkept, List.mem_singleton] at hline
  rw [hline, htext]
  exact isCommentLine_append blanks rest

/-- Every line of a field but its last is a comment. -/
theorem Field.KeepsLines.interfaceLines {field : Field} (h : field.KeepsLines) :
    ∀ text ∈ field.interfaceLines.dropLast, ∀ line ∈ programLines text,
      isCommentLine line = true := by
  rw [Field.interfaceLines, List.dropLast_concat]
  intro text htext
  obtain ⟨comment, hmem, rfl⟩ := List.mem_map.mp htext
  by_cases hempty : comment.isEmpty = true
  · have hbare : ("  //" ++ "").toList = List.replicate 2 ' ' ++ ['/', '/'] := rfl
    rw [if_pos hempty]
    exact isCommentLine_of_toList hbare (by simp)
  · have hfilled : ("  //" ++ (" " ++ comment)).toList =
        List.replicate 2 ' ' ++ '/' :: '/' :: ' ' :: comment.toList := by simp
    rw [if_neg hempty]
    exact isCommentLine_of_toList hfilled (List.forall_mem_cons.mpr ⟨rfl, h comment hmem⟩)

theorem Field.KeepsLines.literalLines {field : Field} (h : field.KeepsLines) (depth : Int) :
    ∀ text ∈ (field.literalLines depth).dropLast, ∀ line ∈ programLines text,
      isCommentLine line = true := by
  rw [Field.literalLines, List.dropLast_concat]
  intro text htext
  obtain ⟨comment, hmem, rfl⟩ := List.mem_map.mp htext
  have htrimmed := trimEnd_commentLine depth comment
  refine isCommentLine_of_toList ((String.toList_ofList).trans htrimmed) fun c hc => ?_
  rcases List.mem_cons.mp (Text.mem_of_mem_trimEnd hc) with rfl | hcomment
  · rfl
  · exact h comment hmem c hcomment

/-- The lines of a comment on an operation are all comments if and only if no line of its text goes on
with anything else after a carriage return or a separator. The lines of the comments on the fields of
a shape are all comments. -/
theorem comments_stay (text : String) {depth : Int} {schema : Schema} {list : List Field}
    (h : fields depth schema = .ok list) :
    ((∀ line ∈ programLines (comment text), isCommentLine line = true) ↔
      ∀ line ∈ Text.split '\n' text,
        ∀ piece ∈ (Text.splitWhen endsLine (Text.trimEnd line.toList)).tail,
          isCommentLine piece = true) ∧
    ∀ field ∈ list, ∀ inner,
      ∀ comment ∈ field.interfaceLines.dropLast ++ (field.literalLines inner).dropLast,
        ∀ line ∈ programLines comment, isCommentLine line = true := by
  refine ⟨comment_lines text, fun field hmem inner comment hcomment => ?_⟩
  have hkept := keepsLines_of_fields h field hmem
  rcases List.mem_append.mp hcomment with hinterface | hliteral
  · exact hkept.interfaceLines comment hinterface
  · exact hkept.literalLines inner comment hliteral

/-- An object with a property whose description goes on after a separator of lines. -/
def separatedSchema : Schema :=
  { properties := [(.text "a", { kind := .string, description := .string "one\u2028two" })] }

/-- The theorem at a path and at a description that both go on after a separator of lines: the path
with a comment, the description with any text. -/
theorem comments_stay_separator :
    (∀ line ∈ programLines (comment "GET /a\u2028// b"), isCommentLine line = true) ∧
    ∃ list, fields 1 separatedSchema = .ok list ∧
      list.map Field.comments = [["one", "two"]] ∧
      ∀ field ∈ list, ∀ text ∈ field.interfaceLines.dropLast ++ (field.literalLines 2).dropLast,
        ∀ line ∈ programLines text, isCommentLine line = true := by
  have hfields : fields 1 separatedSchema =
      .ok [{ key := "a", optional := true, type := "string", comments := ["one", "two"] }] := rfl
  obtain ⟨hcomment, hfieldLines⟩ := comments_stay "GET /a\u2028// b" hfields
  exact ⟨hcomment.mpr (by decide), _, hfields, rfl, fun field hmem => hfieldLines field hmem 2⟩

/-- After a carriage return in a path the comment on its operation is at an end. -/
theorem not_isCommentLine_of_carriageReturn :
    ¬∀ line ∈ programLines (comment "GET /a\rb"), isCommentLine line = true := by
  decide

end TypeScript

end ApiTypes
