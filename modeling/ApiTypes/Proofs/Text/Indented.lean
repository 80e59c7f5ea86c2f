import ApiTypes.Proofs.Text.Paragraphs

/-!
# Indented texts

Blanks put in after every line feed move all lines of a text but the first. A text that is put
together from parts is moved part by part, and parts on one line stay as they are.
-/

namespace ApiTypes.Text

variable {text : String}

def blanks (width : Nat) : String :=
  String.ofList (List.replicate width ' ')

/-- The text with so many blanks put in after each of its line feeds. -/
def indented (width : Nat) (text : String) : String :=
  String.ofList (text.toList.flatMap fun c =>
    if c = '\n' then '\n' :: List.replicate width ' ' else [c])

example : indented 2 "a\n b\n\nc" = "a\n   b\n  \n  c" := by decide +kernel

/-- Indenting works character by character. -/
theorem indented_append (width : Nat) (first second : String) :
    indented width (first ++ second) = indented width first ++ indented width second := by
  rw [indented, String.toList_append, List.flatMap_append, String.ofList_append]
  rfl

/-- A text of one line has nothing to indent. -/
theorem indented_of_onOneLine (width : Nat) (h : OnOneLine text) : indented width text = text := by
  have hkept : ∀ c ∈ text.toList,
      (if c = '\n' then '\n' :: List.replicate width ' ' else [c]) = [c] := by
    intro c hc
    refine if_neg ?_
    rintro rfl
    exact h hc
  rw [indented, List.flatMap_congr hkept, List.flatMap_singleton', String.ofList_toList]

theorem indented_break (width : Nat) : indented width "\n" = "\n" ++ blanks width := by
  rw [blanks, ← String.toList_inj, indented, String.toList_append]
  simp

theorem indented_intercalate (width : Nat) (separator : String) (texts : List String) :
    indented width (separator.intercalate texts) =
      (indented width separator).intercalate (texts.map (indented width)) := by
  induction texts with
  | nil =>
    simp only [String.intercalate_nil, List.map_nil]
    exact indented_of_onOneLine width (by decide)
  | cons text texts ih =>
    by_cases hnil : texts = []
    · simp [hnil]
    · have hmapped : texts.map (indented width) ≠ [] := List.map_eq_nil_iff.not.mpr hnil
      rw [String.intercalate_cons_of_ne_nil hnil, indented_append, indented_append, ih,
        List.map_cons, String.intercalate_cons_of_ne_nil hmapped]

/-- What ends a separator begins the texts after it. -/
theorem intercalate_append_separator (separator margin first : String) (rest : List String) :
    (separator ++ margin).intercalate (first :: rest) =
      separator.intercalate (first :: rest.map (margin ++ ·)) := by
  induction rest generalizing first with
  | nil => simp
  | cons second rest ih =>
    rw [String.intercalate_cons_cons, ih, List.map_cons, String.intercalate_cons_cons,
      String.intercalate_cons_append]
    simp only [String.append_assoc]

/-- Of lines that are joined, all but the first get the blanks in front. -/
theorem indented_lines (width : Nat) (first : String) (rest : List String) :
    indented width ("\n".intercalate (first :: rest)) =
      "\n".intercalate
        (indented width first :: rest.map fun line => blanks width ++ indented width line) := by
  rw [indented_intercalate, indented_break, List.map_cons, intercalate_append_separator,
    List.map_map]
  rfl

end ApiTypes.Text
