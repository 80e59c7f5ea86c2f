import Mathlib.Data.List.Nodup
import ApiTypes.Proofs.Text.Quoted
import ApiTypes.Proofs.TypeScript.Names
import ApiTypes.Proofs.TypeScript.Parts

/-!
# The keys of fields

The key of a property is its name, if that is an identifier, and else a literal that is read as the
name. One name is taken for an identifier that is none: an identifier with a line feed after it is
written as it is, and a program takes the line feed for the blank that it is.
-/

namespace ApiTypes.TypeScript

/-! ## Names -/

def IdentifierLine (name : String) : Prop :=
  ∃ word : String, isIdentifier word.toList = true ∧ name = word ++ "\n"

/-- The test for a key takes an identifier, and also one with a line feed behind it. -/
theorem isPlainKey_iff {name : String} :
    isPlainKey name.toList = true ↔ isIdentifier name.toList = true ∨ IdentifierLine name := by
  simp only [isPlainKey, Bool.or_eq_true, Bool.and_eq_true, beq_iff_eq]
  refine or_congr_right ⟨fun ⟨hlast, hword⟩ => ?_, ?_⟩
  · refine ⟨String.ofList name.toList.dropLast, by rwa [String.toList_ofList], ?_⟩
    rw [← String.toList_inj, String.toList_append, String.toList_ofList]
    exact (List.dropLast_append_getLast? '\n' hlast).symm
  · rintro ⟨word, hword, rfl⟩
    have hlist : (word ++ "\n").toList = word.toList ++ ['\n'] := String.toList_append
    rw [hlist, List.getLast?_concat, List.dropLast_concat]
    exact ⟨rfl, hword⟩

theorem not_isIdentifier_of_line {name : String} (h : IdentifierLine name) :
    ¬isIdentifier name.toList = true := by
  obtain ⟨word, _, rfl⟩ := h
  intro hname
  exact onOneLine_of_isIdentifier hname (by simp)

/-! ## Keys -/

def keyOf (name : String) : String :=
  if isPlainKey name.toList then name else Text.quoted name

theorem keyText_text (name : String) : keyText (.text name) = .ok (keyOf name) := rfl

/-- What is written for a key: an identifier, one with a line feed after it, or a literal. -/
theorem keyText_cases {name : PropertyName} {key : String} (h : keyText name = .ok key) :
    isIdentifier key.toList = true ∨ IdentifierLine key ∨ ∃ text, key = Text.quoted text := by
  cases name with
  | scalar => cases h
  | text name =>
    rw [keyText_text, Except.ok.injEq] at h
    subst h
    unfold keyOf
    split
    · rename_i hplain
      rcases isPlainKey_iff.mp hplain with hname | hline
      · exact .inl hname
      · exact .inr (.inl hline)
    · exact .inr (.inr ⟨name, rfl⟩)

/-- A key that is written for a name: the name itself, which is then an identifier, or a double-quoted
literal that is read as the name and stands on one line, as it has no control character. -/
inductive Spells (name : String) : String → Prop
  | plain (hname : isIdentifier name.toList = true) : Spells name name
  | quoted {key : String} (hquotes : ∃ inner : String, key = "\"" ++ inner ++ "\"")
      (hline : ∀ c ∈ key.toList, 0x20 ≤ c.toNat) (hread : Json.read key = .ok (.string name)) :
      Spells name key

/-- The property that a key declares in a program: a word up to the blanks after it, or what a
literal is read as. -/
def declared? (key : String) : Option String :=
  let word := key.toList.takeWhile isNameChar
  if isIdentifier word && (key.toList.dropWhile isNameChar).all Json.isSpace then
    some (String.ofList word)
  else
    match Json.read key with
    | .ok (.string name) => some name
    | _ => none

theorem quoted_eq (name : String) : ∃ inner : String, Text.quoted name = "\"" ++ inner ++ "\"" := by
  refine ⟨String.ofList (name.toList.flatMap Text.quoteChar), String.toList_injective ?_⟩
  simp [Text.quoted]

/-- Every name but an identifier with a line feed after it is spelled by its key. -/
theorem spells_keyOf (name : String) : Spells name (keyOf name) ↔ ¬IdentifierLine name := by
  by_cases hname : isIdentifier name.toList = true
  · rw [keyOf, if_pos (isPlainKey_iff.mpr (.inl hname))]
    exact ⟨fun _ hline => not_isIdentifier_of_line hline hname, fun _ => .plain hname⟩
  · by_cases hline : IdentifierLine name
    · rw [keyOf, if_pos (isPlainKey_iff.mpr (.inr hline))]
      refine ⟨fun h => ?_, fun h => absurd hline h⟩
      cases h with
      | plain => exact absurd ‹_› hname
      | quoted _ hprintable _ =>
        obtain ⟨word, _, rfl⟩ := hline
        exact absurd (hprintable '\n' (by simp)) (by decide)
    · rw [keyOf, if_neg (by rw [isPlainKey_iff]; exact not_or.mpr ⟨hname, hline⟩)]
      exact ⟨fun _ => hline,
        fun _ => .quoted (quoted_eq name) (fun _ => Text.toNat_of_mem_quoted) (Json.read_quoted name)⟩

/-- An identifier with a line feed behind it is left without quotes. -/
theorem keyOf_of_line {name : String} (h : IdentifierLine name) : keyOf name = name :=
  if_pos (isPlainKey_iff.mpr (.inr h))

/-- A word with blanks after it declares the property of that word. -/
theorem declared?_of_word {key word : String} {blanks : List Char}
    (hword : isIdentifier word.toList = true) (hkey : key.toList = word.toList ++ blanks)
    (hblanks : ∀ c ∈ blanks, Json.isSpace c = true ∧ isNameChar c = false) :
    declared? key = some word := by
  have hchars := nameChars_of_isIdentifier hword
  -- The blanks behind the word are no part of a name, so that the word is what is taken.
  have hstop : blanks.takeWhile isNameChar = [] ∧ blanks.dropWhile isNameChar = blanks := by
    cases blanks with
    | nil => exact ⟨rfl, rfl⟩
    | cons c blanks =>
      have hc := (hblanks c List.mem_cons_self).2
      exact ⟨List.takeWhile_cons_of_neg (by simp [hc]), List.dropWhile_cons_of_neg (by simp [hc])⟩
  have htake : key.toList.takeWhile isNameChar = word.toList := by
    rw [hkey, List.takeWhile_append_of_pos hchars, hstop.1, List.append_nil]
  have hdrop : key.toList.dropWhile isNameChar = blanks := by
    rw [hkey, List.dropWhile_append_of_pos hchars, hstop.2]
  have hspaces : blanks.all Json.isSpace = true :=
    List.all_eq_true.mpr fun c hc => (hblanks c hc).1
  simp only [declared?, htake, hdrop, hword, hspaces, Bool.and_self, if_true, String.ofList_toList]

theorem declared?_of_read {key name : String} (hquotes : ∃ inner : String, key = "\"" ++ inner ++ "\"")
    (hread : Json.read key = .ok (.string name)) : declared? key = some name := by
  have hword : isIdentifier (key.toList.takeWhile isNameChar) = false := by
    obtain ⟨inner, rfl⟩ := hquotes
    rw [String.toList_append, String.toList_append]
    rfl
  simp only [declared?, hword, hread, Bool.false_and, Bool.false_eq_true, if_false]

/-- A key declares the property that it spells. -/
theorem Spells.declared? {name key : String} (h : Spells name key) :
    declared? key = some name := by
  cases h with
  | plain hname => exact declared?_of_word hname (List.append_nil _).symm fun c hc => nomatch hc
  | quoted hquotes _ hread => exact declared?_of_read hquotes hread

/-- What the key of a name declares: the property of that name, or of the word that the name is but
for a line feed. -/
theorem declared?_keyOf (name : String) :
    ¬IdentifierLine name ∧ declared? (keyOf name) = some name ∨
      ∃ word : String, isIdentifier word.toList = true ∧ name = word ++ "\n" ∧
        declared? (keyOf name) = some word := by
  by_cases hline : IdentifierLine name
  · obtain ⟨word, hword, hname⟩ := hline
    refine .inr ⟨word, hword, hname, ?_⟩
    rw [keyOf_of_line ⟨word, hword, hname⟩]
    exact declared?_of_word hword (hname ▸ String.toList_append)
      (List.forall_mem_singleton.mpr ⟨rfl, rfl⟩)
  · exact .inl ⟨hline, ((spells_keyOf name).mpr hline).declared?⟩

theorem declared?_index : declared? "[index: string]" = none := by
  decide +kernel

/-! ## Fields -/

variable {schema : Schema} {names : List String} {depth : Int} {list : List Field}

/-- The keys of an object are those of its names, in order, and that of the index signature. -/
theorem map_key_of_fields (hnames : schema.properties.map (·.1) = names.map .text)
    (h : fields depth schema = .ok list) :
    list.map Field.key =
      names.map keyOf ++ schema.additional.toList.map fun _ => "[index: string]" := by
  -- The fields are those of the properties, and then the one for further properties.
  obtain ⟨own, index, hown, hindex, rfl⟩ := fields_eq_ok.mp h
  rw [List.map_append]
  congr 1
  · have hkeys : List.Forall₂ (fun name key => keyText name = .ok key)
        (schema.properties.map (·.1)) (own.map Field.key) := by
      rw [List.forall₂_map_left_iff, List.forall₂_map_right_iff]
      exact hown.imp fun _ _ hfield => hfield.key
    rw [hnames, List.forall₂_map_left_iff] at hkeys
    rw [← List.forall₂_eq_eq_eq, List.forall₂_map_right_iff]
    exact hkeys.flip.imp fun _ _ hkey => (Except.ok.inj hkey).symm
  · rw [← List.forall₂_eq_eq_eq, List.forall₂_map_left_iff, List.forall₂_map_right_iff]
    refine hindex.flip.imp fun _ _ hfield => ?_
    obtain ⟨_, _, rfl⟩ := hfield
    rfl

/-- Keys are read back apart exactly if no identifier comes both with and without that line feed. -/
theorem declared?_inj_iff (names : List String) :
    (∀ first ∈ names, ∀ second ∈ names,
      declared? (keyOf first) = declared? (keyOf second) → first = second) ↔
      ∀ word ∈ names, isIdentifier word.toList = true → word ++ "\n" ∉ names := by
  constructor
  · intro h word hword hidentifier hline
    have hnot : ¬IdentifierLine word := fun hline => not_isIdentifier_of_line hline hidentifier
    -- The name with the line feed is printed bare, and what it declares is read without it.
    have hdeclared : declared? (keyOf (word ++ "\n")) = some word := by
      rw [keyOf_of_line ⟨word, hidentifier, rfl⟩]
      exact declared?_of_word hidentifier String.toList_append
        (List.forall_mem_singleton.mpr ⟨rfl, rfl⟩)
    have hsame := h _ hline _ hword (hdeclared.trans ((spells_keyOf word).mpr hnot).declared?.symm)
    have hlength := congrArg String.length hsame
    rw [String.length_append] at hlength
    exact absurd hlength (by simp)
  · intro hfree first hfirst second hsecond hsame
    rcases declared?_keyOf first with ⟨_, hname⟩ | ⟨word, hword, rfl, hname⟩ <;>
      rcases declared?_keyOf second with ⟨_, hother⟩ | ⟨other, hidentifier, rfl, hother⟩ <;>
      rw [hname, hother, Option.some.injEq] at hsame <;> subst hsame
    · rfl
    · exact absurd hsecond (hfree _ hfirst hidentifier)
    · exact absurd hfirst (hfree _ hsecond hword)
    · rfl

/-- Distinct names declare distinct properties, none of them the index signature, if and only if none
of them is another one, an identifier, with a line feed after it. -/
theorem nodup_declared (hnames : schema.properties.map (·.1) = names.map .text)
    (hdistinct : names.Nodup) (h : fields depth schema = .ok list) :
    (list.map fun field => declared? field.key).Nodup ↔
      ∀ word ∈ names, isIdentifier word.toList = true → word ++ "\n" ∉ names := by
  have hdeclared : (list.map fun field => declared? field.key) =
      (names.map fun name => declared? (keyOf name)) ++
        schema.additional.toList.map fun _ => none := by
    have hkeys := congrArg (List.map declared?) (map_key_of_fields hnames h)
    simpa only [List.map_append, List.map_map, Function.comp_def, declared?_index] using hkeys
  have hindex : (schema.additional.toList.map fun _ => (none : Option String)).Nodup := by
    cases schema.additional <;> simp
  -- The field for further properties declares no name, whereas the others all do.
  have hsome : ∀ first ∈ names.map (fun name => declared? (keyOf name)),
      ∀ second ∈ schema.additional.toList.map (fun _ => none), first ≠ second := by
    refine List.forall_mem_map.mpr fun name _ => List.forall_mem_map.mpr fun _ _ hnone => ?_
    rcases declared?_keyOf name with ⟨_, hname⟩ | ⟨_, _, _, hname⟩ <;>
      exact absurd (hname.symm.trans hnone) (Option.some_ne_none _)
  rw [hdeclared, List.nodup_append, List.nodup_map_iff_inj_on hdistinct, declared?_inj_iff]
  exact and_iff_left ⟨hindex, hsome⟩

/-- The keys of an object are those of its names, in order, and that of the index signature. A key
spells its name, unless the name is an identifier with a line feed after it, which is written as it
is. Distinct names declare distinct properties, none of them the index signature, if and only if none
of them is another one, an identifier, with a line feed after it. -/
theorem fields_keys (hnames : schema.properties.map (·.1) = names.map .text)
    (h : fields depth schema = .ok list) :
    (∃ keys, list.map Field.key = keys ++ (schema.additional.toList.map fun _ => "[index: string]") ∧
      List.Forall₂ (fun name key => (Spells name key ↔ ¬IdentifierLine name) ∧
        (IdentifierLine name → key = name)) names keys) ∧
    (names.Nodup → ((list.map fun field => declared? field.key).Nodup ↔
      ∀ word ∈ names, isIdentifier word.toList = true → word ++ "\n" ∉ names)) := by
  refine ⟨⟨names.map keyOf, map_key_of_fields hnames h, ?_⟩, fun hdistinct =>
    nodup_declared hnames hdistinct h⟩
  rw [List.forall₂_map_right_iff, List.forall₂_same]
  exact fun name _ => ⟨spells_keyOf name, keyOf_of_line⟩

/-- An object with a word, a text of two lines in quotes and further properties. -/
def quotingSchema : Schema :=
  { properties := [(.text "tag", { kind := .string }), (.text "\"a\"\nb", { kind := .number })],
    additional := some { kind := .boolean } }

theorem fields_keys_quoting :
    quotingSchema.properties.map (·.1) = ["tag", "\"a\"\nb"].map .text ∧
    ∃ list, fields 1 quotingSchema = .ok list ∧
      list.map Field.key = ["tag", "\"\\\"a\\\"\\nb\"", "[index: string]"] ∧
      ["tag", "\"a\"\nb"].Nodup ∧ (list.map fun field => declared? field.key).Nodup := by
  have hnames : quotingSchema.properties.map (·.1) = ["tag", "\"a\"\nb"].map .text := rfl
  have hdistinct : ["tag", "\"a\"\nb"].Nodup := by decide
  obtain ⟨list, hlist⟩ : ∃ list, fields 1 quotingSchema = .ok list := ⟨_, rfl⟩
  refine ⟨hnames, list, hlist, ?_, hdistinct, ?_⟩
  · rw [map_key_of_fields hnames hlist]
    decide +kernel
  · exact ((fields_keys hnames hlist).2 hdistinct).mpr (by decide +kernel)

def linedSchema : Schema :=
  { properties := [(.text "a", { kind := .string }), (.text "a\n", { kind := .number })] }

/-- The second key is not the identifier that it is taken for, and declares the first property once
more. -/
theorem not_spells_line :
    ∃ list, fields 1 linedSchema = .ok list ∧ list.map Field.key = ["a", "a\n"] ∧
      ¬Spells "a\n" "a\n" ∧ ¬(list.map fun field => declared? field.key).Nodup := by
  refine ⟨_, rfl, by decide +kernel, fun hspells => ?_, by decide +kernel⟩
  have hline : IdentifierLine "a\n" := ⟨"a", rfl, rfl⟩
  have hkey : keyOf "a\n" = "a\n" := keyOf_of_line hline
  exact (spells_keyOf "a\n").mp (by rwa [hkey]) hline

end ApiTypes.TypeScript
