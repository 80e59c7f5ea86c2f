import ApiTypes.Json.Reader
import ApiTypes.Proofs.Outcome
import ApiTypes.Proofs.Text.Paragraphs

/-!
# Literals are read as they were written

A text between double quotes is read as that text, whatever its characters are, by the reader of
literals and by that of JSON texts. It holds no control character, so it stays on one line.
-/

namespace ApiTypes

namespace Text

/-! ## Writing -/

/-- No hexadecimal digit is a quote, a backslash or a control character. -/
theorem hexDigit_kept : ∀ n < 16,
    hexDigit n ≠ '"' ∧ hexDigit n ≠ '\\' ∧ 0x20 ≤ (hexDigit n).toNat := by
  decide

theorem of_mem_hexDigits {width n : Nat} {c : Char} (h : c ∈ hexDigits width n) :
    c ≠ '"' ∧ c ≠ '\\' ∧ 0x20 ≤ c.toNat := by
  induction width generalizing n with
  | zero => cases h
  | succ width ih =>
    rcases List.mem_append.mp h with hmem | hmem
    · exact ih hmem
    · rw [List.mem_singleton.mp hmem]
      exact hexDigit_kept _ (Nat.mod_lt n (by decide))

/-- No control character is written inside double quotes. -/
theorem toNat_of_mem_quoteChar {c written : Char} (h : written ∈ quoteChar c) :
    0x20 ≤ written.toNat := by
  have hpair : ∀ {escaped}, 0x20 ≤ escaped.toNat → written ∈ ['\\', escaped] →
      0x20 ≤ written.toNat := by
    intro escaped hescaped hmem
    rcases List.mem_pair.mp hmem with rfl | rfl
    · decide
    · exact hescaped
  unfold quoteChar at h
  split_ifs at h with hquote hslash hline hreturn htab hback hfeed hcontrol
  iterate 7 exact hpair (by decide) h
  · rcases List.mem_append.mp h with hmem | hmem
    · exact hpair (by decide) hmem
    · exact (of_mem_hexDigits hmem).2.2
  · rw [List.mem_singleton.mp h]
    exact Nat.le_of_not_lt hcontrol

theorem toNat_of_mem_quoted {s : String} {c : Char} (h : c ∈ (quoted s).toList) :
    0x20 ≤ c.toNat := by
  rw [quoted, String.toList_ofList, List.mem_append, List.mem_append, List.mem_flatMap,
    List.mem_singleton] at h
  rcases h with (rfl | ⟨written, _, hmem⟩) | rfl
  · decide
  · exact toNat_of_mem_quoteChar hmem
  · decide

theorem onOneLine_quoted (s : String) : OnOneLine (quoted s) :=
  fun hmem => absurd (toNat_of_mem_quoted hmem) (by decide)

/-! ## Reading -/

/-- The escape of a control character has two digits that are not zero. -/
theorem hexDigits_control : ∀ n < 0x20,
    hexDigits 4 n = ['0', '0', hexDigit (n / 16), hexDigit (n % 16)] ∧
      hexUnit? '0' '0' (hexDigit (n / 16)) (hexDigit (n % 16)) = some n := by
  decide

/-- A character that needs no escape is read as itself. -/
theorem readUnits_cons {c : Char} (hquote : c ≠ '"') (hslash : c ≠ '\\') (hkept : ¬c.toNat < 0x20)
    (rest : List Char) :
    readUnits (c :: rest) = (readUnits rest).map fun found => (c.toNat :: found.1, found.2) := by
  rw [readUnits]
  · rw [if_neg (by simp [hkept, hslash])]
    cases readUnits rest <;> rfl
  · exact hquote
  · exact fun _ _ _ _ _ hsame _ => hslash hsame
  · exact fun _ _ hsame _ => hslash hsame

/-- An escaped character is read as the one that it stands for. -/
theorem readUnits_escaped {c written : Char} (h : escapedChar? c = some written) (hu : c ≠ 'u')
    (rest : List Char) : readUnits ('\\' :: c :: rest) =
      (readUnits rest).map fun found => (written.toNat :: found.1, found.2) := by
  rw [readUnits]
  · rw [h]
    cases readUnits rest <;> rfl
  · exact fun _ _ _ _ _ hsame _ => hu hsame

/-- What a character is written as is read as that character. -/
theorem readUnits_quoteChar (c : Char) (rest : List Char) :
    readUnits (quoteChar c ++ rest) =
      (readUnits rest).map fun found => (c.toNat :: found.1, found.2) := by
  unfold quoteChar
  -- Seven characters have an escape of their own, other controls have four digits.
  split_ifs with hquote hslash hline hreturn htab hback hfeed hcontrol
  · subst hquote
    exact readUnits_escaped rfl (by decide) rest
  · subst hslash
    exact readUnits_escaped rfl (by decide) rest
  · subst hline
    exact readUnits_escaped rfl (by decide) rest
  · subst hreturn
    exact readUnits_escaped rfl (by decide) rest
  · subst htab
    exact readUnits_escaped rfl (by decide) rest
  · subst hback
    exact readUnits_escaped rfl (by decide) rest
  · subst hfeed
    exact readUnits_escaped rfl (by decide) rest
  · obtain ⟨hdigits, hunit⟩ := hexDigits_control c.toNat hcontrol
    rw [hdigits]
    show readUnits ('\\' :: 'u' :: '0' :: '0' :: _ :: _ :: rest) = _
    rw [readUnits, hunit]
    cases readUnits rest <;> rfl
  · exact readUnits_cons hquote hslash hcontrol rest

theorem readUnits_quoted (cs rest : List Char) :
    readUnits (cs.flatMap quoteChar ++ '"' :: rest) = some (cs.map Char.toNat, rest) := by
  induction cs with
  | nil => rfl
  | cons c cs ih =>
    rw [List.flatMap_cons, List.append_assoc, readUnits_quoteChar, ih]
    rfl

/-- No character is half of a surrogate pair, so each is a unit of its own. -/
theorem joinUnits_toNat (cs : List Char) : joinUnits (cs.map Char.toNat) = cs := by
  -- No character is half of a surrogate pair, so that no two units are joined.
  have hhigh : ∀ c : Char, isHighSurrogate c.toNat = false := by
    intro c
    have hvalid : c.toNat < 0xd800 ∨ 0xdfff < c.toNat ∧ c.toNat < 0x110000 := c.valid
    rw [isHighSurrogate, Bool.and_eq_false_iff, decide_eq_false_iff_not, decide_eq_false_iff_not]
    omega
  have hunit : ∀ c : Char, unitChar c.toNat = c := by
    intro c
    have hvalid : c.toNat < 0xd800 ∨ 0xdfff < c.toNat ∧ c.toNat < 0x110000 := c.valid
    have hlow : isLowSurrogate c.toNat = false := by
      rw [isLowSurrogate, Bool.and_eq_false_iff, decide_eq_false_iff_not, decide_eq_false_iff_not]
      omega
    rw [unitChar, hhigh, hlow, Bool.or_self, if_neg Bool.false_ne_true, Char.ofNat_toNat]
  induction cs with
  | nil => rfl
  | cons c cs ih =>
    cases cs with
    | nil => rw [List.map_singleton, joinUnits, hunit]
    | cons next cs =>
      rw [List.map_cons, List.map_cons, joinUnits, hhigh, Bool.false_and, if_neg Bool.false_ne_true,
        hunit, ← List.map_cons, ih]

/-- A quoted text is read back up to its closing quote. -/
theorem readQuoted_quoted (cs rest : List Char) :
    readQuoted (cs.flatMap quoteChar ++ '"' :: rest) = some (cs, rest) := by
  rw [readQuoted, readUnits_quoted, Option.map_some]
  exact congrArg (fun text => some (text, rest)) (joinUnits_toNat cs)

end Text

/-- A text between double quotes is a JSON text for it. -/
theorem Json.read_quoted (s : String) : Json.read (Text.quoted s) = .ok (.string s) := by
  have hlist : (Text.quoted s).toList = '"' :: (s.toList.flatMap Text.quoteChar ++ ['"']) := by
    rw [Text.quoted, String.toList_ofList]
    rfl
  have hstart : Json.skipSpaces (Text.quoted s).toList = (Text.quoted s).toList := by
    rw [hlist]
    rfl
  rw [Json.read]
  dsimp only
  rw [hstart, hlist, Json.readValue, Text.readQuoted_quoted]
  show Except.ok (Json.string (String.ofList s.toList)) = _
  rw [String.ofList_toList]

end ApiTypes
