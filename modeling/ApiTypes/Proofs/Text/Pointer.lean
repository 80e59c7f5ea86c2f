import ApiTypes.Proofs.Text.Cutting
import ApiTypes.Text.Pointer

/-!
# Names as segments of references

How a name is written as a segment of a reference: tildes and slashes as `~0` and `~1`, then the
characters outside a class as percent escapes of their octets. Such a segment is read as the name,
whatever the class is, as long as the percent sign is outside of it.
-/

namespace ApiTypes.Text

/-! ## Octets -/

section Octets

variable {us : List PercentUnit}

/-- The first octet of a character of several is kept until the others come. -/
theorem unitsTextFrom_begin {b : Nat} {p : Partial} (h : beginOctet b = ([], some p)) :
    unitsTextFrom none (.octet b :: us) = unitsTextFrom (some p) us := by
  rw [unitsTextFrom, h]
  rfl

/-- A further octet in its range adds its six bits. -/
theorem unitsTextFrom_further {missing low high bits d : Nat} (hlow : low ≤ 0x80 + d)
    (hhigh : 0x80 + d ≤ high) :
    unitsTextFrom (some ⟨missing + 2, low, high, bits⟩) (.octet (0x80 + d) :: us) =
      unitsTextFrom (some ⟨missing + 1, 0x80, 0xbf, bits * 64 + d⟩) us := by
  rw [unitsTextFrom, Partial.continueOctet, if_pos ⟨hlow, hhigh⟩]
  simp

theorem unitsTextFrom_last {low high bits d : Nat} (hlow : low ≤ 0x80 + d)
    (hhigh : 0x80 + d ≤ high) :
    unitsTextFrom (some ⟨1, low, high, bits⟩) (.octet (0x80 + d) :: us) =
      Char.ofNat (bits * 64 + d) :: unitsTextFrom none us := by
  rw [unitsTextFrom, Partial.continueOctet, if_pos ⟨hlow, hhigh⟩]
  simp

end Octets

theorem beginOctet_of_two {n : Nat} (hlow : 0x80 ≤ n) (hhigh : n < 0x800) :
    beginOctet (0xc0 + n / 64) = ([], some ⟨1, 0x80, 0xbf, n / 64⟩) := by
  rw [beginOctet, if_neg (by omega), if_pos (by omega), Nat.add_sub_cancel_left]

/-- The first of three octets admits the second one, unless they write half of a pair. -/
theorem beginOctet_of_three {n : Nat} (hlow : 0x800 ≤ n) (hhigh : n < 0x10000)
    (hchar : n < 0xd800 ∨ 0xdfff < n) :
    ∃ low high, beginOctet (0xe0 + n / 4096) = ([], some ⟨2, low, high, n / 4096⟩) ∧
      low ≤ 0x80 + n / 64 % 64 ∧ 0x80 + n / 64 % 64 ≤ high := by
  by_cases hfirst : n / 4096 = 0
  · refine ⟨0xa0, 0xbf, ?_, by omega, by omega⟩
    rw [hfirst]
    rfl
  · by_cases hhalf : n / 4096 = 0xd
    · refine ⟨0x80, 0x9f, ?_, by omega, by omega⟩
      rw [hhalf]
      rfl
    · refine ⟨0x80, 0xbf, ?_, by omega, by omega⟩
      rw [beginOctet, if_neg (by omega), if_neg (by omega), if_neg (by omega), if_neg (by omega),
        if_pos (by omega), Nat.add_sub_cancel_left]

/-- The first of four octets, with the range that it leaves to the second. -/
theorem beginOctet_of_four {n : Nat} (hlow : 0x10000 ≤ n) (hhigh : n < 0x110000) :
    ∃ low high, beginOctet (0xf0 + n / 262144) = ([], some ⟨3, low, high, n / 262144⟩) ∧
      low ≤ 0x80 + n / 4096 % 64 ∧ 0x80 + n / 4096 % 64 ≤ high := by
  by_cases hfirst : n / 262144 = 0
  · refine ⟨0x90, 0xbf, ?_, by omega, by omega⟩
    rw [hfirst]
    rfl
  · by_cases hlast : n / 262144 = 4
    · refine ⟨0x80, 0x8f, ?_, by omega, by omega⟩
      rw [hlast]
      rfl
    · have hother : n / 262144 = 1 ∨ n / 262144 = 2 ∨ n / 262144 = 3 := by omega
      refine ⟨0x80, 0xbf, ?_, by omega, by omega⟩
      rcases hother with h | h | h <;> rw [h] <;> rfl

/-- The octets of a character are read as that character. -/
theorem unitsTextFrom_octets (c : Char) (us : List PercentUnit) :
    unitsTextFrom none ((octets c).map .octet ++ us) = c :: unitsTextFrom none us := by
  have hvalid : c.toNat < 0xd800 ∨ 0xdfff < c.toNat ∧ c.toNat < 0x110000 := c.valid
  have hchar : Char.ofNat c.toNat = c := Char.ofNat_toNat c
  unfold octets
  -- The cases are the lengths of an encoded character, and the octets hold its number in base 64.
  by_cases hone : c.toNat < 0x80
  · simp [unitsTextFrom, beginOctet, hone, hchar]
  · by_cases htwo : c.toNat < 0x800
    · have hsum : c.toNat / 64 * 64 + c.toNat % 64 = c.toNat := by omega
      simp only [if_neg hone, if_pos htwo, List.map_cons, List.map_nil, List.cons_append,
        List.nil_append]
      rw [unitsTextFrom_begin (beginOctet_of_two (by omega) htwo),
        unitsTextFrom_last (by omega) (by omega), hsum, hchar]
    · by_cases hthree : c.toNat < 0x10000
      · have hsum : (c.toNat / 4096 * 64 + c.toNat / 64 % 64) * 64 + c.toNat % 64 = c.toNat := by
          omega
        obtain ⟨low, high, hbegin, hlow, hhigh⟩ :=
          beginOctet_of_three (by omega) hthree (hvalid.imp_right And.left)
        simp only [if_neg hone, if_neg htwo, if_pos hthree, List.map_cons, List.map_nil,
          List.cons_append, List.nil_append]
        rw [unitsTextFrom_begin hbegin, unitsTextFrom_further hlow hhigh,
          unitsTextFrom_last (by omega) (by omega), hsum, hchar]
      · have hsum : ((c.toNat / 262144 * 64 + c.toNat / 4096 % 64) * 64 + c.toNat / 64 % 64) * 64 +
            c.toNat % 64 = c.toNat := by omega
        obtain ⟨low, high, hbegin, hlow, hhigh⟩ :=
          beginOctet_of_four (n := c.toNat) (by omega) (by omega)
        simp only [if_neg hone, if_neg htwo, if_neg hthree, List.map_cons, List.map_nil,
          List.cons_append, List.nil_append]
        rw [unitsTextFrom_begin hbegin, unitsTextFrom_further hlow hhigh,
          unitsTextFrom_further (by omega) (by omega), unitsTextFrom_last (by omega) (by omega),
          hsum, hchar]

/-! ## Percent escapes -/

/-- The digit of a value below sixteen, in upper case. -/
def escapeDigit (n : Nat) : Char :=
  if n < 10 then Char.ofNat ('0'.toNat + n) else Char.ofNat ('A'.toNat + (n - 10))

def escapeOctet (b : Nat) : List Char :=
  ['%', escapeDigit (b / 16), escapeDigit (b % 16)]

/-- A text with its characters outside the class `kept` written as percent escapes of their
octets. -/
def percentEncode (kept : Char → Bool) (cs : List Char) : List Char :=
  cs.flatMap fun c => if kept c then [c] else (octets c).flatMap escapeOctet

theorem hexValue?_escapeDigit : ∀ n < 16, hexValue? (escapeDigit n) = some n := by
  decide

theorem escapeDigit_ne_slash : ∀ n < 16, escapeDigit n ≠ '/' := by
  decide

theorem octets_lt (c : Char) : ∀ b ∈ octets c, b < 256 := by
  have hvalid : c.toNat < 0xd800 ∨ 0xdfff < c.toNat ∧ c.toNat < 0x110000 := c.valid
  unfold octets
  dsimp only
  split
  · simp
    omega
  · split
    · simp
      omega
    · split <;> (simp; omega)

theorem percentUnits_escapeOctet {b : Nat} (h : b < 256) (cs : List Char) :
    percentUnits (escapeOctet b ++ cs) = .octet b :: percentUnits cs := by
  have hhigh := hexValue?_escapeDigit (b / 16) (by omega)
  have hlow := hexValue?_escapeDigit (b % 16) (by omega)
  have hsum : b / 16 * 16 + b % 16 = b := by omega
  simp only [escapeOctet, List.cons_append, List.nil_append, percentUnits, hhigh, hlow, hsum]

theorem percentUnits_escapeOctets {bs : List Nat} (h : ∀ b ∈ bs, b < 256) (cs : List Char) :
    percentUnits (bs.flatMap escapeOctet ++ cs) = bs.map .octet ++ percentUnits cs := by
  induction bs with
  | nil => rfl
  | cons b bs ih =>
    obtain ⟨hfirst, hrest⟩ := List.forall_mem_cons.mp h
    rw [List.flatMap_cons, List.append_assoc, percentUnits_escapeOctet hfirst, ih hrest]
    rfl

/-- A character other than the percent sign is a unit of its own. -/
theorem percentUnits_cons {c : Char} (h : c ≠ '%') (cs : List Char) :
    percentUnits (c :: cs) =
      (if c.toNat < 0x80 then .octet c.toNat else .char c) :: percentUnits cs := by
  rw [percentUnits]
  rintro a b rest rfl
  exact absurd rfl h

/-- A character that is left as it is decodes to itself, as an octet or as a character. -/
theorem unitsTextFrom_kept (c : Char) (us : List PercentUnit) :
    unitsTextFrom none ((if c.toNat < 0x80 then .octet c.toNat else .char c) :: us) =
      c :: unitsTextFrom none us := by
  split
  · next hascii =>
    have hoctets : octets c = [c.toNat] := if_pos hascii
    have hread := unitsTextFrom_octets c us
    rwa [hoctets] at hread
  · rfl

/-- Whatever else is escaped, a text decodes to itself if the percent sign is. -/
theorem percentDecode_percentEncode {kept : Char → Bool} (h : kept '%' = false) (cs : List Char) :
    percentDecode (percentEncode kept cs) = cs := by
  unfold percentDecode percentEncode
  induction cs with
  | nil => rfl
  | cons c cs ih =>
    rw [List.flatMap_cons]
    by_cases hkept : kept c = true
    · have hpercent : c ≠ '%' := by
        rintro rfl
        rw [h] at hkept
        cases hkept
      rw [if_pos hkept, List.singleton_append, percentUnits_cons hpercent, unitsTextFrom_kept, ih]
    · rw [if_neg hkept, percentUnits_escapeOctets (octets_lt c), unitsTextFrom_octets, ih]

/-! ## Tildes -/

/-- A name with its tildes and slashes escaped. -/
def tildeEncode (cs : List Char) : List Char :=
  cs.flatMap fun c => if c = '~' then ['~', '0'] else if c = '/' then ['~', '1'] else [c]

theorem untilde_cons {mark c first : Char} (h : first ≠ '~') (cs : List Char) :
    untilde mark c (first :: cs) = first :: untilde mark c cs := by
  rw [untilde]
  rintro d rest rfl
  exact absurd rfl h

/-- The escapes of slashes are read first; the tilde of `~0` begins none of them. -/
theorem untilde_slash (cs : List Char) :
    untilde '1' '/' (tildeEncode cs) = cs.flatMap fun c => if c = '~' then ['~', '0'] else [c] := by
  unfold tildeEncode
  induction cs with
  | nil => rfl
  | cons c cs ih =>
    rw [List.flatMap_cons, List.flatMap_cons, ← ih]
    -- Of the two characters with a code only the slash comes back in this pass.
    by_cases htilde : c = '~'
    · rw [if_pos htilde, if_pos htilde]
      show untilde '1' '/' ('~' :: '0' :: _) = _
      rw [untilde, if_neg (by decide), untilde_cons (by decide)]
      rfl
    · rw [if_neg htilde, if_neg htilde]
      by_cases hslash : c = '/'
      · rw [if_pos hslash, hslash]
        show untilde '1' '/' ('~' :: '1' :: _) = _
        rw [untilde, if_pos rfl]
        rfl
      · rw [if_neg hslash, List.singleton_append, untilde_cons htilde]
        rfl

/-- The tilde escapes are undone in the order that gives the text back. -/
theorem untilde_tildeEncode (cs : List Char) :
    untilde '0' '~' (untilde '1' '/' (tildeEncode cs)) = cs := by
  rw [untilde_slash]
  induction cs with
  | nil => rfl
  | cons c cs ih =>
    rw [List.flatMap_cons]
    by_cases htilde : c = '~'
    · rw [if_pos htilde, htilde]
      show untilde '0' '~' ('~' :: '0' :: _) = _
      rw [untilde, if_pos rfl]
      exact congrArg ('~' :: ·) ih
    · rw [if_neg htilde, List.singleton_append, untilde_cons htilde, ih]

/-! ## Segments -/

/-- A name as a segment of a reference. -/
def encodeSegment (kept : Char → Bool) (name : List Char) : List Char :=
  percentEncode kept (tildeEncode name)

theorem decodeSegment_encodeSegment {kept : Char → Bool} (h : kept '%' = false)
    (name : List Char) : decodeSegment (encodeSegment kept name) = name := by
  rw [decodeSegment, encodeSegment, percentDecode_percentEncode h, untilde_tildeEncode]

theorem slash_not_mem_tildeEncode (name : List Char) : '/' ∉ tildeEncode name := by
  intro h
  obtain ⟨c, _, hmem⟩ := List.mem_flatMap.mp h
  by_cases htilde : c = '~'
  · simp [htilde] at hmem
  · by_cases hslash : c = '/'
    · simp [hslash] at hmem
    · simp [htilde, hslash, Ne.symm hslash] at hmem

/-- No segment has a slash once it is encoded. -/
theorem slash_not_mem_encodeSegment (kept : Char → Bool) (name : List Char) :
    '/' ∉ encodeSegment kept name := by
  intro h
  obtain ⟨c, hc, hmem⟩ := List.mem_flatMap.mp h
  split at hmem
  · rw [← List.mem_singleton.mp hmem] at hc
    exact slash_not_mem_tildeEncode name hc
  · obtain ⟨b, hb, hdigit⟩ := List.mem_flatMap.mp hmem
    have hbound := octets_lt c b hb
    simp only [escapeOctet, List.mem_cons, List.not_mem_nil, or_false] at hdigit
    rcases hdigit with hpercent | hhigh | hlow
    · exact absurd hpercent (by decide)
    · exact escapeDigit_ne_slash (b / 16) (by omega) hhigh.symm
    · exact escapeDigit_ne_slash (b % 16) (by omega) hlow.symm

/-- A name written as a segment is read as the one segment that it is. -/
theorem pointerSegments_encodeSegment {kept : Char → Bool} (h : kept '%' = false) (name : String) :
    pointerSegments (String.ofList (encodeSegment kept name.toList)) = [name] := by
  have hslash : ∀ c ∈ encodeSegment kept name.toList, (c == '/') = false := by
    intro c hc
    rw [beq_eq_false_iff_ne]
    rintro rfl
    exact slash_not_mem_encodeSegment kept name.toList hc
  rw [pointerSegments, String.toList_ofList, splitWhen_of_forall hslash, List.map_singleton,
    decodeSegment_encodeSegment h, String.ofList_toList]

/-! ## Names that are written as they are -/

/-- Whether a character is written as itself in a segment. -/
def isPlain (kept : Char → Bool) (c : Char) : Bool :=
  kept c && c != '~' && c != '/'

theorem length_octets (c : Char) : 1 ≤ (octets c).length := by
  unfold octets
  dsimp only
  split
  · simp
  · split
    · simp
    · split <;> simp

theorem length_escapeOctets (bs : List Nat) : (bs.flatMap escapeOctet).length = 3 * bs.length := by
  induction bs with
  | nil => rfl
  | cons b bs ih =>
    rw [List.flatMap_cons, List.length_append, ih, List.length_cons, escapeOctet]
    simp
    omega

theorem length_percentEncode (kept : Char → Bool) (cs : List Char) :
    cs.length ≤ (percentEncode kept cs).length := by
  induction cs with
  | nil => exact Nat.le_refl 0
  | cons c cs ih =>
    have hoctets := length_octets c
    unfold percentEncode at ih ⊢
    rw [List.flatMap_cons, List.length_append, List.length_cons]
    split
    · rw [List.length_singleton]
      omega
    · rw [length_escapeOctets]
      omega

theorem encodeSegment_cons (kept : Char → Bool) (c : Char) (cs : List Char) :
    encodeSegment kept (c :: cs) = encodeSegment kept [c] ++ encodeSegment kept cs := by
  simp only [encodeSegment, tildeEncode, percentEncode, List.flatMap_cons, List.flatMap_append,
    List.flatMap_nil, List.append_nil]

theorem length_encodeSegment (kept : Char → Bool) (cs : List Char) :
    cs.length ≤ (encodeSegment kept cs).length := by
  induction cs with
  | nil => exact Nat.le_refl 0
  | cons c cs ih =>
    have hpiece := length_percentEncode kept (tildeEncode [c])
    have htilde : 1 ≤ (tildeEncode [c]).length := by
      unfold tildeEncode
      rw [List.flatMap_singleton]
      split
      · simp
      · split <;> simp
    rw [encodeSegment_cons, List.length_append, List.length_cons, encodeSegment]
    omega

theorem encodeSegment_of_isPlain {kept : Char → Bool} {c : Char} (h : isPlain kept c = true) :
    encodeSegment kept [c] = [c] := by
  simp only [isPlain, Bool.and_eq_true, bne_iff_ne] at h
  obtain ⟨⟨hkept, htilde⟩, hslash⟩ := h
  simp [encodeSegment, tildeEncode, percentEncode, htilde, hslash, hkept]

/-- Every other character takes more room. -/
theorem length_encodeSegment_of_not_isPlain {kept : Char → Bool} {c : Char}
    (h : isPlain kept c = false) : 2 ≤ (encodeSegment kept [c]).length := by
  have hlength := length_percentEncode kept (tildeEncode [c])
  rw [encodeSegment]
  by_cases htilde : c = '~'
  · simp [tildeEncode, htilde] at hlength ⊢
    exact hlength
  · by_cases hslash : c = '/'
    · simp [tildeEncode, hslash] at hlength ⊢
      exact hlength
    · have hkept : kept c = false := by
        simpa [isPlain, htilde, hslash] using h
      have hoctets := length_octets c
      simp only [tildeEncode, percentEncode, List.flatMap_singleton, if_neg htilde, if_neg hslash,
        hkept, Bool.false_eq_true, if_false, length_escapeOctets]
      omega

/-- A name is its own segment if and only if all of its characters are written as themselves. -/
theorem encodeSegment_eq_iff (kept : Char → Bool) (name : List Char) :
    encodeSegment kept name = name ↔ ∀ c ∈ name, isPlain kept c = true := by
  induction name with
  | nil => simp [encodeSegment, tildeEncode, percentEncode]
  | cons c cs ih =>
    rw [encodeSegment_cons, List.forall_mem_cons]
    by_cases hplain : isPlain kept c = true
    · rw [encodeSegment_of_isPlain hplain, List.singleton_append, List.cons_inj_right, ih]
      exact (and_iff_right hplain).symm
    · have hfirst := length_encodeSegment_of_not_isPlain (Bool.eq_false_iff.mpr hplain)
      have hrest := length_encodeSegment kept cs
      refine iff_of_false (fun hsame => ?_) (fun hall => hplain hall.1)
      have hlength := congrArg List.length hsame
      rw [List.length_append, List.length_cons] at hlength
      omega

end ApiTypes.Text
