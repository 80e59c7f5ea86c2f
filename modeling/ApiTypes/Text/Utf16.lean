import ApiTypes.Text.Utf8

/-!
Reading code units as UTF-16 without ever failing. Half of a surrogate pair that stands alone is kept,
but no character is one. Its place is held by one of 2048 code points that are assigned to nothing
(U+DD800 to U+DDFFF); texts are taken to have none of these on their own account.
-/

namespace ApiTypes.Text

def isHighSurrogate (n : Nat) : Bool := 0xd800 ≤ n && n ≤ 0xdbff

def isLowSurrogate (n : Nat) : Bool := 0xdc00 ≤ n && n ≤ 0xdfff

/-- The character that holds the place of a surrogate. -/
def loneSurrogate (n : Nat) : Char := Char.ofNat (0xd0000 + n)

def isLoneSurrogate (c : Char) : Bool := 0xdd800 ≤ c.toNat && c.toNat ≤ 0xddfff

def codePoint (c : Char) : Nat :=
  if isLoneSurrogate c then c.toNat - 0xd0000 else c.toNat

def unitChar (n : Nat) : Char :=
  if isHighSurrogate n || isLowSurrogate n then loneSurrogate n else Char.ofNat n

/-- Surrogates that stand alone are kept apart. -/
theorem codePoint_loneSurrogate {n : Nat} (h : (isHighSurrogate n || isLowSurrogate n) = true) :
    codePoint (loneSurrogate n) = n := by
  have hrange : 0xd800 ≤ n ∧ n ≤ 0xdfff := by
    simp only [isHighSurrogate, isLowSurrogate, Bool.or_eq_true, Bool.and_eq_true,
      decide_eq_true_eq] at h
    omega
  have hvalid : (0xd0000 + n).isValidChar := .inr ⟨by omega, by omega⟩
  have hcode : (loneSurrogate n).toNat = 0xd0000 + n := by
    rw [loneSurrogate, Char.ofNat, dif_pos hvalid]
    rfl
  have hlone : isLoneSurrogate (loneSurrogate n) = true := by
    simp only [isLoneSurrogate, hcode, Bool.and_eq_true, decide_eq_true_eq]
    omega
  rw [codePoint, if_pos hlone, hcode]
  omega

/-- The characters that a run of code points and code units writes. Two halves of a surrogate pair
write one character. -/
def joinUnits : List Nat → List Char
  | [] => []
  | [n] => [unitChar n]
  | n :: m :: rest =>
    if isHighSurrogate n && isLowSurrogate m then
      Char.ofNat (0x10000 + (n - 0xd800) * 0x400 + (m - 0xdc00)) :: joinUnits rest
    else unitChar n :: joinUnits (m :: rest)

end ApiTypes.Text
