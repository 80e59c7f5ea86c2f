/-!
Reading octets as UTF-8, one by one and without ever failing: what is no character becomes the
replacement character, one for each longest start of a character that goes no further.
-/

namespace ApiTypes.Text

/-- The character that stands for octets that are no character. -/
def replacement : Char := '\ufffd'

/-- A character of which some octets have been read: how many more it takes, the least and the
greatest octet that may come next, and the bits so far. -/
structure Partial where
  missing : Nat
  low : Nat
  high : Nat
  bits : Nat
  deriving DecidableEq, Repr

/-- What an octet between characters does: it is a character, begins one, or is neither. -/
def beginOctet (b : Nat) : List Char × Option Partial :=
  -- After e0, ed, f0 and f4 fewer octets may follow: what they would write has a shorter form, is
  -- half of a surrogate pair, or lies beyond the last character.
  if b < 0x80 then ([Char.ofNat b], none)
  else if 0xc2 ≤ b ∧ b ≤ 0xdf then ([], some ⟨1, 0x80, 0xbf, b - 0xc0⟩)
  else if b = 0xe0 then ([], some ⟨2, 0xa0, 0xbf, 0⟩)
  else if b = 0xed then ([], some ⟨2, 0x80, 0x9f, 0xd⟩)
  else if 0xe1 ≤ b ∧ b ≤ 0xef then ([], some ⟨2, 0x80, 0xbf, b - 0xe0⟩)
  else if b = 0xf0 then ([], some ⟨3, 0x90, 0xbf, 0⟩)
  else if 0xf1 ≤ b ∧ b ≤ 0xf3 then ([], some ⟨3, 0x80, 0xbf, b - 0xf0⟩)
  else if b = 0xf4 then ([], some ⟨3, 0x80, 0x8f, 4⟩)
  else ([replacement], none)

/-- What a further octet does to a character that has begun. An octet that cannot continue it
gives it up and is then read as an octet between characters. -/
def Partial.continueOctet (p : Partial) (b : Nat) : List Char × Option Partial :=
  if p.low ≤ b ∧ b ≤ p.high then
    let bits := p.bits * 64 + (b - 0x80)
    if p.missing ≤ 1 then ([Char.ofNat bits], none)
    else ([], some ⟨p.missing - 1, 0x80, 0xbf, bits⟩)
  else
    let (chars, next) := beginOctet b
    (replacement :: chars, next)

def octets (c : Char) : List Nat :=
  let n := c.toNat
  if n < 0x80 then [n]
  else if n < 0x800 then [0xc0 + n / 64, 0x80 + n % 64]
  else if n < 0x10000 then [0xe0 + n / 4096, 0x80 + n / 64 % 64, 0x80 + n % 64]
  else [0xf0 + n / 262144, 0x80 + n / 4096 % 64, 0x80 + n / 64 % 64, 0x80 + n % 64]

end ApiTypes.Text
