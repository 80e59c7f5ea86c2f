import ApiTypes.Proofs.Json.Numerals
import ApiTypes.Proofs.Outcome
import Mathlib.Data.Nat.Digits.Defs

/-!
# The integers that are read

Reading refuses an integer with more digits than an integer may have. So no integer in a value that
was read is too long to be written down again, wherever it stands.
-/

namespace ApiTypes

theorem Text.digitsValue_lt {digits : List Char} (h : ∀ c ∈ digits, c.isDigit = true) :
    digitsValue digits < 10 ^ digits.length := by
  induction digits using List.reverseRecOn with
  | nil => exact Nat.one_pos
  | append_singleton digits c ih =>
    obtain ⟨hdigits, hlast⟩ := List.forall_mem_append.mp h
    have hdigit : digitsValue [c] < 10 := by
      have hc := hlast c List.mem_cons_self
      simp only [Char.isDigit, Bool.and_eq_true, decide_eq_true_eq, UInt32.le_iff_toNat_le] at hc
      have hvalue : digitsValue [c] = c.toNat - 48 := by simp [digitsValue]
      have hbound : c.toNat ≤ 57 := hc.2
      omega
    have := ih hdigits
    rw [digitsValue_append, List.length_append, List.length_singleton, Nat.pow_succ]
    omega

namespace Json

/-- `Occurs inner value`: the one is the other or stands in it, at any depth. -/
inductive Occurs (inner : Json) : Json → Prop where
  | here : Occurs inner inner
  | item {items : List Json} {item : Json} (hmem : item ∈ items) (h : Occurs inner item) :
      Occurs inner (.array items)
  | member {members : Members} {member : String × Json} (hmem : member ∈ members)
      (h : Occurs inner member.2) : Occurs inner (.object members)

def Short (value : Json) : Prop :=
  ∀ i, Occurs (.int i) value → (Nat.toDigits 10 i.natAbs).length ≤ Text.digitLimit

theorem short_array {items : List Json} (h : ∀ item ∈ items, Short item) : Short (.array items) := by
  intro i hoccurs
  cases hoccurs with
  | item hmem hinner => exact h _ hmem i hinner

theorem short_object {members : Members} (h : ∀ member ∈ members, Short member.2) :
    Short (.object members) := by
  intro i hoccurs
  cases hoccurs with
  | member hmem hinner => exact h _ hmem i hinner

theorem short_int {i : Int} (h : i.natAbs < 10 ^ Text.digitLimit) : Short (.int i) := by
  intro j hoccurs
  cases hoccurs
  exact Nat.toDigits_length 10 _ _ (by decide) h

theorem short_double (x : Binary64) : Short (.double x) := by
  intro i hoccurs
  cases hoccurs

theorem short_string (s : String) : Short (.string s) := by
  intro i hoccurs
  cases hoccurs

/-! ## Numerals and words -/

variable {cs rest : List Char} {value : Json}

theorem isDigit_of_readWhole {whole : List Char} (h : readWhole cs = some (whole, rest)) :
    ∀ c ∈ whole, c.isDigit = true := by
  unfold readWhole at h
  split at h
  · cases h
    exact List.forall_mem_singleton.mpr rfl
  · split at h
    · rw [List.span_eq_takeWhile_dropWhile] at h
      cases h
      exact fun c => List.mem_takeWhile_imp
    · cases h
  · cases h

/-- A numeral of more digits than the limit is refused where it is read. -/
theorem short_of_readNumeral {negative : Bool} (h : readNumeral negative cs = .ok (value, rest)) :
    Short value := by
  unfold readNumeral at h
  split at h
  · cases h
  · rename_i whole tail hwhole
    split at h
    · split at h
      · cases h
      · rename_i hlength
        cases h
        -- Only an integer is made of its digits, and the limit is on their number.
        have hpow := Nat.pow_le_pow_right (n := 10) (by decide) (Nat.le_of_not_lt hlength)
        have hbound := Text.digitsValue_lt (isDigit_of_readWhole hwhole)
        refine short_int (Nat.lt_of_lt_of_le ?_ hpow)
        cases negative <;> simpa using hbound
    all_goals
      cases h
      exact short_double _

theorem short_of_readScalar (h : readScalar cs = .ok (value, rest)) : Short value := by
  unfold readScalar at h
  split at h
  · rename_i word found hfind
    cases h
    have hmem := List.mem_of_find?_eq_some hfind
    simp only [literals, List.mem_cons, Prod.mk.injEq, List.not_mem_nil, or_false] at hmem
    intro i hoccurs
    rcases hmem with h | h | h | h | h | h <;> rw [h.2] at hoccurs <;> cases hoccurs
  · split at h
    · exact short_of_readNumeral h
    · exact short_of_readNumeral h

/-! ## Arrays and objects -/

theorem forall_insert {P : Json → Prop} {members : Members} (name : String) (hvalue : P value)
    (h : ∀ member ∈ members, P member.2) :
    ∀ member ∈ Members.insert name value members, P member.2 := by
  induction members with
  | nil => exact List.forall_mem_singleton.mpr hvalue
  | cons member members ih =>
    obtain ⟨hfirst, hrest⟩ := List.forall_mem_cons.mp h
    unfold Members.insert
    split
    · exact List.forall_mem_cons.mpr ⟨hvalue, hrest⟩
    · exact List.forall_mem_cons.mpr ⟨hfirst, ih hrest⟩

/-- What is read with this bound on the number of steps is short. -/
structure ReadsShort (fuel : Nat) : Prop where
  value : ∀ {cs value rest}, readValue fuel cs = .ok (value, rest) → Short value
  items : ∀ {cs items rest}, readItems fuel cs = .ok (items, rest) → ∀ item ∈ items, Short item
  members : ∀ {before cs members rest}, (∀ member ∈ before, Short member.2) →
    readMembers fuel before cs = .ok (members, rest) → ∀ member ∈ members, Short member.2

namespace ReadsShort

variable {fuel : Nat} (reads : ReadsShort fuel)

include reads

/-- One level of reading: the parts are short as the readers of the level below are. -/
theorem value_succ (h : readValue (fuel + 1) cs = .ok (value, rest)) : Short value := by
  unfold readValue at h
  split at h
  · cases h
  · split at h
    · cases h
      exact short_string _
    · cases h
  · rename_i steps tail hsteps
    cases hsteps
    split at h
    · cases h
      exact short_array (List.forall_mem_nil _)
    · obtain ⟨⟨items, last⟩, hread, h⟩ := bind_eq_ok.mp h
      cases h
      exact short_array (reads.items hread)
  · rename_i steps tail hsteps
    cases hsteps
    split at h
    · cases h
      exact short_object (List.forall_mem_nil _)
    · obtain ⟨⟨members, last⟩, hread, h⟩ := bind_eq_ok.mp h
      cases h
      exact short_object (reads.members (List.forall_mem_nil _) hread)
  · exact short_of_readScalar h

theorem items_succ {items : List Json} (h : readItems (fuel + 1) cs = .ok (items, rest)) :
    ∀ item ∈ items, Short item := by
  unfold readItems at h
  obtain ⟨⟨item, tail⟩, hread, h⟩ := bind_eq_ok.mp h
  have hitem := reads.value hread
  dsimp only at h
  split at h
  · cases h
    exact List.forall_mem_singleton.mpr hitem
  · obtain ⟨⟨more, last⟩, hmore, h⟩ := bind_eq_ok.mp h
    cases h
    exact List.forall_mem_cons.mpr ⟨hitem, reads.items hmore⟩
  · cases h

theorem members_succ {before members : Members} (hbefore : ∀ member ∈ before, Short member.2)
    (h : readMembers (fuel + 1) before cs = .ok (members, rest)) :
    ∀ member ∈ members, Short member.2 := by
  unfold readMembers at h
  split at h
  · cases h
  · rename_i steps earlier tail hsteps
    cases hsteps
    split at h
    · cases h
    · split at h
      · obtain ⟨⟨found, last⟩, hread, h⟩ := bind_eq_ok.mp h
        -- A member that is there already is replaced, and the others stay.
        have hall := fun name => forall_insert name (reads.value hread) hbefore
        dsimp only at h
        split at h
        · cases h
          exact hall _
        · exact reads.members (hall _) h
        · cases h
      · cases h
  · cases h

end ReadsShort

theorem readsShort (fuel : Nat) : ReadsShort fuel := by
  induction fuel with
  | zero => constructor <;> simp [readValue, readItems, readMembers]
  | succ fuel reads => exact ⟨reads.value_succ, reads.items_succ, reads.members_succ⟩

/-- No integer in a value that was read has more digits than an integer may have. -/
theorem short_of_read {text : String} (h : read text = .ok value) : Short value := by
  obtain ⟨⟨found, rest⟩, hfound, h⟩ := bind_eq_ok.mp h
  dsimp only at h
  split at h
  · cases h
    exact (readsShort _).value hfound
  · cases h

end Json

end ApiTypes
