import Mathlib.Data.List.Induction
import ApiTypes.Schema.Basic

/-!
# Tables of properties

Names are compared by `PropertyName.same`, which is symmetric and transitive. A name that is not
the same as itself can be set but never found.
-/

namespace ApiTypes

/-- Two values are the same key if they are one text, both null, or one number. -/
theorem Json.sameKey_iff (a b : Json) :
    a.sameKey b = true ↔
      (∃ s, a = .string s ∧ b = .string s) ∨ (a = .null ∧ b = .null) ∨
        (∃ n, a.number? = some n ∧ b.number? = some n) := by
  unfold sameKey
  cases a <;> cases b <;> grind [number?]

namespace PropertyName

/-- Being the same key is symmetric, numbers and truth values included. -/
theorem same_comm (a b : PropertyName) : a.same b = b.same a := by
  rw [Bool.eq_iff_iff]
  cases a <;> cases b <;> simp only [same]
  case text.text s t => rw [beq_iff_eq, beq_iff_eq, eq_comm]
  case scalar.scalar v w =>
    rw [Json.sameKey_iff, Json.sameKey_iff]
    grind

theorem same_trans {a b c : PropertyName} (hab : a.same b = true) (hbc : b.same c = true) :
    a.same c = true := by
  cases a <;> cases b <;> simp only [same, Bool.false_eq_true] at hab <;>
    cases c <;> simp only [same, Bool.false_eq_true] at hbc ⊢
  case text.text.text r s t => simp_all
  case scalar.scalar.scalar u v w =>
    rw [Json.sameKey_iff] at *
    grind [Json.number?]

theorem same_right {a b : PropertyName} (h : a.same b = true) (c : PropertyName) :
    c.same a = c.same b := by
  rw [Bool.eq_iff_iff]
  exact ⟨fun hca => same_trans hca h, fun hcb => same_trans hcb (same_comm a b ▸ h)⟩

theorem same_left {a b : PropertyName} (h : a.same b = true) (c : PropertyName) :
    a.same c = b.same c := by
  rw [same_comm a c, same_comm b c, same_right h]

end PropertyName

namespace Properties

/-! ## Finding and setting -/

theorem find?_cons (name : PropertyName) (entry : PropertyName × Schema) (table : Properties) :
    find? name (entry :: table) = if entry.1.same name then some entry.2 else find? name table :=
  rfl

theorem set_cons (name : PropertyName) (schema : Schema) (entry : PropertyName × Schema)
    (table : Properties) :
    set name schema (entry :: table) =
      if entry.1.same name then (entry.1, schema) :: table
      else entry :: set name schema table :=
  rfl

/-- Names that are the same key find the same property. -/
theorem find?_of_same {a b : PropertyName} (h : a.same b = true) (table : Properties) :
    find? a table = find? b table := by
  induction table with
  | nil => rfl
  | cons entry table ih => rw [find?_cons, find?_cons, ih, PropertyName.same_right h]

theorem find?_eq_none {name : PropertyName} {table : Properties} :
    find? name table = none ↔ ∀ entry ∈ table, entry.1.same name = false := by
  induction table with
  | nil => simp [find?]
  | cons entry table ih =>
    rw [find?_cons]
    cases h : entry.1.same name <;> simp [h, ih]

theorem mem_of_find? {name : PropertyName} {schema : Schema} {table : Properties}
    (h : find? name table = some schema) : ∃ entry ∈ table, entry.2 = schema := by
  induction table with
  | nil => cases h
  | cons entry table ih =>
    rw [find?_cons] at h
    split at h
    · exact ⟨entry, List.mem_cons_self, Option.some.inj h⟩
    · rcases ih h with ⟨found, hmem, heq⟩
      exact ⟨found, List.mem_cons_of_mem _ hmem, heq⟩

/-- A property that is set is found, and the others are as they were. -/
theorem find?_set (name other : PropertyName) (schema : Schema) (table : Properties) :
    find? other (set name schema table) =
      if name.same other then some schema else find? other table := by
  induction table with
  | nil => rfl
  | cons entry table ih =>
    rw [set_cons, find?_cons]
    -- A name that is there keeps its spelling, which is the same as `other` if `name` is.
    cases h : entry.1.same name with
    | true =>
      cases hother : name.same other <;> simp [find?_cons, PropertyName.same_left h, hother]
    | false =>
      rw [if_neg Bool.false_ne_true, find?_cons, ih]
      cases hentry : entry.1.same other with
      | false => rfl
      | true =>
        have hother : name.same other = false := by
          cases hother : name.same other with
          | false => rfl
          | true => rw [PropertyName.same_right hother, hentry] at h; cases h
        simp [hother]

theorem set_of_none {name : PropertyName} {table : Properties} (schema : Schema)
    (h : find? name table = none) : set name schema table = table ++ [(name, schema)] := by
  induction table with
  | nil => rfl
  | cons entry table ih =>
    rw [find?_cons] at h
    split at h
    · cases h
    · rename_i hentry
      rw [set_cons, if_neg hentry, ih h, List.cons_append]

/-- A name that is there keeps its spelling, so all its spellings set the same. -/
theorem set_of_same {a b : PropertyName} (h : a.same b = true) (schema : Schema)
    {table : Properties} (hfound : (find? a table).isSome) :
    set a schema table = set b schema table := by
  induction table with
  | nil => cases hfound
  | cons entry table ih =>
    rw [set_cons, set_cons, PropertyName.same_right h]
    split
    · rfl
    · rename_i hentry
      rw [find?_cons, PropertyName.same_right h, if_neg hentry] at hfound
      rw [ih hfound]

/-- A name that is not the same as itself would be added twice. -/
theorem set_set (name : PropertyName) (first second : Schema) {table : Properties}
    (hname : name.same name = true) :
    set name second (set name first table) = set name second table := by
  induction table with
  | nil => simp [set, hname]
  | cons entry table ih =>
    rw [set_cons, set_cons]
    split
    · rename_i hentry
      rw [set_cons, if_pos hentry]
    · rename_i hentry
      rw [set_cons, if_neg hentry, ih]

/-- One of the names has to be there: two new names are added in the order they are set. -/
theorem set_comm {a b : PropertyName} (h : a.same b = false) (s t : Schema)
    {table : Properties} (hfound : (find? a table).isSome) :
    set b t (set a s table) = set a s (set b t table) := by
  induction table with
  | nil => cases hfound
  | cons entry table ih =>
    rw [set_cons a, set_cons b]
    -- An entry has one of the two names or neither, and the first name is there to be found.
    cases ha : entry.1.same a with
    | true =>
      have hb : entry.1.same b = false := by rw [PropertyName.same_left ha, h]
      simp [set_cons, ha, hb]
    | false =>
      cases hb : entry.1.same b with
      | true => simp [set_cons, ha, hb]
      | false =>
        rw [find?_cons, ha] at hfound
        simp [set_cons, ha, hb, ih hfound]

/-! ## Names that are there once -/

/-- Every name can be found and is there once. -/
structure Distinct (table : Properties) : Prop where
  usable : ∀ entry ∈ table, entry.1.same entry.1 = true
  once : table.Pairwise fun p q => p.1.same q.1 = false

theorem distinct_nil : Distinct [] :=
  ⟨by simp, List.Pairwise.nil⟩

/-- A table is distinct if its first name is a key that the rest lacks. -/
theorem distinct_cons {entry : PropertyName × Schema} {table : Properties} :
    Distinct (entry :: table) ↔
      entry.1.same entry.1 = true ∧ find? entry.1 table = none ∧ Distinct table := by
  constructor
  · intro h
    rcases List.forall_mem_cons.mp h.usable with ⟨hentry, htable⟩
    rcases List.pairwise_cons.mp h.once with ⟨hnew, honce⟩
    refine ⟨hentry, find?_eq_none.mpr fun other hmem => ?_, htable, honce⟩
    rw [PropertyName.same_comm, hnew other hmem]
  · intro h
    rcases h with ⟨hentry, hnone, htable⟩
    refine ⟨List.forall_mem_cons.mpr ⟨hentry, htable.usable⟩,
      List.pairwise_cons.mpr ⟨fun other hmem => ?_, htable.once⟩⟩
    rw [PropertyName.same_comm, find?_eq_none.mp hnone other hmem]

theorem Distinct.set {name : PropertyName} {table : Properties} (h : Distinct table)
    (hname : name.same name = true) (schema : Schema) : Distinct (set name schema table) := by
  induction table with
  | nil => exact distinct_cons.mpr ⟨hname, rfl, distinct_nil⟩
  | cons entry table ih =>
    rcases distinct_cons.mp h with ⟨hentry, hnone, htable⟩
    rw [set_cons]
    split
    · exact distinct_cons.mpr ⟨hentry, hnone, htable⟩
    · rename_i hne
      refine distinct_cons.mpr ⟨hentry, ?_, ih htable⟩
      rw [find?_set, PropertyName.same_comm, if_neg hne, hnone]

theorem set_ne_nil {name : PropertyName} {schema : Schema} {table : Properties} :
    set name schema table ≠ [] := by
  cases table with
  | nil => simp [set]
  | cons entry table =>
    rw [set_cons]
    split <;> simp

theorem mem_set {name : PropertyName} {schema : Schema} {table : Properties}
    {entry : PropertyName × Schema} (h : entry ∈ Properties.set name schema table) :
    entry ∈ table ∨ entry.2 = schema := by
  induction table with
  | nil => exact .inr (by rw [List.mem_singleton.mp h])
  | cons head table ih =>
    rw [set_cons] at h
    split at h <;> rcases List.mem_cons.mp h with rfl | hmem
    · exact .inr rfl
    · exact .inl (List.mem_cons_of_mem _ hmem)
    · exact .inl List.mem_cons_self
    · exact (ih hmem).imp_left (List.mem_cons_of_mem _)

theorem name_of_mem_set {name : PropertyName} {schema : Schema} {table : Properties}
    {entry : PropertyName × Schema} (h : entry ∈ Properties.set name schema table) :
    entry.1 = name ∨ ∃ old ∈ table, old.1 = entry.1 := by
  induction table with
  | nil =>
    left
    rw [List.mem_singleton.mp h]
  | cons head table ih =>
    rw [set_cons] at h
    split at h <;> rcases List.mem_cons.mp h with rfl | hmem
    · exact .inr ⟨head, List.mem_cons_self, rfl⟩
    · exact .inr ⟨entry, List.mem_cons_of_mem _ hmem, rfl⟩
    · exact .inr ⟨entry, List.mem_cons_self, rfl⟩
    · rcases ih hmem with hname | ⟨old, hold, hname⟩
      · exact .inl hname
      · exact .inr ⟨old, List.mem_cons_of_mem _ hold, hname⟩

/-! ## The table of a list -/

theorem ofList_concat (list : List (PropertyName × Schema)) (entry : PropertyName × Schema) :
    ofList (list ++ [entry]) = Properties.set entry.1 entry.2 (ofList list) := by
  simp [ofList, List.foldl_append]

/-- Of the properties of one name the last counts. -/
theorem find?_ofList (name : PropertyName) (list : List (PropertyName × Schema)) :
    find? name (ofList list) = (list.reverse.find? (·.1.same name)).map (·.2) := by
  induction list using List.reverseRecOn with
  | nil => rfl
  | append_singleton list entry ih =>
    rw [ofList_concat, find?_set, ih, List.reverse_append, List.reverse_singleton,
      List.singleton_append, List.find?_cons]
    cases entry.1.same name <;> rfl

/-- A table that is built by setting has distinct names. -/
theorem distinct_ofList {list : List (PropertyName × Schema)}
    (h : ∀ entry ∈ list, entry.1.same entry.1 = true) : Distinct (ofList list) := by
  induction list using List.reverseRecOn with
  | nil => exact distinct_nil
  | append_singleton list entry ih =>
    rw [ofList_concat]
    rw [List.forall_mem_append, List.forall_mem_singleton] at h
    exact (ih h.1).set h.2 _

/-- A list in which every name is there once is its own table. -/
theorem Distinct.ofList {list : List (PropertyName × Schema)} (h : Distinct list) :
    ofList list = list := by
  induction list using List.reverseRecOn with
  | nil => rfl
  | append_singleton list entry ih =>
    have honce := List.pairwise_append.mp h.once
    have hlist : Distinct list := ⟨fun other hmem => h.usable other (List.mem_append_left _ hmem),
      honce.1⟩
    have hnew : find? entry.1 list = none :=
      find?_eq_none.mpr fun other hmem => honce.2.2 other hmem entry (List.mem_singleton_self _)
    rw [ofList_concat, ih hlist, set_of_none _ hnew]

theorem mem_ofList {list : List (PropertyName × Schema)} {entry : PropertyName × Schema}
    (h : entry ∈ ofList list) : ∃ source ∈ list, entry.2 = source.2 := by
  induction list using List.reverseRecOn with
  | nil => cases h
  | append_singleton list last ih =>
    rw [ofList_concat] at h
    rcases mem_set h with hold | hnew
    · rcases ih hold with ⟨source, hmem, heq⟩
      exact ⟨source, List.mem_append_left _ hmem, heq⟩
    · exact ⟨last, by simp, hnew⟩

theorem name_of_mem_ofList {list : List (PropertyName × Schema)} {entry : PropertyName × Schema}
    (h : entry ∈ ofList list) : ∃ source ∈ list, source.1 = entry.1 := by
  induction list using List.reverseRecOn generalizing entry with
  | nil => cases h
  | append_singleton list last ih =>
    rw [ofList_concat] at h
    rcases name_of_mem_set h with hnew | ⟨old, hold, hsame⟩
    · exact ⟨last, by simp, hnew.symm⟩
    · obtain ⟨source, hmem, heq⟩ := ih hold
      exact ⟨source, List.mem_append_left _ hmem, heq.trans hsame⟩

end Properties

end ApiTypes
