import Mathlib.Data.List.Perm.Basic
import ApiTypes.Proofs.Schema.Merge

/-!
# Properties that are set one after the other

Properties of different names can be set in any order: only the order of the table shows it.
-/

namespace ApiTypes

namespace PropertyName

def ofKey : Json → PropertyName
  | .string s => .text s
  | value => .scalar value

theorem ofJson_eq_ok {value : Json} {name : PropertyName} :
    ofJson value = .ok name ↔ value.isKey = true ∧ name = ofKey value := by
  cases value <;> simp [ofJson, ofKey, Json.isKey, eq_comm]

theorem same_ofKey (v w : Json) : (ofKey v).same (ofKey w) = v.sameKey w := by
  cases v <;> cases w <;> simp [ofKey, same, Json.sameKey, Json.number?]

end PropertyName

namespace Properties

variable {table other : Properties} {name : PropertyName}

/-! ## The order of a table -/

def Once (table : Properties) : Prop :=
  table.Pairwise fun p q => p.1.same q.1 = false

theorem Once.perm (h : Once table) (hperm : table.Perm other) : Once other :=
  hperm.pairwise h fun {p q} hpq => PropertyName.same_comm q.1 p.1 ▸ hpq

/-- Setting a property brings in its name at most once. -/
theorem Once.set (h : Once table) (name : PropertyName) (schema : Schema) :
    Once (Properties.set name schema table) := by
  induction table with
  | nil => exact List.pairwise_singleton _ _
  | cons entry table ih =>
    obtain ⟨hentry, htable⟩ := List.pairwise_cons.mp h
    rw [set_cons]
    split
    · exact List.pairwise_cons.mpr ⟨hentry, htable⟩
    · rename_i hnew
      refine List.pairwise_cons.mpr ⟨fun other hmem => ?_, ih htable⟩
      rcases name_of_mem_set hmem with hname | ⟨old, hold, hname⟩
      · rw [hname]
        exact eq_false_of_ne_true hnew
      · rw [← hname, hentry old hold]

/-- A name that is there once is found in every order of the table. -/
theorem set_perm (hperm : table.Perm other) (h : Once table) (name : PropertyName)
    (schema : Schema) : (set name schema table).Perm (set name schema other) := by
  induction hperm with
  | nil => exact .refl _
  | cons entry hperm ih =>
    rw [set_cons, set_cons]
    split
    · exact hperm.cons _
    · exact (ih (List.pairwise_cons.mp h).2).cons _
  | swap first second rest =>
    have hne : second.1.same first.1 = false :=
      (List.pairwise_cons.mp h).1 first List.mem_cons_self
    simp only [set_cons]
    -- At most one of the two has the name, and the other one stays as it is.
    cases hsecond : second.1.same name with
    | true =>
      have hfirst : first.1.same name = false := by
        rw [PropertyName.same_comm, ← PropertyName.same_left hsecond, hne]
      simp [hfirst, List.Perm.swap]
    | false => cases hfirst : first.1.same name <;> simp [List.Perm.swap]
  | trans hfirst _ ihFirst ihSecond => exact (ihFirst h).trans (ihSecond (h.perm hfirst))

/-- Only of two new names does the order in which they are set show, in the order of the table. -/
theorem set_set_perm {a b : PropertyName} (h : a.same b = false) (s t : Schema)
    (table : Properties) : (set b t (set a s table)).Perm (set a s (set b t table)) := by
  have hsymm : b.same a = false := by rw [PropertyName.same_comm, h]
  -- If one of the names is there, setting the other one does not move it.
  cases ha : find? a table with
  | some _ => rw [set_comm h s t (by rw [ha, Option.isSome_some])]
  | none =>
    cases hb : find? b table with
    | some _ => rw [set_comm hsymm t s (by rw [hb, Option.isSome_some])]
    | none =>
      have hnewA : find? a (table ++ [(b, t)]) = none := by
        rw [← set_of_none t hb, find?_set, hsymm, if_neg Bool.false_ne_true, ha]
      have hnewB : find? b (table ++ [(a, s)]) = none := by
        rw [← set_of_none s ha, find?_set, h, if_neg Bool.false_ne_true, hb]
      rw [set_of_none s ha, set_of_none t hb, set_of_none t hnewB, set_of_none s hnewA,
        List.append_assoc, List.append_assoc]
      exact (List.Perm.swap _ _ _).append_left table

end Properties

namespace Schema

variable {self : Schema}

/-! ## Attaching properties -/

/-- A property can be set on an object, or on the void shape that is then opened, under a name that
is a key. -/
theorem setProperty_eq_ok {self schema result : Schema} {name : Json} :
    self.setProperty name schema = .ok result ↔
      self.opened.kind = .object ∧ ∃ key, PropertyName.ofJson name = .ok key ∧
        result = { self.opened with
          properties := Properties.set key schema self.opened.properties } := by
  simp only [setProperty]
  by_cases hobject : self.opened.kind = .object
  · simp only [ne_eq, hobject, not_true_eq_false, if_false, true_and, bind_eq_ok, lift_eq_ok,
      pure_eq_ok, Except.ok.injEq]
    exact exists_congr fun key => and_congr_right fun _ => eq_comm
  · simp [hobject]

/-- The shape as an object with a property set. -/
def attach (self : Schema) (entry : PropertyName × Schema) : Schema :=
  { self.opened with properties := Properties.set entry.1 entry.2 self.properties }

theorem setProperty_eq_attach {name : Json} {schema result : Schema} :
    self.setProperty name schema = .ok result ↔
      (self.opened.kind = .object ∧ name.isKey = true) ∧
        result = self.attach (.ofKey name, schema) := by
  simp only [setProperty_eq_ok, PropertyName.ofJson_eq_ok, attach, opened_properties, and_assoc,
    exists_eq_left, exists_and_left]

theorem attach_opened_kind (entry : PropertyName × Schema) :
    (self.attach entry).opened.kind = self.opened.kind := by
  have hkind : (self.attach entry).kind = self.opened.kind := rfl
  rw [opened_of_ne (hkind ▸ opened_kind_ne self), hkind]

theorem foldl_attach_opened_kind (entries : List (PropertyName × Schema)) :
    (entries.foldl attach self).opened.kind = self.opened.kind := by
  induction entries generalizing self with
  | nil => rfl
  | cons entry entries ih => rw [List.foldl_cons, ih, attach_opened_kind]

theorem foldl_attach_properties (entries : List (PropertyName × Schema)) :
    (entries.foldl attach self).properties =
      entries.foldl (fun table entry => Properties.set entry.1 entry.2 table) self.properties := by
  induction entries generalizing self with
  | nil => rfl
  | cons entry entries ih => rw [List.foldl_cons, ih, List.foldl_cons, attach]

/-! ## The order of attaching -/

def withoutProperties (schema : Schema) : Schema :=
  { schema with properties := [] }

theorem withoutProperties_attach (entry : PropertyName × Schema) :
    (self.attach entry).withoutProperties = self.withoutProperties.opened := by
  unfold attach withoutProperties opened
  split <;> rfl

/-- Two shapes that differ at most in the order of their properties. -/
structure Reordered (a b : Schema) : Prop where
  properties : a.properties.Perm b.properties
  rest : a.withoutProperties = b.withoutProperties

namespace Reordered

variable {a b c : Schema}

theorem refl (a : Schema) : Reordered a a :=
  ⟨.refl _, rfl⟩

theorem trans (hab : Reordered a b) (hbc : Reordered b c) : Reordered a c :=
  ⟨hab.properties.trans hbc.properties, hab.rest.trans hbc.rest⟩

/-- Shapes that differ in the order of their properties only still do when one more is attached. -/
theorem attach (h : Reordered a b) (honce : Properties.Once a.properties)
    (entry : PropertyName × Schema) : Reordered (a.attach entry) (b.attach entry) := by
  refine ⟨Properties.set_perm h.properties honce entry.1 entry.2, ?_⟩
  rw [withoutProperties_attach, withoutProperties_attach, h.rest]

/-- What is attached to a shape does not depend on the order of its properties. -/
theorem foldl_attach (entries : List (PropertyName × Schema)) (h : Reordered a b)
    (honce : Properties.Once a.properties) :
    Reordered (entries.foldl Schema.attach a) (entries.foldl Schema.attach b) := by
  induction entries generalizing a b with
  | nil => exact h
  | cons entry entries ih => exact ih (h.attach honce entry) (honce.set entry.1 entry.2)

end Reordered

/-- Properties of different names can be attached in any order. -/
theorem reordered_foldl_attach {entries others : List (PropertyName × Schema)}
    (hperm : entries.Perm others) (hentries : Properties.Once entries)
    (honce : Properties.Once self.properties) :
    Reordered (entries.foldl attach self) (others.foldl attach self) := by
  -- The induction is on the permutation. A swap leaves two orders of one table, over which the
  -- rest is attached.
  induction hperm generalizing self with
  | nil => exact .refl self
  | cons entry _ ih =>
    exact ih (List.pairwise_cons.mp hentries).2 (honce.set entry.1 entry.2)
  | swap first second rest =>
    have hne : second.1.same first.1 = false :=
      (List.pairwise_cons.mp hentries).1 first List.mem_cons_self
    have hswap : Reordered ((self.attach second).attach first)
        ((self.attach first).attach second) := by
      refine ⟨Properties.set_set_perm hne second.2 first.2 self.properties, ?_⟩
      simp only [withoutProperties_attach]
    exact hswap.foldl_attach rest ((honce.set second.1 second.2).set first.1 first.2)
  | trans hfirst _ ihFirst ihSecond =>
    exact (ihFirst hentries honce).trans (ihSecond (hentries.perm hfirst) honce)

end Schema

end ApiTypes
