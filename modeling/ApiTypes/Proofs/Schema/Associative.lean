import ApiTypes.Proofs.Schema.Trimmed

/-!
# Merging in another grouping

Merging a shape that is itself a merge gives what merging its parts in turn gives, as far as the
result has a meaning.
-/

namespace ApiTypes

theorem Json.orElse_assoc (a b c : Json) : (a.orElse b).orElse c = a.orElse (b.orElse c) := by
  unfold orElse
  cases ha : a.isTruthy <;> simp [ha]

theorem Kind.isClosed_of_ne {kind : Kind} (hobject : kind ≠ .object) (hempty : kind ≠ .empty)
    (hreference : kind ≠ .reference) : kind.isClosed := by
  cases kind <;> first | rfl | contradiction

namespace Schema

/-! ## Bases -/

theorem mem_addBase {base other : String} {bases : List String} :
    other ∈ addBase bases base ↔ other ∈ bases ∨ other = base := by
  unfold addBase
  split <;> simp_all

theorem mem_foldl_addBase {base : String} {bases more : List String} :
    base ∈ more.foldl addBase bases ↔ base ∈ bases ∨ base ∈ more := by
  induction more generalizing bases with
  | nil => simp
  | cons first more ih =>
    rw [List.foldl_cons, ih, mem_addBase, List.mem_cons]
    tauto

theorem foldl_addBase_addBase (bases more : List String) (base : String) :
    (addBase more base).foldl addBase bases = addBase (more.foldl addBase bases) base := by
  by_cases h : base ∈ more
  · rw [addBase, if_pos h, addBase, if_pos (mem_foldl_addBase.mpr (.inr h))]
  · rw [addBase, if_neg h, List.foldl_append]
    rfl

theorem foldl_foldl_addBase (bases more most : List String) :
    (most.foldl addBase more).foldl addBase bases =
      most.foldl addBase (more.foldl addBase bases) := by
  induction most generalizing more with
  | nil => rfl
  | cons base most ih => rw [List.foldl_cons, ih, foldl_addBase_addBase, List.foldl_cons]

theorem addBase_ne_nil (bases : List String) (base : String) : addBase bases base ≠ [] := by
  intro h
  have hmem : base ∈ addBase bases base := mem_addBase.mpr (.inr rfl)
  rw [h] at hmem
  cases hmem

theorem foldl_addBase_eq_nil {bases more : List String} (h : more.foldl addBase bases = []) :
    bases = [] ∧ more = [] := by
  induction more generalizing bases with
  | nil => exact ⟨h, rfl⟩
  | cons base more ih => exact absurd (ih h).1 (addBase_ne_nil bases base)

/-! ## What a merge does not look at -/

theorem merge_opened (self other : Schema) : self.opened.merge other = self.merge other := by
  cases other
  simp only [merge, opened_opened]

theorem merge_settle (self theirs other : Schema) :
    self.merge (settle theirs other) = self.merge other := by
  cases other
  simp only [settle, merge]

theorem settle_opened (theirs self : Schema) :
    (settle theirs self).opened = settle theirs self.opened := by
  by_cases h : self.kind = .empty
  · simp [opened, settle, h]
  · simp [opened, settle, h]

/-- The flags of a property may be settled before a merge or after it. -/
theorem settle_merge {self other result : Schema} (theirs : Schema)
    (h : self.merge other = .ok result) :
    (settle theirs self).merge other = .ok (settle theirs result) := by
  -- Settling changes a flag and the description, which no merge looks at.
  cases hkind : other.kind
  case reference =>
    rcases (merge_reference hkind).mp h with ⟨hobject, hpath, rfl⟩
    rw [merge_reference hkind, settle_opened]
    exact ⟨hobject, hpath, rfl⟩
  case empty =>
    cases (merge_empty hkind).symm.trans h
    rw [merge_empty hkind, settle_opened]
  case object =>
    rcases (merge_object hkind).mp h with ⟨merged, hmerged, hheritage, rfl⟩
    rw [merge_object hkind, settle_opened]
    exact ⟨merged, hmerged, hheritage, rfl⟩
  all_goals
    rcases (merge_closed (by rw [hkind]; rfl)).mp h with ⟨hsame, rfl⟩
    rw [merge_closed (by rw [hkind]; rfl), settle_opened]
    exact ⟨hsame, rfl⟩

/-- An empty shape is merged like an object without anything in it. -/
theorem Regular.merge_opened_right {other : Schema} (h : Regular other) (self : Schema) :
    self.merge other.opened = self.merge other := by
  by_cases hempty : other.kind = .empty
  · have hbare := h.bare (by simp [hempty])
    have hvoid := h.void hempty
    rw [merge_empty hempty]
    refine (merge_object (by simp [Schema.opened, hempty])).mpr
      ⟨self.opened.properties, ?_, .inl ?_, ?_⟩
    · simp [Schema.opened, hempty, hbare.1, mergeProperties]
    · simp [Schema.opened, hempty, hbare.2]
    · have hopened : other.opened = { other with kind := .object } := if_pos hempty
      rw [hopened]
      simp only [hbare.2, hvoid, Option.or_none, List.foldl_nil]
      cases self.opened
      rfl
  · rw [opened_of_ne hempty]

/-- A reference is merged like the object that extends it. -/
theorem merge_asTarget {self other target result : Schema} (htarget : asTarget other = .ok target)
    (h : self.merge target = .ok result) : self.merge other = .ok result := by
  rw [asTarget_eq_ok] at htarget
  split at htarget
  · rename_i hkind
    rcases htarget with ⟨hpath, rfl⟩
    rcases (merge_object rfl).mp h with ⟨merged, hmerged, hheritage, rfl⟩
    cases Except.ok.inj hmerged
    refine (merge_reference hkind).mpr ⟨hheritage.resolve_left (by simp), hpath, ?_⟩
    simp only [Option.or_none, List.foldl_cons, List.foldl_nil]
  · rw [← htarget]
    exact h

theorem opened_of_merge {self other result : Schema} (h : self.merge other = .ok result) :
    result.opened = result :=
  opened_of_ne ((merge_frame h).kind ▸ opened_kind_ne self)

theorem opened_kind_ne_reference {self : Schema} (h : self.kind ≠ .reference) :
    self.opened.kind ≠ .reference := by
  unfold opened
  split
  · simp
  · exact h

theorem merge_kind_ne {self other result : Schema} (hself : self.kind ≠ .reference)
    (h : self.merge other = .ok result) : result.kind ≠ .reference := by
  rw [(merge_frame h).kind]
  exact opened_kind_ne_reference hself

/-! ## Properties -/

theorem settle_settle {mine theirs : Schema} (hrequired : mine.required = theirs.required)
    (hdescription : mine.description = theirs.description) (last schema : Schema) :
    settle (settle last mine) schema = settle last (settle theirs schema) := by
  simp only [settle, hrequired, hdescription, Bool.or_assoc, Json.orElse_assoc]

/-- Merging `c` last can be regrouped, whatever it is merged into. -/
def Regroups (c : Schema) : Prop :=
  ∀ {a b bc result : Schema}, Regular a → Regular b → b.kind ≠ .reference →
    b.merge c = .ok bc → a.merge bc = .ok result →
    ∃ ab, a.merge b = .ok ab ∧ ∃ other, ab.merge c = .ok other ∧ Agree result other

/-- Three properties that are joined from the right can be joined from the left. -/
theorem joined_assoc {a b c bc result : Schema} (hc : Regroups c) (ha : Regular a)
    (hb : Regular b) (hbc : joined b c = .ok bc) (h : joined a bc = .ok result) :
    ∃ ab, joined a b = .ok ab ∧ ∃ other, joined ab c = .ok other ∧ Agree result other := by
  rcases joined_eq_ok.mp hbc with ⟨target, merged, htarget, hmerged, rfl⟩
  rcases joined_eq_ok.mp h with ⟨start, whole, hstart, hwhole, rfl⟩
  -- The flags that are settled along the way play no part in the merges, so `hc` applies to what
  -- the properties are merged into.
  rw [merge_settle] at hwhole
  rcases hc (ha.asTarget hstart) (hb.asTarget htarget)
      (asTarget_kind_ne htarget) hmerged hwhole with ⟨both, hboth, other, hother, hagree⟩
  have hkind : both.kind ≠ .reference := merge_kind_ne (asTarget_kind_ne hstart) hboth
  rcases flags_of_asTarget_merge htarget hmerged with ⟨hrequired, hdescription⟩
  refine ⟨settle b both, ?_, settle c (settle b other), ?_, ?_⟩
  · exact joined_eq_ok.mpr ⟨start, both, hstart, merge_asTarget htarget hboth, rfl⟩
  · exact joined_eq_ok.mpr
      ⟨settle b both, settle b other, if_neg hkind, settle_merge b hother, rfl⟩
  · rw [settle_settle hrequired hdescription]
    exact (hagree.settle b).settle c

/-! ## Tables -/

theorem find?_withProperty {name : PropertyName} {table result : Properties}
    {entry : PropertyName × Schema} (hname : entry.1.same name = false)
    (h : withProperty table entry = .ok result) :
    Properties.find? name result = Properties.find? name table := by
  have hset : ∀ schema, Properties.find? name (Properties.set entry.1 schema table) =
      Properties.find? name table := by
    intro schema
    rw [Properties.find?_set, hname, if_neg Bool.false_ne_true]
  cases hfound : Properties.find? entry.1 table with
  | none =>
    cases (withProperty_none hfound).symm.trans h
    exact hset _
  | some property =>
    rcases (withProperty_some hfound).mp h with ⟨whole, _, rfl⟩
    exact hset _

/-- A property that is not among the ones merged in stays as it is. -/
theorem find?_foldlM_withProperty {name : PropertyName} {table result : Properties}
    {theirs : List (PropertyName × Schema)} (hnew : Properties.find? name theirs = none)
    (h : theirs.foldlM withProperty table = .ok result) :
    Properties.find? name result = Properties.find? name table := by
  have hstep : ∀ entry ∈ theirs, ∀ current next,
      Properties.find? name current = Properties.find? name table →
      withProperty current entry = .ok next →
      Properties.find? name next = Properties.find? name table := by
    intro entry hmem current next hsame hnext
    rw [find?_withProperty (Properties.find?_eq_none.mp hnew entry hmem) hnext, hsame]
  exact foldlM_invariant hstep rfl h

/-- Two properties of different names may be merged in and set in either order. -/
theorem withProperty_set {name : PropertyName} {table : Properties}
    {entry : PropertyName × Schema} (hname : entry.1.same name = false)
    (hfound : (Properties.find? name table).isSome) (schema : Schema) :
    withProperty (Properties.set name schema table) entry =
      Properties.set name schema <$> withProperty table entry := by
  have hother : name.same entry.1 = false := PropertyName.same_comm name entry.1 ▸ hname
  have hfind : Properties.find? entry.1 (Properties.set name schema table) =
      Properties.find? entry.1 table := by
    rw [Properties.find?_set, hother, if_neg Bool.false_ne_true]
  -- The entry meets the same property in both tables, and a new one goes to the end of both.
  cases hmine : Properties.find? entry.1 table with
  | none =>
    rw [withProperty_none (hfind.trans hmine), withProperty_none hmine, map_ok,
      Properties.set_comm hother _ _ hfound]
  | some property =>
    simp only [withProperty, hfind, hmine]
    cases joined property entry.2 with
    | error error => rfl
    | ok whole => exact congrArg Except.ok (Properties.set_comm hother _ _ hfound)

theorem withProperty_cons {first entry : PropertyName × Schema} {table : Properties}
    (h : ¬first.1.same entry.1 = true) :
    withProperty (first :: table) entry = (first :: ·) <$> withProperty table entry := by
  simp only [withProperty, Properties.find?_cons, Properties.set_cons, if_neg h]
  cases Properties.find? entry.1 table with
  | none => rfl
  | some property =>
    dsimp only
    cases joined property entry.2 <;> rfl

/-- Setting a property that is there and is not merged in can wait for the end. -/
theorem foldlM_withProperty_set {name : PropertyName} {table : Properties}
    {theirs : List (PropertyName × Schema)} (hnew : Properties.find? name theirs = none)
    (hfound : (Properties.find? name table).isSome) (schema : Schema) :
    theirs.foldlM withProperty (Properties.set name schema table) =
      Properties.set name schema <$> theirs.foldlM withProperty table := by
  induction theirs generalizing table with
  | nil => rfl
  | cons entry theirs ih =>
    have hentry := Properties.find?_eq_none.mp hnew entry List.mem_cons_self
    rw [Properties.find?_cons, hentry, if_neg Bool.false_ne_true] at hnew
    rw [List.foldlM_cons, List.foldlM_cons, withProperty_set hentry hfound]
    cases hnext : withProperty table entry with
    | error error => rfl
    | ok next =>
      rw [map_ok, ok_bind, ok_bind]
      exact ih hnew (find?_withProperty hentry hnext ▸ hfound)

/-- A property that two merges meet: first `property` and then `last` are merged into the table, or
what they make together. -/
theorem withProperty_joined {name : PropertyName} {property last whole : Schema}
    (hlast : Regroups last) (hproperty : Regular property) (hregular : Regular last)
    (hwhole : joined property last = .ok whole) {mine next : Properties}
    (hmine : RegularTable mine) (h : withProperty mine (name, whole) = .ok next) :
    ∃ result both other, next = Properties.set name result mine ∧
      withProperty mine (name, property) = .ok (Properties.set name both mine) ∧
      joined both last = .ok other ∧ Agree result other ∧ Regular result ∧ Regular other := by
  have hregularWhole : Regular whole := hproperty.joined hregular hwhole
  -- Where the table has no such property, the two are joined first and added then, both ways.
  cases hfound : Properties.find? name mine with
  | none =>
    cases (withProperty_none hfound).symm.trans h
    exact ⟨whole, property, whole, rfl, withProperty_none hfound, hwhole, .refl _, hregularWhole,
      hregularWhole⟩
  | some start =>
    rcases (withProperty_some hfound).mp h with ⟨result, hresult, rfl⟩
    have hstart : Regular start := hmine.find? hfound
    rcases joined_assoc hlast hstart hproperty hwhole hresult with
      ⟨both, hboth, other, hother, hagree⟩
    exact ⟨result, both, other, rfl, (withProperty_some hfound).mpr ⟨both, hboth, rfl⟩, hother,
      hagree, hstart.joined hregularWhole hresult,
      (hstart.joined hproperty hboth).joined hregular hother⟩

/-- The step of the regrouping for the property that comes last. -/
theorem withProperty_assoc {entry : PropertyName × Schema} (hlast : Regroups entry.2)
    (hname : entry.1.same entry.1 = true) (hentry : Regular entry.2)
    {mine theirs next result : Properties} (hmine : RegularTable mine)
    (htheirs : RegularTable theirs) (hnext : withProperty theirs entry = .ok next)
    (h : next.foldlM withProperty mine = .ok result) :
    ∃ both, theirs.foldlM withProperty mine = .ok both ∧
      ∃ other, withProperty both entry = .ok other ∧ AgreeTables result other := by
  -- The induction is on the middle table. The last property either meets its first entry, or that
  -- entry comes first in every grouping.
  induction theirs generalizing mine next with
  | nil =>
    cases (withProperty_none rfl).symm.trans hnext
    have hstep : withProperty mine entry = .ok result := (bind_pure _).symm.trans h
    exact ⟨mine, rfl, result, hstep, .refl (hmine.withProperty hname hentry hstep)⟩
  | cons first theirs ih =>
    rcases Properties.distinct_cons.mp htheirs.distinct with ⟨hfirst, hnew, hdistinct⟩
    rcases List.forall_mem_cons.mp htheirs.shapes with ⟨hregular, hshapes⟩
    have hrest : RegularTable theirs := ⟨hdistinct, hshapes⟩
    by_cases hsame : first.1.same entry.1 = true
    · have hfound : Properties.find? entry.1 (first :: theirs) = some first.2 := by
        rw [Properties.find?_cons, if_pos hsame]
      rcases (withProperty_some hfound).mp hnext with ⟨whole, hwhole, rfl⟩
      rw [Properties.set_cons, if_pos hsame, List.foldlM_cons, bind_eq_ok] at h
      rcases h with ⟨mid, hmid, h⟩
      rcases withProperty_joined hlast hregular hentry hwhole hmine hmid with
        ⟨last, both, other, rfl, hboth, hother, hagree, hlastRegular, hotherRegular⟩
      have hthere : Properties.find? first.1 (Properties.set first.1 both mine) = some both := by
        rw [Properties.find?_set, if_pos hfirst]
      -- The last property is set in the table of the first two, before or after the rest of them.
      rw [← Properties.set_set first.1 both last hfirst,
        foldlM_withProperty_set hnew (by rw [hthere]; rfl), map_eq_ok] at h
      rcases h with ⟨table, htable, rfl⟩
      have hfirstTable : RegularTable table :=
        (hmine.withProperty hfirst hregular hboth).foldlM_withProperty
          (fun entry hmem => ⟨hdistinct.usable entry hmem, hshapes entry hmem⟩) htable
      have hfind : Properties.find? first.1 table = some both := by
        rw [find?_foldlM_withProperty hnew htable, hthere]
      have hfindLast : Properties.find? entry.1 table = some both := by
        rw [← Properties.find?_of_same hsame, hfind]
      refine ⟨table, ?_, Properties.set entry.1 other table,
        (withProperty_some hfindLast).mpr ⟨other, hother, rfl⟩, ?_⟩
      · rw [List.foldlM_cons, hboth, ok_bind, htable]
      · rw [← Properties.set_of_same hsame other (by rw [hfind]; rfl)]
        exact (AgreeTables.refl hfirstTable).set hfirst hlastRegular hotherRegular hagree
    · rw [withProperty_cons hsame, map_eq_ok] at hnext
      rcases hnext with ⟨after, hafter, rfl⟩
      rw [List.foldlM_cons, bind_eq_ok] at h
      rcases h with ⟨mid, hmid, h⟩
      rcases ih (hmine.withProperty hfirst hregular hmid) hrest hafter h with
        ⟨both, hboth, other, hother, hagree⟩
      refine ⟨both, ?_, other, hother, hagree⟩
      rw [List.foldlM_cons, hmid, ok_bind, hboth]

/-- Merging a table into a second and the result into a first is merging both into the first in
turn. -/
theorem foldlM_withProperty_assoc {entries : List (PropertyName × Schema)}
    (hentries : ∀ entry ∈ entries, Regroups entry.2 ∧ entry.1.same entry.1 = true ∧
      Regular entry.2)
    {mine theirs next result : Properties} (hmine : RegularTable mine)
    (htheirs : RegularTable theirs) (hnext : entries.foldlM withProperty theirs = .ok next)
    (h : next.foldlM withProperty mine = .ok result) :
    ∃ both, theirs.foldlM withProperty mine = .ok both ∧
      ∃ other, entries.foldlM withProperty both = .ok other ∧ AgreeTables result other := by
  induction entries generalizing theirs with
  | nil =>
    cases hnext
    exact ⟨result, h, result, rfl, .refl (hmine.foldlM_withProperty
      (fun entry hmem => ⟨htheirs.distinct.usable entry hmem, htheirs.shapes entry hmem⟩) h)⟩
  | cons entry entries ih =>
    rcases List.forall_mem_cons.mp hentries with ⟨⟨hlast, hname, hregular⟩, hentries⟩
    rw [List.foldlM_cons, bind_eq_ok] at hnext
    rcases hnext with ⟨mid, hmid, hrest⟩
    have hregularMid : RegularTable mid := htheirs.withProperty hname hregular hmid
    -- The first property is regrouped last: the other ones are merged into tables that agree.
    rcases ih hentries hregularMid hrest with ⟨bothMid, hbothMid, last, hlastMid, hagree⟩
    rcases withProperty_assoc hlast hname hregular hmine htheirs hmid hbothMid with
      ⟨both, hboth, other, hother, hsame⟩
    rcases hsame.foldlM_withProperty
        (fun entry hmem => (hentries entry hmem).2)
        (fun entry hmem _ _ _ ha hb => agree_merge ha hb (hentries entry hmem).2.2) hlastMid with
      ⟨final, hfinal, hagreeFinal⟩
    refine ⟨both, hboth, final, ?_, hagree.trans hagreeFinal⟩
    rw [List.foldlM_cons, hother, ok_bind, hfinal]

/-! ## Shapes -/

theorem withProperty_ne_nil {table result : Properties} {entry : PropertyName × Schema}
    (h : withProperty table entry = .ok result) : result ≠ [] := by
  cases hfound : Properties.find? entry.1 table with
  | none =>
    cases (withProperty_none hfound).symm.trans h
    exact Properties.set_ne_nil
  | some property =>
    rcases (withProperty_some hfound).mp h with ⟨whole, _, rfl⟩
    exact Properties.set_ne_nil

theorem foldlM_withProperty_eq_nil {table : Properties} {theirs : List (PropertyName × Schema)}
    (h : theirs.foldlM withProperty table = .ok []) : table = [] ∧ theirs = [] := by
  cases theirs with
  | nil => exact ⟨Except.ok.inj h, rfl⟩
  | cons first theirs =>
    rw [List.foldlM_cons, bind_eq_ok] at h
    rcases h with ⟨next, hnext, hrest⟩
    have hstep : ∀ entry ∈ theirs, ∀ before after, before ≠ [] →
        withProperty before entry = .ok after → after ≠ [] :=
      fun _ _ _ _ _ hstep => withProperty_ne_nil hstep
    exact absurd rfl (foldlM_invariant hstep (withProperty_ne_nil hnext) hrest)

section Regrouping

variable {c : Schema}

/-- A reference that is merged last can be regrouped. -/
theorem regroups_reference (hkind : c.kind = .reference) : Regroups c := by
  intro a b bc result ha hb hreference hbc h
  rcases (merge_reference hkind).mp hbc with ⟨hobject, hpath, rfl⟩
  -- With a base the merged shape has a heritage, and only an object takes that.
  rcases (merge_object (by exact hobject)).mp h with ⟨merged, hmerged, hheritage, rfl⟩
  have hself : a.opened.kind = .object := hheritage.resolve_left (addBase_ne_nil _ _)
  have hab := (hb.merge_opened_right a).symm.trans
    ((merge_object hobject).mpr ⟨merged, hmerged, .inr hself, rfl⟩)
  refine ⟨_, hab, _, (merge_reference hkind).mpr ⟨?_, hpath, rfl⟩, ?_⟩
  · rw [opened_of_merge hab]
    exact hself
  · rw [opened_of_merge hab]
    simp only [foldl_addBase_addBase]
    exact .refl _

/-- What is merged last does not change the two before it, if it is empty or takes nothing. -/
theorem regroups_unchanged (hkind : c.kind = .empty ∨ c.kind.isClosed) : Regroups c := by
  intro a b bc result ha hb hreference hbc h
  have hright : a.merge b.opened = a.merge b := hb.merge_opened_right a
  rcases hkind with hempty | hclosed
  · cases (merge_empty hempty).symm.trans hbc
    rw [hright] at h
    refine ⟨result, h, result.opened, merge_empty hempty, ?_⟩
    rw [opened_of_merge h]
    exact .refl _
  · rcases (merge_closed hclosed).mp hbc with ⟨hsame, rfl⟩
    rcases (merge_closed (hsame ▸ hclosed)).mp h with ⟨hself, rfl⟩
    rw [hright] at h
    refine ⟨_, h, _, (merge_closed hclosed).mpr ⟨?_, rfl⟩, ?_⟩
    · rw [opened_opened, hself, hsame]
    · rw [opened_opened]
      exact .refl _

/-- So can an object, if its properties can. -/
theorem regroups_object (hc : Regular c) (hkind : c.kind = .object)
    (hproperties : ∀ entry ∈ c.properties, Regroups entry.2) : Regroups c := by
  intro a b bc result ha hb hreference hbc h
  have hright : a.merge b.opened = a.merge b := hb.merge_opened_right a
  by_cases hobject : b.opened.kind = .object
  · rcases (merge_object hkind).mp hbc with ⟨last, hlast, _, rfl⟩
    rw [hobject, mergeProperties_object] at hlast
    by_cases hself : a.opened.kind = .object
    · -- All three are objects, so it is their tables that are regrouped.
      rcases (merge_object (by exact hobject)).mp h with ⟨merged, hmerged, _, rfl⟩
      rw [hself, mergeProperties_object] at hmerged
      rcases foldlM_withProperty_assoc
          (fun entry hmem => ⟨hproperties entry hmem, hc.entries entry hmem⟩)
          ha.opened.table hb.opened.table hlast hmerged with ⟨both, hboth, other, hother, hagree⟩
      have hab := hright.symm.trans ((merge_object hobject).mpr
        ⟨both, by rw [hself, mergeProperties_object, hboth], .inr hself, rfl⟩)
      refine ⟨_, hab, _, (merge_object hkind).mpr ⟨other, ?_, .inr ?_, rfl⟩, ?_⟩
      · rw [opened_of_merge hab, hself, mergeProperties_object, hother]
      · rw [opened_of_merge hab, hself]
      · rw [opened_of_merge hab]
        exact { Agree.refl a.opened with
          properties := fun _ => hagree.same
          additional := fun _ => by simp only [Option.or_assoc]
          heritage := fun _ => by simp only [foldl_foldl_addBase] }
    · -- A closed shape takes no properties, so neither of the other two has any.
      rcases (ha.merge_object_closed (by exact hobject) hself).mp h with ⟨hnil, hbases, rfl⟩
      cases hnil
      rcases foldlM_withProperty_eq_nil hlast with ⟨hmine, htheirs⟩
      rcases foldl_addBase_eq_nil hbases with ⟨hmineBases, htheirBases⟩
      have hab := hright.symm.trans
        ((ha.merge_object_closed hobject hself).mpr ⟨hmine, hmineBases, rfl⟩)
      refine ⟨_, hab, _, ((ha.merge hb hab).merge_object_closed hkind ?_).mpr
        ⟨htheirs, htheirBases, rfl⟩, ?_⟩
      · rw [opened_of_merge hab]
        exact hself
      · rw [opened_of_merge hab]
        simp only [Option.or_assoc]
        exact .refl _
  · -- The object leaves its shape of further properties behind, which has no meaning there.
    rcases (hb.merge_object_closed hkind hobject).mp hbc with ⟨hnone, hbases, rfl⟩
    have hclosed : b.opened.kind.isClosed :=
      Kind.isClosed_of_ne hobject (opened_kind_ne b) (opened_kind_ne_reference hreference)
    rcases (merge_closed (by exact hclosed)).mp h with ⟨hself, rfl⟩
    have hab := hright.symm.trans ((merge_closed hclosed).mpr ⟨hself, rfl⟩)
    have hne : a.opened.opened.kind ≠ .object := by
      rw [opened_opened, hself]
      exact hobject
    refine ⟨_, hab, _, (ha.opened.merge_object_closed hkind hne).mpr ⟨hnone, hbases, rfl⟩, ?_⟩
    rw [opened_opened]
    exact { Agree.refl a.opened with additional := fun hkind => absurd hkind (hself ▸ hobject) }

/-- Merging is associative on regular shapes: by induction over the shape on the right. -/
theorem Regular.regroups (hc : Regular c) : Regroups c := by
  induction c using induct with
  | step c ihItems ihProperties ihAdditional =>
    cases hkind : c.kind
    case reference => exact regroups_reference hkind
    case object =>
      exact regroups_object hc hkind
        (fun entry hmem => ihProperties entry hmem (hc.properties entry hmem))
    case empty => exact regroups_unchanged (.inl hkind)
    all_goals exact regroups_unchanged (.inr (by rw [hkind]; rfl))

end Regrouping

end Schema

end ApiTypes
