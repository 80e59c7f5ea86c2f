import ApiTypes.Proofs.Schema.Union

/-!
# When shapes can be composed

Whether a merge succeeds, by the kinds of its two sides and property by property. The check looks at
what is merged in: it is passed by a shape that declares nothing, whatever that is merged into.
Apart from such shapes the check does not depend on the order of the two sides.
-/

namespace ApiTypes

namespace Schema

/-! ## Errors of a composition -/

theorem family_of_extend {self base : Schema} {error : Error} (h : self.extend base = .error error) :
    error.family = .merge := by
  unfold extend at h
  split at h
  · cases h
    rfl
  · split at h <;> cases h
    rfl

theorem family_of_asTarget {self : Schema} {error : Error} (h : asTarget self = .error error) :
    error.family = .merge := by
  unfold asTarget at h
  split at h
  · exact family_of_extend h
  · cases h

/-- The properties of an object fail to merge only with an error of merging. -/
theorem family_of_mergeProperties {kind : Kind} {mine : Properties}
    {theirs : List (PropertyName × Schema)} {error : Error}
    (hmerge : ∀ entry ∈ theirs, ∀ {self : Schema} {error : Error},
      self.merge entry.2 = .error error → error.family = .merge)
    (h : mergeProperties kind mine theirs = .error error) : error.family = .merge := by
  induction theirs generalizing mine with
  | nil => cases h
  | cons entry theirs ih =>
    obtain ⟨hentry, htheirs⟩ := List.forall_mem_cons.mp hmerge
    obtain ⟨name, schema⟩ := entry
    rw [mergeProperties] at h
    split at h
    · split at h
      · cases h
        rfl
      · exact ih htheirs h
    · rcases bind_eq_error.mp h with htarget | ⟨target, _, h⟩
      · exact family_of_asTarget htarget
      · rcases bind_eq_error.mp h with hmerged | ⟨merged, _, h⟩
        · exact hentry hmerged
        · exact ih htheirs h

/-- A merge fails only with an error of merging, at whatever depth. -/
theorem family_of_merge {self other : Schema} {error : Error} (h : self.merge other = .error error) :
    error.family = .merge := by
  induction other using induct generalizing self error with
  | step other _ ihProperties _ =>
    obtain ⟨kind⟩ := other
    cases kind <;> simp only [merge] at h
    case reference => exact family_of_extend h
    case empty => cases h
    case object =>
      rcases bind_eq_error.mp h with hmerged | ⟨_, _, h⟩
      · exact family_of_mergeProperties ihProperties hmerged
      · split at h <;> cases h
        rfl
    all_goals
      split at h <;> cases h
      rfl

/-! ## Two properties that fit -/

/-- A shape can be composed with objects: it is none of the closed kinds, and as a reference it is to
a definition as a whole. -/
structure Composable (schema : Schema) : Prop where
  isOpen : schema.kind.isClosed = false
  plain : schema.kind = .reference → schema.indexPath = []

def Fits (mine theirs : Schema) : Prop :=
  ∃ whole, joined mine theirs = .ok whole

def FitTables (mine theirs : Properties) : Prop :=
  ∀ name left right, Properties.find? name mine = some left →
    Properties.find? name theirs = some right → Fits left right

/-- A shape that declares nothing: an empty one, or an object without properties and bases. -/
def Bare (schema : Schema) : Prop :=
  schema.kind = .empty ∨ schema.kind = .object ∧ schema.properties = [] ∧ schema.heritage = []

theorem fitTables_nil_right {mine : Properties} : FitTables mine [] :=
  fun _ _ _ _ h => nomatch h

theorem withProperty_ok {table : Properties} {entry : PropertyName × Schema} :
    (∃ next, withProperty table entry = .ok next) ↔
      ∀ mine, Properties.find? entry.1 table = some mine → Fits mine entry.2 := by
  cases hfound : Properties.find? entry.1 table with
  | none => exact iff_of_true ⟨_, withProperty_none hfound⟩ fun _ h => nomatch h
  | some mine => simp [withProperty_some hfound, Fits]

section Entry

variable {table : Properties} {entry : PropertyName × Schema}
  {theirs : List (PropertyName × Schema)} (hnew : Properties.find? entry.1 theirs = none)
include hnew

theorem not_same_of_later {name : PropertyName} {schema : Schema}
    (h : Properties.find? name theirs = some schema) : entry.1.same name = false := by
  rw [Bool.eq_false_iff]
  intro hsame
  rw [← Properties.find?_of_same hsame, hnew] at h
  cases h

/-- Two tables fit if the first property of one fits its namesake and the rest fits. -/
theorem fitTables_cons (hself : entry.1.same entry.1 = true) :
    FitTables table (entry :: theirs) ↔
      (∀ mine, Properties.find? entry.1 table = some mine → Fits mine entry.2) ∧
        FitTables table theirs := by
  constructor
  · intro hfit
    refine ⟨fun mine hmine => hfit entry.1 mine entry.2 hmine ?_,
      fun name left right hleft hright => hfit name left right hleft ?_⟩
    · rw [Properties.find?_cons, if_pos hself]
    · rw [Properties.find?_cons, not_same_of_later hnew hright]
      exact hright
  · rintro ⟨hentry, hrest⟩ name left right hleft hright
    rw [Properties.find?_cons] at hright
    -- A name is asked at the entry that has it, and there is only one.
    by_cases hsame : entry.1.same name = true
    · rw [if_pos hsame, Option.some.injEq] at hright
      rw [← Properties.find?_of_same hsame] at hleft
      exact hright ▸ hentry left hleft
    · rw [if_neg hsame] at hright
      exact hrest name left right hleft hright

/-- The entries after one do not see what that one has changed, as their names are others. -/
theorem fitTables_withProperty {next : Properties} (hnext : withProperty table entry = .ok next) :
    FitTables next theirs ↔ FitTables table theirs := by
  have hfind : ∀ {name right}, Properties.find? name theirs = some right →
      Properties.find? name next = Properties.find? name table :=
    fun hright => find?_withProperty (not_same_of_later hnew hright) hnext
  constructor
  · intro hfit name left right hleft hright
    exact hfit name left right ((hfind hright).trans hleft) hright
  · intro hfit name left right hleft hright
    exact hfit name left right ((hfind hright).symm.trans hleft) hright

end Entry

/-- A table can be merged in exactly if it fits. -/
theorem foldlM_withProperty_ok {table : Properties} {theirs : List (PropertyName × Schema)}
    (hdistinct : Properties.Distinct theirs) :
    (∃ result, theirs.foldlM withProperty table = .ok result) ↔ FitTables table theirs := by
  induction theirs generalizing table with
  | nil => exact iff_of_true ⟨table, rfl⟩ fitTables_nil_right
  | cons entry theirs ih =>
    obtain ⟨hself, hnew, hrest⟩ := Properties.distinct_cons.mp hdistinct
    rw [fitTables_cons hnew hself, ← withProperty_ok]
    simp only [List.foldlM_cons, bind_eq_ok]
    constructor
    · rintro ⟨result, next, hnext, hresult⟩
      exact ⟨⟨next, hnext⟩, (fitTables_withProperty hnew hnext).mp ((ih hrest).mp ⟨result, hresult⟩)⟩
    · rintro ⟨⟨next, hnext⟩, hfit⟩
      obtain ⟨result, hresult⟩ := (ih hrest).mpr ((fitTables_withProperty hnew hnext).mpr hfit)
      exact ⟨result, next, hnext, hresult⟩

variable {mine theirs : Schema}

/-- A shape can be merged into an object exactly if it is composable and its table fits. -/
theorem merge_ok_of_object (htheirs : Regular theirs) (hmine : mine.opened.kind = .object) :
    (∃ whole, mine.merge theirs = .ok whole) ↔
      Composable theirs ∧ FitTables mine.properties theirs.properties := by
  have hnothing : theirs.kind ≠ .object → FitTables mine.properties theirs.properties := by
    intro hkind
    rw [(htheirs.bare hkind).1]
    exact fitTables_nil_right
  -- An object takes what is open; of another object the properties must fit its own.
  cases hkind : theirs.kind
  case reference =>
    simp only [merge_reference hkind, hmine, true_and, exists_and_left, exists_eq, and_true]
    exact ⟨fun hpath => ⟨⟨by rw [hkind]; rfl, fun _ => hpath⟩, hnothing (by simp [hkind])⟩,
      fun h => h.1.plain hkind⟩
  case empty =>
    exact iff_of_true ⟨_, merge_empty hkind⟩
      ⟨⟨by rw [hkind]; rfl, by simp [hkind]⟩, hnothing (by simp [hkind])⟩
  case object =>
    have hcomposable : Composable theirs := ⟨by rw [hkind]; rfl, by simp [hkind]⟩
    rw [and_iff_right hcomposable, ← foldlM_withProperty_ok htheirs.distinct]
    simp only [merge_object hkind, hmine, mergeProperties_object, opened_properties]
    constructor
    · rintro ⟨_, merged, hmerged, _⟩
      exact ⟨merged, hmerged⟩
    · rintro ⟨merged, hmerged⟩
      exact ⟨_, merged, hmerged, .inr trivial, rfl⟩
  all_goals
    have hclosed : theirs.kind.isClosed = true := by rw [hkind]; rfl
    refine iff_of_false ?_ fun h => by simp [h.1.isOpen] at hclosed
    rintro ⟨_, h⟩
    have hsame := ((merge_closed hclosed).mp h).1
    rw [hmine, hkind] at hsame
    cases hsame

/-- An open shape can be the target of a merge unless it is a derived reference. -/
theorem asTarget_ok (hopen : mine.kind.isClosed = false) :
    (∃ target, asTarget mine = .ok target) ↔ Composable mine := by
  simp only [asTarget_eq_ok]
  split
  · rename_i hreference
    simp only [exists_and_left, exists_eq, and_true]
    exact ⟨fun hpath => ⟨hopen, fun _ => hpath⟩, fun h => h.plain hreference⟩
  · rename_i hother
    exact iff_of_true ⟨_, rfl⟩ ⟨hopen, fun hreference => absurd hreference hother⟩

theorem kind_of_asTarget {target : Schema} (hopen : mine.kind.isClosed = false)
    (h : asTarget mine = .ok target) : target.opened.kind = .object := by
  rw [asTarget_eq_ok] at h
  split at h
  · rw [h.2]
    rfl
  · rename_i hreference
    rw [h]
    unfold opened
    split
    · rfl
    · rename_i hempty
      by_contra hobject
      rw [Kind.isClosed_of_ne hobject hempty hreference] at hopen
      cases hopen

/-- Two properties fit exactly if the second can be merged into the first as a target. -/
theorem fits_iff : Fits mine theirs ↔
    ∃ target, asTarget mine = .ok target ∧ ∃ merged, target.merge theirs = .ok merged := by
  simp only [Fits, joined_eq_ok]
  constructor
  · rintro ⟨_, target, merged, htarget, hmerged, _⟩
    exact ⟨target, htarget, merged, hmerged⟩
  · rintro ⟨target, htarget, merged, hmerged⟩
    exact ⟨_, target, merged, htarget, hmerged, rfl⟩

/-- For an open target this comes down to the two shapes and their tables. -/
theorem fits_iff_of_open (hmine : Regular mine) (htheirs : Regular theirs)
    (hopen : mine.kind.isClosed = false) :
    Fits mine theirs ↔
      Composable mine ∧ Composable theirs ∧ FitTables mine.properties theirs.properties := by
  have hmerges : ∀ {target}, asTarget mine = .ok target →
      ((∃ merged, target.merge theirs = .ok merged) ↔
        Composable theirs ∧ FitTables mine.properties theirs.properties) := by
    intro target htarget
    rw [← (same_of_asTarget hmine htarget).2]
    exact merge_ok_of_object htheirs (kind_of_asTarget hopen htarget)
  rw [fits_iff, ← asTarget_ok hopen]
  constructor
  · rintro ⟨target, htarget, hmerged⟩
    exact ⟨⟨target, htarget⟩, (hmerges htarget).mp hmerged⟩
  · rintro ⟨⟨target, htarget⟩, hrest⟩
    exact ⟨target, htarget, (hmerges htarget).mpr hrest⟩

/-- A closed shape takes its own kind, and everything that declares nothing. -/
theorem fits_iff_of_closed (hmine : Regular mine) (hclosed : mine.kind.isClosed = true) :
    Fits mine theirs ↔ theirs.kind = mine.kind ∨ theirs.Bare := by
  have hreference : mine.kind ≠ .reference := fun h => by simp [h, Kind.isClosed] at hclosed
  have hempty : mine.kind ≠ .empty := fun h => by simp [h, Kind.isClosed] at hclosed
  have hobject : mine.kind ≠ .object := fun h => by simp [h, Kind.isClosed] at hclosed
  have hopened : mine.opened = mine := opened_of_ne hempty
  have hjoined : Fits mine theirs ↔ ∃ merged, mine.merge theirs = .ok merged := by
    simp [fits_iff, asTarget_eq_ok, hreference]
  rw [hjoined]
  -- A closed shape takes its own kind, and of an open one only what says nothing.
  cases hkind : theirs.kind
  case reference =>
    simp [merge_reference hkind, hopened, hobject, Bare, hkind, hreference.symm]
  case empty => simp [merge_empty hkind, Bare, hkind]
  case object =>
    have hkeeps : mine.opened.kind ≠ .object := by rwa [hopened]
    simp [hmine.merge_object_closed hkind hkeeps, Bare, hkind, hobject.symm]
  all_goals
    have hmerge : ∀ whole, mine.merge theirs = .ok whole ↔
        mine.opened.kind = theirs.kind ∧ whole = mine.opened :=
      fun _ => merge_closed (by rw [hkind]; rfl)
    simp [hmerge, hopened, Bare, hkind, eq_comm]

/-! ## The order of the two sides -/

/-- The shape at a path of property names. -/
def at? : List PropertyName → Schema → Option Schema
  | [], schema => some schema
  | name :: path, schema => (Properties.find? name schema.properties).bind (at? path)

/-- One of two shapes is closed and the other one declares nothing, so that they fit in one order
only. -/
def Lopsided (mine theirs : Schema) : Prop :=
  (mine.kind.isClosed = true ∧ theirs.Bare) ∨ (theirs.kind.isClosed = true ∧ mine.Bare)

theorem Bare.isOpen (h : mine.Bare) : mine.kind.isClosed = false := by
  rcases h with h | ⟨h, _⟩ <;> rw [h] <;> rfl

/-- Nowhere in what two shapes have in common does one of them declare nothing where the other one is
closed. -/
def Balanced (mine theirs : Schema) : Prop :=
  ∀ path left right, mine.at? path = some left → theirs.at? path = some right →
    ¬Lopsided left right

def BalancedInside (mine theirs : Schema) : Prop :=
  ∀ name left right, Properties.find? name mine.properties = some left →
    Properties.find? name theirs.properties = some right → Balanced left right

theorem Balanced.inside (h : Balanced mine theirs) : BalancedInside mine theirs := by
  intro name left right hleft hright path inner other hinner hother
  refine h (name :: path) inner other ?_ ?_
  · rw [at?, hleft, Option.bind_some, hinner]
  · rw [at?, hright, Option.bind_some, hother]

/-- Two tables fit in either order if their common properties do. -/
theorem fitTables_comm {mine theirs : Properties}
    (h : ∀ name left right, Properties.find? name mine = some left →
      Properties.find? name theirs = some right → (Fits left right ↔ Fits right left)) :
    FitTables mine theirs ↔ FitTables theirs mine := by
  constructor
  · intro hfit name left right hleft hright
    exact (h name right left hright hleft).mp (hfit name right left hright hleft)
  · intro hfit name left right hleft hright
    exact (h name left right hleft hright).mpr (hfit name right left hright hleft)

/-- An open shape and a closed one fit in neither order, but for the lopsided pairs. -/
theorem not_fits_of_open_closed (hmine : Regular mine) (htheirs : Regular theirs)
    (hopen : mine.kind.isClosed = false) (hclosed : theirs.kind.isClosed = true)
    (h : ¬Lopsided mine theirs) : ¬Fits mine theirs ∧ ¬Fits theirs mine := by
  constructor
  · rw [fits_iff_of_open hmine htheirs hopen]
    intro hfit
    rw [hfit.2.1.isOpen] at hclosed
    cases hclosed
  · rw [fits_iff_of_closed htheirs hclosed]
    rintro (hsame | hbare)
    · rw [hsame, hclosed] at hopen
      cases hopen
    · exact h (.inr ⟨hclosed, hbare⟩)

/-- Two properties that are balanced fit in both orders or in none. -/
theorem fits_comm (hmine : Regular mine) (htheirs : Regular theirs) (h : Balanced mine theirs) :
    Fits mine theirs ↔ Fits theirs mine := by
  induction mine using induct generalizing theirs with
  | step mine _ ihProperties _ =>
    have hhere : ¬Lopsided mine theirs := h [] mine theirs rfl rfl
    have hswapped : ¬Lopsided theirs mine := fun hlopsided => hhere hlopsided.symm
    cases hclosed : mine.kind.isClosed <;> cases hother : theirs.kind.isClosed
    case false.false =>
      have htables : FitTables mine.properties theirs.properties ↔
          FitTables theirs.properties mine.properties := by
        refine fitTables_comm fun name left right hleft hright => ?_
        obtain ⟨entry, hmem, rfl⟩ := Properties.mem_of_find? hleft
        exact ihProperties entry hmem (hmine.table.find? hleft) (htheirs.table.find? hright)
          (h.inside name entry.2 right hleft hright)
      rw [fits_iff_of_open hmine htheirs hclosed, fits_iff_of_open htheirs hmine hother, htables]
      tauto
    case false.true =>
      obtain ⟨hno, hback⟩ := not_fits_of_open_closed hmine htheirs hclosed hother hhere
      exact iff_of_false hno hback
    case true.false =>
      obtain ⟨hback, hno⟩ := not_fits_of_open_closed htheirs hmine hother hclosed hswapped
      exact iff_of_false hno hback
    case true.true =>
      -- What declares nothing is open, so that two closed shapes fit if they are of one kind.
      have hbare : ∀ {schema : Schema}, schema.kind.isClosed = true → ¬schema.Bare := by
        intro schema hclosed hbare
        rcases hbare with hkind | ⟨hkind, _⟩ <;> rw [hkind] at hclosed <;> cases hclosed
      rw [fits_iff_of_closed hmine hclosed, fits_iff_of_closed htheirs hother,
        or_iff_left (hbare hother), or_iff_left (hbare hclosed), eq_comm]

end Schema

end ApiTypes
