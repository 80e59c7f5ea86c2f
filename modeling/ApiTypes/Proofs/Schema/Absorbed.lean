import ApiTypes.Proofs.Schema.Order
import ApiTypes.Proofs.Schema.Paths

/-!
# What a composition has absorbed

A composition has at every path all that its parts give it there, whatever is composed before and
after them. A part that is composed once more is refused only if it has a reference that no object
can extend.
-/

namespace ApiTypes

namespace Schema

variable {whole part mine theirs result : Schema}

/-- All that a shape gives to another one that it is merged into is there already. -/
structure Contains (whole part : Schema) : Prop where
  reference : whole.kind = .reference →
    part.kind = .reference ∧ part.name = whole.name ∧ part.indexPath = whole.indexPath
  void : whole.kind = .empty → part.kind = .empty
  closed : whole.kind.isClosed = true → part.kind = whole.kind ∨ part.Bare
  composable : whole.kind = .object → Composable part
  bases : ∀ base ∈ part.bases, base ∈ whole.bases
  further : part.kind = .object → part.additional.isSome = true → whole.additional.isSome = true

/-- A property is required and described where another one of its name is. -/
structure Marked (whole part : Schema) : Prop where
  required : part.required = true → whole.required = true
  description : part.description.isTruthy = true → whole.description.isTruthy = true

/-- A composition contains a part of it at every path. -/
def Absorbs (whole part : Schema) : Prop :=
  ∀ path inner, part.at? path = some inner →
    ∃ outer, whole.at? path = some outer ∧ Contains outer inner ∧ (path ≠ [] → Marked outer inner)

/-! ## A single shape -/

theorem composable_of_object (h : part.kind = .object) : Composable part :=
  ⟨by rw [h]; rfl, by simp [h]⟩

theorem Contains.refl (part : Schema) : Contains part part where
  reference := fun h => ⟨h, rfl, rfl⟩
  void := id
  closed := fun _ => .inl rfl
  composable := composable_of_object
  bases := fun _ => id
  further := fun _ => id

theorem Marked.refl (part : Schema) : Marked part part :=
  ⟨id, id⟩

/-- A shape that is closed in the end was so from the start. -/
theorem kind_of_merge_closed (h : mine.merge theirs = .ok result)
    (hclosed : result.kind.isClosed = true) : mine.kind = result.kind := by
  have hframe := (merge_frame h).kind
  by_cases hempty : mine.kind = .empty
  · rw [hframe, opened, if_pos hempty] at hclosed
    cases hclosed
  · rw [hframe, opened_of_ne hempty]

/-- What a shape contains it still contains when another is merged into it. -/
theorem Contains.merge (h : Contains mine part) (hmine : Regular mine) (htheirs : Regular theirs)
    (hkind : mine.kind ≠ .reference) (hmerge : mine.merge theirs = .ok result) :
    Contains result part := by
  have hframe := (merge_frame hmerge).kind
  have hresult := merge_kind_ne hkind hmerge
  refine ⟨fun hreference => absurd hreference hresult,
    fun hempty => absurd (hframe ▸ hempty) (opened_kind_ne mine), fun hclosed => ?_,
    fun hobject => ?_, fun base hbase => ?_, fun hpart hsome => ?_⟩
  · have hsame := kind_of_merge_closed hmerge hclosed
    exact hsame ▸ h.closed (hsame ▸ hclosed)
  · -- An object in the end was one before, or it was void and so contains void parts only.
    by_cases hempty : mine.kind = .empty
    · have hvoid := h.void hempty
      exact ⟨by rw [hvoid]; rfl, by simp [hvoid]⟩
    · rw [hframe, opened_of_ne hempty] at hobject
      exact h.composable hobject
  · rw [bases_of_ne hresult, (unites_of_merge hmine htheirs hkind hmerge).bases]
    exact .inl (h.bases base hbase)
  · have hadditional := h.further hpart hsome
    rw [merge_additional hmerge]
    split <;> simp [hadditional]

theorem Contains.asTarget (h : Contains mine part) (htarget : asTarget mine = .ok result) :
    Contains result part := by
  rw [asTarget_eq_ok] at htarget
  split at htarget
  · rename_i hkind
    obtain ⟨hpath, rfl⟩ := htarget
    obtain ⟨hreference, hname, hindex⟩ := h.reference hkind
    refine ⟨by simp, by simp, by simp [Kind.isClosed], fun _ => ?_, fun base hbase => ?_,
      by simp [hreference]⟩
    · exact ⟨by rw [hreference]; rfl, fun _ => hindex.trans hpath⟩
    · rw [Schema.bases, if_pos hreference, hname] at hbase
      exact hbase
  · rw [htarget]
    exact h

/-- A merge contains the shape that was merged in. -/
theorem contains_of_merge (hmine : Regular mine) (htheirs : Regular theirs)
    (hkind : mine.kind ≠ .reference) (h : mine.merge theirs = .ok result) :
    Contains result theirs := by
  have hframe := (merge_frame h).kind
  have hresult := merge_kind_ne hkind h
  refine ⟨fun hreference => absurd hreference hresult,
    fun hempty => absurd (hframe ▸ hempty) (opened_kind_ne mine), fun hclosed => ?_,
    fun hobject => ?_, fun base hbase => ?_, fun hpart hsome => ?_⟩
  · -- A closed shape takes only what fits it.
    have hsame := kind_of_merge_closed h hclosed
    have htarget : asTarget mine = .ok mine := asTarget_eq_ok.mpr (by rw [if_neg hkind])
    exact hsame ▸ (fits_iff_of_closed hmine (hsame ▸ hclosed)).mp
      (fits_iff.mpr ⟨mine, htarget, result, h⟩)
  · exact ((merge_ok_of_object htheirs (hframe ▸ hobject)).mp ⟨result, h⟩).1
  · rw [bases_of_ne hresult, (unites_of_merge hmine htheirs hkind h).bases]
    exact .inr hbase
  · rw [merge_additional h, if_pos hpart]
    cases mine.additional <;> simp [hsome]

/-! ## Two properties of one name -/

theorem Contains.settle (h : Contains mine part) : Contains (settle theirs mine) part :=
  ⟨h.reference, h.void, h.closed, h.composable, h.bases, h.further⟩

theorem Contains.joined (h : Contains mine part) (hmine : Regular mine) (htheirs : Regular theirs)
    (hjoined : joined mine theirs = .ok result) : Contains result part := by
  obtain ⟨target, merged, htarget, hmerged, rfl⟩ := joined_eq_ok.mp hjoined
  have htargets := h.asTarget htarget
  exact (htargets.merge (hmine.asTarget htarget) htheirs (asTarget_kind_ne htarget) hmerged).settle

theorem contains_of_joined (hmine : Regular mine) (htheirs : Regular theirs)
    (h : joined mine theirs = .ok result) : Contains result theirs := by
  obtain ⟨target, merged, htarget, hmerged, rfl⟩ := joined_eq_ok.mp h
  exact (contains_of_merge (hmine.asTarget htarget) htheirs (asTarget_kind_ne htarget) hmerged).settle

/-- Settling a property keeps the marks that it had. -/
theorem Marked.joined (h : Marked mine part) (hjoined : joined mine theirs = .ok result) :
    Marked result part := by
  constructor
  · intro hrequired
    rw [joined_required hjoined, h.required hrequired, Bool.true_or]
  · intro hdescription
    have hmine := h.description hdescription
    rwa [joined_description hjoined, Json.orElse, if_pos hmine]

/-- Joining a property takes on the marks of the other. -/
theorem marked_of_joined (h : joined mine theirs = .ok result) : Marked result theirs := by
  constructor
  · intro hrequired
    rw [joined_required h, hrequired, Bool.or_true]
  · intro hdescription
    rw [joined_description h, Json.orElse]
    split
    · assumption
    · exact hdescription

/-! ## Every path -/

theorem Absorbs.here (h : Absorbs whole part) : Contains whole part := by
  obtain ⟨outer, houter, hcontains, _⟩ := h [] part rfl
  cases houter
  exact hcontains

/-- What stands in a composition for a property of a part has absorbed it. -/
theorem Absorbs.inside (h : Absorbs whole part) {name : PropertyName} {inner : Schema}
    (hinner : Properties.find? name part.properties = some inner) :
    ∃ outer, Properties.find? name whole.properties = some outer ∧ Absorbs outer inner ∧
      Marked outer inner := by
  have hat : part.at? [name] = some inner := by rw [at?_cons, hinner]; rfl
  obtain ⟨outer, houter, _, hmarked⟩ := h [name] inner hat
  obtain ⟨found, hfound, hsame⟩ := Option.bind_eq_some_iff.mp houter
  cases hsame
  refine ⟨outer, hfound, fun path deeper hdeeper => ?_, hmarked (by simp)⟩
  obtain ⟨there, hthere, hcontains, hflags⟩ :=
    h (name :: path) deeper (by rw [at?_cons, hinner]; exact hdeeper)
  rw [at?_cons, hfound] at hthere
  exact ⟨there, hthere, hcontains, fun _ => hflags (by simp)⟩

/-- What a shape absorbs, at every depth, it still absorbs after a merge. -/
theorem Absorbs.merge (h : Absorbs mine part) (hmine : Regular mine) (htheirs : Regular theirs)
    (hkind : mine.kind ≠ .reference) (hmerge : mine.merge theirs = .ok result) :
    Absorbs result part := by
  intro path inner hinner
  obtain ⟨outer, houter, hcontains, hmarked⟩ := h path inner hinner
  by_cases hroot : path = []
  · subst hroot
    cases houter
    exact ⟨result, rfl, hcontains.merge hmine htheirs hkind hmerge, fun hpath => absurd rfl hpath⟩
  · have hjoined := joinedAt_at? hmine htheirs (unites_of_merge hmine htheirs hkind hmerge) hroot
    have hregular := hmine.at? houter
    rw [houter] at hjoined
    generalize hright : theirs.at? path = right at hjoined
    generalize result.at? path = found at hjoined ⊢
    cases hjoined with
    | mine => exact ⟨outer, rfl, hcontains, hmarked⟩
    | both hwhole =>
      -- Both sides have the path, so that what has absorbed the part is joined once more.
      exact ⟨_, rfl, hcontains.joined hregular (htheirs.at? hright) hwhole,
        fun hpath => (hmarked hpath).joined hwhole⟩

/-- A merge absorbs the shape that was merged in, at every depth. -/
theorem absorbs_of_merge (hmine : Regular mine) (htheirs : Regular theirs)
    (hkind : mine.kind ≠ .reference) (h : mine.merge theirs = .ok result) :
    Absorbs result theirs := by
  intro path inner hinner
  -- At the root the shapes were merged, further in their properties were joined.
  by_cases hroot : path = []
  · subst hroot
    cases hinner
    exact ⟨result, rfl, contains_of_merge hmine htheirs hkind h, fun hpath => absurd rfl hpath⟩
  · have hjoined := joinedAt_at? hmine htheirs (unites_of_merge hmine htheirs hkind h) hroot
    have hregular := htheirs.at? hinner
    rw [hinner] at hjoined
    generalize hleft : mine.at? path = left at hjoined
    generalize result.at? path = found at hjoined ⊢
    cases hjoined with
    | theirs => exact ⟨inner, rfl, .refl inner, fun _ => .refl inner⟩
    | both hwhole =>
      exact ⟨_, rfl, contains_of_joined (hmine.at? hleft) hregular hwhole,
        fun _ => marked_of_joined hwhole⟩

/-- A composition has absorbed all its parts. -/
theorem absorbs_of_foldlM {start : Schema} {parts : List Schema} (hstart : Regular start)
    (hparts : ∀ part ∈ parts, Regular part) (hkind : start.kind ≠ .reference)
    (h : parts.foldlM Schema.merge start = .ok whole) : ∀ part ∈ parts, Absorbs whole part := by
  induction parts generalizing start with
  | nil => simp
  | cons first parts ih =>
    obtain ⟨hfirst, hrest⟩ := List.forall_mem_cons.mp hparts
    rw [List.foldlM_cons, bind_eq_ok] at h
    obtain ⟨next, hnext, h⟩ := h
    -- The first part is absorbed now and stays so, whatever is merged later.
    have hregular := hstart.merge hfirst hnext
    have hnextKind := merge_kind_ne hkind hnext
    have hstep : ∀ part ∈ parts, ∀ mine after,
        (Regular mine ∧ mine.kind ≠ .reference ∧ Absorbs mine first) →
        mine.merge part = .ok after →
        Regular after ∧ after.kind ≠ .reference ∧ Absorbs after first := by
      rintro part hmem mine after ⟨hmine, hmineKind, habsorbs⟩ hmerge
      exact ⟨hmine.merge (hrest part hmem) hmerge, merge_kind_ne hmineKind hmerge,
        habsorbs.merge hmine (hrest part hmem) hmineKind hmerge⟩
    have hlater := foldlM_invariant hstep
      ⟨hregular, hnextKind, absorbs_of_merge hstart hfirst hkind hnext⟩ h
    exact List.forall_mem_cons.mpr ⟨hlater.2.2, ih hregular hrest hnextKind h⟩

/-! ## Composing a part once more -/

/-- A reference into a definition. No object extends it. -/
def Derived (schema : Schema) : Prop :=
  schema.kind = .reference ∧ schema.indexPath ≠ []

/-- Below its root a shape has no reference into a definition. -/
def Extendable (schema : Schema) : Prop :=
  ∀ path inner, path ≠ [] → schema.at? path = some inner → ¬inner.Derived

/-- A shape is extendable if no property of it is derived and each is extendable itself. -/
theorem extendable_iff : part.Extendable ↔ ∀ name inner,
    Properties.find? name part.properties = some inner → ¬inner.Derived ∧ inner.Extendable := by
  constructor
  · intro h name inner hinner
    refine ⟨h [name] inner (by simp) (by rw [at?_cons, hinner]; rfl),
      fun path deeper _ hdeeper => h (name :: path) deeper (by simp) ?_⟩
    rw [at?_cons, hinner]
    exact hdeeper
  · intro h path deeper hpath hdeeper
    -- The first name of the path is asked of the table, and the rest is a path inside.
    cases path with
    | nil => exact absurd rfl hpath
    | cons name path =>
      obtain ⟨inner, hinner, hdeeper⟩ := Option.bind_eq_some_iff.mp hdeeper
      obtain ⟨hhere, hinside⟩ := h name inner hinner
      cases path with
      | nil =>
        cases hdeeper
        exact hhere
      | cons next path => exact hinside (next :: path) deeper (by simp) hdeeper

/-- Among the open shapes only a derived reference cannot be merged in. -/
theorem composable_iff_not_derived (hopen : part.kind.isClosed = false) :
    Composable part ↔ ¬part.Derived := by
  constructor
  · rintro hcomposable ⟨hreference, hpath⟩
    exact hpath (hcomposable.plain hreference)
  · intro hderived
    refine ⟨hopen, fun hreference => ?_⟩
    by_contra hpath
    exact hderived ⟨hreference, hpath⟩

theorem Contains.isOpen (h : Contains whole part) (hopen : whole.kind.isClosed = false) :
    part.kind.isClosed = false := by
  by_cases hreference : whole.kind = .reference
  · rw [(h.reference hreference).1]
    rfl
  by_cases hempty : whole.kind = .empty
  · rw [h.void hempty]
    rfl
  by_cases hobject : whole.kind = .object
  · exact (h.composable hobject).isOpen
  · rw [Kind.isClosed_of_ne hobject hempty hreference] at hopen
    cases hopen

theorem Contains.composable_iff (h : Contains whole part) (hopen : whole.kind.isClosed = false) :
    Composable whole ∧ Composable part ↔ ¬part.Derived := by
  rw [composable_iff_not_derived (h.isOpen hopen), composable_iff_not_derived hopen]
  refine and_iff_right_of_imp fun hpart => ?_
  -- A reference contains itself only.
  rintro ⟨hreference, hpath⟩
  obtain ⟨hkind, _, hindex⟩ := h.reference hreference
  exact hpart ⟨hkind, hindex ▸ hpath⟩

/-- What a closed shape contains has no properties. -/
theorem Regular.properties_of_closed (hpart : Regular part) {kind : Kind}
    (hclosed : kind.isClosed = true) (h : part.kind = kind ∨ part.Bare) : part.properties = [] := by
  rcases h with hkind | hempty | ⟨_, hproperties, _⟩
  · exact (hpart.bare fun hobject => by rw [← hkind, hobject] at hclosed; cases hclosed).1
  · exact (hpart.bare (by simp [hempty])).1
  · exact hproperties

/-- The tables fit property by property, as each inner shape is absorbed by the one of its name. -/
theorem fitTables_of_absorbs (hfits : ∀ name inner outer,
      Properties.find? name part.properties = some inner →
      Properties.find? name whole.properties = some outer → Absorbs outer inner →
        (Fits outer inner ↔ ¬inner.Derived ∧ inner.Extendable))
    (h : Absorbs whole part) :
    FitTables whole.properties part.properties ↔ part.Extendable := by
  rw [extendable_iff]
  constructor
  · intro htables name inner hinner
    obtain ⟨outer, houter, habsorbs, _⟩ := h.inside hinner
    exact (hfits name inner outer hinner houter habsorbs).mp (htables name outer inner houter hinner)
  · intro hinside name outer inner houter hinner
    obtain ⟨found, hfound, habsorbs, _⟩ := h.inside hinner
    cases hfound.symm.trans houter
    exact (hfits name inner outer hinner houter habsorbs).mpr (hinside name inner hinner)

/-- A property is merged into what has absorbed it, unless it is a reference into a definition or has
one inside. -/
theorem fits_of_absorbs (hwhole : Regular whole) (hpart : Regular part) (h : Absorbs whole part) :
    Fits whole part ↔ ¬part.Derived ∧ part.Extendable := by
  induction part using induct generalizing whole with
  | step part _ ihProperties _ =>
    have htables : FitTables whole.properties part.properties ↔ part.Extendable := by
      refine fitTables_of_absorbs (fun name inner outer hinner houter habsorbs => ?_) h
      obtain ⟨entry, hmem, rfl⟩ := Properties.mem_of_find? hinner
      exact ihProperties entry hmem (hwhole.table.find? houter) (hpart.table.find? hinner) habsorbs
    have hcontains := h.here
    cases hclosed : whole.kind.isClosed with
    | true =>
      -- A closed shape takes what it contains, which has nothing inside and is no reference.
      have hnothing := hcontains.closed hclosed
      refine iff_of_true ((fits_iff_of_closed hwhole hclosed).mpr hnothing) ⟨?_, ?_⟩
      · rintro ⟨hreference, _⟩
        rcases hnothing with hkind | hempty | ⟨hobject, _⟩
        · rw [← hkind, hreference] at hclosed
          cases hclosed
        · rw [hreference] at hempty
          cases hempty
        · rw [hreference] at hobject
          cases hobject
      · rw [← htables, hpart.properties_of_closed hclosed hnothing]
        exact fitTables_nil_right
    | false =>
      rw [fits_iff_of_open hwhole hpart hclosed, htables, ← and_assoc,
        hcontains.composable_iff hclosed]

/-- What has been absorbed can be merged in again, unless it has a derived reference in it. -/
theorem merge_ok_of_absorbs (hwhole : Regular whole) (hpart : Regular part)
    (hobject : whole.kind = .object) (h : Absorbs whole part) :
    (∃ result, whole.merge part = .ok result) ↔ part.Extendable := by
  have hopened : whole.opened.kind = .object := by rw [opened_of_ne (by simp [hobject]), hobject]
  rw [merge_ok_of_object hpart hopened, and_iff_right (h.here.composable hobject)]
  refine fitTables_of_absorbs (fun name inner outer hinner houter habsorbs => ?_) h
  exact fits_of_absorbs (hwhole.table.find? houter) (hpart.table.find? hinner) habsorbs

end Schema

end ApiTypes
