import ApiTypes.Proofs.Schema.Absorbed
import ApiTypes.Proofs.Schema.Everywhere
import ApiTypes.Proofs.Schema.Flattening
import ApiTypes.Proofs.Schema.Unflagged
import ApiTypes.TypeScript.Declaration

/-!
# A branch that is repeated

A composition with one of its branches once more is rendered as it was. A property that is a
reference becomes an object that extends the definition, which is written as the definition alone.
Only an empty shape changes: once something is composed with it, it is an open object.
-/

namespace ApiTypes

namespace Properties

/-- Two tables with the same names in the same order go together entry by entry, as their shapes of
each name do. -/
theorem forall₂_of_names {related : Schema → Schema → Prop} {mine theirs : Properties}
    (hdistinct : Distinct mine) (hnames : names theirs = names mine)
    (h : ∀ name, Option.Rel related (find? name mine) (find? name theirs)) :
    List.Forall₂ (fun left right => left.1 = right.1 ∧ related left.2 right.2) mine theirs := by
  induction mine generalizing theirs with
  | nil =>
    rw [List.map_eq_nil_iff.mp hnames]
    exact .nil
  | cons entry mine ih =>
    obtain ⟨hself, hnew, hrest⟩ := distinct_cons.mp hdistinct
    obtain ⟨other, theirs, rfl, hname, hlater⟩ := List.map_eq_cons_iff.mp hnames
    refine .cons ⟨hname.symm, ?_⟩ (ih hrest hlater fun name => ?_)
    · have hhere := h entry.1
      rw [find?_cons, find?_cons, hname, if_pos hself, if_pos hself] at hhere
      cases hhere
      assumption
    · -- The name of the first entry is not there again, in neither of the tables.
      by_cases hsame : entry.1.same name = true
      · have hmine : find? name mine = none := (find?_of_same hsame mine).symm.trans hnew
        have htheirs : find? name theirs = none := by
          rw [find?_eq_none_names] at hmine ⊢
          rw [names, hlater]
          exact hmine
        rw [hmine, htheirs]
        exact .none
      · have hthere := h name
        rwa [find?_cons, find?_cons, hname, if_neg hsame, if_neg hsame] at hthere

end Properties

theorem Schema.Everywhere.at? {P : Schema → Prop} {schema : Schema} (h : Everywhere P schema)
    {path : List PropertyName} {inner : Schema} (hinner : schema.at? path = some inner) :
    Everywhere P inner := by
  induction path generalizing schema with
  | nil => exact Option.some.inj hinner ▸ h
  | cons name path ih =>
    obtain ⟨property, hproperty, hinner⟩ := Option.bind_eq_some_iff.mp hinner
    obtain ⟨entry, hmem, rfl⟩ := Properties.mem_of_find? hproperty
    exact ih (h.properties entry hmem) hinner

namespace TypeScript

open Schema

variable {first second : Schema}

/-! ## Rendered alike -/

/-- Two properties of one name are written alike. -/
structure Alike (first second : Schema) : Prop where
  type : ∀ depth, typeText depth first = typeText depth second
  required : first.required = second.required
  comments : commentLines first.deprecated first.description =
    commentLines second.deprecated second.description

theorem Alike.refl (schema : Schema) : Alike schema schema :=
  ⟨fun _ => rfl, rfl, rfl⟩

/-- Two objects have the same bases, and properties that are written alike. -/
structure AlikeInside (first second : Schema) : Prop where
  nullable : first.nullable = second.nullable
  heritage : first.heritage = second.heritage
  additional : first.additional = second.additional
  properties : List.Forall₂ (fun left right => left.1 = right.1 ∧ Alike left.2 right.2)
    first.properties second.properties

theorem propertyFields_alike {mine theirs : Properties}
    (h : List.Forall₂ (fun left right => left.1 = right.1 ∧ Alike left.2 right.2) mine theirs)
    (depth : Int) : propertyFields depth mine = propertyFields depth theirs := by
  induction h with
  | nil => rfl
  | @cons left right _ _ hentry _ ih =>
    obtain ⟨name, schema⟩ := left
    obtain ⟨other, shape⟩ := right
    obtain ⟨rfl, halike⟩ := hentry
    rw [propertyFields, propertyFields, ih, halike.type, halike.comments, halike.required]

/-- Objects that are alike inside have the same type. -/
theorem AlikeInside.typeText (h : AlikeInside first second) (hfirst : first.kind = .object)
    (hsecond : second.kind = .object) (depth : Int) :
    typeText depth first = typeText depth second := by
  have hproperties := propertyFields_alike h.properties
  obtain ⟨hnullable, hheritage, hadditional, _⟩ := h
  obtain ⟨_⟩ := first
  obtain ⟨_⟩ := second
  subst hfirst hsecond hnullable hheritage hadditional
  simp only [TypeScript.typeText, hproperties]

theorem AlikeInside.declaration (h : AlikeInside first second) (hfirst : first.kind = .object)
    (hsecond : second.kind = .object) (emitEnums : Bool) (name : String) :
    declaration emitEnums first name = declaration emitEnums second name := by
  have hfields : fields 1 first = fields 1 second := by
    rw [fields, fields, propertyFields_alike h.properties, h.additional]
  have hplain : ∀ schema : Schema, schema.kind = .object →
      isEnumeration emitEnums schema = .ok false := by
    intro schema hkind
    simp [isEnumeration, hkind, Kind.isPrimitive]
  simp only [TypeScript.declaration, interfaceFields?, if_pos hfirst, if_pos hsecond, hfields,
    h.heritage, h.typeText hfirst hsecond, hplain _ hfirst, hplain _ hsecond, ok_bind,
    Bool.false_eq_true, if_false]

/-! ## Merging what is there already -/

variable {mine theirs result : Schema}

theorem foldl_addBase_of_mem {bases more : List String} (h : ∀ base ∈ more, base ∈ bases) :
    more.foldl addBase bases = bases := by
  have hnone : more.filter (· ∉ bases) = [] :=
    List.filter_eq_nil_iff.mpr fun base hmem => by simp [h base hmem]
  rw [foldl_addBase, hnone, List.eraseDups_nil, List.append_nil]

/-- A description that is there is not replaced. -/
theorem commentLines_orElse {deprecated : Bool} {description other : Json}
    (h : other.isTruthy = true → description.isTruthy = true) :
    commentLines deprecated (description.orElse other) = commentLines deprecated description := by
  cases hmine : description.isTruthy with
  | true => rw [Json.orElse, if_pos hmine]
  | false =>
    have hother : other.isTruthy = false := by
      rw [Bool.eq_false_iff]
      intro htruthy
      rw [h htruthy] at hmine
      cases hmine
    rw [Json.orElse, if_neg (by simp [hmine])]
    unfold commentLines
    simp [hmine, hother]

/-- Somewhere both of two shapes declare nothing. -/
def BothVoid (mine theirs : Schema) : Prop :=
  ∃ path left right, mine.at? path = some left ∧ theirs.at? path = some right ∧
    left.kind = .empty ∧ right.kind = .empty

/-- A pair of void properties inside a property is one inside the whole. -/
theorem BothVoid.outside {name : PropertyName} {left right : Schema}
    (hleft : Properties.find? name mine.properties = some left)
    (hright : Properties.find? name theirs.properties = some right) (h : BothVoid left right) :
    BothVoid mine theirs := by
  obtain ⟨path, inner, other, hinner, hother, hvoid⟩ := h
  refine ⟨name :: path, inner, other, ?_, ?_, hvoid⟩
  · rw [at?_cons, hleft]
    exact hinner
  · rw [at?_cons, hright]
    exact hother

/-- An object into which an object is merged that it has absorbed stays alike inside, if its
properties do. -/
theorem alikeInside_of_merge (hmine : Regular mine) (htheirs : Regular theirs)
    (hobject : mine.kind = .object) (h : Absorbs mine theirs)
    (hentries : ∀ name left right whole, Properties.find? name mine.properties = some left →
      Properties.find? name theirs.properties = some right → joined left right = .ok whole →
        Alike left whole)
    (hmerge : mine.merge theirs = .ok result) : AlikeInside mine result := by
  have hkind : mine.kind ≠ .reference := by simp [hobject]
  have hopened : mine.opened = mine := opened_of_ne (by simp [hobject])
  obtain ⟨hbases, _⟩ := parts_of_merge hmine htheirs hkind hmerge
  have hcontains := h.here
  refine ⟨?_, ?_, ?_, Properties.forall₂_of_names hmine.distinct ?_ fun name => ?_⟩
  · rw [(merge_frame hmerge).nullable, hopened]
  · rw [hbases, foldl_addBase_of_mem hcontains.bases, bases_of_ne hkind]
  · rw [merge_additional hmerge]
    split
    · rename_i htheirKind
      have hfurther := hcontains.further htheirKind
      cases hadditional : mine.additional with
      | some rest => rfl
      | none =>
        rw [hadditional] at hfurther
        cases hother : theirs.additional with
        | none => rfl
        | some rest => exact absurd (hfurther (by rw [hother]; rfl)) (by simp)
    · rfl
  · -- No name is new.
    have hnone : Properties.newNames theirs.properties mine.properties = [] := by
      refine List.filter_eq_nil_iff.mpr fun name hname => ?_
      obtain ⟨entry, hmem, rfl⟩ := List.mem_map.mp hname
      cases hfound : Properties.find? entry.1 theirs.properties with
      | none =>
        have hself := Properties.find?_eq_none.mp hfound entry hmem
        rw [htheirs.distinct.usable entry hmem] at hself
        cases hself
      | some inner =>
        obtain ⟨outer, houter, _⟩ := h.inside hfound
        simp [houter]
    rw [(adds_of_merge hmine htheirs hkind hmerge).names, hnone, List.append_nil]
  · have hjoined := (unites_of_merge hmine htheirs hkind hmerge).properties name
    generalize hleft : Properties.find? name mine.properties = left at hjoined ⊢
    generalize hright : Properties.find? name theirs.properties = right at hjoined
    generalize Properties.find? name result.properties = found at hjoined ⊢
    cases hjoined with
    | absent => exact .none
    | mine schema => exact .some (.refl schema)
    | theirs schema =>
      -- No property is of the other side alone, since each of them was absorbed.
      obtain ⟨outer, houter, _⟩ := h.inside hright
      rw [hleft] at houter
      cases houter
    | both hwhole => exact .some (hentries name _ _ _ hleft hright hwhole)

theorem typeText_reference {schema : Schema} (hkind : schema.kind = .reference)
    (hpath : schema.indexPath = []) (hnullable : schema.nullable = false) (depth : Int) :
    typeText depth schema = .ok (identifier schema.name) := by
  obtain ⟨_⟩ := schema
  subst hkind hpath hnullable
  simp [typeText, referenceText, String.join]

/-- An object that does nothing but extend a definition is written as the definition. -/
theorem typeText_base {schema : Schema} {name : String} (hkind : schema.kind = .object)
    (hproperties : schema.properties = []) (hadditional : schema.additional = none)
    (hheritage : schema.heritage = [name]) (hnullable : schema.nullable = false) (depth : Int) :
    typeText depth schema = .ok (identifier name) := by
  obtain ⟨_⟩ := schema
  subst hkind hproperties hadditional hheritage hnullable
  simp [typeText, propertyFields, indexFields, objectText]

theorem typeText_closed (hclosed : first.kind.isClosed = true) (hkind : first.kind = second.kind)
    (hnullable : first.nullable = second.nullable) (henum : first.enumValues = second.enumValues)
    (hitems : first.items = second.items) (depth : Int) :
    typeText depth first = typeText depth second := by
  obtain ⟨kind⟩ := first
  obtain ⟨_⟩ := second
  subst hkind hnullable henum hitems
  cases kind <;> first | rfl | cases hclosed

/-- The type of a property into which one is merged that it has absorbed, where its own properties
are written as before. -/
theorem typeText_of_joined (hmine : Regular mine) (htheirs : Regular theirs)
    (h : Absorbs mine theirs) (hflags : Unflagged mine) (hvoid : ¬BothVoid mine theirs)
    (hentries : ∀ name left right whole, Properties.find? name mine.properties = some left →
      Properties.find? name theirs.properties = some right → joined left right = .ok whole →
        Alike left whole)
    (hjoined : joined mine theirs = .ok result) (depth : Int) :
    typeText depth mine = typeText depth result := by
  have hcontains := h.here
  obtain ⟨target, merged, htarget, hmerged, rfl⟩ := joined_eq_ok.mp hjoined
  have hframe := merge_frame hmerged
  rw [asTarget_eq_ok] at htarget
  by_cases hreference : mine.kind = .reference
  · -- The reference becomes an object whose only base is the definition.
    rw [if_pos hreference] at htarget
    obtain ⟨hpath, rfl⟩ := htarget
    obtain ⟨htheirKind, hname, _⟩ := hcontains.reference hreference
    obtain ⟨_, _, rfl⟩ := (merge_reference htheirKind).mp hmerged
    rw [typeText_reference hreference hpath (hflags [] mine rfl hreference).1]
    refine (typeText_base rfl rfl rfl ?_ rfl depth).symm
    simp [settle, opened, addBase, hname]
  · rw [if_neg hreference] at htarget
    subst htarget
    by_cases hobject : target.kind = .object
    · -- What settles the property changes neither its bases nor what is inside.
      obtain ⟨hnullable, hheritage, hadditional, hproperties⟩ :=
        alikeInside_of_merge hmine htheirs hobject h hentries hmerged
      have hinside : AlikeInside target (settle theirs merged) :=
        ⟨hnullable, hheritage, hadditional, hproperties⟩
      have hkind : merged.kind = .object := by
        rw [hframe.kind, opened_of_ne (by simp [hobject]), hobject]
      exact hinside.typeText hobject hkind depth
    · -- A closed shape stays as it is, and a void one is excluded.
      have hempty : target.kind ≠ .empty := fun hempty =>
        hvoid ⟨[], target, theirs, rfl, rfl, hempty, hcontains.void hempty⟩
      rw [opened_of_ne hempty] at hframe
      refine typeText_closed (Kind.isClosed_of_ne hobject hempty hreference) ?_ ?_ ?_ ?_ depth
      · exact hframe.kind.symm
      · exact hframe.nullable.symm
      · exact hframe.enumValues.symm
      · exact hframe.items.symm

/-- Joining unflagged properties keeps the mark of the first. -/
theorem deprecated_of_joined (hflags : Unflagged mine) (hjoined : joined mine theirs = .ok result) :
    result.deprecated = mine.deprecated := by
  obtain ⟨target, merged, htarget, hmerged, rfl⟩ := joined_eq_ok.mp hjoined
  obtain ⟨_, _, _, hopened, _⟩ := opened_flags target
  show merged.deprecated = mine.deprecated
  rw [(merge_frame hmerged).deprecated, hopened]
  rw [asTarget_eq_ok] at htarget
  split at htarget
  · rw [htarget.2, (hflags [] mine rfl ‹_›).2]
  · rw [htarget]

/-- A property into which one is merged that it has absorbed is written as before, unless both
declare nothing somewhere. -/
theorem alike_of_joined (hmine : Regular mine) (htheirs : Regular theirs) (h : Absorbs mine theirs)
    (hmarked : Marked mine theirs) (hflags : Unflagged mine) (hvoid : ¬BothVoid mine theirs)
    (hjoined : joined mine theirs = .ok result) : Alike mine result := by
  induction mine using Schema.induct generalizing theirs result with
  | step mine _ ihProperties _ =>
    refine ⟨typeText_of_joined hmine htheirs h hflags hvoid ?_ hjoined, ?_, ?_⟩
    · intro name left right whole hleft hright hwhole
      obtain ⟨entry, hmem, rfl⟩ := Properties.mem_of_find? hleft
      obtain ⟨outer, houter, habsorbs, hmarks⟩ := h.inside hright
      cases hleft.symm.trans houter
      exact ihProperties entry hmem (hmine.table.find? hleft) (htheirs.table.find? hright)
        habsorbs hmarks (hflags.inside hleft) (fun hboth => hvoid (hboth.outside hleft hright))
        hwhole
    · rw [joined_required hjoined]
      cases hrequired : theirs.required with
      | false => rw [Bool.or_false]
      | true => rw [hmarked.required hrequired, Bool.true_or]
    · rw [deprecated_of_joined hflags hjoined, joined_description hjoined,
        commentLines_orElse hmarked.description]

/-! ## A branch once more -/

variable {scope : Scope} {branches : List Json} {branch : Json} {whole part : Schema}

/-- A composition of at least one shape is an object. -/
theorem kind_of_composition {first : Schema} {parts : List Schema}
    (h : (first :: parts).foldlM merge empty = .ok whole) : whole.kind = .object := by
  rw [List.foldlM_cons, bind_eq_ok] at h
  obtain ⟨next, hnext, h⟩ := h
  have hstep : ∀ part ∈ parts, ∀ self after : Schema, self.kind = .object →
      self.merge part = .ok after → after.kind = .object := by
    intro part _ self after hself hafter
    rw [(merge_frame hafter).kind, opened_of_ne (by simp [hself]), hself]
  exact foldlM_invariant hstep (merge_frame hnext).kind h

/-- The last branch is merged into the composition of the others. -/
theorem ofFragment_concat (h : ofFragment scope (allOf branches) = .ok whole)
    (hpart : ofFragment scope branch = .ok part) :
    ofFragment scope (allOf (branches ++ [branch])) = .ok result ↔ whole.merge part = .ok result := by
  rw [ofFragment_allOf] at h ⊢
  rw [ofBranches_append]
  simp only [h, ofBranches, hpart, ok_bind, bind_eq_ok, Except.ok.injEq, exists_eq_left',
    exists_eq_right]

/-- A composition with one of its branches once more is built, unless a property of the branch is a
reference into a definition. It is rendered as it was, unless a property is void in it and in the
branch. -/
theorem ofFragment_repeated (h : ofFragment scope (allOf branches) = .ok whole)
    (hmem : branch ∈ branches) :
    ∃ part, ofFragment scope branch = .ok part ∧
      ((∃ result, ofFragment scope (allOf (branches ++ [branch])) = .ok result) ↔
        part.Extendable) ∧
      ∀ result, ofFragment scope (allOf (branches ++ [branch])) = .ok result →
        ¬BothVoid whole part →
          (∀ depth, typeText depth result = typeText depth whole) ∧
          ∀ emitEnums name, declaration emitEnums result name = declaration emitEnums whole name := by
  have hregular := (built_ofFragment h).regular
  have hflags := unflagged_ofFragment h
  obtain ⟨parts, hparts, hfold⟩ := ofBranches_eq_ok.mp (ofFragment_allOf branches ▸ h)
  obtain ⟨part, hpartMem, hpart⟩ := exists_of_forall₂ hparts hmem
  have hpartRegular := (built_ofFragment hpart).regular
  have habsorbs := absorbs_of_foldlM regular_empty (regular_of_parts hparts) (by decide) hfold part
    hpartMem
  have hobject : whole.kind = .object := by
    cases parts with
    | nil => cases hpartMem
    | cons first parts => exact kind_of_composition hfold
  simp only [ofFragment_concat h hpart]
  refine ⟨part, hpart, merge_ok_of_absorbs hregular hpartRegular hobject habsorbs,
    fun result hresult hvoid => ?_⟩
  have hinside : AlikeInside whole result := by
    refine alikeInside_of_merge hregular hpartRegular hobject habsorbs ?_ hresult
    intro name left right joint hleft hright hjoint
    obtain ⟨outer, houter, hinner, hmarked⟩ := habsorbs.inside hright
    cases hleft.symm.trans houter
    exact alike_of_joined (hregular.table.find? hleft) (hpartRegular.table.find? hright) hinner
      hmarked (hflags.inside hleft) (fun hboth => hvoid (hboth.outside hleft hright)) hjoint
  have hkind : result.kind = .object := by
    rw [(merge_frame hresult).kind, opened_of_ne (by simp [hobject]), hobject]
  exact ⟨fun depth => (hinside.typeText hobject hkind depth).symm,
    fun emitEnums name => (hinside.declaration hobject hkind emitEnums name).symm⟩

/-- What nowhere is void is void nowhere together with another shape. -/
theorem not_bothVoid (h : Everywhere (fun inner => inner.kind ≠ .empty) theirs) :
    ¬BothVoid mine theirs := by
  rintro ⟨path, left, right, _, hright, _, hempty⟩
  exact (h.at? hright).here hempty

/-- A branch with a pet, which it requires, and its name. -/
def friend : Json :=
  .object [("properties", .object [("pet", petReference), ("name", typed "string")]),
    ("required", .array [.string "pet"])]

/-- The theorem where a reference, a string and a base are composed once more. -/
theorem ofFragment_repeated_friend :
    friend ∈ [petReference, friend] ∧ ∃ whole part result,
      ofFragment petScope (allOf [petReference, friend]) = .ok whole ∧
      ofFragment petScope friend = .ok part ∧ part.Extendable ∧ ¬BothVoid whole part ∧
      ofFragment petScope (allOf [petReference, friend, friend]) = .ok result ∧
      ∀ depth, typeText depth result = typeText depth whole := by
  obtain ⟨whole, hwhole⟩ : ∃ whole, ofFragment petScope (allOf [petReference, friend]) = .ok whole :=
    exists_ok_of_isSome (by decide +kernel)
  obtain ⟨result, hresult⟩ : ∃ result,
      ofFragment petScope (allOf [petReference, friend, friend]) = .ok result :=
    exists_ok_of_isSome (by decide +kernel)
  have hdeclared : ∀ part ∈ (ofFragment petScope friend).toOption,
      Everywhere (fun inner => inner.kind ≠ .empty) part := by
    decide +kernel
  have hmem : friend ∈ [petReference, friend] := List.mem_cons_of_mem _ List.mem_cons_self
  obtain ⟨part, hpart, hbuilt, hrendered⟩ := ofFragment_repeated hwhole hmem
  have hvoid : ¬BothVoid whole part := not_bothVoid (hdeclared part (by rw [hpart]; rfl))
  exact ⟨hmem, whole, part, result, hwhole, hpart, hbuilt.mp ⟨result, hresult⟩, hvoid, hresult,
    (hrendered result hresult hvoid).1⟩

/-- The type expression of a composition. -/
def composedText (scope : Scope) (branches : List Json) : Option String := do
  let whole ← (ofFragment scope (allOf branches)).toOption
  (typeText 0 whole).toOption

def pointing : Json :=
  declares (.object [("$ref", .string "#/definitions/Pet/properties/name")])

def voiding : Json :=
  declares (allOf [])

/-- A reference into a definition is composed once only, and a void property becomes an open object
when it is composed once more. -/
theorem not_composed_as_before :
    composedText petScope [pointing] = some "\x7b\n  a?: Pet[\"name\"];\n\x7d" ∧
    Refuses petScope [pointing, pointing] ∧
    composedText petScope [voiding] = some "\x7b\n  a?: void;\n\x7d" ∧
    composedText petScope [voiding, voiding] = some "\x7b\n  a?: Record<string, any>;\n\x7d" := by
  decide +kernel

end TypeScript

end ApiTypes
