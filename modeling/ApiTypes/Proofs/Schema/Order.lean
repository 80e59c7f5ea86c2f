import ApiTypes.Proofs.Schema.Fitting
import ApiTypes.Proofs.Schema.Required

/-!
# The order of two branches

Two branches compose to the same properties, bases and flags in both orders. They are refused in
both orders too, but for two effects: the branches are built in their order, so that the first error
is reported; and a merge checks what is merged in only.
-/

namespace ApiTypes

namespace Schema

/-! ## The outline of a composition -/

/-- Two shapes have properties of the same names, the same bases, and are both required or not. -/
structure SameLevel (first second : Schema) : Prop where
  names : ∀ name, (Properties.find? name first.properties).isSome =
    (Properties.find? name second.properties).isSome
  bases : ∀ base, base ∈ first.heritage ↔ base ∈ second.heritage
  required : first.required = second.required

theorem isSome_of_joinedAt {mine theirs whole : Option Schema} (h : JoinedAt mine theirs whole) :
    whole.isSome = (mine.isSome || theirs.isSome) := by
  cases h <;> rfl

theorem relRefl_sameLevel (found : Option Schema) : Option.Rel SameLevel found found := by
  cases found with
  | none => exact .none
  | some schema => exact .some ⟨fun _ => rfl, fun _ => Iff.rfl, rfl⟩

variable {mine theirs first second : Schema}

/-- Two shapes that unite the same parts have the same properties and bases. -/
theorem sameLevel_of_unites (hfirst : Unites mine theirs first) (hsecond : Unites theirs mine second)
    (hrequired : first.required = second.required) : SameLevel first second where
  names := by
    intro name
    rw [isSome_of_joinedAt (hfirst.properties name), isSome_of_joinedAt (hsecond.properties name),
      Bool.or_comm]
  bases := by
    intro base
    rw [hfirst.bases, hsecond.bases, or_comm]
  required := hrequired

/-- Shapes that unite the same two in either order agree at every path. -/
theorem sameLevel_at (hmine : Regular mine) (htheirs : Regular theirs)
    (hfirst : Unites mine theirs first) (hsecond : Unites theirs mine second)
    (hrequired : first.required = second.required) (path : List PropertyName) :
    Option.Rel SameLevel (first.at? path) (second.at? path) := by
  induction path generalizing mine theirs first second with
  | nil => exact .some (sameLevel_of_unites hfirst hsecond hrequired)
  | cons name path ih =>
    -- The same rule gives the property of both unions, with the two sides exchanged.
    have hone := hfirst.properties name
    have hother := hsecond.properties name
    rw [at?, at?]
    generalize hleft : Properties.find? name mine.properties = left at hone hother
    generalize hright : Properties.find? name theirs.properties = right at hone hother
    generalize Properties.find? name first.properties = found at hone
    generalize Properties.find? name second.properties = again at hother
    cases hone with
    | absent =>
      cases hother
      exact .none
    | mine schema =>
      cases hother
      exact relRefl_sameLevel _
    | theirs schema =>
      cases hother
      exact relRefl_sameLevel _
    | both hwhole =>
      cases hother with
      | both hback =>
        have hregular := hmine.table.find? hleft
        have hpartner := htheirs.table.find? hright
        have hflags : _ = _ := (joined_required hwhole).trans
          ((Bool.or_comm _ _).trans (joined_required hback).symm)
        exact ih hregular hpartner (unites_of_joined hregular hpartner hwhole)
          (unites_of_joined hpartner hregular hback) hflags

/-! ## Two shapes composed -/

theorem regular_empty : Regular empty :=
  .leaf rfl rfl rfl rfl

/-- Merging into the void shape makes an object of what is merged in. -/
theorem merge_into_empty (hmine : Regular mine) (h : empty.merge mine = .ok first) :
    first.kind = .object ∧ (∀ base, base ∈ first.bases ↔ base ∈ mine.bases) ∧
      ∀ name, Properties.find? name first.properties = Properties.find? name mine.properties := by
  have hunites := unites_of_merge regular_empty hmine (by decide) h
  have hkind : first.kind = .object := (merge_frame h).kind
  refine ⟨hkind, fun base => ?_, fun name => ?_⟩
  · rw [bases_of_ne (by simp [hkind]), hunites.bases]
    exact or_iff_right (by simp [bases, empty])
  · exact eq_of_joinedAt_none (hunites.properties name)

/-- Two parts compose exactly if both are composable and their tables fit. -/
theorem composes_iff (hmine : Regular mine) (htheirs : Regular theirs) :
    (∃ whole, [mine, theirs].foldlM merge empty = .ok whole) ↔
      Composable mine ∧ Composable theirs ∧ FitTables mine.properties theirs.properties := by
  have hstart : (∃ whole, empty.merge mine = .ok whole) ↔ Composable mine := by
    rw [merge_ok_of_object hmine rfl]
    exact and_iff_left fun _ _ _ h => nomatch h
  -- The first part is merged into nothing and so keeps its properties for the second.
  have hnext : ∀ {whole}, empty.merge mine = .ok whole →
      ((∃ result, whole.merge theirs = .ok result) ↔
        Composable theirs ∧ FitTables mine.properties theirs.properties) := by
    intro whole hwhole
    obtain ⟨hkind, _, hfind⟩ := merge_into_empty hmine hwhole
    rw [merge_ok_of_object htheirs (by rw [opened_of_ne (by simp [hkind]), hkind])]
    simp only [FitTables, hfind]
  simp only [List.foldlM_cons, List.foldlM_nil, bind_eq_ok, pure_eq_ok, Except.ok.injEq]
  constructor
  · rintro ⟨_, whole, hwhole, result, hresult, _⟩
    exact ⟨hstart.mp ⟨whole, hwhole⟩, (hnext hwhole).mp ⟨result, hresult⟩⟩
  · rintro ⟨hcomposable, hrest⟩
    obtain ⟨whole, hwhole⟩ := hstart.mpr hcomposable
    obtain ⟨result, hresult⟩ := (hnext hwhole).mpr hrest
    exact ⟨result, whole, hwhole, result, hresult, rfl⟩

theorem unites_of_composition (hmine : Regular mine) (htheirs : Regular theirs) {whole : Schema}
    (h : [mine, theirs].foldlM merge empty = .ok whole) :
    Unites mine theirs whole ∧ whole.required = false := by
  simp only [List.foldlM_cons, List.foldlM_nil, bind_eq_ok, pure_eq_ok, Except.ok.injEq] at h
  obtain ⟨start, hstart, result, hresult, rfl⟩ := h
  obtain ⟨hkind, hbases, hfind⟩ := merge_into_empty hmine hstart
  have hunites := unites_of_merge (regular_empty.merge hmine hstart) htheirs (by simp [hkind]) hresult
  refine ⟨⟨fun base => ?_, fun name => ?_⟩, ?_⟩
  · rw [hunites.bases, hbases]
  · rw [← hfind]
    exact hunites.properties name
  · rw [(merge_flags hresult).1, (merge_flags hstart).1]
    rfl

/-! ## Refused compositions -/

variable {scope : Scope}

/-- The composition of the branches ends in a merge error. -/
def Refuses (scope : Scope) (branches : List Json) : Prop :=
  ∃ error, ofFragment scope (allOf branches) = .error error ∧ error.family = .merge

instance (scope : Scope) (branches : List Json) : Decidable (Refuses scope branches) :=
  match h : ofFragment scope (allOf branches) with
  | .error error => decidable_of_iff (error.family = .merge) (by simp [Refuses, h])
  | .ok _ => isFalse (by simp [Refuses, h])

theorem ofBranches_of_built {branches : List Json} {parts : List Schema}
    (h : List.Forall₂ (fun branch part => ofFragment scope branch = .ok part) branches parts)
    (whole : Schema) : ofBranches scope whole branches = parts.foldlM merge whole := by
  induction h generalizing whole with
  | nil => rw [ofBranches, List.foldlM_nil]; rfl
  | cons hpart _ ih =>
    rw [ofBranches, hpart, ok_bind, List.foldlM_cons]
    exact bind_congr fun next => ih next

theorem family_of_foldlM_merge {whole : Schema} {parts : List Schema} {error : Error}
    (h : parts.foldlM merge whole = .error error) : error.family = .merge := by
  induction parts generalizing whole with
  | nil => cases h
  | cons part parts ih =>
    rw [List.foldlM_cons] at h
    rcases bind_eq_error.mp h with hmerge | ⟨next, _, h⟩
    · exact family_of_merge hmerge
    · exact ih h

theorem refuses_iff_of_built {branches : List Json} {parts : List Schema}
    (h : List.Forall₂ (fun branch part => ofFragment scope branch = .ok part) branches parts) :
    Refuses scope branches ↔ ¬∃ whole, parts.foldlM merge empty = .ok whole := by
  rw [Refuses, ofFragment_allOf, ofBranches_of_built h]
  cases hfold : parts.foldlM merge empty with
  | error error => simp [family_of_foldlM_merge hfold]
  | ok whole => simp

theorem refuses_of_error {x : Json} {rest : List Json} {error : Error}
    (hx : ofFragment scope x = .error error) :
    Refuses scope (x :: rest) ↔ error.family = .merge := by
  have hwhole : ofFragment scope (allOf (x :: rest)) = .error error := by
    rw [ofFragment_allOf, ofBranches, hx]
    rfl
  simp [Refuses, hwhole]

theorem refuses_of_later_error {x y : Json} {a : Schema} {error : Error}
    (hx : ofFragment scope x = .ok a) (hy : ofFragment scope y = .error error) :
    Refuses scope [x, y] ↔ Refuses scope [x] ∨ error.family = .merge := by
  -- The first branch is merged before the second one is built, so its refusal comes first.
  simp only [Refuses, ofFragment_allOf, ofBranches, hx, hy, ok_bind]
  cases hmerge : empty.merge a with
  | error early => simp [family_of_merge hmerge, bind, Except.bind]
  | ok whole => simp [bind, Except.bind]

/-- Two branches of which each can be blamed for a refusal in both orders: where one of them is
refused alone, the other one does not fail to be built for another reason. -/
def BlamedAlike (scope : Scope) (x y : Json) : Prop :=
  ∀ error, ofFragment scope y = .error error → Refuses scope [x] → error.family = .merge

/-- Whether two parts compose does not depend on their order, if their insides are balanced. -/
theorem composes_comm (hmine : Regular mine) (htheirs : Regular theirs)
    (h : BalancedInside mine theirs) :
    (∃ whole, [mine, theirs].foldlM merge empty = .ok whole) ↔
      ∃ whole, [theirs, mine].foldlM merge empty = .ok whole := by
  have htables : FitTables mine.properties theirs.properties ↔
      FitTables theirs.properties mine.properties :=
    fitTables_comm fun name left right hleft hright => fits_comm (hmine.table.find? hleft)
      (htheirs.table.find? hright) (h name left right hleft hright)
  rw [composes_iff hmine htheirs, composes_iff htheirs hmine, htables]
  tauto

/-- The refusal of two branches is the same in both orders, under the two conditions. -/
theorem refuses_comm {x y : Json} (hx : BlamedAlike scope x y) (hy : BlamedAlike scope y x)
    (hinside : ∀ a b, ofFragment scope x = .ok a → ofFragment scope y = .ok b → BalancedInside a b) :
    Refuses scope [x, y] ↔ Refuses scope [y, x] := by
  -- Which error is reported depends on which of the branches are built at all.
  cases ha : ofFragment scope x with
  | error first =>
    cases hb : ofFragment scope y with
    | error second =>
      rw [refuses_of_error ha, refuses_of_error hb]
      exact ⟨fun h => hx second hb ((refuses_of_error ha).mpr h),
        fun h => hy first ha ((refuses_of_error hb).mpr h)⟩
    | ok b =>
      rw [refuses_of_error ha, refuses_of_later_error hb ha]
      exact ⟨.inr, fun h => h.elim (hy first ha) id⟩
  | ok a =>
    cases hb : ofFragment scope y with
    | error second =>
      rw [refuses_of_error hb, refuses_of_later_error ha hb]
      exact ⟨fun h => h.elim (hx second hb) id, .inr⟩
    | ok b =>
      rw [refuses_iff_of_built (.cons ha (.cons hb .nil)),
        refuses_iff_of_built (.cons hb (.cons ha .nil))]
      exact not_congr (composes_comm (built_ofFragment ha).regular (built_ofFragment hb).regular
        (hinside a b ha hb))

/-- Two branches are refused in both orders or in none, if an error of the one does not hide behind
the refusal of the other and if the properties that both declare are balanced. Whatever they are,
where they compose in both orders they agree at every path of property names. -/
theorem ofFragment_two_branches (x y : Json) :
    (BlamedAlike scope x y → BlamedAlike scope y x →
      (∀ a b, ofFragment scope x = .ok a → ofFragment scope y = .ok b → BalancedInside a b) →
        (Refuses scope [x, y] ↔ Refuses scope [y, x])) ∧
    ∀ first second, ofFragment scope (allOf [x, y]) = .ok first →
      ofFragment scope (allOf [y, x]) = .ok second →
        ∀ path, Option.Rel SameLevel (first.at? path) (second.at? path) := by
  refine ⟨refuses_comm, fun first second hfirst hsecond path => ?_⟩
  rw [ofFragment_allOf] at hfirst hsecond
  obtain ⟨_, hparts, hone⟩ := ofBranches_eq_ok.mp hfirst
  cases hparts with
  | @cons _ a _ _ hx hrest =>
    cases hrest with
    | @cons _ b _ _ hy hnil =>
      cases hnil
      rw [ofBranches_of_built (.cons hy (.cons hx .nil))] at hsecond
      have ha := (built_ofFragment hx).regular
      have hb := (built_ofFragment hy).regular
      obtain ⟨hunites, hrequired⟩ := unites_of_composition ha hb hone
      obtain ⟨hswapped, hagain⟩ := unites_of_composition hb ha hsecond
      exact sameLevel_at ha hb hunites hswapped (hrequired.trans hagain.symm) path

/-- A branch that declares one property, by the fragment of it. -/
def declares (fragment : Json) : Json :=
  .object [("properties", .object [("a", fragment)])]

def typed (tag : String) : Json :=
  .object [("type", .string tag)]

theorem ofFragment_declares {fragment : Json} {property : Schema}
    (h : ofFragment bareScope fragment = .ok property) :
    ofFragment bareScope (declares fragment) = .ok { properties := [(.text "a", property)] } := by
  rw [declares, ofFragment_plain rfl rfl]
  refine ofPlain_eq_ok.mpr ⟨.object, false, rfl, none, rfl, (_, none), ofTable_eq_ok.mpr
    ⟨[], rfl, _, ofProperties_eq_ok.mpr (.cons ⟨_, h, rfl⟩ .nil), none, rfl, rfl⟩,
    ([], false), rfl, ?_⟩
  obtain ⟨_, _, _, required⟩ := property
  cases required <;> rfl

/-- Two objects with one closed property each, of one name, are balanced inside. -/
theorem balancedInside_closed {left right : Schema} (hleft : left.kind.isClosed = true)
    (hright : right.kind.isClosed = true) (hinside : left.properties = []) :
    BalancedInside { properties := [(.text "a", left)] } { properties := [(.text "a", right)] } := by
  intro name mine theirs hmine htheirs path inner other hinner hother
  obtain ⟨_, hmem, rfl⟩ := Properties.mem_of_find? hmine
  obtain ⟨_, hpartner, rfl⟩ := Properties.mem_of_find? htheirs
  cases List.mem_singleton.mp hmem
  cases List.mem_singleton.mp hpartner
  cases path with
  | nil =>
    cases hinner
    cases hother
    -- What is bare is open, and neither shape is.
    rintro (⟨_, hbare⟩ | ⟨_, hbare⟩)
    · rw [hbare.isOpen] at hright
      cases hright
    · rw [hbare.isOpen] at hleft
      cases hleft
  | cons name path =>
    rw [at?, hinside] at hinner
    cases hinner

def requiring : Json :=
  .object [("properties", .object [("a", typed "string"), ("b", typed "number")]),
    ("required", .array [.string "a"])]

/-- The theorem where a string and a number meet, and where two branches agree on a property. -/
theorem ofFragment_two_branches_typed :
    Refuses bareScope [declares (typed "number"), declares (typed "string")] ∧
    ∃ first second,
      ofFragment bareScope (allOf [declares (typed "string"), requiring]) = .ok first ∧
      ofFragment bareScope (allOf [requiring, declares (typed "string")]) = .ok second ∧
      ∀ path, Option.Rel SameLevel (first.at? path) (second.at? path) := by
  have hstring : ofFragment bareScope (declares (typed "string")) =
      .ok { properties := [(.text "a", { kind := .string })] } := by
    apply ofFragment_declares
    rw [typed, ofFragment_plain rfl rfl, ofPlain]
    rfl
  have hnumber : ofFragment bareScope (declares (typed "number")) =
      .ok { properties := [(.text "a", { kind := .number })] } := by
    apply ofFragment_declares
    rw [typed, ofFragment_plain rfl rfl, ofPlain]
    rfl
  constructor
  · have hrefused : Refuses bareScope [declares (typed "string"), declares (typed "number")] := by
      with_unfolding_all decide
    refine ((ofFragment_two_branches _ _).1 ?_ ?_ ?_).mp hrefused
    · rintro error herror
      rw [hnumber] at herror
      cases herror
    · rintro error herror
      rw [hstring] at herror
      cases herror
    · intro a b ha hb
      cases Except.ok.inj (hstring.symm.trans ha)
      cases Except.ok.inj (hnumber.symm.trans hb)
      exact balancedInside_closed rfl rfl rfl
  · obtain ⟨first, hfirst⟩ : ∃ first,
        ofFragment bareScope (allOf [declares (typed "string"), requiring]) = .ok first :=
      exists_ok_of_isSome (by with_unfolding_all decide)
    obtain ⟨second, hsecond⟩ : ∃ second,
        ofFragment bareScope (allOf [requiring, declares (typed "string")]) = .ok second :=
      exists_ok_of_isSome (by with_unfolding_all decide)
    exact ⟨first, second, hfirst, hsecond,
      (ofFragment_two_branches _ _).2 first second hfirst hsecond⟩

/-- A string and a shape that declares nothing compose in one order only. A branch that is not built
for another reason is noticed first in one order only. -/
theorem not_refuses_comm :
    (Refuses bareScope [declares (.object []), declares (typed "string")] ∧
      ¬Refuses bareScope [declares (typed "string"), declares (.object [])]) ∧
    Refuses bareScope [typed "string", typed "text"] ∧
      ¬Refuses bareScope [typed "text", typed "string"] := by
  with_unfolding_all decide

end Schema

end ApiTypes
