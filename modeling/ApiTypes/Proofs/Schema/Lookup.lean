import ApiTypes.Proofs.Outcome
import ApiTypes.Proofs.Text.Cutting
import ApiTypes.Scope

/-!
# Lookups

The segments of a lookup lead from shape to shape, so a lookup may be made in two parts. The items of a
reference are the exception: they are not known and end a lookup, whatever comes next.

What follows the name of a definition in a reference is therefore a path of property names, which
becomes the index path of the reference, or it goes on from such a path to the items of what is there.
No other reference can be resolved.
-/

namespace ApiTypes

namespace Schema

variable {all segments : List String} {schema found : Schema}

/-! ## Segments that are followed -/

/-- The segments that lead from one shape to another, without the items of a reference. Empty ones
may stand before each step and at the end. -/
inductive Follows : Schema → List String → Schema → Prop
  | done (schema : Schema) : Follows schema [] schema
  | skip {schema found : Schema} {rest : List String} (h : Follows schema rest found) :
      Follows schema ("" :: rest) found
  | derived {schema found : Schema} {rest : List String} (name : String)
      (hkind : schema.kind = .reference)
      (h : Follows { schema with indexPath := schema.indexPath ++ [name] } rest found) :
      Follows schema ("properties" :: name :: rest) found
  | property {schema property found : Schema} {rest : List String} (name : String)
      (hkind : schema.kind = .object)
      (hproperty : Properties.find? (.text name) schema.properties = some property)
      (h : Follows property rest found) : Follows schema ("properties" :: name :: rest) found
  | element {schema found : Schema} {rest : List String} (hkind : schema.kind = .array)
      (h : Follows (schema.items.getD openObject) rest found) :
      Follows schema ("items" :: rest) found

/-- What a lookup finds: the shape that its segments lead to or, once they lead to a reference of
which the items are asked for, any object. -/
inductive Reaches (schema : Schema) : List String → Schema → Prop
  | followed {segments : List String} {found : Schema} (h : Follows schema segments found) :
      Reaches schema segments found
  | items {before : List String} {reference : Schema} (h : Follows schema before reference)
      (hkind : reference.kind = .reference) (after : List String) :
      Reaches schema (before ++ "items" :: after) openObject

/-- Segments that lead to a shape are taken off a lookup that begins with them. -/
theorem Follows.lookupFrom_append (h : Follows schema segments found) (all after : List String) :
    lookupFrom all (segments ++ after) schema = lookupFrom all after found := by
  induction h with
  | done schema => rfl
  | skip _ ih => rw [List.cons_append, lookupFrom, ih]
  | derived name hkind _ ih =>
    rw [List.cons_append, List.cons_append, lookupFrom]
    simp only [hkind] at ih ⊢
    exact ih
  | property name hkind hproperty _ ih =>
    rw [List.cons_append, List.cons_append, lookupFrom]
    simpa only [hkind, hproperty] using ih
  | element hkind _ ih =>
    rw [List.cons_append, lookupFrom]
    simpa only [hkind] using ih

theorem Follows.lookupFrom (h : Follows schema segments found) (all : List String) :
    lookupFrom all segments schema = .ok found := by
  have hend := h.lookupFrom_append all []
  rwa [List.append_nil, Schema.lookupFrom] at hend

/-- A path from an inner shape, with the steps to that in front, is one from the outer shape. -/
theorem Reaches.extend (taken : List String) {next : Schema} (h : Reaches next segments found)
    (hstep : ∀ {rest found}, Follows next rest found → Follows schema (taken ++ rest) found) :
    Reaches schema (taken ++ segments) found := by
  cases h with
  | followed h => exact .followed (hstep h)
  | items h hkind after =>
    rw [← List.append_assoc]
    exact .items (hstep h) hkind after

/-- A lookup succeeds with what its segments reach; the segments for messages have no part in it. -/
theorem lookupFrom_eq_ok :
    lookupFrom all segments schema = .ok found ↔ Reaches schema segments found := by
  constructor
  · intro h
    -- The cases of the look-up that end well are the rules, in the same order.
    fun_induction lookupFrom all segments schema with
    | case1 schema =>
      cases h
      exact .followed (.done _)
    | case2 schema rest ih => exact (ih h).extend [""] .skip
    | case4 name rest schema hkind ih =>
      exact (ih h).extend ["properties", name] (.derived name hkind)
    | case5 name rest schema hkind property hproperty ih =>
      exact (ih h).extend ["properties", name] (.property name hkind hproperty)
    | case8 rest schema hkind =>
      cases h
      exact .items (.done _) hkind rest
    | case9 rest schema hkind ih => exact (ih h).extend ["items"] (.element hkind)
    | _ => cases h
  · rintro (h | ⟨h, hkind, after⟩)
    · exact h.lookupFrom all
    · rw [h.lookupFrom_append, lookupFrom]
      simp only [hkind]

/-- Whatever cannot be followed is an error of the reference. -/
theorem family_of_lookupFrom {error : Error} (h : lookupFrom all segments schema = .error error) :
    error.family = .reference := by
  fun_induction lookupFrom all segments schema with
  | case1 => cases h
  | case2 _ _ ih => exact ih h
  | case4 _ _ _ _ ih => exact ih h
  | case5 _ _ _ _ _ _ ih => exact ih h
  | case8 => cases h
  | case9 _ _ _ ih => exact ih h
  | _ =>
    cases h
    rfl

/-! ## Lookups in succession -/

/-- The outcomes of two lookups that agree: one shape, or an error of the reference on both sides. The
errors may show other segments. -/
inductive SameOutcome : Except Error Schema → Except Error Schema → Prop
  | found (schema : Schema) : SameOutcome (.ok schema) (.ok schema)
  | refused {first second : Error} (hfirst : first.family = .reference)
      (hsecond : second.family = .reference) : SameOutcome (.error first) (.error second)

/-- The whole path is carried along for the errors, and has no part in the shape that is found. -/
theorem lookupFrom_sameOutcome (all other segments : List String) (schema : Schema) :
    SameOutcome (lookupFrom all segments schema) (lookupFrom other segments schema) := by
  cases hfirst : lookupFrom all segments schema with
  | ok found =>
    rw [lookupFrom_eq_ok.mpr (lookupFrom_eq_ok.mp hfirst)]
    exact .found found
  | error first =>
    cases hsecond : lookupFrom other segments schema with
    | ok found =>
      rw [lookupFrom_eq_ok.mpr (lookupFrom_eq_ok.mp hsecond)] at hfirst
      cases hfirst
    | error second => exact .refused (family_of_lookupFrom hfirst) (family_of_lookupFrom hsecond)

/-- An `items` among the segments is applied to a reference: the segments before it lead there. -/
def AsksReferenceItems (schema : Schema) (segments : List String) : Prop :=
  ∃ before after reference, segments = before ++ "items" :: after ∧
    schema.lookup before = .ok reference ∧ reference.kind = .reference

theorem follows_of_lookup (h : schema.lookup segments = .ok found)
    (hasks : ¬schema.AsksReferenceItems segments) : Follows schema segments found := by
  cases lookupFrom_eq_ok.mp h with
  | followed h => exact h
  | items hbefore hkind after =>
    exact absurd ⟨_, after, _, rfl, hbefore.lookupFrom _, hkind⟩ hasks

/-- A path may be followed in two stretches, unless the first asks a reference for its items. -/
theorem lookup_append (before after : List String) (h : schema.lookup before = .ok found)
    (hasks : ¬schema.AsksReferenceItems before) :
    SameOutcome (schema.lookup (before ++ after)) (found.lookup after) := by
  rw [lookup, (follows_of_lookup h hasks).lookupFrom_append]
  exact lookupFrom_sameOutcome _ _ _ _

/-! ## References into definitions -/

def derived (name : String) (path : List String) : Schema :=
  { kind := .reference, name, indexPath := path }

/-- The segments that lead down a path of property names. Empty ones may stand before each step and
at the end. -/
inductive Leads : List String → List String → Prop
  | done : Leads [] []
  | skip {segments path : List String} (h : Leads segments path) : Leads ("" :: segments) path
  | step (name : String) {segments path : List String} (h : Leads segments path) :
      Leads ("properties" :: name :: segments) (name :: path)

/-- What the segments after the name of a definition stand for: a derived reference or, once the
items of one are asked for, any object, whatever comes next. -/
inductive Denotes (name : String) : List String → Schema → Prop
  | path {segments path : List String} (h : Leads segments path) :
      Denotes name segments (derived name path)
  | items {before path : List String} (h : Leads before path) (after : List String) :
      Denotes name (before ++ "items" :: after) openObject

variable {path : List String} {name : String}

theorem follows_of_leads {steps : List String} (h : Leads segments steps) (path : List String) :
    Follows (derived name path) segments (derived name (path ++ steps)) := by
  induction h generalizing path with
  | done =>
    rw [List.append_nil]
    exact .done _
  | skip _ ih => exact .skip (ih path)
  | step step _ ih =>
    have hrest := ih (path ++ [step])
    rw [List.append_assoc, List.singleton_append] at hrest
    exact .derived step rfl hrest

/-- From a reference, only property names are followed, and it takes them in. -/
theorem leads_of_follows (h : Follows (derived name path) segments found) :
    ∃ steps, Leads segments steps ∧ found = derived name (path ++ steps) := by
  -- A derived node leads to derived nodes only.
  generalize hstart : derived name path = start at h
  induction h generalizing path with
  | done schema => exact ⟨[], .done, by rw [List.append_nil, hstart]⟩
  | skip _ ih =>
    obtain ⟨steps, hsteps, hfound⟩ := ih hstart
    exact ⟨steps, hsteps.skip, hfound⟩
  | derived step _ _ ih =>
    subst hstart
    obtain ⟨steps, hsteps, rfl⟩ := ih rfl
    exact ⟨step :: steps, hsteps.step step, by simp [derived]⟩
  | property _ hkind =>
    subst hstart
    cases hkind
  | element hkind =>
    subst hstart
    cases hkind

/-- From a definition, exactly the segments that denote something are followed. -/
theorem lookup_reference_eq_ok :
    (reference name).lookup segments = .ok schema ↔ Denotes name segments schema := by
  -- The definition itself is the reference with no steps yet.
  show lookupFrom segments segments (derived name []) = .ok schema ↔ Denotes name segments schema
  rw [lookupFrom_eq_ok]
  constructor
  · rintro (h | ⟨h, _, after⟩)
    · obtain ⟨steps, hsteps, rfl⟩ := leads_of_follows h
      exact .path hsteps
    · obtain ⟨steps, hsteps, rfl⟩ := leads_of_follows h
      exact .items hsteps after
  · rintro (hsteps | ⟨hbefore, after⟩)
    · exact .followed (follows_of_leads hsteps [])
    · exact .items (follows_of_leads hbefore []) rfl after

end Schema

namespace Scope

variable {scope : Scope} {target : String}

/-- A reference resolves if it has the name of a definition after the root, and after that what
denotes something. -/
theorem resolve_eq_ok_iff {schema : Schema} :
    scope.resolve target = .ok schema ↔
      ∃ tail name segments, target = scope.dialect.definitionsRoot ++ tail ∧
        Text.pointerSegments tail = name :: segments ∧ name ∈ scope.names ∧
          Schema.Denotes name segments schema := by
  constructor
  · intro h
    simp only [resolve] at h
    split at h
    · cases h
    · rename_i tail htail
      split at h
      · cases h
      · rename_i name segments hsegments
        split at h
        · exact ⟨tail, name, segments, Text.after?_eq_some.mp htail, hsegments, ‹_›,
            Schema.lookup_reference_eq_ok.mp h⟩
        · cases h
  · rintro ⟨tail, name, segments, rfl, hsegments, hname, hdenotes⟩
    simp only [resolve, Text.after?_append, hsegments, if_pos hname]
    exact Schema.lookup_reference_eq_ok.mpr hdenotes

/-- A reference that cannot be resolved fails with an error of references. -/
theorem family_of_resolve {error : Error} (h : scope.resolve target = .error error) :
    error.family = .reference := by
  simp only [resolve] at h
  split at h
  · cases h
    rfl
  · split at h
    · cases h
      rfl
    · split at h
      · exact Schema.family_of_lookupFrom h
      · cases h
        rfl

end Scope

/-- A reference resolves to the open object or to a reference to a name in scope. -/
theorem Schema.resolve_eq_ok {scope : Scope} {target : String} {schema : Schema}
    (h : scope.resolve target = .ok schema) :
    schema = openObject ∨ ∃ name ∈ scope.names, ∃ path, schema = derived name path := by
  obtain ⟨_, name, _, _, _, hname, hdenotes⟩ := Scope.resolve_eq_ok_iff.mp h
  cases hdenotes with
  | path => exact .inr ⟨name, hname, _, rfl⟩
  | items => exact .inl rfl

end ApiTypes
