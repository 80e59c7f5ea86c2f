import ApiTypes.Proofs.SharedReferences

/-!
# References to definitions

Exactly those references resolve that have the name of a definition after the root and then a path
of property names, which may end at the items of something. Every name and every path can be written
as such a reference.
-/

namespace ApiTypes

/-! ## Declared names -/

def Document.Declares (document : Document) (name : String) : Prop :=
  ∃ table elements, document.definitions = .ok table ∧ table.elements = .ok elements ∧
    .string name ∈ elements

namespace Scope

variable {document : Document} {scope : Scope}

theorem mem_namesOf {elements : List Json} {names : List String} (h : namesOf elements = .ok names)
    (name : String) : name ∈ names ↔ .string name ∈ elements := by
  fun_induction namesOf elements generalizing names with
  | case1 =>
    cases h
    simp
  | case2 first rest ih =>
    obtain ⟨others, hothers, h⟩ := bind_eq_ok.mp h
    cases h
    rw [List.mem_cons, List.mem_cons, ih hothers, Json.string.injEq]
  | case3 value rest hother _ ih =>
    -- A key that is no text is no name of a definition either.
    have hvalue : Json.string name ≠ value := fun hsame => hother name hsame.symm
    rw [ih h, List.mem_cons, or_iff_right hvalue]
  | case4 => cases h

theorem document_of_ofDocument (h : ofDocument document = .ok scope) :
    scope.document = document := by
  simp only [ofDocument, bind_eq_ok] at h
  obtain ⟨_, _, _, _, _, _, h⟩ := h
  cases h
  rfl

/-- The names in scope are those that the document declares. -/
theorem mem_names_of_ofDocument (h : ofDocument document = .ok scope) (name : String) :
    name ∈ scope.names ↔ document.Declares name := by
  simp only [ofDocument, bind_eq_ok, lift_eq_ok] at h
  obtain ⟨table, htable, elements, helements, names, hnames, h⟩ := h
  cases h
  rw [mem_namesOf hnames]
  constructor
  · intro hmem
    exact ⟨table, elements, htable, helements, hmem⟩
  · rintro ⟨other, others, hother, hothers, hmem⟩
    cases htable.symm.trans hother
    cases helements.symm.trans hothers
    exact hmem

/-! ## What a reference can be -/

/-- A reference resolves if it begins with the root, names a definition, and has segments after that
which denote something; it resolves to what they denote. Any other one is an error of the
reference. -/
theorem resolves_iff (hscope : ofDocument document = .ok scope) (target : String) :
    (∀ schema, scope.resolve target = .ok schema ↔
      ∃ tail name segments, target = document.dialect.definitionsRoot ++ tail ∧
        Text.pointerSegments tail = name :: segments ∧ document.Declares name ∧
          Schema.Denotes name segments schema) ∧
    ∀ error, scope.resolve target = .error error → error.family = .reference := by
  refine ⟨fun schema => ?_, fun error => family_of_resolve⟩
  rw [resolve_eq_ok_iff, dialect, document_of_ofDocument hscope]
  simp only [mem_names_of_ofDocument hscope]

/-- A description with definitions of two names, one of them in need of escapes. -/
def named : Document :=
  sharing [("Pet", .object []), ("a/ö", .object [])] [] []

theorem ofDocument_named : ofDocument named = .ok ⟨named, ["Pet", "a/ö"]⟩ := by
  have htable : named.definitions = .ok (.object [("Pet", .object []), ("a/ö", .object [])]) := rfl
  rw [ofDocument_table htable]
  rfl

/-- The theorem at a path with empty segments, at one that goes on to items, and at one that ends
before the name of a property. -/
theorem resolves_iff_named :
    let scope : Scope := ⟨named, ["Pet", "a/ö"]⟩
    ofDocument named = .ok scope ∧
    scope.resolve "#/definitions/Pet//properties/items//" = .ok (.derived "Pet" ["items"]) ∧
    scope.resolve "#/definitions/Pet/properties/a/items/x" = .ok .openObject ∧
    ∃ error, scope.resolve "#/definitions/Pet/properties" = .error error ∧
      error.family = .reference := by
  intro scope
  have hpet : named.Declares "Pet" :=
    (mem_names_of_ofDocument ofDocument_named "Pet").mp (by decide)
  refine ⟨ofDocument_named, ?_, ?_, ?_⟩
  · apply ((resolves_iff ofDocument_named _).1 _).mpr
    refine ⟨"Pet//properties/items//", "Pet", _, by decide +kernel, ?_, hpet,
      .path (.skip (.step "items" (.skip (.skip .done))))⟩
    decide +kernel
  · apply ((resolves_iff ofDocument_named _).1 _).mpr
    refine ⟨"Pet/properties/a/items/x", "Pet", _, by decide +kernel, ?_, hpet,
      .items (.step "a" .done) ["x"]⟩
    decide +kernel
  · cases houtcome : scope.resolve "#/definitions/Pet/properties" with
    | error error => exact ⟨error, rfl, (resolves_iff ofDocument_named _).2 error houtcome⟩
    | ok schema =>
      have hnone : (scope.resolve "#/definitions/Pet/properties").toOption.isNone = true := by
        decide +kernel
      rw [houtcome] at hnone
      cases hnone

end Scope

/-! ## Writing references -/

namespace Text

/-- A name as a segment. -/
def segment (kept : Char → Bool) (name : String) : String :=
  String.ofList (encodeSegment kept name.toList)

/-- What follows the root in a reference to the shape at a path of property names inside a
definition. -/
def pointer (kept : Char → Bool) (name : String) (path : List String) : String :=
  segment kept name ++ String.join (path.map fun step => "/properties/" ++ segment kept step)

theorem pointerSegments_append (before after : String) :
    pointerSegments (before ++ "/" ++ after) = pointerSegments before ++ pointerSegments after := by
  have hcut : (before ++ "/" ++ after).toList = before.toList ++ '/' :: after.toList := by
    rw [String.toList_append, String.toList_append, List.append_assoc]
    rfl
  rw [pointerSegments, hcut, splitWhen_append_cons (p := (· == '/')) rfl, List.map_append]
  rfl

section Written

variable {kept : Char → Bool} (hkept : kept '%' = false)
include hkept

theorem pointerSegments_segment (name : String) : pointerSegments (segment kept name) = [name] :=
  pointerSegments_encodeSegment hkept name

/-- A segment has no slash in it, so that a reference falls apart into the segments it is written
with, whatever is in the names. -/
theorem pointerSegments_pointer (name : String) (path : List String) :
    pointerSegments (pointer kept name path) =
      name :: path.flatMap fun step => ["properties", step] := by
  have hword : pointerSegments "properties" = ["properties"] := by decide +kernel
  unfold pointer
  -- What comes after a step is a pointer again, with the step for its name.
  induction path generalizing name with
  | nil =>
    rw [List.map_nil, String.join_nil, String.append_empty]
    exact pointerSegments_segment hkept name
  | cons step path ih =>
    have hcut : ∀ before after : String,
        before ++ ("/properties/" ++ segment kept step ++ after) =
          before ++ "/" ++ ("properties" ++ "/" ++ (segment kept step ++ after)) := by
      intro before after
      apply String.toList_injective
      simp
    rw [List.map_cons, String.join_cons, hcut, pointerSegments_append, pointerSegments_append, ih,
      pointerSegments_segment hkept, hword]
    rfl

end Written

end Text

theorem Schema.leads_flatMap (path : List String) :
    Leads (path.flatMap fun step => ["properties", step]) path := by
  induction path with
  | nil => exact .done
  | cons step path ih => exact ih.step step

/-- Every path inside a definition has a reference: its names are written as segments, and are read
back from them as they were. -/
theorem Scope.resolve_pointer {document : Document} {scope : Scope} {kept : Char → Bool}
    (hscope : Scope.ofDocument document = .ok scope) (hkept : kept '%' = false) {name : String}
    (hname : document.Declares name) (path : List String) :
    scope.resolve (document.dialect.definitionsRoot ++ Text.pointer kept name path) =
      .ok (.derived name path) := by
  rw [resolve_eq_ok_iff, dialect, document_of_ofDocument hscope]
  exact ⟨_, name, _, rfl, Text.pointerSegments_pointer hkept name path,
    (mem_names_of_ofDocument hscope name).mpr hname, .path (Schema.leads_flatMap path)⟩

/-- The theorem at a name with a slash, and at a path with the word for items, the empty name, and a
name that looks like an escape. -/
theorem Scope.resolve_pointer_escaped :
    Text.pointer Text.isUnreserved "a/ö" ["items", "", "~1%"] =
      "a~1%C3%B6/properties/items/properties//properties/~01%25" ∧
    (⟨named, ["Pet", "a/ö"]⟩ : Scope).resolve
        "#/definitions/a~1%C3%B6/properties/items/properties//properties/~01%25" =
      .ok { kind := .reference, name := "a/ö", indexPath := ["items", "", "~1%"] } := by
  have hpointer : Text.pointer Text.isUnreserved "a/ö" ["items", "", "~1%"] =
      "a~1%C3%B6/properties/items/properties//properties/~01%25" := by
    decide +kernel
  have hname : named.Declares "a/ö" :=
    (mem_names_of_ofDocument ofDocument_named "a/ö").mp (by decide)
  have hpercent : Text.isUnreserved '%' = false := by decide
  refine ⟨hpointer, ?_⟩
  have hresolved := resolve_pointer ofDocument_named hpercent hname ["items", "", "~1%"]
  rw [hpointer] at hresolved
  exact hresolved

end ApiTypes
