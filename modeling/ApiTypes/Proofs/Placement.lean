import ApiTypes.Proofs.SharedReferences

/-!
# The places of parameters

A parameter changes the slot that it belongs to and no other one. Each slot can therefore be
followed on its own: it is what the parameters that belong to it make of it, one after the other,
and what belongs to none is skipped.
-/

namespace ApiTypes

/-! ## Slots -/

namespace Placement

def addition? (slot : Slot) : Placement → Option (PropertyName × Schema)
  | .property other name schema => if other = slot then some (.ofKey name, schema) else none
  | .skipped _ | .body _ => none

def whole? : Placement → Option Schema
  | .body schema => some schema
  | .skipped _ | .property .. => none

def onto (slot : Slot) (self : Schema) : Placement → Schema
  | .skipped _ => self
  | .body schema => if slot = .body then schema else self
  | .property other name schema => if other = slot then self.attach (.ofKey name, schema) else self

def stray? : Placement → Option Json
  | .skipped raw => some raw
  | .body _ | .property .. => none

/-- Whether the parameter can be added to an exchange. -/
def Fits (exchange : Exchange) : Placement → Prop
  | .property slot name _ => (exchange.slot slot).opened.kind = .object ∧ name.isKey = true
  | .skipped _ | .body _ => True

variable {slot : Slot} {placement : Placement}

/-- A parameter that replaces nothing attaches what it adds. -/
theorem onto_eq_attach (h : slot = .body → placement.whole? = none) (self : Schema) :
    placement.onto slot self = (placement.addition? slot).elim self self.attach := by
  cases placement with
  | skipped raw => rfl
  | body schema =>
    have hslot : slot ≠ .body := fun hslot => nomatch h hslot
    exact if_neg hslot
  | property other name schema =>
    rw [onto, addition?]
    split <;> rfl

theorem foldl_onto {placements : List Placement}
    (h : slot = .body → ∀ placement ∈ placements, placement.whole? = none) (self : Schema) :
    placements.foldl (onto slot) self =
      (placements.filterMap (addition? slot)).foldl Schema.attach self := by
  induction placements generalizing self with
  | nil => rfl
  | cons placement placements ih =>
    have hfirst := onto_eq_attach (fun hslot => h hslot placement List.mem_cons_self) self
    rw [List.foldl_cons, List.filterMap_cons, hfirst,
      ih fun hslot other hmem => h hslot other (List.mem_cons_of_mem _ hmem)]
    cases placement.addition? slot <;> rfl

end Placement

namespace Exchange

variable {scope : Scope} {exchange next : Exchange}

/-- The exchange with a parameter added that fits. -/
def after (exchange : Exchange) (placement : Placement) : Exchange where
  header := placement.onto .header exchange.header
  path := placement.onto .path exchange.path
  query := placement.onto .query exchange.query
  body := placement.onto .body exchange.body
  form := placement.onto .form exchange.form
  response := exchange.response
  skipped := exchange.skipped ++ placement.stray?.toList

theorem slot_after (placement : Placement) (slot : Slot) :
    (exchange.after placement).slot slot = placement.onto slot (exchange.slot slot) := by
  cases slot <;> rfl

/-- One step: a parameter can be added exactly if it fits, and each slot is then known. -/
theorem put_eq_ok {placement : Placement} :
    exchange.put placement = .ok next ↔
      placement.Fits exchange ∧ next = exchange.after placement := by
  cases placement with
  | skipped raw => simp [put, Placement.Fits, after, Placement.onto, Placement.stray?, eq_comm]
  | body schema => simp [put, Placement.Fits, after, Placement.onto, Placement.stray?, eq_comm]
  | property slot name schema =>
    have hafter : exchange.withSlot ((exchange.slot slot).attach (.ofKey name, schema)) slot =
        exchange.after (.property slot name schema) := by
      cases slot <;> simp [after, withSlot, Exchange.slot, Placement.onto, Placement.stray?]
    -- Only a property can be refused, by a slot that is no object.
    simp only [put, bind_eq_ok, Schema.setProperty_eq_attach, pure_eq_ok, Except.ok.injEq,
      Placement.Fits]
    constructor
    · rintro ⟨_, ⟨hfits, rfl⟩, rfl⟩
      exact ⟨hfits, hafter⟩
    · rintro ⟨hfits, rfl⟩
      exact ⟨_, ⟨hfits, rfl⟩, hafter⟩

/-- Each slot of an exchange can be followed on its own. -/
theorem slot_foldl_after (placements : List Placement) (slot : Slot) :
    (placements.foldl after exchange).slot slot =
      placements.foldl (Placement.onto slot) (exchange.slot slot) := by
  induction placements generalizing exchange with
  | nil => rfl
  | cons placement placements ih => rw [List.foldl_cons, ih, slot_after, List.foldl_cons]

theorem skipped_foldl_after (placements : List Placement) :
    (placements.foldl after exchange).skipped =
      exchange.skipped ++ placements.filterMap Placement.stray? := by
  induction placements generalizing exchange with
  | nil => simp
  | cons placement placements ih =>
    rw [List.foldl_cons, ih, after, List.filterMap_cons, List.append_assoc]
    cases placement.stray? <;> rfl

theorem response_foldl_after (placements : List Placement) :
    (placements.foldl after exchange).response = exchange.response := by
  induction placements generalizing exchange with
  | nil => rfl
  | cons placement placements ih => rw [List.foldl_cons, ih, after]

/-- A whole run of additions, where it succeeds, comes to what each of them leaves. -/
theorem foldlM_put_eq_ok {placements : List Placement}
    (h : placements.foldlM put exchange = .ok next) : next = placements.foldl after exchange := by
  induction placements generalizing exchange with
  | nil => exact (Except.ok.inj h).symm
  | cons placement placements ih =>
    rw [List.foldlM_cons, bind_eq_ok] at h
    obtain ⟨middle, hmiddle, h⟩ := h
    rw [ih h, (put_eq_ok.mp hmiddle).2, List.foldl_cons]

/-- What a parameter adds, nothing if it cannot be built. -/
def placed (scope : Scope) (raw : Json) : Placement :=
  match place scope raw with
  | .ok placement => placement
  | .error _ => .skipped raw

theorem placed_of_ok {raw : Json} {placement : Placement} (h : place scope raw = .ok placement) :
    placed scope raw = placement := by
  rw [placed, h]

/-- Adding a list of parameters is building them all, and then adding what was built. -/
theorem foldlM_add_eq_ok {list : List Json} :
    list.foldlM (add scope) exchange = .ok next ↔
      (∀ raw ∈ list, place scope raw = .ok (placed scope raw)) ∧
        (list.map (placed scope)).foldlM put exchange = .ok next := by
  induction list generalizing exchange with
  | nil => simp
  | cons raw list ih =>
    simp only [List.foldlM_cons, List.map_cons, bind_eq_ok, add, ih, List.forall_mem_cons]
    constructor
    · rintro ⟨middle, ⟨placement, hplace, hput⟩, hlist, hrest⟩
      have hplaced := placed_of_ok hplace
      exact ⟨⟨hplaced ▸ hplace, hlist⟩, middle, hplaced ▸ hput, hrest⟩
    · rintro ⟨⟨hplace, hlist⟩, middle, hput, hrest⟩
      exact ⟨middle, ⟨_, hplace, hput⟩, hlist, hrest⟩

end Exchange

/-! ## Places -/

def Slot.location : Slot → String
  | .header => "header"
  | .path => "path"
  | .query => "query"
  | .body => "body"
  | .form => "formData"

theorem Slot.location_inj {slot other : Slot} (h : slot.location = other.location) :
    slot = other := by
  cases slot <;> cases other <;> simp_all [location]

def isLocation (value : Json) : Bool :=
  ["header", "path", "query", "body", "formData"].any fun location => value.isText location

theorem Json.eq_string_of_isText {value : Json} {text : String} (h : value.isText text = true) :
    value = .string text := by
  cases value <;> simp_all [isText]

theorem isLocation_of_isText {value : Json} {slot : Slot} (h : value.isText slot.location = true) :
    isLocation value = true := by
  rw [isLocation, List.any_eq_true]
  exact ⟨slot.location, by cases slot <;> decide, h⟩

theorem ofLocation?_eq_some {value : Json} {slot : Slot} (h : Slot.ofLocation? value = some slot) :
    value.isText slot.location = true := by
  unfold Slot.ofLocation? at h
  split at h <;> cases h <;> rfl

theorem ofLocation?_eq_none {value : Json} (h : Slot.ofLocation? value = none)
    (hbody : value.isText "body" = false) : isLocation value = false := by
  unfold Slot.ofLocation? at h
  split at h
  case h_5 => cases value <;> simp_all [isLocation, Json.isText]
  all_goals cases h

namespace Exchange

variable {scope : Scope} {raw : Json} {slot other : Slot} {placement : Placement} {list : List Json}
  {exchange next : Exchange}

/-- The name of a parameter, once a reference to a shared one is replaced by it. -/
def nameOf (scope : Scope) (raw : Json) : Json :=
  match resolved scope raw with
  | .object members => Members.get members "name"
  | _ => .null

/-- Whether a parameter is one of a slot: an object that has a name and the location of the slot. -/
def belongsTo (scope : Scope) (slot : Slot) (raw : Json) : Bool :=
  match resolved scope raw with
  | .object members =>
    (Members.get members "name").isTruthy && (Members.get members "in").isText slot.location
  | _ => false

/-- Whether a parameter has no place: it is no object, has no name, or has no location of a slot. -/
def isStray (scope : Scope) (raw : Json) : Bool :=
  match resolved scope raw with
  | .object members =>
    !(Members.get members "name").isTruthy || !isLocation (Members.get members "in")
  | _ => true

def isWholeBody (scope : Scope) (raw : Json) : Bool :=
  belongsTo scope .body raw && (nameOf scope raw).isText "body"

theorem of_isWholeBody (h : isWholeBody scope raw = true) :
    belongsTo scope .body raw = true ∧ nameOf scope raw = .string "body" := by
  obtain ⟨hbody, hname⟩ := Bool.and_eq_true_iff.mp h
  exact ⟨hbody, Json.eq_string_of_isText hname⟩

theorem belongsTo_of_isStray (h : isStray scope raw = true) (slot : Slot) :
    belongsTo scope slot raw = false := by
  unfold isStray at h
  unfold belongsTo
  split
  · rename_i members hresolved
    rw [hresolved] at h
    cases hin : (Members.get members "in").isText slot.location with
    | false => exact Bool.and_false _
    | true => simpa [isLocation_of_isText hin] using h
  · rfl

/-- A parameter belongs to one slot at most. -/
theorem belongsTo_eq (h : belongsTo scope slot raw = true) (other : Slot) :
    belongsTo scope other raw = decide (other = slot) := by
  unfold belongsTo at h ⊢
  split at h
  · rename_i members hresolved
    obtain ⟨hname, hin⟩ := Bool.and_eq_true_iff.mp h
    rw [hname, Bool.true_and]
    rw [Json.eq_string_of_isText hin, Json.isText, Bool.eq_iff_iff, beq_iff_eq, decide_eq_true_eq]
    exact ⟨fun hsame => (Slot.location_inj hsame).symm, fun hsame => hsame ▸ rfl⟩
  · cases h

/-- The slot of a parameter is none without a name or a location, and else the one of the
location. -/
theorem slotOf_eq_ok {name location : Json} {found : Option Slot}
    (h : slotOf name location = .ok found) :
    (found = none ∧ (!name.isTruthy || !isLocation location) = true) ∨
      ∃ slot, found = some slot ∧ (name.isTruthy && location.isText slot.location) = true := by
  -- The questions come in this order: is there a name, is it the body, is the place known.
  unfold slotOf at h
  split at h
  · rename_i hname
    exact .inl ⟨(Except.ok.inj h).symm, by rw [hname, Bool.true_or]⟩
  · rename_i hname
    rw [Bool.not_eq_true, Bool.not_eq_false'] at hname
    rw [hname, Bool.not_true, Bool.false_or]
    split at h
    · rename_i hbody
      exact .inr ⟨.body, (Except.ok.inj h).symm, hbody⟩
    · rename_i hbody
      split at h
      · cases h
      · cases hfound : Slot.ofLocation? location with
        | none =>
          rw [hfound] at h
          rw [ofLocation?_eq_none hfound (Bool.not_eq_true _ ▸ hbody)]
          exact .inl ⟨(Except.ok.inj h).symm, rfl⟩
        | some slot =>
          rw [hfound] at h
          exact .inr ⟨slot, (Except.ok.inj h).symm, ofLocation?_eq_some hfound⟩

/-- What a parameter adds: nothing if it has no place, and otherwise the shape that it describes, as
the whole body or under its name. -/
theorem place_cases (h : place scope raw = .ok placement) :
    (isStray scope raw = true ∧ placement = .skipped raw) ∨
      ∃ slot schema, belongsTo scope slot raw = true ∧
        Schema.ofParameter scope (resolved scope raw) = .ok schema ∧
        placement = if slot = .body ∧ (nameOf scope raw).isText "body" then .body schema
          else .property slot (nameOf scope raw) schema := by
  rw [place, bind_eq_ok] at h
  obtain ⟨found, hfound, h⟩ := h
  rw [lift_eq_ok] at hfound
  cases hresolved : resolved scope raw with
  -- Only an object has a place, which its name and location decide.
  | object members =>
    rw [destination_eq hresolved] at hfound
    cases hslot : slotOf (Members.get members "name") (Members.get members "in") with
    | error cause =>
      rw [hslot] at hfound
      cases hfound
    | ok seat =>
      rw [hslot] at hfound
      cases hfound
      rcases slotOf_eq_ok hslot with ⟨rfl, hstray⟩ | ⟨slot, rfl, hbelongs⟩
      · cases h
        refine .inl ⟨?_, rfl⟩
        rw [isStray, hresolved]
        exact hstray
      · obtain ⟨schema, hschema, h⟩ := bind_eq_ok.mp h
        cases h
        refine .inr ⟨slot, schema, ?_, hschema, ?_⟩
        · rw [belongsTo, hresolved]
          exact hbelongs
        · rw [nameOf, hresolved]
  | _ =>
    rw [destination, hresolved] at hfound
    cases hfound
    cases h
    refine .inl ⟨?_, rfl⟩
    rw [isStray, hresolved]

/-- A parameter is recorded as skipped exactly if it has no place. -/
theorem stray?_of_place (h : place scope raw = .ok placement) :
    placement.stray? = if isStray scope raw then some raw else none := by
  rcases place_cases h with ⟨hstray, rfl⟩ | ⟨slot, schema, hslot, _, rfl⟩
  · rw [hstray]
    rfl
  · have hplaced : isStray scope raw = false := by
      by_contra hstray
      rw [belongsTo_of_isStray (Bool.not_eq_false _ ▸ hstray) slot] at hslot
      cases hslot
    rw [hplaced]
    split <;> rfl

/-- A parameter replaces the body exactly if it is the body parameter of that name. -/
theorem whole?_of_place (h : place scope raw = .ok placement) :
    placement.whole?.isSome = isWholeBody scope raw ∧
      ∀ schema ∈ placement.whole?, Schema.ofParameter scope (resolved scope raw) = .ok schema := by
  rcases place_cases h with ⟨hstray, rfl⟩ | ⟨slot, schema, hslot, hschema, rfl⟩
  · rw [isWholeBody, belongsTo_of_isStray hstray]
    simp [Placement.whole?]
  · rw [isWholeBody, belongsTo_eq hslot]
    split
    · rename_i hbody
      simp [Placement.whole?, hbody.1, hbody.2, hschema]
    · rename_i hbody
      by_cases hslot : slot = .body
      · simpa [Placement.whole?, hslot] using hbody
      · simp [Placement.whole?, Ne.symm hslot]

/-- Any other parameter of a slot adds its shape there, under its name. -/
theorem addition?_of_place (h : place scope raw = .ok placement) (slot : Slot) :
    (placement.addition? slot).isSome = (belongsTo scope slot raw && !isWholeBody scope raw) ∧
      ∀ entry ∈ placement.addition? slot, entry.1 = .ofKey (nameOf scope raw) ∧
        Schema.ofParameter scope (resolved scope raw) = .ok entry.2 := by
  rw [← (whole?_of_place h).1]
  rcases place_cases h with ⟨hstray, rfl⟩ | ⟨other, schema, hother, hschema, rfl⟩
  · rw [belongsTo_of_isStray hstray]
    simp [Placement.addition?]
  · rw [belongsTo_eq hother]
    split
    · simp [Placement.addition?, Placement.whole?]
    · by_cases hslot : other = slot
      · simp [Placement.addition?, Placement.whole?, hslot, hschema]
      · simp [Placement.addition?, Placement.whole?, hslot, Ne.symm hslot]

theorem isWholeBody_of_whole? (h : place scope raw = .ok placement) {schema : Schema}
    (hwhole : placement.whole? = some schema) : isWholeBody scope raw = true := by
  rw [← (whole?_of_place h).1, hwhole, Option.isSome_some]

theorem belongsTo_of_addition? (h : place scope raw = .ok placement)
    {entry : PropertyName × Schema} (hadded : placement.addition? slot = some entry) :
    belongsTo scope slot raw = true := by
  have hsome := (addition?_of_place h slot).1
  rw [hadded, Option.isSome_some, eq_comm, Bool.and_eq_true] at hsome
  exact hsome.1

/-! ## Adding parameters -/

/-- What the parameters of a list give a slot other than the body, in order. -/
def entries (scope : Scope) (slot : Slot) (list : List Json) : List (PropertyName × Schema) :=
  list.filterMap fun raw => (placed scope raw).addition? slot

/-- A slot other than the body has the properties that its parameters give it, and no parameter of
another slot changes it. -/
theorem slot_of_foldlM_add (hslot : slot ≠ .body)
    (h : list.foldlM (add scope) exchange = .ok next) :
    next.slot slot = (entries scope slot list).foldl Schema.attach (exchange.slot slot) := by
  obtain ⟨_, hput⟩ := foldlM_add_eq_ok.mp h
  rw [foldlM_put_eq_ok hput, slot_foldl_after,
    Placement.foldl_onto fun hbody => absurd hbody hslot, List.filterMap_map]
  rfl

/-- The skipped parameters are those without a place, in the order of the list. -/
theorem skipped_of_foldlM_add (h : list.foldlM (add scope) exchange = .ok next) :
    next.skipped = exchange.skipped ++ list.filter (isStray scope) := by
  obtain ⟨hplaced, hput⟩ := foldlM_add_eq_ok.mp h
  have hstray : (list.map (placed scope)).filterMap Placement.stray? =
      list.filter (isStray scope) := by
    rw [List.filterMap_map, ← List.filterMap_eq_filter]
    refine List.filterMap_congr fun raw hmem => ?_
    rw [Function.comp_apply, stray?_of_place (hplaced raw hmem)]
    rfl
  rw [foldlM_put_eq_ok hput, skipped_foldl_after, hstray]

end Exchange

end ApiTypes
