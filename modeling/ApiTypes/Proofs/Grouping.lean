import ApiTypes.Proofs.Placement
import ApiTypes.Proofs.Schema.Paths

/-!
# The last parameter of a name

Each slot other than the body has the names of its parameters, in the order in which they first come
up, and each has the shape of the last parameter of that name.
-/

namespace ApiTypes

theorem Properties.isSome_find?_text {table : Properties} {texts : List String}
    (h : names table = texts.map .text) (text : String) :
    (find? (.text text) table).isSome = decide (text ∈ texts) := by
  have hnone : find? (.text text) table = none ↔ text ∉ texts := by
    rw [find?_eq_none_names, h, List.forall_mem_map]
    simp only [PropertyName.same, beq_eq_false_iff_ne]
    exact ⟨fun hall hmem => hall text hmem rfl,
      fun hmem other hother hsame => hmem (hsame ▸ hother)⟩
  rw [Bool.eq_iff_iff, Option.isSome_iff_ne_none, ne_eq, hnone, not_not, decide_eq_true_iff]

/-- The names of a table made of a list are those of the list, each at its first place. -/
theorem Properties.names_ofList {list : List (PropertyName × Schema)} {texts : List String}
    (h : list.map (·.1) = texts.map .text) :
    names (ofList list) = texts.eraseDups.map .text := by
  induction list using List.reverseRecOn generalizing texts with
  | nil =>
    rw [List.map_nil, eq_comm, List.map_eq_nil_iff] at h
    rw [h]
    rfl
  | append_singleton list entry ih =>
    rw [List.map_append, eq_comm, List.map_eq_append_iff] at h
    obtain ⟨before, last, rfl, hbefore, hlast⟩ := h
    obtain ⟨text, rest, rfl, hentry, hrest⟩ := List.map_eq_cons_iff.mp hlast
    cases List.map_eq_nil_iff.mp hrest
    have htable := ih hbefore.symm
    -- The last name is new to the table if it is new to the list.
    have hfound : (find? entry.1 (ofList list)).isSome = decide (text ∈ before) := by
      rw [show entry.1 = .text text from hentry.symm, isSome_find?_text htable]
      simp only [List.mem_eraseDups]
    rw [ofList_concat, names_set, hfound, htable, List.eraseDups_append,
      show entry.1 = .text text from hentry.symm]
    by_cases hmem : text ∈ before <;> simp [hmem, List.removeAll, List.eraseDups_cons]

namespace Exchange

variable {scope : Scope} {raw : Json} {slot : Slot} {placement : Placement} {list : List Json}
  {exchange next : Exchange}

/-- Whether the name of a parameter, if it has one, is a text. -/
def hasTextName (scope : Scope) (raw : Json) : Bool :=
  match nameOf scope raw with
  | .string _ => true
  | name => !name.isTruthy

def textName? (scope : Scope) (slot : Slot) (raw : Json) : Option String :=
  match belongsTo scope slot raw, nameOf scope raw with
  | true, .string name => some name
  | _, _ => none

/-- A parameter that belongs to a slot has a name. -/
theorem isTruthy_nameOf (h : belongsTo scope slot raw = true) :
    (nameOf scope raw).isTruthy = true := by
  unfold belongsTo at h
  unfold nameOf
  split at h
  · exact (Bool.and_eq_true_iff.mp h).1
  · cases h

theorem exists_nameOf (h : belongsTo scope slot raw = true) (hname : hasTextName scope raw = true) :
    ∃ name, nameOf scope raw = .string name := by
  have hthere := isTruthy_nameOf h
  unfold hasTextName at hname
  split at hname
  · exact ⟨_, ‹_›⟩
  · rw [hthere] at hname
    cases hname

/-- The parameters that a value lists. -/
def listed (value : Json) : List Json :=
  match (value.orElse (.array [])).elements with
  | .ok list => list
  | .error _ => []

/-- The parameters of an operation in the order in which they are added: those of its path item,
then its own. -/
def parameters (operation shared : Json) : List Json :=
  match operation with
  | .object members => listed shared ++ listed (Members.get members "parameters")
  | _ => listed shared

theorem addAll_eq_ok {exchange next : Exchange} {value : Json}
    (h : addAll scope exchange value = .ok next) :
    (listed value).foldlM (add scope) exchange = .ok next := by
  rw [addAll, bind_eq_ok] at h
  obtain ⟨list, hlist, h⟩ := h
  rw [listed, lift_eq_ok.mp hlist]
  exact h

/-- The slots other than the body, and what is skipped, come from the parameters. -/
theorem parameters_of_ofOperation {operation shared : Json} {exchange : Exchange}
    (h : ofOperation scope operation shared = .ok exchange) :
    ∃ filled, (parameters operation shared).foldlM (add scope) {} = .ok filled ∧
      (∀ slot, slot ≠ .body → exchange.slot slot = filled.slot slot) ∧
      exchange.skipped = filled.skipped := by
  simp only [ofOperation, bind_eq_ok, lift_eq_ok] at h
  obtain ⟨first, hfirst, members, hmembers, filled, hfilled, h⟩ := h
  obtain ⟨body, _, h⟩ := ite_bind_eq_ok.mp h
  obtain ⟨success, _, h⟩ := bind_eq_ok.mp h
  obtain ⟨response, _, h⟩ := ite_bind_eq_ok.mp h
  cases h
  cases Json.members_eq_ok.mp hmembers
  refine ⟨filled, ?_, fun slot hslot => ?_, rfl⟩
  · -- The shared parameters come first, then those of the operation.
    rw [parameters, List.foldlM_append, bind_eq_ok]
    exact ⟨first, addAll_eq_ok hfirst, addAll_eq_ok hfilled⟩
  · cases slot
    case body => exact absurd rfl hslot
    all_goals rfl

/-- A parameter gives a slot other than the body a property of its name. -/
theorem name_of_addition? (hslot : slot ≠ .body) (h : place scope raw = .ok placement)
    (hname : hasTextName scope raw = true) :
    (placement.addition? slot).map (·.1) = (textName? scope slot raw).map .text := by
  obtain ⟨hsome, hentry⟩ := addition?_of_place h slot
  unfold textName?
  cases hbelongs : belongsTo scope slot raw with
  | false =>
    rw [hbelongs, Bool.false_and, Option.isSome_eq_false_iff, Option.isNone_iff_eq_none] at hsome
    rw [hsome]
    rfl
  | true =>
    obtain ⟨name, hname⟩ := exists_nameOf hbelongs hname
    -- Only parameters of the body are the whole of it.
    have hwhole : isWholeBody scope raw = false := by
      rw [isWholeBody, belongsTo_eq hbelongs, decide_eq_false (Ne.symm hslot), Bool.false_and]
    rw [hbelongs, hwhole] at hsome
    obtain ⟨entry, hfound⟩ := Option.isSome_iff_exists.mp hsome
    rw [hfound, hname, Option.map_some, (hentry entry hfound).1, hname]
    rfl

section Named

variable (hslot : slot ≠ .body) (hplaced : ∀ raw ∈ list, place scope raw = .ok (placed scope raw))
  (hnames : ∀ raw ∈ list, hasTextName scope raw = true)
include hslot hplaced hnames

theorem names_entries : Properties.names (Properties.ofList (entries scope slot list)) =
    (list.filterMap (textName? scope slot)).eraseDups.map .text := by
  apply Properties.names_ofList
  rw [entries, List.map_filterMap, List.map_filterMap]
  exact List.filterMap_congr fun raw hmem =>
    name_of_addition? hslot (hplaced raw hmem) (hnames raw hmem)

/-- What a table has for a name comes from the last parameter of the name. -/
theorem find?_entries (name : String) :
    Properties.find? (.text name) (Properties.ofList (entries scope slot list)) =
      ((list.filter (textName? scope slot · == some name)).getLast?.bind fun last =>
        (placed scope last).addition? slot).map (·.2) := by
  have hsame : ∀ raw ∈ list, ((placed scope raw).addition? slot).any (·.1.same (.text name)) =
      (textName? scope slot raw == some name) := by
    intro raw hmem
    have hentry := name_of_addition? hslot (hplaced raw hmem) (hnames raw hmem)
    cases hfound : (placed scope raw).addition? slot <;> cases htext : textName? scope slot raw <;>
      simp_all [PropertyName.same]
  have hlast : list.reverse.filter (fun raw =>
      ((placed scope raw).addition? slot).any (·.1.same (.text name))) =
        list.reverse.filter (textName? scope slot · == some name) :=
    List.filter_congr fun raw hmem => hsame raw (List.mem_reverse.mp hmem)
  rw [Properties.find?_ofList, entries, ← List.filterMap_reverse, List.find?_filterMap,
    ← List.head?_filter, hlast, List.head?_filter, List.getLast?_filter]

/-- A property of a group has the shape that the last parameter of its name describes. -/
theorem exists_last {name : String} (h : name ∈ list.filterMap (textName? scope slot)) :
    ∃ last schema, (list.filter (textName? scope slot · == some name)).getLast? = some last ∧
      Schema.ofParameter scope (resolved scope last) = .ok schema ∧
      Properties.find? (.text name) (Properties.ofList (entries scope slot list)) =
        some schema := by
  obtain ⟨raw, hraw, hname⟩ := List.mem_filterMap.mp h
  have hmem : raw ∈ list.filter (textName? scope slot · == some name) :=
    List.mem_filter.mpr ⟨hraw, by rw [hname, beq_self_eq_true]⟩
  obtain ⟨last, hlast⟩ := Option.isSome_iff_exists.mp
    (List.getLast?_isSome.mpr (List.ne_nil_of_mem hmem))
  obtain ⟨hthere, hsame⟩ := List.mem_filter.mp (List.mem_of_getLast? hlast)
  -- The last parameter of the name is placed, so it has an entry, and that entry stays.
  have hentry := name_of_addition? hslot (hplaced last hthere) (hnames last hthere)
  rw [beq_iff_eq.mp hsame, Option.map_some, Option.map_eq_some_iff] at hentry
  obtain ⟨entry, hentry, _⟩ := hentry
  have hschema := ((addition?_of_place (hplaced last hthere) slot).2 entry hentry).2
  refine ⟨last, entry.2, hlast, hschema, ?_⟩
  rw [find?_entries hslot hplaced hnames, hlast, Option.bind_some, hentry, Option.map_some]

end Named

/-- Each slot but the body has the distinct names of its parameters in the order in which they first
come up, and for each of them what the last parameter of that name describes. Skipped are the
parameters that have no place. -/
theorem last_parameter_wins {operation shared : Json}
    (h : ofOperation scope operation shared = .ok exchange)
    (hnames : ∀ raw ∈ parameters operation shared, hasTextName scope raw = true) :
    (∀ slot, slot ≠ .body →
      Properties.names (exchange.slot slot).properties =
        ((parameters operation shared).filterMap (textName? scope slot)).eraseDups.map .text ∧
      ∀ name ∈ (parameters operation shared).filterMap (textName? scope slot), ∃ last schema,
        ((parameters operation shared).filter (textName? scope slot · == some name)).getLast? =
          some last ∧
        Schema.ofParameter scope (resolved scope last) = .ok schema ∧
        Properties.find? (.text name) (exchange.slot slot).properties = some schema) ∧
    exchange.skipped = (parameters operation shared).filter (isStray scope) := by
  obtain ⟨filled, hfold, hslots, hskipped⟩ := parameters_of_ofOperation h
  obtain ⟨hplaced, _⟩ := foldlM_add_eq_ok.mp hfold
  constructor
  · intro slot hslot
    have htable : (exchange.slot slot).properties =
        Properties.ofList (entries scope slot (parameters operation shared)) := by
      rw [hslots slot hslot, slot_of_foldlM_add hslot hfold, Schema.foldl_attach_properties]
      cases slot <;> rfl
    rw [htable]
    exact ⟨names_entries hslot hplaced hnames, fun name => exists_last hslot hplaced hnames⟩
  · rw [hskipped, skipped_of_foldlM_add hfold]
    rfl

/-- A parameter of a location and a type. -/
def typedParameter (name location type : String) : Json :=
  .object [("name", .string name), ("in", .string location), ("type", .string type)]

def limiting : Scope :=
  ⟨sharing [] [("Limit", .object limitParameter)] [], []⟩

/-- The theorem at a shared parameter that is set again under its name, and at two parameters
without a place: one has an unknown location, the other one is a reference that leads nowhere. -/
theorem last_parameter_wins_overriding :
    let limit := typedParameter "limit" "query" "string"
    let session := typedParameter "session" "cookie" "string"
    let missing := Json.object (referenceTo "#/parameters/Missing")
    let shared := Json.array [.object (referenceTo "#/parameters/Limit")]
    let operation := Json.object [("parameters",
      .array [typedParameter "sort" "query" "boolean", limit, session, missing])]
    ∃ exchange, ofOperation limiting operation shared = .ok exchange ∧
      Properties.names exchange.query.properties = [.text "limit", .text "sort"] ∧
      (∃ schema, Schema.ofParameter limiting limit = .ok schema ∧
        Properties.find? (.text "limit") exchange.query.properties = some schema) ∧
      exchange.skipped = [session, missing] := by
  intro limit session missing shared operation
  obtain ⟨exchange, hexchange⟩ : ∃ exchange, ofOperation limiting operation shared = .ok exchange :=
    exists_ok_of_isSome (by decide +kernel)
  have hnames : ∀ raw ∈ parameters operation shared, hasTextName limiting raw = true := by
    decide +kernel
  have htexts : (parameters operation shared).filterMap (textName? limiting .query) =
      ["limit", "sort", "limit"] := by
    decide +kernel
  obtain ⟨hslots, hskipped⟩ := last_parameter_wins hexchange hnames
  obtain ⟨hquery, hlast⟩ := hslots .query (by decide)
  obtain ⟨last, schema, hfound, hschema, htable⟩ := hlast "limit" (htexts ▸ by decide)
  refine ⟨exchange, hexchange, ?_, ⟨schema, ?_, htable⟩, ?_⟩
  · rw [htexts] at hquery
    exact hquery
  · have hlimit : ((parameters operation shared).filter
        (textName? limiting .query · == some "limit")).getLast? = some limit := rfl
    cases hlimit.symm.trans hfound
    exact hschema
  · rw [hskipped]
    rfl

end Exchange

end ApiTypes
