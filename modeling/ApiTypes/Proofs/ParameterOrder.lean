import Mathlib.Data.List.DropRight
import ApiTypes.Proofs.Placement

/-!
# The order of parameters

Parameters of different names fill every slot but the body in any order. The body is filled in two
ways: a parameter may replace it, which drops what was there, and it may add a property, which only
an object takes. So it depends on which parameters of the body come after the whole body.
-/

namespace ApiTypes

/-! ## The body -/

namespace Placement

variable {placements others : List Placement}

/-- What the parameters after the whole body add to it as properties. -/
def additions (placements : List Placement) : List (PropertyName × Schema) :=
  (placements.rtakeWhile (·.whole?.isNone)).filterMap (addition? .body)

/-- The whole body that comes last, an empty one if there is none. -/
def wholeBody (placements : List Placement) : Schema :=
  (placements.filterMap whole?).getLast?.getD .empty

def Keyed : Placement → Prop
  | .property _ name _ => name.isKey = true
  | .skipped _ | .body _ => True

/-- The last parameter adds itself to the body, or replaces the body and takes away all that was
added. -/
theorem additions_concat (placements : List Placement) (placement : Placement) :
    additions (placements ++ [placement]) =
      if placement.whole?.isNone then additions placements ++ (placement.addition? .body).toList
      else [] := by
  rw [additions, List.rtakeWhile_concat]
  split
  · rw [List.filterMap_append, additions]
    cases hadded : placement.addition? .body <;> simp [hadded]
  · rfl

theorem wholeBody_concat (placements : List Placement) (placement : Placement) :
    wholeBody (placements ++ [placement]) = placement.whole?.getD (wholeBody placements) := by
  rw [wholeBody, List.filterMap_append]
  cases hwhole : placement.whole? <;> simp [hwhole, wholeBody]

/-- The body is the whole body with the properties that come after it. -/
theorem foldl_onto_body (placements : List Placement) :
    placements.foldl (onto .body) .empty =
      (additions placements).foldl Schema.attach (wholeBody placements) := by
  induction placements using List.reverseRecOn with
  | nil => rfl
  | append_singleton placements placement ih =>
    rw [List.foldl_concat, ih, additions_concat, wholeBody_concat]
    cases hwhole : placement.whole? with
    | none =>
      rw [onto_eq_attach fun _ => hwhole]
      cases hadded : placement.addition? .body <;> simp
    | some schema =>
      cases placement <;> cases hwhole
      rfl

/-- Whether a parameter fits depends on those before it only through the body that has replaced
others. -/
theorem fits_foldl_after {placement : Placement} :
    placement.Fits (placements.foldl Exchange.after {}) ↔
      placement.Keyed ∧ (placement.addition? .body ≠ none →
        (wholeBody placements).opened.kind = .object) := by
  cases placement with
  | skipped raw => simp [Fits, Keyed, addition?]
  | body schema => simp [Fits, Keyed, addition?]
  | property slot name schema =>
    rw [Fits, Exchange.slot_foldl_after, Keyed, and_comm]
    refine and_congr_right fun _ => ?_
    by_cases hslot : slot = .body
    -- The body is what the whole one and the properties after it have made of it. The other slots
    -- have been empty.
    · subst hslot
      rw [show Exchange.slot {} .body = Schema.empty from rfl, foldl_onto_body,
        Schema.foldl_attach_opened_kind]
      simp [addition?]
    · have hempty : Exchange.slot {} slot = Schema.empty := by cases slot <;> rfl
      rw [hempty, foldl_onto fun hbody => absurd hbody hslot, Schema.foldl_attach_opened_kind]
      simp [addition?, hslot, Schema.opened, Schema.empty]

/-- A list of parameters can be added exactly if all but the last can and the last fits. -/
theorem foldlM_put_concat {placement : Placement} :
    (∃ next, (placements ++ [placement]).foldlM Exchange.put {} = .ok next) ↔
      (∃ next, placements.foldlM Exchange.put {} = .ok next) ∧
        placement.Fits (placements.foldl Exchange.after {}) := by
  simp only [List.foldlM_append, List.foldlM_cons, List.foldlM_nil, bind_eq_ok, pure_eq_ok,
    Exchange.put_eq_ok]
  constructor
  · rintro ⟨next, middle, hmiddle, last, ⟨hfits, _⟩, _⟩
    exact ⟨⟨middle, hmiddle⟩, Exchange.foldlM_put_eq_ok hmiddle ▸ hfits⟩
  · rintro ⟨⟨middle, hmiddle⟩, hfits⟩
    exact ⟨_, middle, hmiddle, _, ⟨Exchange.foldlM_put_eq_ok hmiddle ▸ hfits, rfl⟩, rfl⟩

/-- Parameters of which at most one is the whole body can be added if and only if their names can be
keys, and the whole body takes properties if any come after it. -/
theorem exists_foldlM_put (h : (placements.filterMap whole?).Pairwise fun _ _ => False) :
    (∃ next, placements.foldlM Exchange.put {} = .ok next) ↔
      (∀ placement ∈ placements, placement.Keyed) ∧
        (additions placements ≠ [] → (wholeBody placements).opened.kind = .object) := by
  -- Whether a parameter fits depends on the ones before it, so the induction is on the last one.
  induction placements using List.reverseRecOn with
  | nil => simp [additions]
  | append_singleton placements placement ih =>
    rw [List.filterMap_append, List.pairwise_append] at h
    rw [foldlM_put_concat, ih h.1, fits_foldl_after, List.forall_mem_append,
      List.forall_mem_singleton, additions_concat, wholeBody_concat]
    cases hwhole : placement.whole? with
    | none =>
      cases hadded : placement.addition? .body <;> simp <;> tauto
    | some schema =>
      -- There is no other whole body, and an empty one takes what came before.
      have hnone : placements.filterMap whole? = [] :=
        List.eq_nil_iff_forall_not_mem.mpr fun other hmem =>
          h.2.2 other hmem schema (by simp [hwhole])
      have hadded : placement.addition? .body = none := by
        cases placement <;> cases hwhole
        rfl
      simp [wholeBody, hnone, hadded, Schema.opened, Schema.empty]

end Placement

namespace Exchange

variable {scope : Scope} {raw : Json} {list : List Json} {slot : Slot} {next : Exchange}

/-! ## The parameters of the body -/

/-- The parameters of the body after the whole body; all of them if none is the whole body. -/
def attached (scope : Scope) (list : List Json) : List Json :=
  (list.rtakeWhile fun raw => !isWholeBody scope raw).filter (belongsTo scope .body)

theorem attached_concat (list : List Json) (raw : Json) :
    attached scope (list ++ [raw]) =
      if isWholeBody scope raw then []
      else attached scope list ++ if belongsTo scope .body raw then [raw] else [] := by
  rw [attached, List.rtakeWhile_concat]
  cases isWholeBody scope raw with
  | true => rfl
  | false => simp [attached, List.filter_append, List.filter_singleton]

theorem attached_sublist (list : List Json) : (attached scope list).Sublist list :=
  List.filter_sublist.trans (List.rtakeWhile_suffix _ _).sublist

theorem of_mem_attached (h : raw ∈ attached scope list) :
    belongsTo scope .body raw = true ∧ isWholeBody scope raw = false := by
  obtain ⟨hmem, hbody⟩ := List.mem_filter.mp h
  have hplain := List.mem_rtakeWhile_imp hmem
  exact ⟨hbody, by simpa using hplain⟩

section Placed

variable (hplaced : ∀ raw ∈ list, place scope raw = .ok (placed scope raw))
include hplaced

/-- What the parameters of the body after the whole body add are the properties they describe. -/
theorem additions_placed :
    Placement.additions (list.map (placed scope)) = entries scope .body (attached scope list) := by
  induction list using List.reverseRecOn with
  | nil => rfl
  | append_singleton list raw ih =>
    rw [List.forall_mem_append, List.forall_mem_singleton] at hplaced
    have hwhole := (whole?_of_place hplaced.2).1
    have hadded := (addition?_of_place hplaced.2 .body).1
    rw [List.map_append, List.map_singleton, Placement.additions_concat, ih hplaced.1,
      attached_concat, ← hwhole]
    cases hsome : (placed scope raw).whole? with
    | some _ => rfl
    | none =>
      rw [← hwhole, hsome, Option.isSome_none, Bool.not_false, Bool.and_true] at hadded
      rw [← hadded]
      cases hentry : (placed scope raw).addition? .body <;> simp [entries, hentry]

theorem additions_eq_nil :
    Placement.additions (list.map (placed scope)) = [] ↔ attached scope list = [] := by
  rw [additions_placed hplaced, entries, List.filterMap_eq_nil_iff, List.eq_nil_iff_forall_not_mem]
  refine forall_congr' fun raw => ⟨fun hnone hmem => ?_, fun hfree hmem => absurd hmem hfree⟩
  have hadded := (addition?_of_place (hplaced raw ((attached_sublist list).mem hmem)) .body).1
  rw [(of_mem_attached hmem).1, (of_mem_attached hmem).2, hnone hmem] at hadded
  cases hadded

end Placed

/-! ## Different parameters -/

/-- Two parameters that do not both belong to one slot under one name. -/
def Apart (scope : Scope) (a b : Json) : Prop :=
  ∀ slot, belongsTo scope slot a = true → belongsTo scope slot b = true →
    (nameOf scope a).sameKey (nameOf scope b) = false

theorem Apart.symm {a b : Json} (h : Apart scope a b) : Apart scope b a := by
  intro slot hb ha
  rw [← PropertyName.same_ofKey, PropertyName.same_comm, PropertyName.same_ofKey, h slot ha hb]

section Apart

variable (hplaced : ∀ raw ∈ list, place scope raw = .ok (placed scope raw))
  (hapart : list.Pairwise (Apart scope))
include hplaced hapart

theorem once_entries (slot : Slot) : Properties.Once (entries scope slot list) := by
  rw [Properties.Once, entries, List.pairwise_filterMap]
  refine hapart.imp_of_mem fun {a b} ha hb hab first hfirst second hsecond => ?_
  rw [((addition?_of_place (hplaced a ha) slot).2 first hfirst).1,
    ((addition?_of_place (hplaced b hb) slot).2 second hsecond).1, PropertyName.same_ofKey]
  apply hab slot
  · exact belongsTo_of_addition? (hplaced a ha) hfirst
  · exact belongsTo_of_addition? (hplaced b hb) hsecond

/-- Of parameters that are apart, at most one replaces the body. -/
theorem pairwise_wholes :
    ((list.map (placed scope)).filterMap Placement.whole?).Pairwise fun _ _ => False := by
  rw [List.filterMap_map, List.pairwise_filterMap]
  -- Two whole bodies are two parameters of the body under one name.
  refine hapart.imp_of_mem fun {a b} ha hb hab first hfirst second hsecond => ?_
  obtain ⟨hbodyA, hnameA⟩ := of_isWholeBody (isWholeBody_of_whole? (hplaced a ha) hfirst)
  obtain ⟨hbodyB, hnameB⟩ := of_isWholeBody (isWholeBody_of_whole? (hplaced b hb) hsecond)
  have hsame := hab .body hbodyA hbodyB
  rw [hnameA, hnameB] at hsame
  cases hsame

end Apart

/-- Different parameters can be added if and only if each can be placed under a name that can be a
key, and the whole body takes properties if any come after it. -/
theorem exists_foldlM_add (hapart : list.Pairwise (Apart scope)) :
    (∃ next, list.foldlM (add scope) {} = .ok next) ↔
      (∀ raw ∈ list, place scope raw = .ok (placed scope raw)) ∧
      (∀ raw ∈ list, (placed scope raw).Keyed) ∧
      (attached scope list ≠ [] →
        (Placement.wholeBody (list.map (placed scope))).opened.kind = .object) := by
  simp only [foldlM_add_eq_ok, exists_and_left]
  refine and_congr_right fun hplaced => ?_
  rw [Placement.exists_foldlM_put (pairwise_wholes hplaced hapart), List.forall_mem_map, ne_eq,
    additions_eq_nil hplaced]

theorem body_of_foldlM_add (h : list.foldlM (add scope) {} = .ok next) :
    next.body = (entries scope .body (attached scope list)).foldl Schema.attach
      (Placement.wholeBody (list.map (placed scope))) := by
  obtain ⟨hplaced, hput⟩ := foldlM_add_eq_ok.mp h
  rw [show next.body = next.slot .body from rfl, foldlM_put_eq_ok hput, slot_foldl_after,
    ← additions_placed hplaced]
  exact Placement.foldl_onto_body _

/-- A parameter of the body of a type. -/
def bodyParameter (name type : String) : Json :=
  .object [("name", .string name), ("in", .string "body"),
    ("schema", .object [("type", .string type)])]

def unshared : Scope :=
  ⟨sharing [] [] [], []⟩

/-- What comes before the whole body is dropped, and what comes after it is kept. -/
example : ((fun exchange => ["x", "y"].map fun name =>
    (Properties.find? (.text name) exchange.body.properties).isSome) <$>
      [bodyParameter "x" "number", bodyParameter "body" "object", bodyParameter "y" "string"].foldlM
        (add unshared) {}).toOption = some [false, true] := by
  decide +kernel

/-- The whole body is what one of the parameters describes, and empty if none is the whole body. -/
theorem wholeBody_cases (hplaced : ∀ raw ∈ list, place scope raw = .ok (placed scope raw)) :
    Placement.wholeBody (list.map (placed scope)) = .empty ∨
      ∃ raw ∈ list, isWholeBody scope raw = true ∧ Schema.ofParameter scope (resolved scope raw) =
        .ok (Placement.wholeBody (list.map (placed scope))) := by
  rw [Placement.wholeBody]
  cases hlast : ((list.map (placed scope)).filterMap Placement.whole?).getLast? with
  | none => exact .inl rfl
  | some schema =>
    rw [List.filterMap_map] at hlast
    obtain ⟨raw, hmem, hwhole⟩ := List.mem_filterMap.mp (List.mem_of_getLast? hlast)
    exact .inr ⟨raw, hmem, isWholeBody_of_whole? (hplaced raw hmem) hwhole,
      (whole?_of_place (hplaced raw hmem)).2 schema hwhole⟩

/-! ## Two orders -/

section Permuted

variable {xs ys : List Json} (hperm : xs.Perm ys) (hapart : xs.Pairwise (Apart scope))
include hperm

theorem attached_perm (hfree : ∀ raw ∈ xs, isWholeBody scope raw = false) :
    (attached scope xs).Perm (attached scope ys) := by
  have hxs : (xs.rtakeWhile fun raw => !isWholeBody scope raw) = xs :=
    List.rtakeWhile_eq_self_iff.mpr fun raw hmem => by simp [hfree raw hmem]
  have hys : (ys.rtakeWhile fun raw => !isWholeBody scope raw) = ys :=
    List.rtakeWhile_eq_self_iff.mpr fun raw hmem => by simp [hfree raw (hperm.mem_iff.mpr hmem)]
  rw [attached, attached, hxs, hys]
  exact hperm.filter _

include hapart

theorem wholeBody_perm (hplaced : ∀ raw ∈ xs, place scope raw = .ok (placed scope raw)) :
    Placement.wholeBody (xs.map (placed scope)) = Placement.wholeBody (ys.map (placed scope)) := by
  have hwholes := (hperm.map (placed scope)).filterMap Placement.whole?
  have hfirst := pairwise_wholes hplaced hapart
  have hsecond := hwholes.pairwise hfirst fun hfalse => hfalse.elim
  rw [Placement.wholeBody, Placement.wholeBody,
    hwholes.eq_of_pairwise (fun _ _ _ _ hfalse => hfalse.elim) hfirst hsecond]

/-- Whether different parameters can be added does not depend on their order, if the whole body
takes properties, or in both orders or in neither has to. -/
theorem exists_foldlM_add_perm
    (hbody : ∀ raw ∈ xs, isWholeBody scope raw = true →
      (∀ schema, Schema.ofParameter scope (resolved scope raw) = .ok schema →
        schema.opened.kind = .object) ∨
      (attached scope xs = [] ↔ attached scope ys = [])) :
    (∃ next, xs.foldlM (add scope) {} = .ok next) ↔
      ∃ next, ys.foldlM (add scope) {} = .ok next := by
  have hothers : ys.Pairwise (Apart scope) := hperm.pairwise hapart Apart.symm
  -- Of the three conditions only the last, on the whole body, looks at the order.
  rw [exists_foldlM_add hapart, exists_foldlM_add hothers]
  simp only [← hperm.mem_iff]
  refine and_congr_right fun hplaced => and_congr_right fun _ => ?_
  rw [← wholeBody_perm hperm hapart hplaced]
  rcases wholeBody_cases hplaced with hempty | ⟨raw, hmem, hwhole, hschema⟩
  · rw [hempty]
    exact iff_of_true (fun _ => rfl) (fun _ => rfl)
  · rcases hbody raw hmem hwhole with hobject | hsame
    · exact iff_of_true (fun _ => hobject _ hschema) (fun _ => hobject _ hschema)
    · rw [ne_eq, ne_eq, hsame]

/-- The same parameters of the body fill it in both orders, if they are the same after the whole
body. -/
theorem reordered_body {first second : Exchange}
    (hfirst : xs.foldlM (add scope) {} = .ok first)
    (hsecond : ys.foldlM (add scope) {} = .ok second)
    (hattached : (attached scope xs).Perm (attached scope ys)) :
    first.body.Reordered second.body := by
  have hplaced := (foldlM_add_eq_ok.mp hfirst).1
  have hsublist : (attached scope xs).Sublist xs := attached_sublist xs
  have honce : Properties.Once (entries scope .body (attached scope xs)) :=
    once_entries (fun raw hmem => hplaced raw (hsublist.mem hmem)) (hapart.sublist hsublist) .body
  have hwhole : Properties.Once (Placement.wholeBody (xs.map (placed scope))).properties := by
    rcases wholeBody_cases hplaced with hempty | ⟨raw, _, _, hschema⟩
    · rw [hempty]
      exact List.Pairwise.nil
    · exact (Schema.regular_ofParameter hschema).distinct.once
  rw [body_of_foldlM_add hfirst, body_of_foldlM_add hsecond, ← wholeBody_perm hperm hapart hplaced]
  exact Schema.reordered_foldl_attach (hattached.filterMap _) honce hwhole

/-- Parameters that differ in location or name can be added in any order, if the whole body takes
properties, or if in both orders or in neither other parameters of the body come after it. Where
both orders can be added, all slots but the body agree up to the order of their properties, and what
is skipped up to its order. So does the body, if the same parameters come after the whole body. -/
theorem add_perm :
    ((∀ raw ∈ xs, isWholeBody scope raw = true →
        (∀ schema, Schema.ofParameter scope (resolved scope raw) = .ok schema →
          schema.opened.kind = .object) ∨
        (attached scope xs = [] ↔ attached scope ys = [])) →
      ((∃ next, xs.foldlM (add scope) {} = .ok next) ↔
        ∃ next, ys.foldlM (add scope) {} = .ok next)) ∧
    ∀ first second, xs.foldlM (add scope) {} = .ok first → ys.foldlM (add scope) {} = .ok second →
      (∀ slot, slot ≠ .body → (first.slot slot).Reordered (second.slot slot)) ∧
      first.response = second.response ∧
      first.skipped.Perm second.skipped ∧
      ((∀ raw ∈ xs, isWholeBody scope raw = true →
          (attached scope xs).Perm (attached scope ys)) →
        first.body.Reordered second.body) := by
  refine ⟨exists_foldlM_add_perm hperm hapart, fun first second hfirst hsecond =>
    ⟨fun slot hslot => ?_, ?_, ?_, fun hattached => ?_⟩⟩
  · rw [slot_of_foldlM_add hslot hfirst, slot_of_foldlM_add hslot hsecond]
    have honce : Properties.Once (Exchange.slot {} slot).properties := by
      cases slot <;> exact List.Pairwise.nil
    exact Schema.reordered_foldl_attach (hperm.filterMap _)
      (once_entries (foldlM_add_eq_ok.mp hfirst).1 hapart slot) honce
  · rw [foldlM_put_eq_ok (foldlM_add_eq_ok.mp hfirst).2,
      foldlM_put_eq_ok (foldlM_add_eq_ok.mp hsecond).2, response_foldl_after, response_foldl_after]
  · rw [skipped_of_foldlM_add hfirst, skipped_of_foldlM_add hsecond]
    exact (hperm.filter _).append_left _
  · apply reordered_body hperm hapart hfirst hsecond
    -- Without a whole body all parameters of the body are attached, in both orders.
    by_cases hfree : ∀ raw ∈ xs, isWholeBody scope raw = false
    · exact attached_perm hperm hfree
    · obtain ⟨raw, hmem, hwhole⟩ : ∃ raw ∈ xs, isWholeBody scope raw = true := by
        simpa using hfree
      exact hattached raw hmem hwhole

end Permuted

theorem apart_bodyParameter {first second type other : String} (h : first ≠ second) :
    Apart unshared (bodyParameter first type) (bodyParameter second other) := by
  intro slot _ _
  show (first == second) = false
  rw [beq_eq_false_iff_ne]
  exact h

/-- The theorem at an object that is the whole body and comes before two properties. -/
theorem add_perm_object :
    let whole := bodyParameter "body" "object"
    let x := bodyParameter "x" "number"
    let y := bodyParameter "y" "string"
    ∃ first second, [whole, x, y].foldlM (add unshared) {} = .ok first ∧
      [whole, y, x].foldlM (add unshared) {} = .ok second ∧
      first.body.Reordered second.body ∧
      first.body.properties.length = 2 := by
  intro whole x y
  have hperm : [whole, x, y].Perm [whole, y, x] := (List.Perm.swap y x []).cons whole
  have hapart : [whole, x, y].Pairwise (Apart unshared) := by
    refine .cons (List.forall_mem_cons.mpr ⟨apart_bodyParameter (by decide),
      List.forall_mem_singleton.mpr (apart_bodyParameter (by decide))⟩) ?_
    exact List.pairwise_pair.mpr (apart_bodyParameter (by decide))
  have hattached : attached unshared [whole, x, y] = [x, y] ∧
      attached unshared [whole, y, x] = [y, x] := ⟨rfl, rfl⟩
  obtain ⟨hadded, hagree⟩ := add_perm hperm hapart
  have hlength : ((·.body.properties.length) <$>
      [whole, x, y].foldlM (add unshared) {}).toOption = some 2 := by
    decide +kernel
  obtain ⟨first, hfirst, hlength⟩ := map_eq_ok.mp (eq_ok_of_toOption hlength)
  obtain ⟨second, hsecond⟩ := (hadded fun _ _ _ => by simp [hattached]).mp ⟨first, hfirst⟩
  refine ⟨first, second, hfirst, hsecond, ?_, hlength⟩
  refine (hagree first second hfirst hsecond).2.2.2 fun _ _ _ => ?_
  rw [hattached.1, hattached.2]
  exact List.Perm.swap y x []

/-- A string that is the whole body takes no properties, and what came before an object that is the
whole body is dropped. -/
theorem not_add_perm :
    let text := bodyParameter "body" "string"
    let whole := bodyParameter "body" "object"
    let x := bodyParameter "x" "number"
    ([x, text].Pairwise (Apart unshared) ∧
      (∃ next, [x, text].foldlM (add unshared) {} = .ok next) ∧
      ¬∃ next, [text, x].foldlM (add unshared) {} = .ok next) ∧
    [x, whole].Pairwise (Apart unshared) ∧
      ∃ first second, [x, whole].foldlM (add unshared) {} = .ok first ∧
        [whole, x].foldlM (add unshared) {} = .ok second ∧ ¬first.body.Reordered second.body := by
  intro text whole x
  have hapart (type : String) : [x, bodyParameter "body" type].Pairwise (Apart unshared) :=
    List.pairwise_pair.mpr (apart_bodyParameter (by decide))
  refine ⟨⟨hapart "string", exists_ok_of_isSome (by decide +kernel), ?_⟩, hapart "object", ?_⟩
  · rintro ⟨next, hnext⟩
    have hnone : ([text, x].foldlM (add unshared) {}).toOption.isNone = true := by
      decide +kernel
    rw [hnext] at hnone
    cases hnone
  · have hlengths :
        ((·.body.properties.length) <$> [x, whole].foldlM (add unshared) {}).toOption = some 0 ∧
        ((·.body.properties.length) <$> [whole, x].foldlM (add unshared) {}).toOption =
          some 1 := by
      decide +kernel
    obtain ⟨first, hfirst, hnone⟩ := map_eq_ok.mp (eq_ok_of_toOption hlengths.1)
    obtain ⟨second, hsecond, hone⟩ := map_eq_ok.mp (eq_ok_of_toOption hlengths.2)
    refine ⟨first, second, hfirst, hsecond, fun hreordered => ?_⟩
    have hlength := hreordered.properties.length_eq
    rw [hnone, hone] at hlength
    cases hlength

end Exchange

end ApiTypes
