import ApiTypes.Proofs.Analysis

/-!
# Two runs side by side

Two runs match if both fail, or both succeed with results that are related. The parameters that an
operation skips do not reach the generated file, so two exchanges are alike if they agree on their
shapes.
-/

namespace ApiTypes

/-- Two outcomes match: both are errors, or both are results that are related. -/
inductive Matches {ε α β : Type} (related : α → β → Prop) : Except ε α → Except ε β → Prop where
  | ok {a : α} {b : β} (h : related a b) : Matches related (.ok a) (.ok b)
  | error (e other : ε) : Matches related (.error e) (.error other)

namespace Matches

variable {ε α β γ δ : Type} {related : α → β → Prop} {after : γ → δ → Prop}

theorem refl (x : Except ε α) : Matches Eq x x := by
  cases x with
  | error e => exact .error e e
  | ok a => exact .ok rfl

/-- Two runs match in what they return exactly if they succeed alike. -/
theorem eq_iff {x y : Except ε α} : Matches Eq x y ↔ ∀ a, x = .ok a ↔ y = .ok a := by
  constructor
  · rintro (rfl | ⟨e, other⟩) a <;> simp
  · intro h
    cases x with
    | ok a =>
      rw [(h a).mp rfl]
      exact .ok rfl
    | error e =>
      cases y with
      | error other => exact .error e other
      | ok b => cases (h b).mpr rfl

theorem of_ne_ok {x : Except ε α} {y : Except ε β} (hx : ∀ a, x ≠ .ok a) (hy : ∀ b, y ≠ .ok b) :
    Matches related x y := by
  cases x with
  | ok a => exact absurd rfl (hx a)
  | error e =>
    cases y with
    | ok b => exact absurd rfl (hy b)
    | error other => exact .error e other

theorem exists_ok {x : Except ε α} {y : Except ε β} (h : Matches related x y) {a : α}
    (hx : x = .ok a) : ∃ b, y = .ok b ∧ related a b := by
  cases h with
  | error e other => cases hx
  | ok hrelated =>
    cases hx
    exact ⟨_, rfl, hrelated⟩

theorem imp {stronger : α → β → Prop} {x : Except ε α} {y : Except ε β}
    (h : Matches stronger x y) (himp : ∀ a b, stronger a b → related a b) : Matches related x y := by
  cases h with
  | error e other => exact .error e other
  | ok hrelated => exact .ok (himp _ _ hrelated)

/-- Matching runs followed by matching steps match. -/
theorem bind {x : Except ε α} {y : Except ε β} {f : α → Except ε γ} {g : β → Except ε δ}
    (h : Matches related x y) (hstep : ∀ a b, related a b → Matches after (f a) (g b)) :
    Matches after (x >>= f) (y >>= g) := by
  cases h with
  | error e other => exact .error e other
  | ok hrelated => exact hstep _ _ hrelated

theorem bind_eq {x y : Except ε α} {f : α → Except ε γ} {g : α → Except ε δ} (h : Matches Eq x y)
    (hstep : ∀ a, Matches after (f a) (g a)) : Matches after (x >>= f) (y >>= g) :=
  h.bind fun a _ hsame => hsame ▸ hstep a

theorem lift {x : Except Malformed α} {y : Except Malformed β} (h : Matches related x y) :
    Matches related (liftM x : Except Error α) (liftM y : Except Error β) := by
  cases h with
  | error e other => exact .error _ _
  | ok hrelated => exact .ok hrelated

/-- Two lists whose elements match are worked through alike. -/
theorem mapM {f : α → Except ε γ} {g : β → Except ε δ} {left : List α} {right : List β}
    (h : List.Forall₂ (fun a b => Matches after (f a) (g b)) left right) :
    Matches (List.Forall₂ after) (left.mapM f) (right.mapM g) := by
  induction h with
  | nil => exact .ok .nil
  | cons hfirst _ ih =>
    rw [List.mapM_cons, List.mapM_cons]
    exact hfirst.bind fun _ _ hhead => ih.bind fun _ _ htail => .ok (.cons hhead htail)

/-- Two runs over one list match if the runs over each of its elements do. The results at a place are
related as the runs over the element at that place relate them. -/
theorem mapM_places {f : α → Except ε β} {g : α → Except ε γ} {related : α → β → γ → Prop}
    {list : List α} (h : ∀ a ∈ list, Matches (related a) (f a) (g a)) :
    Matches (fun left right => left.length = list.length ∧ right.length = list.length ∧
        ∀ (i : Nat) (a : α), list[i]? = some a → ∃ b c, left[i]? = some b ∧ right[i]? = some c ∧ related a b c)
      (list.mapM f) (list.mapM g) := by
  induction list with
  | nil => exact .ok (by simp)
  | cons a list ih =>
    obtain ⟨hfirst, hrest⟩ := List.forall_mem_cons.mp h
    rw [List.mapM_cons, List.mapM_cons]
    refine hfirst.bind fun b c hhead => (ih hrest).bind fun left right htail => .ok ?_
    obtain ⟨hleft, hright, hplaces⟩ := htail
    refine ⟨congrArg (· + 1) hleft, congrArg (· + 1) hright, fun i other hother => ?_⟩
    -- The first elements are related by the first step, the others by those after it.
    cases i with
    | zero =>
      cases hother
      exact ⟨b, c, rfl, rfl, hhead⟩
    | succ i => exact hplaces i other hother

/-- Two loops whose steps keep a relation keep it throughout. -/
theorem foldlM {f : γ → α → Except ε γ} {g : δ → β → Except ε δ} {left : List α} {right : List β}
    (h : List.Forall₂ (fun a b => ∀ c d, after c d → Matches after (f c a) (g d b)) left right)
    {c : γ} {d : δ} (hstart : after c d) :
    Matches after (left.foldlM f c) (right.foldlM g d) := by
  induction h generalizing c d with
  | nil => exact .ok hstart
  | cons hfirst _ ih =>
    rw [List.foldlM_cons, List.foldlM_cons]
    exact (hfirst c d hstart).bind fun _ _ hnext => ih hnext

end Matches

/-! ## Exchanges -/

/-- Two placements are alike: both of no place, or the same. -/
inductive Placement.Alike : Placement → Placement → Prop where
  | skipped (raw other : Json) : Alike (.skipped raw) (.skipped other)
  | same (placement : Placement) : Alike placement placement

namespace Exchange

variable {scope other : Scope} {first second : Exchange}

def Alike (first second : Exchange) : Prop :=
  first.shapes = second.shapes

theorem Alike.slot (h : first.Alike second) (slot : Slot) : first.slot slot = second.slot slot := by
  simp only [Alike, shapes, List.cons.injEq] at h
  cases slot <;> simp [Exchange.slot, h]

theorem Alike.response (h : first.Alike second) : first.response = second.response := by
  simp only [Alike, shapes, List.cons.injEq] at h
  exact h.2.2.2.2.2.1

theorem Alike.withSlot (h : first.Alike second) (schema : Schema) (slot : Slot) :
    (first.withSlot schema slot).Alike (second.withSlot schema slot) := by
  simp only [Alike, shapes, List.cons.injEq] at h
  cases slot <;> simp [Alike, shapes, Exchange.withSlot, h]

/-- A parameter added to two exchanges that are alike leaves them alike. -/
theorem put_matches {placement following : Placement} (hplacement : placement.Alike following)
    (h : first.Alike second) : Matches Alike (first.put placement) (second.put following) := by
  cases hplacement with
  | skipped raw following => exact .ok h
  | same placement =>
    cases placement with
    | skipped raw => exact .ok h
    | body schema => exact .ok (h.withSlot schema .body)
    | property slot name schema =>
      simp only [put, h.slot slot]
      exact (Matches.refl _).bind_eq fun filled => .ok (h.withSlot filled slot)

/-- Two lists of parameters are alike in two scopes: their parameters are placed alike, one by
one. -/
def ParametersAlike (scope other : Scope) (list following : Json) : Prop :=
  Matches
    (List.Forall₂ fun raw next => Matches Placement.Alike (place scope raw) (place other next))
    (list.orElse (.array [])).elements (following.orElse (.array [])).elements

theorem addAll_matches {list following : Json} (hlist : ParametersAlike scope other list following)
    (h : first.Alike second) :
    Matches Alike (addAll scope first list) (addAll other second following) := by
  refine hlist.lift.bind fun parameters others hparameters => Matches.foldlM ?_ h
  refine hparameters.imp fun raw next hplace first second hsame => ?_
  exact hplace.bind fun _ _ hplacement => put_matches hplacement hsame

/-- The shape that a response or a request body describes, or another one where it is missing. -/
def contentOr (scope : Scope) (schema : Schema) (fragment : Json) : Except Error Schema :=
  if fragment.isNull then pure schema else Schema.ofContent scope fragment

theorem ofOperation_eq (members : Members) (shared : Json) :
    ofOperation scope (.object members) shared = (do
      let exchange ← addAll scope {} shared
      let exchange ← addAll scope exchange (Members.get members "parameters")
      let body ← contentOr scope exchange.body (Members.get members "requestBody")
      let success ← successResponse ((Members.get members "responses").orElse (.object []))
      let response ← contentOr scope exchange.response success
      return { exchange with body, response }) := by
  simp only [ofOperation, contentOr, Json.members, lift_ok, ok_bind]
  -- A choice between two computations goes on in the same way after either.
  refine bind_congr fun first => bind_congr fun exchange => ?_
  split <;> refine bind_congr fun body => bind_congr fun success => ?_ <;> split <;> rfl

/-- Two operations are analyzed alike if their parameters, bodies and responses are. -/
theorem ofOperation_matches {members following : Members} {shared others : Json}
    (hshared : ParametersAlike scope other shared others)
    (hparameters : ParametersAlike scope other (Members.get members "parameters")
      (Members.get following "parameters"))
    (hbody : ∀ schema, Matches Eq (contentOr scope schema (Members.get members "requestBody"))
      (contentOr other schema (Members.get following "requestBody")))
    (hresponse : Matches (fun success next => ∀ schema,
        Matches Eq (contentOr scope schema success) (contentOr other schema next))
      (successResponse ((Members.get members "responses").orElse (.object [])))
      (successResponse ((Members.get following "responses").orElse (.object [])))) :
    Matches Alike (ofOperation scope (.object members) shared)
      (ofOperation other (.object following) others) := by
  rw [ofOperation_eq, ofOperation_eq]
  -- Both exchanges hold the same shapes once the parameters are added; what they skipped may differ.
  have hempty : ({} : Exchange).Alike {} := rfl
  refine (addAll_matches hshared hempty).bind fun first second hfirst => ?_
  refine (addAll_matches hparameters hfirst).bind fun exchange following hexchange => ?_
  rw [show exchange.body = following.body from hexchange.slot .body, hexchange.response]
  refine (hbody _).bind_eq fun body => hresponse.lift.bind fun success next hsuccess => ?_
  refine (hsuccess _).bind_eq fun response => .ok ?_
  simp only [Alike, shapes, List.cons.injEq] at hexchange ⊢
  simp [hexchange]

end Exchange

/-! ## Generated files -/

structure Operation.Alike (first second : Operation) : Prop where
  path : first.path = second.path
  method : first.method = second.method
  exchange : first.exchange.Alike second.exchange

theorem Operation.Alike.blocks {first second : Operation} (h : first.Alike second) :
    first.blocks = second.blocks := by
  have hshapes := h.exchange
  simp only [Exchange.Alike, Exchange.shapes, List.cons.injEq] at hshapes
  simp [Operation.blocks, Operation.groups, Operation.request?, Operation.typeStem, h.path,
    h.method, hshapes]

theorem Operation.map_blocks {first second : List Operation}
    (h : List.Forall₂ Alike first second) : first.map blocks = second.map blocks := by
  rw [← List.forall₂_eq_eq_eq, List.forall₂_map_left_iff, List.forall₂_map_right_iff]
  exact h.imp fun _ _ hsame => hsame.blocks

theorem Analysis.ofRawOperation_matches {scope other : Scope} {raw following : RawOperation}
    (hpath : raw.path = following.path) (hmethod : raw.method = following.method)
    (hexchange : Matches Exchange.Alike
      (Exchange.ofOperation scope (.object raw.members) raw.shared)
      (Exchange.ofOperation other (.object following.members) following.shared)) :
    Matches Operation.Alike (ofRawOperation scope (.ok raw)) (ofRawOperation other (.ok following)) :=
  hexchange.bind fun _ _ hsame => .ok ⟨hpath, hmethod, hsame⟩

structure Analysis.Alike (first second : Analysis) : Prop where
  definitions : first.definitions = second.definitions
  operations : List.Forall₂ Operation.Alike first.operations second.operations

/-- Two documents are analyzed alike if their definitions and operations are. -/
theorem Analysis.ofDocument_matches {document other : Document} {table others : Members}
    (htable : document.definitions = .ok (.object table))
    (hothers : other.definitions = .ok (.object others))
    (hdefinitions : Matches Eq (ofDefinitions ⟨document, table.map (·.1)⟩ table)
      (ofDefinitions ⟨other, others.map (·.1)⟩ others))
    (hoperations : Matches (List.Forall₂ Operation.Alike)
      (document.operations.mapM (ofRawOperation ⟨document, table.map (·.1)⟩))
      (other.operations.mapM (ofRawOperation ⟨other, others.map (·.1)⟩))) :
    Matches Alike (ofDocument document) (ofDocument other) := by
  simp only [ofDocument, Scope.ofDocument_table htable, Scope.ofDocument_table hothers, htable,
    hothers, lift_ok, ok_bind, Json.members]
  exact hdefinitions.bind_eq fun definitions => hoperations.bind fun _ _ hsame => .ok ⟨rfl, hsame⟩

theorem Analysis.Alike.blocks {first second : Analysis} (h : first.Alike second) :
    first.blocks = second.blocks := by
  rw [Analysis.blocks, Analysis.blocks, h.definitions, List.flatMap_def, List.flatMap_def,
    Operation.map_blocks h.operations]

theorem Generation.ofAnalysis_congr {first second : Analysis} (h : first.blocks = second.blocks)
    (settings : Settings) (commandLine : String) (session : Session) :
    ofAnalysis settings commandLine session first =
      ofAnalysis settings commandLine session second := by
  simp only [ofAnalysis, code, texts, h]

end ApiTypes
