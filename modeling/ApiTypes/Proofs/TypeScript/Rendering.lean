import ApiTypes.Proofs.Schema.Legible
import ApiTypes.TypeScript.Declaration

/-!
# Rendering does not fail

A shape whose literals are of one kind at every depth has a declaration, unless a description or the
name of a property is no text; that is no reported error but the misuse of a malformed value.
-/

namespace ApiTypes

/-- An outcome that fails only at a malformed value, and not at all where `clean` holds. -/
def FailsOnMalformed {α : Type} (clean : Prop) (outcome : Except Error α) : Prop :=
  ∀ error, outcome = .error error → ¬clean ∧ ∃ cause, error = .malformed cause

namespace FailsOnMalformed

variable {α β : Type} {clean : Prop}

theorem ok (a : α) : FailsOnMalformed clean (.ok a) :=
  fun _ h => nomatch h

theorem exists_ok {outcome : Except Error α} (h : FailsOnMalformed clean outcome)
    (hclean : clean) : ∃ a, outcome = .ok a := by
  cases outcome with
  | ok a => exact ⟨a, rfl⟩
  | error error => exact absurd hclean (h error rfl).1

/-- Steps that fail only on what is malformed do so in succession. -/
theorem bind {outcome : Except Error α} {next : α → Except Error β}
    (h : FailsOnMalformed clean outcome)
    (hnext : ∀ a, outcome = .ok a → FailsOnMalformed clean (next a)) :
    FailsOnMalformed clean (outcome >>= next) := by
  cases outcome with
  | ok a => exact hnext a rfl
  | error error =>
    intro other hother
    cases hother
    exact h error rfl

theorem lift {outcome : Except Malformed α} (h : clean → ∃ a, outcome = .ok a) :
    FailsOnMalformed clean (liftM outcome) := by
  cases outcome with
  | ok a => exact ok a
  | error cause =>
    intro error herror
    cases herror
    refine ⟨fun hclean => ?_, cause, rfl⟩
    obtain ⟨_, hok⟩ := h hclean
    cases hok

theorem mapM {f : α → Except Error β} {list : List α}
    (h : ∀ a ∈ list, FailsOnMalformed clean (f a)) : FailsOnMalformed clean (list.mapM f) := by
  induction list with
  | nil => exact ok []
  | cons a list ih =>
    obtain ⟨hfirst, hrest⟩ := List.forall_mem_cons.mp h
    rw [List.mapM_cons]
    exact hfirst.bind fun _ _ => (ih hrest).bind fun _ _ => ok _

end FailsOnMalformed

namespace TypeScript

open Schema

variable {clean : Prop}

/-! ## Literals -/

/-- Literals of one kind are of one type in the sense of the output. -/
theorem literalType_eq {kind : Kind} {first second : Json} (hfirst : Kind.ofLiteral first = .ok kind)
    (hsecond : Kind.ofLiteral second = .ok kind) :
    LiteralType.ofJson first = LiteralType.ofJson second := by
  cases first <;> cases hfirst <;> cases second <;> cases hsecond <;> rfl

/-- Literals of one kind pass the check. -/
theorem checkLiterals_eq_ok {schema : Schema} (h : schema.Uniform) :
    checkLiterals schema.enumValues = .ok () := by
  obtain ⟨kind, hkind⟩ := h
  cases hvalues : schema.enumValues with
  | nil => rfl
  | cons first rest =>
    rw [hvalues] at hkind
    obtain ⟨hfirst, hrest⟩ := List.forall_mem_cons.mp hkind
    have hall : (rest.map LiteralType.ofJson).all (· == LiteralType.ofJson first) = true := by
      simp only [List.all_map, List.all_eq_true, Function.comp_apply, beq_iff_eq]
      exact fun value hvalue => literalType_eq (hrest value hvalue) hfirst
    rw [checkLiterals, List.map_cons]
    exact if_pos hall

theorem exists_literal {kind : Kind} {value : Json} (h : Kind.ofLiteral value = .ok kind) :
    ∃ text, literal value = .ok text := by
  cases value <;> cases h <;> exact ⟨_, rfl⟩

theorem exists_memberName {kind : Kind} {value : Json} (h : Kind.ofLiteral value = .ok kind) :
    ∃ name, memberName value = .ok name := by
  cases value <;> cases h <;> exact ⟨_, rfl⟩

theorem literals_rendered {schema : Schema} (h : schema.Uniform) :
    FailsOnMalformed clean (schema.enumValues.mapM literal) := by
  obtain ⟨kind, hkind⟩ := h
  refine .mapM fun value hvalue => ?_
  obtain ⟨text, htext⟩ := exists_literal (hkind value hvalue)
  exact htext ▸ .ok text

theorem primitiveText_rendered {schema : Schema} (h : schema.Uniform) (kind : Kind) :
    FailsOnMalformed clean (primitiveText kind schema.enumValues) := by
  unfold primitiveText
  split
  · exact .ok _
  · rw [checkLiterals_eq_ok h]
    exact (literals_rendered h).bind fun _ _ => .ok _

theorem enumMembers_rendered {schema : Schema} (h : schema.Uniform) :
    FailsOnMalformed clean (enumMembers schema.enumValues) := by
  obtain ⟨kind, hkind⟩ := h
  refine .bind (.mapM fun value hvalue => ?_) fun _ _ => .ok _
  obtain ⟨name, hname⟩ := exists_memberName (hkind value hvalue)
  obtain ⟨text, htext⟩ := exists_literal (hkind value hvalue)
  rw [hname, htext]
  exact .ok _

/-! ## Types -/

/-- What a shape needs for its properties to be rendered beside the types of these. -/
def Legible (schema : Schema) : Prop :=
  schema.TextDescription ∧ schema.TextKeys

theorem commentLines_rendered {schema : Schema} (h : clean → schema.TextDescription) :
    FailsOnMalformed clean (liftM (commentLines schema.deprecated schema.description)) := by
  refine .lift fun hclean => ?_
  obtain ⟨text, htext⟩ := h hclean
  unfold commentLines
  rw [htext]
  split
  · exact ⟨_, rfl⟩
  · split <;> exact ⟨_, rfl⟩

theorem keyText_rendered {key : PropertyName} (h : clean → ∃ name, key = .text name) :
    FailsOnMalformed clean (liftM (keyText key)) := by
  refine .lift fun hclean => ?_
  obtain ⟨name, rfl⟩ := h hclean
  exact ⟨_, rfl⟩

theorem elementsText_rendered {items : Option Schema} {depth : Int}
    (h : ∀ item ∈ items, FailsOnMalformed clean (typeText depth item)) :
    FailsOnMalformed clean (elementsText depth items) := by
  cases items with
  | none => exact .ok _
  | some item => exact (h item rfl).bind fun _ _ => .ok _

theorem indexFields_rendered {additional : Option Schema} {depth : Int}
    (h : ∀ rest ∈ additional, FailsOnMalformed clean (typeText depth rest)) :
    FailsOnMalformed clean (indexFields depth additional) := by
  cases additional with
  | none => exact .ok _
  | some rest => exact (h rest rfl).bind fun _ _ => .ok _

theorem propertyFields_rendered {table : Properties} {depth : Int}
    (hkeys : clean → ∀ entry ∈ table, ∃ name, entry.1 = .text name)
    (hdescriptions : clean → ∀ entry ∈ table, entry.2.TextDescription)
    (htypes : ∀ entry ∈ table, FailsOnMalformed clean (typeText depth entry.2)) :
    FailsOnMalformed clean (propertyFields depth table) := by
  induction table with
  | nil => exact .ok _
  | cons entry table ih =>
    obtain ⟨name, schema⟩ := entry
    have htable := ih (fun hclean entry hmem => hkeys hclean entry (List.mem_cons_of_mem _ hmem))
      (fun hclean entry hmem => hdescriptions hclean entry (List.mem_cons_of_mem _ hmem))
      (fun entry hmem => htypes entry (List.mem_cons_of_mem _ hmem))
    have hcomments := commentLines_rendered
      fun hclean => hdescriptions hclean (name, schema) List.mem_cons_self
    have hkey := keyText_rendered fun hclean => hkeys hclean (name, schema) List.mem_cons_self
    have htype := htypes (name, schema) List.mem_cons_self
    exact hcomments.bind fun _ _ => hkey.bind fun _ _ => htype.bind fun _ _ =>
      htable.bind fun _ _ => .ok _

theorem ownFields_rendered {schema : Schema} {depth : Int}
    (hlegible : clean → Everywhere Legible schema)
    (htypes : ∀ entry ∈ schema.properties, FailsOnMalformed clean (typeText depth entry.2)) :
    FailsOnMalformed clean (propertyFields depth schema.properties) :=
  propertyFields_rendered (fun hclean => (hlegible hclean).here.2)
    (fun hclean entry hmem => ((hlegible hclean).properties entry hmem).here.1) htypes

/-- A legible shape has a text: by induction over the shape. -/
theorem typeText_rendered {schema : Schema} (huniform : Everywhere Uniform schema)
    (hlegible : clean → Everywhere Legible schema) (depth : Int) :
    FailsOnMalformed clean (typeText depth schema) := by
  induction schema using Schema.induct generalizing depth with
  | step schema ihItems ihProperties ihAdditional =>
    have hitems : ∀ item ∈ schema.items, ∀ depth, FailsOnMalformed clean (typeText depth item) :=
      fun item hmem => ihItems item hmem (huniform.items item hmem)
        fun hclean => (hlegible hclean).items item hmem
    have hproperties : ∀ entry ∈ schema.properties, ∀ depth,
        FailsOnMalformed clean (typeText depth entry.2) :=
      fun entry hmem => ihProperties entry hmem (huniform.properties entry hmem)
        fun hclean => (hlegible hclean).properties entry hmem
    have hadditional : ∀ rest ∈ schema.additional, ∀ depth,
        FailsOnMalformed clean (typeText depth rest) :=
      fun rest hmem => ihAdditional rest hmem (huniform.additional rest hmem)
        fun hclean => (hlegible hclean).additional rest hmem
    -- Fields stand one step further in, so that what is said of the parts is said for every depth.
    have hfields := fun depth =>
      ownFields_rendered hlegible fun entry hmem => hproperties entry hmem depth
    have hprimitive : ∀ kind, FailsOnMalformed clean (primitiveText kind schema.enumValues) :=
      primitiveText_rendered huniform.here
    obtain ⟨kind, _⟩ := schema
    unfold typeText
    cases kind
    case reference => exact .ok _
    case array =>
      exact (elementsText_rendered fun item hmem => hitems item hmem depth).bind fun _ _ => .ok _
    case object =>
      have hindex := indexFields_rendered fun rest hmem => hadditional rest hmem (depth + 1)
      exact (hfields _).bind fun _ _ => hindex.bind fun _ _ => .ok _
    case empty => exact .ok _
    all_goals exact (hprimitive _).bind fun _ _ => .ok _

/-! ## Declarations -/

variable {schema : Schema}

theorem interfaceFields?_rendered (huniform : Everywhere Uniform schema)
    (hlegible : clean → Everywhere Legible schema) :
    FailsOnMalformed clean (interfaceFields? schema) := by
  have htypes : ∀ {inner}, Everywhere Uniform inner → (clean → Everywhere Legible inner) →
      FailsOnMalformed clean (typeText 1 inner) :=
    fun hinner hclean => typeText_rendered hinner hclean 1
  have hproperties := ownFields_rendered hlegible fun entry hmem =>
    htypes (huniform.properties entry hmem) fun hclean => (hlegible hclean).properties entry hmem
  have hindex := indexFields_rendered fun rest hmem => htypes (huniform.additional rest hmem)
    fun hclean => (hlegible hclean).additional rest hmem
  unfold interfaceFields?
  split
  · have hfields : FailsOnMalformed clean (fields 1 schema) :=
      hproperties.bind fun _ _ => hindex.bind fun _ _ => .ok _
    exact hfields.bind fun _ _ => .ok _
  · exact .ok _

theorem isEnumeration_rendered (h : schema.Uniform) (emitEnums : Bool) :
    FailsOnMalformed clean (isEnumeration emitEnums schema) := by
  unfold isEnumeration
  split
  · exact .ok _
  · rw [checkLiterals_eq_ok h]
    exact .ok _

/-- A legible declaration has a text. -/
theorem declaration_rendered (huniform : Everywhere Uniform schema)
    (hlegible : clean → Everywhere Legible schema) (emitEnums : Bool) (name : String) :
    FailsOnMalformed clean (declaration emitEnums schema name) := by
  refine (interfaceFields?_rendered huniform hlegible).bind fun fields _ => ?_
  cases fields with
  | some fields => exact .ok _
  | none =>
    refine (isEnumeration_rendered huniform.here emitEnums).bind fun enumerated _ => ?_
    cases enumerated with
    | true => exact (enumMembers_rendered huniform.here).bind fun _ _ => .ok _
    | false => exact (typeText_rendered huniform hlegible 0).bind fun _ _ => .ok _

end TypeScript

end ApiTypes
