import ApiTypes.Proofs.Schema.Respelled
import ApiTypes.Proofs.TwoRuns

/-!
# Locality

The text of a definition depends on its fragment and on the names of the definitions, but not on any
other definition. The texts of an operation depend on how it is written, on these names, and on the
sections of shared parameters, responses and request bodies.
-/

namespace ApiTypes

namespace Document

/-- The section of shared objects that the references under a root point into. -/
def sharedSection (document : Document) (root : String) : Json :=
  descend (.object document.members) (rootSegments root)

/-- Two descriptions have the same sections of shared parameters, responses and request bodies. -/
def SharesWith (document other : Document) : Prop :=
  ∀ root ∈ [document.dialect.parametersRoot, document.dialect.responsesRoot] ++
      document.dialect.requestBodiesRoot.toList,
    other.sharedSection root = document.sharedSection root

theorem lookupShared_eq {document other : Document} {root : String}
    (h : other.sharedSection root = document.sharedSection root) (target : String) :
    other.lookupShared target (some root) = document.lookupShared target (some root) := by
  rw [sharedSection, sharedSection] at h
  simp only [lookupShared, h]

end Document

/-! ## A description with other definitions -/

theorem Members.get_insert (name : String) (value : Json) (members : Members) (sought : String) :
    Members.get (Members.insert name value members) sought =
      if sought = name then value else Members.get members sought := by
  induction members with
  | nil =>
    by_cases hsought : sought = name
    · simp [Members.insert, Members.get, hsought]
    · simp [Members.insert, Members.get, List.lookup_cons, beq_false_of_ne hsought, hsought]
  | cons member members ih =>
    obtain ⟨first, old⟩ := member
    simp only [Members.get] at ih
    -- The sought name may stand first, and so may the new one.
    by_cases hsame : sought = first
    · by_cases hfirst : first = name <;> simp [Members.insert, Members.get, hsame, hfirst]
    · by_cases hfirst : first = name
      · subst hfirst
        simp [Members.insert, Members.get, List.lookup_cons, beq_false_of_ne hsame, hsame]
      · simp [Members.insert, Members.get, List.lookup_cons, beq_false_of_ne hsame, hfirst, ih]

/-- Where one member is set, the others stay at their places. -/
theorem Members.getElem?_insert {name : String} {value : Json} {members : Members} {i : Nat}
    {member : String × Json} (h : members[i]? = some member) (hname : member.1 ≠ name) :
    (Members.insert name value members)[i]? = some member := by
  induction members generalizing i with
  | nil => cases h
  | cons first members ih =>
    obtain ⟨found, old⟩ := first
    cases i with
    | zero =>
      cases h
      rw [Members.insert, if_neg hname]
      rfl
    | succ i =>
      rw [Members.insert]
      split
      · exact h
      · exact ih h

namespace Document

/-- The shared objects of one dialect by their sections. -/
def components (document : Document) : Members :=
  match Members.get document.members "components" with
  | .object sections => sections
  | _ => []

def withDefinitions (document : Document) (table : Members) : Document :=
  match document.dialect with
  | .swagger2 =>
    { document with members := Members.insert "definitions" (.object table) document.members }
  | .openapi3 =>
    { document with
      members := Members.insert "components"
        (.object (Members.insert "schemas" (.object table) document.components))
        document.members }

variable (document : Document) (table : Members)

theorem dialect_withDefinitions :
    (document.withDefinitions table).dialect = document.dialect := by
  unfold withDefinitions
  split <;> rfl

theorem get_withDefinitions {name : String} (hdefinitions : name ≠ "definitions")
    (hcomponents : name ≠ "components") :
    Members.get (document.withDefinitions table).members name =
      Members.get document.members name := by
  unfold withDefinitions
  split <;> simp [Members.get_insert, hdefinitions, hcomponents]

theorem definitions_withDefinitions :
    (document.withDefinitions table).definitions = .ok (.object table) := by
  obtain ⟨dialect, members⟩ := document
  cases dialect with
  | swagger2 => simp [definitions, withDefinitions, Members.get_insert, Json.orElse_object]
  | openapi3 =>
    simp [definitions, withDefinitions, Members.get_insert, Json.orElse_object, Json.members]

theorem operations_withDefinitions :
    (document.withDefinitions table).operations = document.operations := by
  have hpaths : (document.withDefinitions table).paths = document.paths := by
    rw [paths, paths, get_withDefinitions document table (by decide) (by decide)]
  rw [operations, operations, hpaths, dialect_withDefinitions]

/-- Replacing the table of definitions leaves the shared sections of a document alone. -/
theorem sharesWith_withDefinitions : document.SharesWith (document.withDefinitions table) := by
  obtain ⟨dialect, members⟩ := document
  -- The sections stand beside the table, in one dialect below the components as the table does.
  cases dialect with
  | swagger2 =>
    have hparameters : rootSegments "#/parameters/" = ["parameters"] := by decide +kernel
    have hresponses : rootSegments "#/responses/" = ["responses"] := by decide +kernel
    simp [SharesWith, Dialect.parametersRoot, Dialect.responsesRoot, Dialect.requestBodiesRoot,
      sharedSection, hparameters, hresponses, descend, withDefinitions, Members.get_insert]
  | openapi3 =>
    have hparameters : rootSegments "#/components/parameters/" = ["components", "parameters"] := by
      decide +kernel
    have hresponses : rootSegments "#/components/responses/" = ["components", "responses"] := by
      decide +kernel
    have hbodies : rootSegments "#/components/requestBodies/" = ["components", "requestBodies"] := by
      decide +kernel
    have hsection : ∀ name, name ≠ "schemas" →
        descend (.object (withDefinitions ⟨.openapi3, members⟩ table).members) ["components", name] =
          descend (.object members) ["components", name] := by
      intro name hname
      simp only [withDefinitions, components, descend, Members.get_insert, if_true]
      cases Members.get members "components" <;> simp [Members.get, hname]
    simp [SharesWith, Dialect.parametersRoot, Dialect.responsesRoot, Dialect.requestBodiesRoot,
      sharedSection, hparameters, hresponses, hbodies, hsection]

end Document

/-! ## What a scope is asked for -/

namespace Scope

/-- Two scopes have one dialect and the names of the same definitions. -/
structure SameNames (scope other : Scope) : Prop where
  dialect : other.dialect = scope.dialect
  names : ∀ name, name ∈ other.names ↔ name ∈ scope.names

/-- Two scopes also have the same shared objects. -/
structure Interchangeable (scope other : Scope) : Prop extends SameNames scope other where
  shared : scope.document.SharesWith other.document

variable {scope other : Scope}

/-- A reference is resolved by the names of the definitions alone, never by their bodies. -/
theorem SameNames.resolve (h : SameNames scope other) (target : String) :
    other.resolve target = scope.resolve target := by
  simp only [Scope.resolve, h.dialect, h.names]

theorem Interchangeable.parameter? (h : Interchangeable scope other) (target : String) :
    other.parameter? target = scope.parameter? target := by
  rw [Scope.parameter?, Scope.parameter?, h.dialect]
  exact Document.lookupShared_eq (h.shared _ (by simp [Scope.dialect])) target

/-- The content of a shared response is the same in both documents. -/
theorem Interchangeable.content (h : Interchangeable scope other) (target : String) :
    other.content target = scope.content target := by
  have hresponses : other.document.lookupShared target (some scope.dialect.responsesRoot) =
      scope.document.lookupShared target (some scope.dialect.responsesRoot) :=
    Document.lookupShared_eq (h.shared _ (by simp [Scope.dialect])) target
  -- Only one of the dialects has a section of request bodies.
  have hbodies : other.document.lookupShared target scope.dialect.requestBodiesRoot =
      scope.document.lookupShared target scope.dialect.requestBodiesRoot := by
    cases hroot : scope.dialect.requestBodiesRoot with
    | none => rfl
    | some root =>
      have hmem : root ∈ scope.document.dialect.requestBodiesRoot.toList :=
        Option.mem_toList.mpr hroot
      exact Document.lookupShared_eq (h.shared root (List.mem_append_right _ hmem)) target
  rw [Scope.content, Scope.content, h.dialect, hresponses, hbodies]

end Scope

/-! ## What is built in two scopes -/

section Built

variable {scope other : Scope}

/-- A fragment is built to one shape wherever the definitions have the same names. -/
theorem Schema.ofFragment_matches (h : Scope.SameNames scope other) (fragment : Json) :
    Matches Eq (ofFragment scope fragment) (ofFragment other fragment) := by
  -- The fragment keeps its spelling; it is the scope that changes.
  refine Matches.eq_iff.mpr fun schema => ?_
  have hsame : ofFragment other (Fragment.respelled id fragment) = .ok schema ↔
      ofFragment scope fragment = .ok schema :=
    ofFragment_respelled fragment (fun _ _ target _ schema => by rw [id, h.resolve]) schema
  rw [Fragment.respelled_id] at hsame
  exact hsame.symm

variable (h : Scope.Interchangeable scope other)
include h

theorem Schema.ofParameter_matches (fragment : Json) :
    Matches Eq (ofParameter scope fragment) (ofParameter other fragment) := by
  have hmembers : parameterMembers other fragment = parameterMembers scope fragment := by
    simp only [parameterMembers, h.parameter?]
  rw [ofParameter, ofParameter, hmembers]
  exact (Matches.refl _).bind_eq fun members =>
    (ofFragment_matches h.toSameNames _).bind_eq fun schema => .refl _

theorem Schema.ofContent_matches (fragment : Json) :
    Matches Eq (ofContent scope fragment) (ofContent other fragment) := by
  have hmembers : contentMembers other fragment = contentMembers scope fragment := by
    simp only [contentMembers, h.content]
  rw [ofContent, ofContent, hmembers, h.dialect]
  refine (Matches.refl _).bind_eq fun members => (Matches.refl _).bind_eq fun schema => ?_
  split
  · exact .refl _
  · exact ofFragment_matches h.toSameNames schema

namespace Exchange

theorem place_matches (raw : Json) :
    Matches Placement.Alike (place scope raw) (place other raw) := by
  have hdestination : destination other raw = destination scope raw := by
    simp only [destination, resolved, h.parameter?]
  rw [place, place, hdestination]
  refine (Matches.refl _).bind_eq fun found => ?_
  cases found with
  | none => exact .ok (.same _)
  | some found =>
    exact (Schema.ofParameter_matches h _).bind_eq fun schema => .ok (.same _)

theorem parametersAlike (list : Json) : ParametersAlike scope other list list := by
  refine (Matches.refl _).imp ?_
  rintro parameters _ rfl
  exact List.forall₂_same.mpr fun raw _ => place_matches h raw

theorem contentOr_matches (schema : Schema) (fragment : Json) :
    Matches Eq (contentOr scope schema fragment) (contentOr other schema fragment) := by
  unfold contentOr
  split
  · exact .refl _
  · exact Schema.ofContent_matches h fragment

end Exchange

theorem Analysis.ofRawOperation_alike (raw : Except Malformed RawOperation) :
    Matches Operation.Alike (ofRawOperation scope raw) (ofRawOperation other raw) := by
  cases raw with
  | error cause => exact .error _ _
  | ok raw => ?_
  refine ofRawOperation_matches rfl rfl (Exchange.ofOperation_matches
    (Exchange.parametersAlike h _) (Exchange.parametersAlike h _)
    (fun schema => Exchange.contentOr_matches h schema _) ?_)
  refine (Matches.refl _).imp ?_
  rintro success _ rfl schema
  exact Exchange.contentOr_matches h schema success

end Built

/-! ## The texts of a generated file -/

namespace Analysis

variable {document other : Document} {table others : Members} {first second : Analysis}

/-- The text of every definition, in their order. -/
def definitionTexts (settings : Settings) (analysis : Analysis) : List (Except Error String) :=
  analysis.definitions.map fun (name, schema) =>
    Block.text settings.emitEnums.isTruthy (.declaration name schema)

def operationTexts (settings : Settings) (analysis : Analysis) :
    List (List (Except Error String)) :=
  analysis.operations.map fun operation =>
    operation.blocks.map (Block.text settings.emitEnums.isTruthy)

/-- The generated file is made up of the texts of the definitions and those of the operations. -/
theorem texts_eq (settings : Settings) (analysis : Analysis) :
    Generation.texts settings analysis =
      (analysis.definitionTexts settings ++ (analysis.operationTexts settings).flatten).mapM id := by
  have htexts : analysis.definitionTexts settings ++ (analysis.operationTexts settings).flatten =
      analysis.blocks.map (Block.text settings.emitEnums.isTruthy) := by
    simp only [definitionTexts, operationTexts, blocks, List.map_append, List.map_map,
      List.flatMap_def, List.map_flatten]
    rfl
  rw [htexts, Generation.texts, List.mapM_map]
  rfl

section TwoDescriptions

variable (hdialect : other.dialect = document.dialect)
  (htable : document.definitions = .ok (.object table))
  (hothers : other.definitions = .ok (.object others))
  (hnames : ∀ name, name ∈ others.map (·.1) ↔ name ∈ table.map (·.1))
  (hfirst : ofDocument document = .ok first) (hsecond : ofDocument other = .ok second)
include hdialect htable hothers hnames hfirst hsecond

/-- Two definitions of one name and fragment have the same text. -/
theorem definitionTexts_congr (settings : Settings) {i j : Nat} {entry : String × Json}
    (hi : table[i]? = some entry) (hj : others[j]? = some entry) :
    ∃ text, (first.definitionTexts settings)[i]? = some text ∧
      (second.definitionTexts settings)[j]? = some text := by
  obtain ⟨hdefinitions, _⟩ := parts_of_table htable hfirst
  obtain ⟨hfollowing, _⟩ := parts_of_table hothers hsecond
  obtain ⟨definition, hdefinition, schema, hschema, rfl⟩ :=
    getElem?_of_forall₂ (ofDefinitions_eq_ok.mp hdefinitions) hi
  obtain ⟨definition, hnext, shape, hshape, rfl⟩ :=
    getElem?_of_forall₂ (ofDefinitions_eq_ok.mp hfollowing) hj
  have hscopes : Scope.SameNames ⟨document, table.map (·.1)⟩ ⟨other, others.map (·.1)⟩ :=
    ⟨hdialect, hnames⟩
  -- A shape depends on the names of the definitions only.
  obtain ⟨_, hsame, rfl⟩ := (Schema.ofFragment_matches hscopes entry.2).exists_ok hschema
  cases hsame.symm.trans hshape
  refine ⟨Block.text settings.emitEnums.isTruthy (.declaration entry.1 schema), ?_, ?_⟩
  · rw [definitionTexts, List.getElem?_map, hdefinition, Option.map_some]
  · rw [definitionTexts, List.getElem?_map, hnext, Option.map_some]

/-- Two operations that are written alike have the same texts, if the descriptions also have the same
sections of shared objects. -/
theorem operationTexts_congr (hshared : document.SharesWith other) (settings : Settings) {i j : Nat}
    {raw : RawOperation} (hi : document.operations[i]? = some (.ok raw))
    (hj : other.operations[j]? = some (.ok raw)) :
    ∃ texts, (first.operationTexts settings)[i]? = some texts ∧
      (second.operationTexts settings)[j]? = some texts := by
  obtain ⟨_, hoperations⟩ := parts_of_table htable hfirst
  obtain ⟨_, hfollowing⟩ := parts_of_table hothers hsecond
  obtain ⟨operation, hoperation, hbuilt⟩ := getElem?_of_forall₂ (mapM_eq_ok.mp hoperations) hi
  obtain ⟨following, hnext, hother⟩ := getElem?_of_forall₂ (mapM_eq_ok.mp hfollowing) hj
  have hscopes : Scope.Interchangeable ⟨document, table.map (·.1)⟩ ⟨other, others.map (·.1)⟩ :=
    ⟨⟨hdialect, hnames⟩, hshared⟩
  obtain ⟨_, hsame, halike⟩ := (ofRawOperation_alike hscopes (.ok raw)).exists_ok hbuilt
  cases hsame.symm.trans hother
  refine ⟨operation.blocks.map (Block.text settings.emitEnums.isTruthy), ?_, ?_⟩
  · rw [operationTexts, List.getElem?_map, hoperation, Option.map_some]
  · rw [operationTexts, List.getElem?_map, hnext, Option.map_some, halike.blocks]

/-- The texts of the operations are the same for both documents. -/
theorem operationTexts_eq (hshared : document.SharesWith other)
    (hoperations : other.operations = document.operations) (settings : Settings) :
    first.operationTexts settings = second.operationTexts settings := by
  obtain ⟨_, hbuilt⟩ := parts_of_table htable hfirst
  obtain ⟨_, hfollowing⟩ := parts_of_table hothers hsecond
  have hscopes : Scope.Interchangeable ⟨document, table.map (·.1)⟩ ⟨other, others.map (·.1)⟩ :=
    ⟨⟨hdialect, hnames⟩, hshared⟩
  have hmatches := Matches.mapM (List.forall₂_same.mpr fun raw (_ : raw ∈ document.operations) =>
    ofRawOperation_alike hscopes raw)
  obtain ⟨_, hsame, halike⟩ := hmatches.exists_ok hbuilt
  rw [hoperations, hsame] at hfollowing
  cases hfollowing
  have hblocks := congrArg (List.map (List.map (Block.text settings.emitEnums.isTruthy)))
    (Operation.map_blocks halike)
  rwa [List.map_map, List.map_map] at hblocks

/-- Where two descriptions have definitions of the same names, the definitions that they have in
common have the same texts, and so do the operations that they have in common, if the sections of
shared objects are the same. Another fragment for one definition leaves all other texts as they
are. A file is made up of these texts. -/
theorem texts_local (settings : Settings) :
    (∀ (i j : Nat) (entry : String × Json), table[i]? = some entry → others[j]? = some entry →
      ∃ text, (first.definitionTexts settings)[i]? = some text ∧
        (second.definitionTexts settings)[j]? = some text) ∧
    (document.SharesWith other → ∀ (i j : Nat) (raw : RawOperation),
      document.operations[i]? = some (.ok raw) → other.operations[j]? = some (.ok raw) →
        ∃ texts, (first.operationTexts settings)[i]? = some texts ∧
          (second.operationTexts settings)[j]? = some texts) ∧
    (∀ name body, other = document.withDefinitions (Members.insert name body table) →
      (∀ (i : Nat) (entry : String × Json), table[i]? = some entry → entry.1 ≠ name →
        ∃ text, (first.definitionTexts settings)[i]? = some text ∧
          (second.definitionTexts settings)[i]? = some text) ∧
      first.operationTexts settings = second.operationTexts settings) ∧
    ∀ analysis ∈ [first, second], Generation.texts settings analysis =
      (analysis.definitionTexts settings ++ (analysis.operationTexts settings).flatten).mapM id := by
  refine ⟨fun i j entry => definitionTexts_congr hdialect htable hothers hnames hfirst hsecond settings,
    fun hshared i j raw => operationTexts_congr hdialect htable hothers hnames hfirst hsecond hshared
      settings, ?_, fun analysis _ => texts_eq settings analysis⟩
  -- A name that the table has already keeps its place in it, and so do all others.
  rintro name body rfl
  rw [Document.definitions_withDefinitions] at hothers
  cases hothers
  refine ⟨fun i entry hi hname => ?_, ?_⟩
  · exact definitionTexts_congr hdialect htable (Document.definitions_withDefinitions _ _) hnames
      hfirst hsecond settings hi (Members.getElem?_insert hi hname)
  · exact operationTexts_eq hdialect htable (Document.definitions_withDefinitions _ _) hnames hfirst
      hsecond (document.sharesWith_withDefinitions _) (document.operations_withDefinitions _)
      settings

end TwoDescriptions

/-- The definitions of a description in which one refers to another. -/
def shopDefinitions : Members :=
  [("Pet", .object [("properties", .object [("tag", .object [
      ("$ref", .string "#/definitions/Tag")])])]),
    ("Tag", .object [("type", .string "string")])]

def shop : Document where
  dialect := .swagger2
  members := [
    ("definitions", .object shopDefinitions),
    ("parameters", .object [("Limit", .object [("name", .string "limit"), ("in", .string "query"),
      ("type", .string "integer")])]),
    ("paths", .object [("/pets", .object [("get", .object [
      ("parameters", .array [.object [("$ref", .string "#/parameters/Limit")]]),
      ("responses", .object [("200", .object [
        ("schema", .object [("$ref", .string "#/definitions/Pet")])])])])])])]

/-- The same description, but tags are numbers. -/
def renumberedShop : Document :=
  shop.withDefinitions
    (Members.insert "Tag" (.object [("type", .string "integer")]) shopDefinitions)

/-- The theorem where the text of one definition does change. -/
theorem texts_local_shop :
    ∃ first second, ofDocument shop = .ok first ∧ ofDocument renumberedShop = .ok second ∧
      (first.definitionTexts {})[1]?.map Except.toOption = some (some "export type Tag = string;") ∧
      (second.definitionTexts {})[1]?.map Except.toOption = some (some "export type Tag = number;") ∧
      (∃ text, (first.definitionTexts {})[0]? = some text ∧
        (second.definitionTexts {})[0]? = some text) ∧
      first.operationTexts {} = second.operationTexts {} := by
  have hshop : ((fun analysis : Analysis =>
      (analysis.definitionTexts {})[1]?.map Except.toOption) <$> ofDocument shop).toOption =
        some (some (some "export type Tag = string;")) := by
    decide +kernel
  have hother : ((fun analysis : Analysis =>
      (analysis.definitionTexts {})[1]?.map Except.toOption) <$> ofDocument renumberedShop).toOption =
        some (some (some "export type Tag = number;")) := by
    decide +kernel
  obtain ⟨first, hfirst, hstring⟩ := map_eq_ok.mp (eq_ok_of_toOption hshop)
  obtain ⟨second, hsecond, hnumber⟩ := map_eq_ok.mp (eq_ok_of_toOption hother)
  have hnames : ∀ name,
      name ∈ (Members.insert "Tag" (.object [("type", .string "integer")]) shopDefinitions).map
          (·.1) ↔ name ∈ shopDefinitions.map (·.1) := fun _ => Iff.rfl
  have hdialect : renumberedShop.dialect = shop.dialect := rfl
  have htable : shop.definitions = .ok (.object shopDefinitions) := rfl
  obtain ⟨_, _, hlocal, _⟩ := texts_local hdialect htable (Document.definitions_withDefinitions _ _)
    hnames hfirst hsecond {}
  obtain ⟨hdefinitions, hoperations⟩ := hlocal _ _ rfl
  exact ⟨first, second, hfirst, hsecond, hstring, hnumber,
    hdefinitions 0 _ rfl (by decide), hoperations⟩

end Analysis

end ApiTypes
