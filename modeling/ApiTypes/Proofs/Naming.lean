import ApiTypes.Generation
import ApiTypes.Proofs.Text.Cutting
import ApiTypes.Proofs.Text.Letters
import ApiTypes.Proofs.TypeScript.Declaration
import ApiTypes.Proofs.TypeScript.Names
import Mathlib.Data.List.Nodup
import Mathlib.Data.List.Infix

/-!
# The names of declarations

The types of an operation are named by its method, the words of its path and a suffix, definitions
by their own names with other characters replaced. Both maps lose something, so names may meet; this
file says exactly when they do.
-/

namespace ApiTypes

/-! ## The stem of an operation -/

namespace OperationName

/-- The words of a path, capitalized and run together. -/
def pathText (path : String) : List Char :=
  (pathWords path.toList).flatMap Text.capitalize

def methodText (method : String) : List Char :=
  Text.capitalize (Text.lower method.toList)

theorem toList_pascal (method path : String) :
    (infer method path).pascal.toList = methodText method ++ pathText path := by
  unfold infer
  simp [methodText, pathText]

def IsWord (word : List Char) : Prop :=
  word ≠ [] ∧ ∀ c ∈ word, c.isAlphanum = true

theorem isWord_of_mem_pathWords {path : String} {word : List Char}
    (h : word ∈ pathWords path.toList) : IsWord word := by
  obtain ⟨segment, _, hrun⟩ := List.mem_flatMap.mp h
  obtain ⟨hpiece, hfull⟩ := List.mem_filter.mp hrun
  refine ⟨fun hnil => by simp [hnil] at hfull, fun c hc => ?_⟩
  simpa using Text.of_mem_splitWhen hpiece c hc

theorem isAlphanum_of_pathText {path : String} :
    ∀ c ∈ pathText path, c.isAlphanum = true := by
  intro c hc
  rcases List.mem_flatMap.mp hc with ⟨word, hword, hmem⟩
  exact Text.isAlphanum_of_capitalize (isWord_of_mem_pathWords hword).2 c hmem

theorem isAlphanum_of_methodText {method : String} (h : method ∈ methods) :
    ∀ c ∈ methodText method, c.isAlphanum = true := by
  have hall : (methods.all fun method => (methodText method).all Char.isAlphanum) = true := by
    with_unfolding_all decide
  exact List.all_eq_true.mp (List.all_eq_true.mp hall method h)

theorem head_methodText {method : String} (h : method ∈ methods) :
    ∃ first, (methodText method).head? = some first ∧ first.isDigit = false := by
  have hall : (methods.all fun method =>
      (methodText method).head?.any fun c => !c.isDigit) = true := by
    with_unfolding_all decide
  rcases (Option.any_eq_true _ _).mp (List.all_eq_true.mp hall method h) with
    ⟨first, hfirst, hdigit⟩
  exact ⟨first, hfirst, by simpa using hdigit⟩

/-- No method begins another one. -/
theorem methodText_begins :
    ∀ a ∈ methods, ∀ b ∈ methods, methodText a <+: methodText b → a = b := by
  with_unfolding_all decide

/-- Two operations have one stem exactly if the method and the words of the path are the same, as a
method in capitals cannot run on into a path. -/
theorem pascal_eq_iff {method other path otherPath : String} (hmethod : method ∈ methods)
    (hother : other ∈ methods) :
    (infer method path).pascal = (infer other otherPath).pascal ↔
      method = other ∧ pathText path = pathText otherPath := by
  rw [← String.toList_inj, toList_pascal, toList_pascal]
  constructor
  · intro h
    -- One of the two texts begins with both methods, and then the shorter method begins the other.
    have hsame : method = other := by
      rcases List.append_eq_append_iff.mp h with ⟨rest, hrest, _⟩ | ⟨rest, hrest, _⟩
      · exact methodText_begins method hmethod other hother ⟨rest, hrest.symm⟩
      · exact (methodText_begins other hother method hmethod ⟨rest, hrest.symm⟩).symm
    refine ⟨hsame, ?_⟩
    rw [hsame] at h
    exact List.append_cancel_left h
  · intro h
    rcases h with ⟨rfl, hpath⟩
    rw [hpath]

end OperationName

/-! ## Suffixes -/

namespace Operation

/-- What the names of the types of an operation may end in. -/
def allSuffixes : List String :=
  ["Headers", "Path", "Query", "Body", "FormData", "Response", "Request"]

/-- No suffix ends another one. -/
theorem suffix_of_suffix : ∀ a ∈ allSuffixes, ∀ b ∈ allSuffixes, a.toList <:+ b.toList → a = b := by
  with_unfolding_all decide

theorem isAlphanum_of_mem_suffix {suffix : String} (h : suffix ∈ allSuffixes) :
    ∀ c ∈ suffix.toList, c.isAlphanum = true := by
  have hletters : (allSuffixes.all fun suffix => suffix.toList.all Char.isAlphanum) = true := by
    with_unfolding_all decide
  exact List.all_eq_true.mp (List.all_eq_true.mp hletters suffix h)

/-- No suffix is the end of another, so a name tells its stem from its suffix. -/
theorem append_suffix_inj {stem other suffix otherSuffix : String} (hsuffix : suffix ∈ allSuffixes)
    (hother : otherSuffix ∈ allSuffixes) (h : stem ++ suffix = other ++ otherSuffix) :
    stem = other ∧ suffix = otherSuffix := by
  have hlist : stem.toList ++ suffix.toList = other.toList ++ otherSuffix.toList := by
    rw [← String.toList_append, h, String.toList_append]
  -- One of the two texts ends in both suffixes.
  have hsame : suffix = otherSuffix := by
    rcases List.append_eq_append_iff.mp hlist with ⟨rest, _, hrest⟩ | ⟨rest, _, hrest⟩
    · exact (suffix_of_suffix otherSuffix hother suffix hsuffix ⟨rest, hrest.symm⟩).symm
    · exact suffix_of_suffix suffix hsuffix otherSuffix hother ⟨rest, hrest.symm⟩
  rw [hsame] at hlist
  refine ⟨String.toList_inj.mp (List.append_cancel_right hlist), hsame⟩

/-- The suffixes of the types that an operation has, in the order of their declarations. -/
def suffixes (operation : Operation) : List String :=
  (operation.groups.filter fun (_, schema) => !schema.isEmpty).map (·.1) ++ ["Response"] ++
    operation.request?.toList.map fun _ => "Request"

/-- An operation declares each suffix at most once, in the order of the list. -/
theorem suffixes_sublist (operation : Operation) : operation.suffixes.Sublist allSuffixes := by
  have hgroups : ((operation.groups.filter fun (_, schema) => !schema.isEmpty).map (·.1)).Sublist
      ["Headers", "Path", "Query", "Body", "FormData"] :=
    List.Sublist.map Prod.fst List.filter_sublist
  have hrequest : (operation.request?.toList.map fun _ => "Request").Sublist ["Request"] := by
    cases operation.request? <;> simp
  exact (hgroups.append (List.Sublist.refl ["Response"])).append hrequest

end Operation

/-! ## Declared names -/

namespace TypeScript

/-- A name that is an identifier already is left as it is. -/
theorem identifier_eq {name : String} (h : ∀ c ∈ name.toList, isNameChar c = true)
    {first : Char} (hfirst : name.toList.head? = some first) (hdigit : first.isDigit = false) :
    identifier name = name := by
  have hmap : name.toList.map (fun c => if isNameChar c then c else '_') = name.toList :=
    (List.map_congr_left fun c hc => if_pos (h c hc)).trans (List.map_id' _)
  unfold identifier
  rw [hmap]
  cases hlist : name.toList with
  | nil =>
    rw [hlist] at hfirst
    cases hfirst
  | cons c cs =>
    rw [hlist] at hfirst
    cases hfirst
    simp only [hdigit, Bool.false_eq_true, if_false]
    rw [← hlist, String.ofList_toList]

theorem interface_eq (name : String) (bases : List String) (fields : List Field) :
    ∃ rest, interface name bases fields =
      "export " ++ "interface" ++ " " ++ name ++ " " ++ rest := by
  unfold interface
  dsimp only
  split
  · exact ⟨_, by rw [String.append_empty]; rfl⟩
  · rw [show " extends " = " " ++ "extends " from rfl,
      show "export interface " = "export " ++ "interface" ++ " " from rfl]
    simp only [String.append_assoc]
    exact ⟨_, rfl⟩

theorem enumeration_eq (name : String) (members : List (String × String)) :
    ∃ rest, enumeration name members = "export " ++ "enum" ++ " " ++ name ++ " " ++ rest := by
  unfold enumeration
  rw [List.append_assoc, List.singleton_append, String.intercalate_cons_of_ne_nil (by simp)]
  rw [show " \x7b" = " " ++ "\x7b" from rfl,
    show "export enum " = "export " ++ "enum" ++ " " from rfl]
  simp only [String.append_assoc]
  exact ⟨_, rfl⟩

/-- The name that a text exports: the second word after the mark of an export. -/
def exportedName? (text : String) : Option String :=
  (Text.after? "export " text).bind fun rest => (Text.split ' ' rest)[1]?

/-- The name that a text exports is read up to the first blank behind the keyword. -/
theorem exportedName?_of_word {keyword : String} (hkeyword : ' ' ∉ keyword.toList)
    (name rest : String) :
    exportedName? ("export " ++ keyword ++ " " ++ identifier name ++ " " ++ rest) =
      some (identifier name) := by
  have hname : ' ' ∉ (identifier name).toList := by
    intro hblank
    have hchars := nameChars_of_isIdentifier (isIdentifier_identifier name)
    exact absurd (hchars ' ' hblank) (by decide)
  have htext : "export " ++ keyword ++ " " ++ identifier name ++ " " ++ rest = "export " ++
      (keyword ++ (String.singleton ' ' ++ (identifier name ++ (String.singleton ' ' ++ rest)))) := by
    simp only [String.append_assoc]
    rfl
  rw [exportedName?, htext, Text.after?_append, Option.bind_some, Text.split_append_mark hkeyword,
    Text.split_append_mark hname]
  rfl

/-- A comment begins with its slashes, whatever it says. -/
theorem head_comment (text : String) : (comment text).toList.head? = some '/' := by
  rw [comment, Text.split]
  cases hpieces : Text.splitWhen (· == '\n') text.toList with
  | nil => exact absurd hpieces (Text.splitWhen_ne_nil _ _)
  | cons piece pieces =>
    have hline : (Text.trimEnd ("// " ++ String.ofList piece).toList).head? = some '/' := by
      rw [String.toList_append]
      exact congrArg List.head? (Text.trimEnd_cons rfl)
    rw [List.map_cons, List.map_cons]
    cases pieces with
    | nil => rwa [List.map_nil, List.map_nil, String.intercalate_singleton, String.toList_ofList]
    | cons next pieces =>
      rw [List.map_cons, List.map_cons, String.intercalate_cons_cons, String.toList_append,
        String.toList_append, String.toList_ofList, List.append_assoc, List.head?_append, hline]
      rfl

theorem exportedName?_comment (text : String) : exportedName? (comment text) = none := by
  have hnone : Text.after? "export " (comment text) = none := by
    rw [Option.eq_none_iff_forall_ne_some]
    intro rest hrest
    have hslash := head_comment text
    rw [Text.after?_eq_some.mp hrest] at hslash
    simp at hslash
  rw [exportedName?, hnone, Option.bind_none]

end TypeScript

/-- The name that a part of the generated file declares. -/
def Block.declaredName? : Block → Option String
  | .comment _ => none
  | .declaration name _ => some (TypeScript.identifier name)

/-- The text of a declaration begins with the name that it declares. -/
theorem Block.text_of_declaredName? {emitEnums : Bool} {block : Block} {name text : String}
    (hname : block.declaredName? = some name) (h : block.text emitEnums = .ok text) :
    ∃ keyword ∈ ["interface", "enum", "type"], ∃ rest,
      text = "export " ++ keyword ++ " " ++ name ++ " " ++ rest := by
  cases block with
  | comment text => cases hname
  | declaration name schema =>
    cases hname
    -- A declaration takes one of three forms, each with a keyword of its own.
    rcases TypeScript.declaration_cases h with
      ⟨list, _, rfl⟩ | ⟨_, ⟨members, _, rfl⟩ | ⟨type, _, rfl⟩⟩
    · exact ⟨"interface", by simp, TypeScript.interface_eq _ _ _⟩
    · exact ⟨"enum", by simp, TypeScript.enumeration_eq _ _⟩
    · refine ⟨"type", by simp, "= " ++ type ++ ";", ?_⟩
      unfold TypeScript.typeAlias
      rw [show " = " = " " ++ "= " from rfl,
        show "export type " = "export " ++ "type" ++ " " from rfl]
      simp only [String.append_assoc]

theorem Block.exportedName?_of_text {emitEnums : Bool} {block : Block} {text : String}
    (h : block.text emitEnums = .ok text) :
    TypeScript.exportedName? text = block.declaredName? := by
  cases block with
  | comment content =>
    cases h
    exact TypeScript.exportedName?_comment content
  | declaration name schema =>
    have hblank : ∀ keyword ∈ ["interface", "enum", "type"], ' ' ∉ keyword.toList := by decide
    obtain ⟨keyword, hkeyword, rest, rfl⟩ := Block.text_of_declaredName? rfl h
    exact TypeScript.exportedName?_of_word (hblank keyword hkeyword) name rest

theorem Block.declaredName?_map {α : Type} (name : α → String) (schema : α → Schema)
    (list : List α) :
    (list.map fun a => Block.declaration (name a) (schema a)).filterMap Block.declaredName? =
      list.map fun a => TypeScript.identifier (name a) := by
  rw [List.filterMap_map, ← List.filterMap_eq_map]
  rfl

/-- The names that the parts of the generated file declare, in their order. -/
def Operation.declaredNames (operation : Operation) : List String :=
  operation.blocks.filterMap Block.declaredName?

def Analysis.declaredNames (analysis : Analysis) : List String :=
  analysis.blocks.filterMap Block.declaredName?

namespace Operation

/-- Letters and digits with a suffix are an identifier, if they do not begin with a digit. -/
theorem identifier_append_suffix {stem : String} (hstem : ∀ c ∈ stem.toList, c.isAlphanum = true)
    {first : Char} (hfirst : stem.toList.head? = some first) (hdigit : first.isDigit = false)
    {suffix : String} (hsuffix : suffix ∈ allSuffixes) :
    TypeScript.identifier (stem ++ suffix) = stem ++ suffix := by
  have hhead : (stem ++ suffix).toList.head? = some first := by
    rw [String.toList_append, List.head?_append, hfirst]
    rfl
  refine TypeScript.identifier_eq (fun c hc => ?_) hhead hdigit
  have halphanum : c.isAlphanum = true := by
    rw [String.toList_append] at hc
    rcases List.mem_append.mp hc with hmem | hend
    · exact hstem c hmem
    · exact isAlphanum_of_mem_suffix hsuffix c hend
  rw [TypeScript.isNameChar, halphanum, Bool.true_or, Bool.true_or]

/-- The name of an operation's declaration is an identifier already. -/
theorem identifier_typeStem {operation : Operation} (h : operation.method ∈ methods)
    {suffix : String} (hsuffix : suffix ∈ allSuffixes) :
    TypeScript.identifier (operation.typeStem ++ suffix) = operation.typeStem ++ suffix := by
  have hlist : operation.typeStem.toList =
      OperationName.methodText operation.method ++ OperationName.pathText operation.path :=
    OperationName.toList_pascal _ _
  obtain ⟨first, hfirst, hdigit⟩ := OperationName.head_methodText h
  have hhead : operation.typeStem.toList.head? = some first := by
    rw [hlist, List.head?_append, hfirst]
    rfl
  refine identifier_append_suffix (fun c hc => ?_) hhead hdigit hsuffix
  rw [hlist] at hc
  rcases List.mem_append.mp hc with hmethod | hpath
  · exact OperationName.isAlphanum_of_methodText h c hmethod
  · exact OperationName.isAlphanum_of_pathText c hpath

/-- An operation declares its stem with each of its suffixes. -/
theorem declaredNames_eq {operation : Operation} (h : operation.method ∈ methods) :
    operation.declaredNames = operation.suffixes.map (operation.typeStem ++ ·) := by
  have hnames : operation.declaredNames = operation.suffixes.map fun suffix =>
      TypeScript.identifier (operation.typeStem ++ suffix) := by
    unfold declaredNames blocks suffixes
    simp only [List.filterMap_append, List.map_append, List.map_map, Block.declaredName?_map]
    rw [show ∀ text, [Block.comment text].filterMap Block.declaredName? = [] from fun _ => rfl]
    cases operation.request? <;> simp [Block.declaredName?, Function.comp_def]
  rw [hnames]
  apply List.map_congr_left
  intro suffix hsuffix
  exact identifier_typeStem h (operation.suffixes_sublist.subset hsuffix)

theorem nodup_declaredNames {operation : Operation} (h : operation.method ∈ methods) :
    operation.declaredNames.Nodup := by
  have hsuffixes : allSuffixes.Nodup := by decide
  rw [declaredNames_eq h]
  apply (hsuffixes.sublist operation.suffixes_sublist).map
  intro suffix other hsame
  exact (String.append_right_inj _).mp hsame

/-- The types of two operations share a name if and only if the operations share their stem. -/
theorem disjoint_declaredNames_iff {a b : Operation} (ha : a.method ∈ methods)
    (hb : b.method ∈ methods) :
    a.declaredNames.Disjoint b.declaredNames ↔ a.typeStem ≠ b.typeStem := by
  rw [declaredNames_eq ha, declaredNames_eq hb]
  -- Every operation declares the type of its response, so operations of one stem share that name.
  have hresponse : ∀ operation : Operation, "Response" ∈ operation.suffixes := by
    intro operation
    simp [suffixes]
  constructor
  · intro hdisjoint hsame
    apply hdisjoint (List.mem_map_of_mem (hresponse a))
    rw [hsame]
    exact List.mem_map_of_mem (hresponse b)
  · intro hne name hmine htheirs
    rcases List.mem_map.mp hmine with ⟨suffix, hsuffix, rfl⟩
    rcases List.mem_map.mp htheirs with ⟨other, hother, hsame⟩
    -- The suffixes can be told apart, so that a common name makes the stems the same.
    exact hne (append_suffix_inj (b.suffixes_sublist.subset hother)
      (a.suffixes_sublist.subset hsuffix) hsame).1.symm

end Operation

/-! ## The operations of a description -/

namespace Document

/-- Only a key that is a method makes an operation. -/
theorem method_of_operation? {dialect : Dialect} {path key : String} {item : Members} {value : Json}
    {raw : RawOperation} (h : operation? dialect path item key value = .ok (some raw)) :
    raw.method ∈ methods := by
  unfold operation? at h
  by_cases hkey : isMethod key = true
  · rw [if_neg (by simp [hkey]), bind_eq_ok] at h
    rcases h with ⟨members, _, h⟩
    split at h
    · cases h
    · cases h
      exact List.contains_iff_mem.mp hkey
  · rw [if_pos (by simpa using hkey)] at h
    cases h

theorem method_of_itemOperations {dialect : Dialect} {path : String} {item : Json}
    {raw : RawOperation} (h : .ok raw ∈ itemOperations dialect path item) :
    raw.method ∈ methods := by
  unfold itemOperations at h
  split at h
  · cases List.mem_singleton.mp h
  · rcases List.mem_filterMap.mp h with ⟨⟨key, value⟩, _, hfound⟩
    dsimp only at hfound
    split at hfound
    · rename_i found hoperation
      rcases Option.map_eq_some_iff.mp hfound with ⟨other, rfl, hsame⟩
      cases hsame
      exact method_of_operation? hoperation
    · cases hfound

theorem method_of_operations {document : Document} {raw : RawOperation}
    (h : .ok raw ∈ document.operations) : raw.method ∈ methods := by
  unfold operations at h
  split at h
  · cases List.mem_singleton.mp h
  · rcases List.mem_flatMap.mp h with ⟨⟨path, item⟩, _, hitem⟩
    exact method_of_itemOperations hitem

end Document

namespace Analysis

theorem method_of_ofRawOperation {scope : Scope} {raw : Except Malformed RawOperation}
    {operation : Operation} (h : ofRawOperation scope raw = .ok operation) :
    ∃ source, raw = .ok source ∧ operation.method = source.method := by
  unfold ofRawOperation at h
  rw [bind_eq_ok] at h
  rcases h with ⟨source, hsource, h⟩
  rcases bind_eq_ok.mp h with ⟨exchange, _, h⟩
  cases h
  exact ⟨source, lift_eq_ok.mp hsource, rfl⟩

/-- The methods of an analysis are among the known ones. -/
theorem method_of_ofDocument {document : Document} {analysis : Analysis}
    (h : ofDocument document = .ok analysis) :
    ∀ operation ∈ analysis.operations, operation.method ∈ methods := by
  unfold ofDocument at h
  simp only [bind_eq_ok] at h
  rcases h with ⟨scope, _, definitions, _, table, _, shapes, _, operations, hoperations, h⟩
  cases h
  intro operation hmem
  rcases exists_of_forall₂ (mapM_eq_ok.mp hoperations).flip hmem with ⟨raw, hraw, hbuilt⟩
  rcases method_of_ofRawOperation hbuilt with ⟨source, rfl, hmethod⟩
  rw [hmethod]
  exact Document.method_of_operations hraw

/-- The names declared are those of the definitions, then those of the operations. -/
theorem declaredNames_eq (analysis : Analysis) :
    analysis.declaredNames =
      (analysis.definitions.map fun definition => TypeScript.identifier definition.1) ++
        analysis.operations.flatMap Operation.declaredNames := by
  unfold declaredNames blocks
  rw [List.filterMap_append, List.filterMap_flatMap, Block.declaredName?_map]
  rfl

/-- The names that the texts of a file export, in their order, are the declared ones. -/
theorem exportedNames_of_texts {settings : Settings} {analysis : Analysis} {texts : List String}
    (h : Generation.texts settings analysis = .ok texts) :
    texts.filterMap TypeScript.exportedName? = analysis.declaredNames := by
  replace h := mapM_eq_ok.mp h
  unfold declaredNames
  generalize analysis.blocks = blocks at h
  induction h with
  | nil => rfl
  | cons htext _ ih =>
    rw [List.filterMap_cons, List.filterMap_cons, ih, Block.exportedName?_of_text htext]

/-- The names of a generated file are pairwise distinct if and only if no two definitions become one
identifier, no two operations of one method have paths of the same words, and no definition has the
name of a type of an operation. They are the names that the texts of the file export. -/
theorem declaredNames_nodup_iff {value : Json} {analysis : Analysis}
    (h : ofJson value = .ok analysis) :
    (analysis.declaredNames.Nodup ↔
      (analysis.definitions.map fun definition => TypeScript.identifier definition.1).Nodup ∧
        (analysis.operations.Pairwise fun a b =>
          ¬(a.method = b.method ∧
            OperationName.pathText a.path = OperationName.pathText b.path)) ∧
        ∀ definition ∈ analysis.definitions, ∀ operation ∈ analysis.operations,
          TypeScript.identifier definition.1 ∉ operation.declaredNames) ∧
    ∀ settings texts, Generation.texts settings analysis = .ok texts →
      texts.filterMap TypeScript.exportedName? = analysis.declaredNames := by
  refine ⟨?_, fun settings texts => exportedNames_of_texts⟩
  rcases bind_eq_ok.mp h with ⟨document, _, hdocument⟩
  have hmethod := method_of_ofDocument hdocument
  -- Names are apart among the definitions, among the operations and between the two.
  rw [declaredNames_eq, List.nodup_append', List.nodup_flatMap]
  apply and_congr_right
  intro _
  apply and_congr
  · rw [and_iff_right fun operation hmem => Operation.nodup_declaredNames (hmethod operation hmem)]
    apply List.Pairwise.iff_of_mem
    intro a b ha hb
    -- Two operations share a name if and only if they share the stem of their names.
    show a.declaredNames.Disjoint b.declaredNames ↔ _
    rw [Operation.disjoint_declaredNames_iff (hmethod a ha) (hmethod b hb)]
    exact not_congr (OperationName.pascal_eq_iff (hmethod a ha) (hmethod b hb))
  · simp only [List.Disjoint, List.mem_map, List.mem_flatMap]
    constructor
    · intro hdisjoint definition hdefinition operation hoperation hname
      exact hdisjoint ⟨definition, hdefinition, rfl⟩ ⟨operation, hoperation, hname⟩
    · intro hapart name hmine htheirs
      rcases hmine with ⟨definition, hdefinition, rfl⟩
      rcases htheirs with ⟨operation, hoperation, hname⟩
      exact hapart definition hdefinition operation hoperation hname

/-- A description with the same operations on two paths. -/
def twoPaths (first second : String) (methods : List String) : Json :=
  let item := Json.object (methods.map fun method => (method, .object []))
  .object [("swagger", .string "2.0"), ("paths", .object [(first, item), (second, item)])]

/-- The theorem at a description in which all names are distinct. -/
theorem declaredNames_nodup_iff_methods :
    ∃ analysis texts, ofJson (twoPaths "/pets" "/owners" ["get", "put"]) = .ok analysis ∧
      Generation.texts {} analysis = .ok texts ∧ analysis.declaredNames.Nodup ∧
      (texts.filterMap TypeScript.exportedName?).Nodup := by
  have hsummary : (do
      let analysis ← ofJson (twoPaths "/pets" "/owners" ["get", "put"])
      let _ ← Generation.texts {} analysis
      return (analysis.definitions.map (·.1), analysis.operations.map fun operation =>
        (operation.method, OperationName.pathText operation.path)) : Except Error _).toOption =
        some ([], [("get", "Pets".toList), ("put", "Pets".toList), ("get", "Owners".toList),
          ("put", "Owners".toList)]) := by
    decide +kernel
  rcases bind_eq_ok.mp (eq_ok_of_toOption hsummary) with ⟨analysis, hanalysis, hsummary⟩
  rcases bind_eq_ok.mp hsummary with ⟨texts, htexts, hparts⟩
  rcases Prod.mk.inj (Except.ok.inj hparts) with ⟨hdefinitions, hoperations⟩
  have hnone : analysis.definitions = [] := List.map_eq_nil_iff.mp hdefinitions
  obtain ⟨hdistinct, hexported⟩ := declaredNames_nodup_iff hanalysis
  have hnames : analysis.declaredNames.Nodup := by
    refine hdistinct.mpr ⟨?_, ?_, ?_⟩
    · rw [hnone]
      exact List.nodup_nil
    · have hpairs : (analysis.operations.map fun operation =>
          (operation.method, OperationName.pathText operation.path)).Pairwise
            fun a b => ¬(a.1 = b.1 ∧ a.2 = b.2) := by
        rw [hoperations]
        decide
      simpa only [List.pairwise_map] using hpairs
    · rw [hnone]
      simp
  exact ⟨analysis, texts, hanalysis, htexts, hnames, (hexported {} texts htexts).symm ▸ hnames⟩

/-- Two operations whose paths differ by a placeholder declare the same type. -/
theorem not_nodup_declaredNames_of_placeholder :
    ∃ analysis texts, ofJson (twoPaths "/pets" "/pets/\x7bid\x7d" ["get"]) = .ok analysis ∧
      Generation.texts {} analysis = .ok texts ∧ ¬analysis.declaredNames.Nodup ∧
      ¬(texts.filterMap TypeScript.exportedName?).Nodup := by
  have hnames : (do
      let analysis ← ofJson (twoPaths "/pets" "/pets/\x7bid\x7d" ["get"])
      let _ ← Generation.texts {} analysis
      return analysis.declaredNames : Except Error _).toOption =
        some ["GetPetsResponse", "GetPetsResponse"] := by
    decide +kernel
  rcases bind_eq_ok.mp (eq_ok_of_toOption hnames) with ⟨analysis, hanalysis, hnames⟩
  rcases bind_eq_ok.mp hnames with ⟨texts, htexts, hnames⟩
  refine ⟨analysis, texts, hanalysis, htexts, ?_⟩
  rw [exportedNames_of_texts htexts, Except.ok.inj hnames]
  decide

end Analysis

end ApiTypes
