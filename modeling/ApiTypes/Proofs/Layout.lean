import ApiTypes.Proofs.Requests
import ApiTypes.Proofs.TypeScript.Compact

/-!
# The layout of a generated file

The parts of a generated file stand in the order of the description, an empty line between two of
them. None has an empty line of its own, so that they come back when the file is cut at empty lines.
-/

namespace ApiTypes

open Text (Paragraph paragraphs)

/-! ## Parts -/

theorem Block.paragraph_text {emitEnums : Bool} {block : Block} {text : String}
    (h : block.text emitEnums = .ok text) : Paragraph text := by
  cases block with
  | comment content =>
    cases h
    exact TypeScript.paragraph_comment content
  | declaration name schema => exact TypeScript.paragraph_declaration h

def Slot.declared : List Slot :=
  [.header, .path, .query, .body, .form]

/-- An operation is written as its comment, then its groups in a fixed order, the response and the
request. -/
theorem Operation.blocks_eq (operation : Operation) :
    operation.blocks =
      .comment (operation.method.map Char.toUpper ++ " " ++ operation.path) ::
        ((Slot.declared.filter fun slot => !(operation.exchange.slot slot).isEmpty).map fun slot =>
          .declaration (operation.typeStem ++ slot.suffix) (operation.exchange.slot slot)) ++
        .declaration (operation.typeStem ++ "Response") operation.exchange.response ::
          operation.request?.toList.map (.declaration (operation.typeStem ++ "Request")) := by
  have hgroups : operation.groups = Slot.declared.map fun slot =>
      (slot.suffix, operation.exchange.slot slot) := rfl
  rw [blocks, hgroups, List.filter_map, List.map_map]
  simp [Function.comp_def]

/-! ## Layout -/

namespace Generation

variable {texts : List String}

theorem layout_eq_empty : layout texts = "" ↔ texts = [] := by
  unfold layout
  cases texts with
  | nil => simp
  | cons text texts => simp

/-- The parts of a file end in one line feed. Without it they come back at the empty lines. -/
theorem layout_paragraphs (hne : texts ≠ []) (h : ∀ text ∈ texts, Paragraph text) :
    ∃ body, layout texts = body ++ "\n" ∧ (∀ c ∈ body.toList.getLast?, c ≠ '\n') ∧
      paragraphs body = texts := by
  refine ⟨"\n\n".intercalate texts, ?_, ?_, ?_⟩
  · rw [layout, if_neg (List.isEmpty_iff.not.mpr hne)]
  · obtain ⟨last, hmem, hlast⟩ := Text.getLast?_intercalate hne h
    rw [hlast]
    exact (h last hmem).last
  · exact Text.paragraphs_intercalate hne fun text hmem => (h text hmem).toCompact

variable {settings : Settings} {options : FormatterOptions} {commandLine : String}
  {session : Session} {analysis : Analysis} {output : String}

/-- Without the formatting step the file is its head and its parts. -/
theorem ofAnalysis_eq_ok (settings : Settings) (hoptions : settings.formatterOptions = .ok options)
    (hdisabled : options.enabled.isTruthy = false) :
    (ofAnalysis settings commandLine session analysis).1 = .ok output ↔
      ∃ texts, Generation.texts settings analysis = .ok texts ∧
        output = header settings commandLine ++ layout texts := by
  unfold ofAnalysis code finish
  cases Generation.texts settings analysis with
  | error error => simp [bind, Except.bind]
  | ok texts => simp [hoptions, hdisabled, eq_comm]

theorem header_of_off (h : settings.generationComment.isTruthy = false) :
    header settings commandLine = "" := by
  rw [header, if_neg (by simp [h])]
  rfl

theorem header_of_on (h : settings.generationComment.isTruthy = true) :
    header settings commandLine =
      TypeScript.comment
        ("Generated by " ++ programName ++ " v" ++ version ++ " : " ++ commandLine) ++ "\n\n" := by
  have hfull := (TypeScript.paragraph_comment
    ("Generated by " ++ programName ++ " v" ++ version ++ " : " ++ commandLine)).full
  rw [header, if_pos h, TypeScript.fileHeader, if_neg]
  simpa using hfull

end Generation

namespace Analysis

variable {document : Document} {analysis : Analysis}

/-- Nothing is written only for a document without definitions and operations. -/
theorem blocks_eq_nil : analysis.blocks = [] ↔
    analysis.definitions = [] ∧ analysis.operations = [] := by
  have hoperations : analysis.operations.flatMap Operation.blocks = [] ↔
      analysis.operations = [] := by
    rw [List.flatMap_eq_nil_iff]
    constructor
    · intro hnone
      refine List.eq_nil_iff_forall_not_mem.mpr fun operation hmem => ?_
      simpa [Operation.blocks_eq] using hnone operation hmem
    · intro hnil
      simp [hnil]
  rw [blocks, List.append_eq_nil_iff, List.map_eq_nil_iff, hoperations]

/-- The operations of an analysis are those of the description, one by one. -/
theorem operations_of_ofDocument (h : ofDocument document = .ok analysis) :
    List.Forall₂ (fun raw operation => ∃ source : RawOperation, raw = .ok source ∧
      source.path = operation.path ∧ source.method = operation.method)
      document.operations analysis.operations := by
  obtain ⟨table, _, _, hoperations⟩ := ofDocument_eq_ok.mp h
  refine (mapM_eq_ok.mp hoperations).imp fun raw operation hbuilt => ?_
  simp only [ofRawOperation, bind_eq_ok, lift_eq_ok] at hbuilt
  obtain ⟨source, hsource, exchange, _, hoperation⟩ := hbuilt
  cases hoperation
  exact ⟨source, hsource, rfl, rfl⟩

/-- A file without a head and a formatting step is empty if and only if the description has no
definitions and no operations. Otherwise it ends in one line feed, and cutting it at the empty lines
gives the parts in their order: the definitions, then for each operation its comment, the groups
that are not empty, the response, and the request if there is one. A head is a comment before the
same text, an empty line between the two. -/
theorem laid_out (h : ofDocument document = .ok analysis) {settings : Settings}
    {options : FormatterOptions} (hoff : settings.generationComment.isTruthy = false)
    (hoptions : settings.formatterOptions = .ok options)
    (hdisabled : options.enabled.isTruthy = false) {commandLine output : String} {session : Session}
    (houtput : (Generation.ofAnalysis settings commandLine session analysis).1 = .ok output) :
    ((∃ table, document.definitions = .ok (.object table) ∧
        table.map (·.1) = analysis.definitions.map (·.1)) ∧
      List.Forall₂ (fun raw operation => ∃ source : RawOperation, raw = .ok source ∧
        source.path = operation.path ∧ source.method = operation.method)
        document.operations analysis.operations) ∧
    (output = "" ↔ analysis.definitions = [] ∧ analysis.operations = []) ∧
    (output ≠ "" → ∃ body, output = body ++ "\n" ∧ (∀ c ∈ body.toList.getLast?, c ≠ '\n') ∧
      List.Forall₂ (fun block text => Block.text settings.emitEnums.isTruthy block = .ok text)
        (analysis.definitions.map (fun (name, schema) => .declaration name schema) ++
          analysis.operations.flatMap fun operation =>
            .comment (operation.method.map Char.toUpper ++ " " ++ operation.path) ::
              ((Slot.declared.filter fun slot => !(operation.exchange.slot slot).isEmpty).map
                fun slot => .declaration (operation.typeStem ++ slot.suffix)
                  (operation.exchange.slot slot)) ++
              .declaration (operation.typeStem ++ "Response") operation.exchange.response ::
                operation.request?.toList.map (.declaration (operation.typeStem ++ "Request")))
        (paragraphs body)) ∧
    ∀ on : Json, on.isTruthy = true →
      (Generation.ofAnalysis { settings with generationComment := on } commandLine session
        analysis).1 = .ok (TypeScript.comment
          ("Generated by openapi_to_ts v1.0.0 : " ++ commandLine) ++ "\n\n" ++ output) ∧
      (Text.OnOneLine commandLine → Text.OnOneLine
        (TypeScript.comment ("Generated by openapi_to_ts v1.0.0 : " ++ commandLine))) := by
  obtain ⟨texts, htexts, rfl⟩ :=
    (Generation.ofAnalysis_eq_ok settings hoptions hdisabled).mp houtput
  have hblocks := mapM_eq_ok.mp htexts
  -- No text has an empty line inside, so cutting the body at empty lines gives the texts back.
  have hparagraphs : ∀ text ∈ texts, Paragraph text := by
    intro text hmem
    obtain ⟨block, _, hblock⟩ := exists_of_forall₂ hblocks.flip hmem
    exact Block.paragraph_text hblock
  have hnone : texts = [] ↔ analysis.definitions = [] ∧ analysis.operations = [] := by
    rw [← blocks_eq_nil, ← List.length_eq_zero_iff, ← List.length_eq_zero_iff, hblocks.length_eq]
  rw [Generation.header_of_off hoff, String.empty_append]
  refine ⟨⟨?_, operations_of_ofDocument h⟩, ?_, fun hfull => ?_, fun on hon => ?_⟩
  · obtain ⟨table, htable, hdefinitions, _⟩ := ofDocument_eq_ok.mp h
    exact ⟨table, htable, names_of_ofDefinitions hdefinitions⟩
  · rw [Generation.layout_eq_empty, hnone]
  · have hne : texts ≠ [] := fun hnil => hfull (Generation.layout_eq_empty.mpr hnil)
    obtain ⟨body, hbody, hlast, hpieces⟩ := Generation.layout_paragraphs hne hparagraphs
    refine ⟨body, hbody, hlast, ?_⟩
    rw [hpieces, ← funext Operation.blocks_eq]
    exact hblocks
  · constructor
    · refine (Generation.ofAnalysis_eq_ok { settings with generationComment := on } hoptions
        hdisabled).mpr ⟨texts, htexts, ?_⟩
      rw [Generation.header_of_on hon]
      rfl
    · intro hline
      exact TypeScript.onOneLine_comment (Text.onOneLine_append.mpr ⟨by decide, hline⟩)

/-- A description with empty lines in the description of a property and in a path. -/
def gapped : Document where
  dialect := .swagger2
  members := [
    ("definitions", .object [("Pet", .object [("properties", .object [("name", .object [
      ("type", .string "string"), ("description", .string "one\n\ntwo")])])])]),
    ("paths", .object [("/a\n\nb", .object [("get", .object [])])])]

def gappedTexts : List String := [
  "export interface Pet \x7b\n  // one\n  //\n  // two\n  name?: string;\n\x7d",
  "// GET /a\n//\n// b",
  "export type GetABResponse = void;"]

/-- The theorem where a comment in an interface and the one on an operation have an empty line. -/
theorem laid_out_gapped : ∃ analysis output body, ofDocument gapped = .ok analysis ∧
    (Generation.ofAnalysis { generationComment := .bool false } "openapi_to_ts" {} analysis).1 =
      .ok output ∧ output ≠ "" ∧ output = body ++ "\n" ∧ paragraphs body = gappedTexts := by
  have hsummary : (do
      let analysis ← ofDocument gapped
      let output ← (Generation.ofAnalysis { generationComment := .bool false } "openapi_to_ts" {}
        analysis).1
      let texts ← Generation.texts {} analysis
      return (decide (output ≠ ""), texts) : Except Error _).toOption =
        some (true, gappedTexts) := by
    decide +kernel
  obtain ⟨analysis, hanalysis, hrest⟩ := bind_eq_ok.mp (eq_ok_of_toOption hsummary)
  obtain ⟨output, houtput, hrest⟩ := bind_eq_ok.mp hrest
  obtain ⟨texts, htexts, hrest⟩ := bind_eq_ok.mp hrest
  obtain ⟨hfull, rfl⟩ := Prod.mk.inj (Except.ok.inj hrest)
  obtain ⟨_, _, hcut, _⟩ := laid_out hanalysis rfl rfl rfl houtput
  obtain ⟨body, hbody, _, hparts⟩ := hcut (of_decide_eq_true hfull)
  rw [← funext Operation.blocks_eq] at hparts
  have hpieces := mapM_eq_ok.mpr hparts
  exact ⟨analysis, output, body, hanalysis, houtput, of_decide_eq_true hfull, hbody,
    Except.ok.inj (hpieces.symm.trans htexts)⟩

end Analysis

end ApiTypes
