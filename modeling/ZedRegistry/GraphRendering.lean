import ZedRegistry.CsvRecords
import ZedRegistry.GraphDisclosure
import ZedRegistry.GraphDrawing
import ZedRegistry.MessagePackExport
import ZedRegistry.ProtobufExport
import ZedRegistry.TomlExport
import ZedRegistry.XmlRoundTrip
import ZedRegistry.YamlExport

/-!
# Bounded rendering

Every format of the two graph routes against its rendering without a limit: a response
holds the whole of it or is refused, and only what does not fit is refused for its size.
-/

set_option autoImplicit false

namespace ZedRegistry

open BoundedOutput
open XmlExport (utf8Length utf8Length_append documentStrings representable renderedBytes
  notRepresentable)

/-! ## Drawings without a limit -/

namespace GraphDrawing

section Complete

variable (sha256 : Bytes → String) (display : PackageVersionIdentity → String)

def dotLines : DependencyGraphData → List String
  | .declared package dependencies =>
    dotBox sha256 (display package) :: dependencies.flatMap fun dependency =>
      let target := dependencyTarget dependency
      [dotTarget sha256 target, dotArrow sha256 (display package) target]
  | .resolved _ _ nodes edges _ _ _ =>
    nodes.map (fun node => dotBox sha256 (display node.id)) ++
      edges.map fun edge => dotArrow sha256 (display edge.source) (display edge.destination)

def dotRendering (document : DependencyGraphDocument) : List Char :=
  (dotHeading :: (dotLines sha256 display document.graph ++ ["\x7d\n"])).flatMap String.toList

def mermaidLines : DependencyGraphData → List String
  | .declared package dependencies =>
    mermaidLabel sha256 (display package) :: dependencies.flatMap fun dependency =>
      let target := dependencyTarget dependency
      [mermaidLabel sha256 target, mermaidArrow sha256 (display package) target]
  | .resolved _ _ nodes edges _ _ _ =>
    nodes.map (fun node => mermaidLabel sha256 (display node.id)) ++
      edges.map fun edge => mermaidArrow sha256 (display edge.source) (display edge.destination)

def mermaidRendering (document : DependencyGraphDocument) : List Char :=
  (mermaidHeading :: mermaidLines sha256 display document.graph).flatMap String.toList

end Complete

section Writers

variable {I : Interfaces} {contract : GraphContract I}
  (bounded : contract.maxEncodedBytes < 2 ^ 64) (display : PackageVersionIdentity → String)

abbrev WritesGraph (contract : GraphContract I) (write : GraphWriter) (text : List Char) : Prop :=
  Writes Char.utf8Size contract.maxEncodedBytes representationTooLarge write text

include bounded

theorem writes_pushGraphText (value : String) :
    WritesGraph contract (pushGraphText contract value) value.toList := by
  apply writes_checked
  intro output
  change _ = if utf8Length (output ++ value.toList) ≤ contract.maxEncodedBytes then _ else _
  rw [utf8Length_append, StateT.run]
  unfold pushGraphText checkedAdd ensureEncodedSize ensure
  by_cases counted : utf8Length output + utf8Length value.toList < 2 ^ 64
  · simp only [if_pos counted, okOrElse, Option.elim_some, bind, Except.bind]
    by_cases fits : utf8Length output + utf8Length value.toList ≤ contract.maxEncodedBytes
    · simp only [if_pos fits]
      rfl
    · simp only [if_neg fits]
  · rw [if_neg counted, if_neg (by omega)]
    rfl

theorem writes_each {α : Type} (line : α → String) (items : List α) :
    WritesGraph contract (items.forM fun item => pushGraphText contract (line item))
      ((items.map line).flatMap String.toList) := by
  rw [List.flatMap_map]
  exact writes_forM (fun item => writes_pushGraphText bounded (line item)) items

theorem writes_dependencies (first second : DeclaredDependency → String)
    (dependencies : List DeclaredDependency) :
    WritesGraph contract
      (dependencies.forM fun dependency => do
        pushGraphText contract (first dependency)
        pushGraphText contract (second dependency))
      ((dependencies.flatMap fun dependency =>
        [first dependency, second dependency]).flatMap String.toList) := by
  rw [List.flatMap_assoc]
  apply writes_forM
  intro dependency
  refine writes_congr (writes_bind (writes_pushGraphText bounded (first dependency))
    (writes_pushGraphText bounded (second dependency))) ?_
  simp

theorem writes_dotGraph (graph : DependencyGraphData) :
    WritesGraph contract (dotGraph contract display graph)
      ((dotLines I.sha256 display graph).flatMap String.toList) := by
  cases graph with
  | declared package dependencies =>
      exact writes_bind (writes_pushGraphText bounded _) (writes_dependencies bounded _ _ _)
  | resolved _ _ nodes edges _ _ _ =>
      rw [dotLines, List.flatMap_append]
      exact writes_bind (writes_each bounded _ nodes) (writes_each bounded _ edges)

theorem writes_mermaidGraph (graph : DependencyGraphData) :
    WritesGraph contract (mermaidGraph contract display graph)
      ((mermaidLines I.sha256 display graph).flatMap String.toList) := by
  cases graph with
  | declared package dependencies =>
      exact writes_bind (writes_pushGraphText bounded _) (writes_dependencies bounded _ _ _)
  | resolved _ _ nodes edges _ _ _ =>
      rw [mermaidLines, List.flatMap_append]
      exact writes_bind (writes_each bounded _ nodes) (writes_each bounded _ edges)

theorem renderDot_writes (document : DependencyGraphDocument) :
    renderDot contract display document =
        .ok (asBytes (String.ofList (dotRendering I.sha256 display document))) ∨
      contract.maxEncodedBytes < utf8Length (dotRendering I.sha256 display document) ∧
        renderDot contract display document = .error representationTooLarge := by
  have whole : dotRendering I.sha256 display document = dotHeading.toList ++
      ((dotLines I.sha256 display document.graph).flatMap String.toList ++
        "\x7d\n".toList) := by
    simp [dotRendering]
  have writes := writes_bind (writes_dotGraph bounded display document.graph)
    (writes_pushGraphText bounded "\x7d\n")
  rw [whole]
  unfold renderDot
  rcases writes dotHeading.toList with written | ⟨tooLong, failed⟩
  · left
    rw [dotDocument, written]
    rfl
  · right
    rw [dotDocument, failed]
    exact ⟨tooLong, rfl⟩

theorem renderMermaid_writes (document : DependencyGraphDocument) :
    renderMermaid contract display document =
        .ok (asBytes (String.ofList (mermaidRendering I.sha256 display document))) ∨
      contract.maxEncodedBytes < utf8Length (mermaidRendering I.sha256 display document) ∧
        renderMermaid contract display document = .error representationTooLarge := by
  have whole : mermaidRendering I.sha256 display document = mermaidHeading.toList ++
      (mermaidLines I.sha256 display document.graph).flatMap String.toList := rfl
  rw [whole]
  unfold renderMermaid
  rcases writes_mermaidGraph bounded display document.graph mermaidHeading.toList with
    written | ⟨tooLong, failed⟩
  · left
    rw [written]
    rfl
  · right
    rw [failed]
    exact ⟨tooLong, rfl⟩

end Writers

end GraphDrawing

/-! ## Outcomes -/

section Outcomes

variable (limit : Nat) (conditions : Prop) (complete : Option Bytes)

/-- The whole rendering, or a refusal: for its size where it does not fit. -/
def Renders (result : ApiResult Bytes) : Prop :=
  (conditions ∧ ∃ bytes, complete = some bytes ∧ result = .ok bytes) ∨
    (∃ bytes, complete = some bytes ∧ limit < bytes.length ∧
      result = .error representationTooLarge) ∨
    ¬(conditions ∧ complete.isSome) ∧ ∃ refusal, result = .error refusal

/-- A result is the whole rendering exactly where it is due and fits, and what is due
but does not fit is refused for its size. -/
def NeverClips (result : ApiResult Bytes) : Prop :=
  (∀ bytes, result = .ok bytes ↔
    conditions ∧ complete = some bytes ∧ bytes.length ≤ limit) ∧
  ∀ bytes, conditions → complete = some bytes → limit < bytes.length →
    result = .error representationTooLarge

variable {limit conditions complete}

theorem renders_written {text : List Char} {result : ApiResult Bytes} (holds : conditions)
    (written : result = .ok (asBytes (String.ofList text)) ∨
      limit < utf8Length text ∧ result = .error representationTooLarge) :
    Renders limit conditions (some (asBytes (String.ofList text))) result := by
  rcases written with written | ⟨tooLong, failed⟩
  · exact .inl ⟨holds, _, rfl, written⟩
  · right; left
    refine ⟨_, rfl, ?_, failed⟩
    rw [asBytes_length, String.toList_ofList]
    exact tooLong

theorem renders_ok {bytes : Bytes} (holds : conditions) :
    Renders limit conditions (some bytes) (.ok bytes) :=
  .inl ⟨holds, bytes, rfl, rfl⟩

/-- Renderings that are not checked at all. -/
theorem renders_toOption (holds : conditions) (result : ApiResult Bytes) :
    Renders limit conditions result.toOption result := by
  cases result with
  | ok bytes => exact renders_ok holds
  | error refusal => exact .inr (.inr ⟨fun due => Bool.false_ne_true due.2, refusal, rfl⟩)

theorem neverClips_ok {bytes : Bytes} (holds : conditions) (fits : bytes.length ≤ limit) :
    NeverClips limit conditions (some bytes) (.ok bytes) := by
  constructor
  · intro other
    constructor
    · intro written
      cases written
      exact ⟨holds, rfl, fits⟩
    · rintro ⟨_, same, _⟩
      cases same
      rfl
  · intro other _ same tooLong
    cases same
    omega

theorem neverClips_tooLong {bytes : Bytes} (tooLong : limit < bytes.length) :
    NeverClips limit conditions (some bytes) (.error representationTooLarge) := by
  constructor
  · intro other
    constructor
    · intro written
      cases written
    · rintro ⟨_, same, small⟩
      cases same
      omega
  · intros
    rfl

/-- Nothing is due where a check before the rendering fails. -/
theorem neverClips_refused {result : ApiResult Bytes} {refusal : ApiErr}
    (refused : result = .error refusal) (notDue : ¬(conditions ∧ complete.isSome)) :
    NeverClips limit conditions complete result := by
  subst refused
  constructor
  · intro bytes
    constructor
    · intro written
      cases written
    · rintro ⟨holds, same, _⟩
      exact absurd ⟨holds, by rw [same]; rfl⟩ notDue
  · intro bytes holds same _
    exact absurd ⟨holds, by rw [same]; rfl⟩ notDue

/-- What is written is checked once more. -/
theorem neverClips_of_renders {result : ApiResult Bytes}
    (renders : Renders limit conditions complete result) :
    NeverClips limit conditions complete (do
      let encoded ← result
      ensure (encoded.length ≤ limit) representationTooLarge
      pure encoded) := by
  rcases renders with ⟨holds, whole, rfl, rfl⟩ | ⟨whole, rfl, tooLong, rfl⟩ |
    ⟨notDue, refusal, rfl⟩
  · by_cases fits : whole.length ≤ limit
    · have passed : ensure (whole.length ≤ limit) representationTooLarge = .ok () := if_pos fits
      simp only [bind, Except.bind, passed]
      exact neverClips_ok holds fits
    · have failed : ensure (whole.length ≤ limit) representationTooLarge =
          .error representationTooLarge := if_neg fits
      simp only [bind, Except.bind, failed]
      exact neverClips_tooLong (not_le.mp fits)
  · exact neverClips_tooLong tooLong
  · exact neverClips_refused rfl notDue

theorem NeverClips.congr {other : Prop} {result : ApiResult Bytes}
    (clips : NeverClips limit conditions complete result) (same : conditions ↔ other) :
    NeverClips limit other complete result := by
  rwa [← propext same]

end Outcomes

section Encode

variable {I : Interfaces} (contract : GraphContract I) (document : DependencyGraphDocument)

def CanonicalFits : Prop :=
  ∀ canonical ∈ contract.canonicalDocumentBytes document,
    canonical.length ≤ contract.maxEncodedBytes

variable {contract document}

/-- What both `encode` functions do after their own checks. -/
theorem neverClips_encodeCanonical {before : ApiResult Unit} {checked conditions : Prop}
    (passes : before = .ok () ↔ checked) {render : Bytes → ApiResult Bytes}
    {complete : Bytes → Option Bytes}
    (renders : ∀ canonical, Renders contract.maxEncodedBytes conditions (complete canonical)
      (render canonical)) :
    NeverClips contract.maxEncodedBytes
      (checked ∧ conditions ∧ CanonicalFits contract document)
      ((contract.canonicalDocumentBytes document).bind complete)
      (before >>= fun _ => encodeCanonical contract document render) := by
  cases before with
  | error refusal =>
      apply neverClips_refused rfl
      rintro ⟨⟨holds, _⟩, _⟩
      cases passes.mpr holds
  | ok _ =>
      have holds : checked := passes.mp rfl
      change NeverClips _ _ _ (encodeCanonical contract document render)
      unfold encodeCanonical CanonicalFits
      cases contract.canonicalDocumentBytes document with
      | none =>
          apply neverClips_refused rfl
          rintro ⟨_, some⟩
          cases some
      | some canonical =>
          by_cases fits : canonical.length ≤ contract.maxEncodedBytes
          · have passed : ensureEncodedSize contract canonical.length = .ok () := if_pos fits
            simp only [okOrElse, Option.elim_some, bind, Except.bind, passed, Option.bind]
            apply (neverClips_of_renders (renders canonical)).congr
            simp [holds, fits]
          · have failed : ensureEncodedSize contract canonical.length =
                .error representationTooLarge := if_neg fits
            simp only [okOrElse, Option.elim_some, bind, Except.bind, failed]
            apply neverClips_refused rfl
            rintro ⟨⟨_, _, small⟩, _⟩
            exact fits (small canonical rfl)

end Encode

/-! ## The formats -/

def WithinCounts {I : Interfaces} (contract : GraphContract I) : DependencyGraphData → Prop
  | .declared _ dependencies =>
    dependencies.length + 1 ≤ contract.maxNodes ∧ dependencies.length ≤ contract.maxEdges
  | .resolved _ _ nodes edges _ _ _ =>
    nodes.length ≤ contract.maxNodes ∧ edges.length ≤ contract.maxEdges

theorem ensureGraphBounds_ok {I : Interfaces} {contract : GraphContract I}
    (bounded : contract.maxNodes < 2 ^ 64) (document : DependencyGraphDocument) :
    ensureGraphBounds contract document = .ok () ↔ WithinCounts contract document.graph := by
  unfold ensureGraphBounds WithinCounts ensureGraphCounts
  cases document.graph with
  | declared package dependencies =>
      simp only [bind_ok, okOrElse_ok, ensure_ok]
      constructor
      · rintro ⟨nodes, added, counts⟩
        rw [checkedAdd_some added] at counts
        exact counts
      · intro counts
        exact ⟨dependencies.length + 1, if_pos (by omega), counts⟩
  | resolved _ _ nodes edges _ _ _ => exact ensure_ok

def json5Heading (document : DependencyGraphDocument) : Bytes :=
  asBytes ("// zpkg/dependency-graph/v1 — lossless JSON5 projection\n" ++
    "// graph_digest: " ++ document.graphDigest.getD "missing" ++ "\n" ++
    "// Comments may be removed; the remaining value is canonical JSON.\n")

section Formats

-- `parse` is `serde_json::from_slice` and `limit` the constant of the contract crate.
variable {I : Interfaces} (contract : GraphContract I) (floatText : UInt64 → List Char)
  (parse : Bytes → Except String JsonValue) (display : PackageVersionIdentity → String)
  (limit : UInt64)

/-- The encoders of `graph.rs` and `graph_exports`. -/
def graphRenderers : GraphRenderers I where
  yaml := YamlExport.encodeYaml floatText parse
  toml := TomlExport.encodeToml floatText parse
  dot := GraphDrawing.renderDot contract display
  mermaid := GraphDrawing.renderMermaid contract display
  xml := XmlExport.encode limit
  csv := CsvExport.encode limit
  messagePack := MessagePackExport.encode parse
  protobuf := ProtobufExport.encode

variable (document : DependencyGraphDocument)

/-- The complete text in a canonical format. -/
def canonicalRendering (sha256 : Bytes → String) (canonical : Bytes) :
    DependencyGraphFormat → Option Bytes
  | .json => some canonical
  | .yaml => (parse canonical).toOption.bind fun value =>
    some (asBytes (String.ofList (YamlExport.writeYaml floatText value 0)))
  | .toml => (parse canonical).toOption.bind fun value =>
    (TomlExport.writeToml floatText value).toOption.map fun text => asBytes (String.ofList text)
  | .dot => some (asBytes (String.ofList (GraphDrawing.dotRendering sha256 display document)))
  | .mermaid =>
    some (asBytes (String.ofList (GraphDrawing.mermaidRendering sha256 display document)))

def exportRendering (canonical : Bytes) : GraphExportFormat → Option Bytes
  | .json5 => some (json5Heading document ++ canonical ++ asBytes "\n")
  | .xml => some (renderedBytes document)
  | .csv => some (asBytes (String.ofList (CsvExport.rendering document)))
  | .messagePack => (parse canonical).toOption.bind fun value =>
    (MessagePackExport.messagepackValue value).toOption
  | .protobuf => some (ProtobufExport.encode document)

def Encodable (format : GraphExportFormat) : Prop :=
  format = .xml → (documentStrings document).all representable = true

variable {contract document}

/-- A format that starts from the parsed canonical JSON has no checks of its own. -/
theorem renders_parsed (convert : JsonValue → ApiResult Bytes) (canonical : Bytes) :
    Renders contract.maxEncodedBytes True
      ((parse canonical).toOption.bind fun value => (convert value).toOption)
      ((parse canonical).mapError (fun _ => ApiErr.internal) >>= convert) := by
  cases parse canonical with
  | error message => exact .inr (.inr ⟨fun due => Bool.false_ne_true due.2, _, rfl⟩)
  | ok value => exact renders_toOption trivial (convert value)

theorem renders_yaml (canonical : Bytes) :
    Renders contract.maxEncodedBytes True
      (canonicalRendering floatText parse display document I.sha256 canonical .yaml)
      (YamlExport.encodeYaml floatText parse canonical) :=
  renders_parsed parse (fun value =>
    pure (asBytes (String.ofList (YamlExport.writeYaml floatText value 0)))) canonical

theorem renders_toml (canonical : Bytes) :
    Renders contract.maxEncodedBytes True
      (canonicalRendering floatText parse display document I.sha256 canonical .toml)
      (TomlExport.encodeToml floatText parse canonical) := by
  have same (value : JsonValue) :
      (TomlExport.writeToml floatText value).toOption.map
          (fun text => asBytes (String.ofList text)) =
        (do let text ← TomlExport.writeToml floatText value
            pure (asBytes (String.ofList text)) : ApiResult Bytes).toOption := by
    cases TomlExport.writeToml floatText value <;> rfl
  simp only [canonicalRendering, same]
  exact renders_parsed parse _ canonical

theorem renders_json5 (bounded : contract.maxEncodedBytes < 2 ^ 64) (canonical : Bytes) :
    Renders contract.maxEncodedBytes True
      (exportRendering parse document canonical .json5)
      (encodeJson5 contract document canonical) := by
  have length : (json5Heading document ++ canonical ++ asBytes "\n").length =
      (json5Heading document).length + canonical.length + 1 := by
    rw [List.length_append, List.length_append]
    rfl
  have checked : encodeJson5 contract document canonical =
      (okOrElse (checkedAdd (json5Heading document).length canonical.length)
          representationTooLarge >>= fun length =>
        okOrElse (checkedAdd length 1) representationTooLarge >>= fun encodedLen =>
        ensureEncodedSize contract encodedLen >>= fun _ =>
        pure (json5Heading document ++ canonical ++ asBytes "\n")) := rfl
  by_cases fits : (json5Heading document).length + canonical.length + 1 ≤ contract.maxEncodedBytes
  · left
    refine ⟨trivial, _, rfl, ?_⟩
    have first : checkedAdd (json5Heading document).length canonical.length =
        some ((json5Heading document).length + canonical.length) := if_pos (by omega)
    have second : checkedAdd ((json5Heading document).length + canonical.length) 1 =
        some ((json5Heading document).length + canonical.length + 1) := if_pos (by omega)
    have passed : ensureEncodedSize contract
        ((json5Heading document).length + canonical.length + 1) = .ok () := if_pos fits
    simp only [checked, first, second, passed, okOrElse, Option.elim_some, bind, Except.bind]
    rfl
  · right; left
    refine ⟨_, rfl, by omega, ?_⟩
    rw [checked]
    cases added : checkedAdd (json5Heading document).length canonical.length with
    | none => rfl
    | some sum =>
        cases next : checkedAdd sum 1 with
        | none => simp only [okOrElse, Option.elim_some, bind, Except.bind, next, Option.elim_none]
        | some total =>
            have failed : ensureEncodedSize contract total = .error representationTooLarge := by
              rw [checkedAdd_some next, checkedAdd_some added]
              exact if_neg fits
            simp only [okOrElse, Option.elim_some, bind, Except.bind, next, failed]

theorem renders_xml (bounded : contract.maxEncodedBytes = limit.toNat) (canonical : Bytes) :
    Renders contract.maxEncodedBytes ((documentStrings document).all representable = true)
      (exportRendering parse document canonical .xml) (XmlExport.encode limit document) := by
  have length : (renderedBytes document).length = utf8Length (XmlExport.rendering document) := by
    rw [renderedBytes, asBytes_length, String.toList_ofList]
    rfl
  unfold XmlExport.encode
  rcases @XmlExport.emits_document limit document [] with
    ⟨valid, written⟩ | ⟨invalid, refused⟩ | ⟨tooLong, failed⟩
  · left
    rw [XmlExport.rendering_valid] at valid
    rw [written]
    exact ⟨valid, _, rfl, rfl⟩
  · right; right
    rw [XmlExport.rendering_valid] at invalid
    rw [refused]
    refine ⟨?_, _, rfl⟩
    rintro ⟨valid, _⟩
    rw [invalid] at valid
    cases valid
  · right; left
    rw [failed]
    refine ⟨_, rfl, ?_, rfl⟩
    rw [length, bounded]
    exact tooLong

theorem renders_csv (bounded : contract.maxEncodedBytes = limit.toNat) (canonical : Bytes) :
    Renders contract.maxEncodedBytes True
      (exportRendering parse document canonical .csv) (CsvExport.encode limit document) := by
  apply renders_written trivial
  rw [bounded]
  exact CsvExport.encode_writes document

/-- The canonical JSON of the contract crate is an object, and one that MessagePack can
hold, so every format has a rendering of it. -/
theorem renderings_exist {canonical : Bytes} {members : List (String × JsonValue)}
    (parsed : parse canonical = .ok (.object members))
    (representable : MessagePackExport.Representable (.object members)) :
    (∀ format, ∃ bytes,
      canonicalRendering floatText parse display document I.sha256 canonical format =
        some bytes) ∧
      ∀ format, ∃ bytes, exportRendering parse document canonical format = some bytes := by
  obtain ⟨packed, written⟩ := MessagePackExport.messagepackValue_succeeds representable
  constructor
  · intro format
    cases format with
    | json | dot | mermaid => exact ⟨_, rfl⟩
    | yaml =>
        simp only [canonicalRendering, parsed]
        exact ⟨_, rfl⟩
    | toml =>
        simp only [canonicalRendering, parsed]
        exact ⟨_, rfl⟩
  · intro format
    cases format with
    | json5 | xml | csv | protobuf => exact ⟨_, rfl⟩
    | messagePack =>
        simp only [exportRendering, parsed]
        exact ⟨packed, by
          change (MessagePackExport.messagepackValue (.object members)).toOption = some packed
          rw [written]
          rfl⟩

variable (contract document)

/-- The incremental checks of the four writers that have them refuse nothing that fits. -/
structure ChecksAreExact : Prop where
  csv : utf8Length (CsvExport.rendering document) ≤ limit.toNat →
    CsvExport.encode limit document =
      .ok (asBytes (String.ofList (CsvExport.rendering document)))
  xml : utf8Length (XmlExport.rendering document) ≤ limit.toNat →
    (documentStrings document).all representable = true →
    XmlExport.encode limit document = .ok (renderedBytes document)
  dot : utf8Length (GraphDrawing.dotRendering I.sha256 display document) ≤
      contract.maxEncodedBytes →
    GraphDrawing.renderDot contract display document =
      .ok (asBytes (String.ofList (GraphDrawing.dotRendering I.sha256 display document)))
  mermaid : utf8Length (GraphDrawing.mermaidRendering I.sha256 display document) ≤
      contract.maxEncodedBytes →
    GraphDrawing.renderMermaid contract display document =
      .ok (asBytes (String.ofList (GraphDrawing.mermaidRendering I.sha256 display document)))

variable {contract limit}

theorem checksAreExact (bounded : contract.maxEncodedBytes < 2 ^ 64) :
    ChecksAreExact contract display limit document where
  csv small := (CsvExport.encode_writes document).resolve_right fun tooLong => by omega
  xml small valid := (XmlExport.xml_round_trip small).1 valid |>.1
  dot small := (GraphDrawing.renderDot_writes bounded display document).resolve_right
    fun tooLong => by omega
  mermaid small := (GraphDrawing.renderMermaid_writes bounded display document).resolve_right
    fun tooLong => by omega

theorem canonical_never_clips (bounded : contract.maxEncodedBytes < 2 ^ 64)
    (nodesLimit : contract.maxNodes < 2 ^ 64) (format : DependencyGraphFormat) :
    NeverClips contract.maxEncodedBytes
      (WithinCounts contract document.graph ∧ CanonicalFits contract document)
      ((contract.canonicalDocumentBytes document).bind fun canonical =>
        canonicalRendering floatText parse display document I.sha256 canonical format)
      (encode contract (graphRenderers contract floatText parse display limit) document
        format) := by
  have passes := ensureGraphBounds_ok nodesLimit document
  have due : WithinCounts contract document.graph ∧ True ∧ CanonicalFits contract document ↔
      WithinCounts contract document.graph ∧ CanonicalFits contract document := by simp
  apply NeverClips.congr _ due
  cases format with
  | json => exact neverClips_encodeCanonical passes fun _ => renders_ok trivial
  | yaml => exact neverClips_encodeCanonical passes (renders_yaml floatText parse display)
  | toml => exact neverClips_encodeCanonical passes (renders_toml floatText parse display)
  | dot =>
      exact neverClips_encodeCanonical passes fun _ =>
        renders_written trivial (GraphDrawing.renderDot_writes bounded display document)
  | mermaid =>
      exact neverClips_encodeCanonical passes fun _ =>
        renders_written trivial (GraphDrawing.renderMermaid_writes bounded display document)

theorem export_never_clips (bytesLimit : contract.maxEncodedBytes = limit.toNat)
    (nodesLimit : contract.maxNodes < 2 ^ 64) (format : GraphExportFormat) :
    NeverClips contract.maxEncodedBytes
      (WithinCounts contract document.graph ∧ contract.verifyDigest document = true ∧
        Encodable document format ∧ CanonicalFits contract document)
      ((contract.canonicalDocumentBytes document).bind fun canonical =>
        exportRendering parse document canonical format)
      (encodeExport contract (graphRenderers contract floatText parse display limit) document
        format) := by
  have bounded : contract.maxEncodedBytes < 2 ^ 64 := bytesLimit ▸ limit.toNat_lt
  have passes : (ensureGraphBounds contract document >>= fun _ =>
      ensure (contract.verifyDigest document = true) ApiErr.internal) = .ok () ↔
        WithinCounts contract document.graph ∧ contract.verifyDigest document = true := by
    rw [bind_ok, ← ensureGraphBounds_ok nodesLimit document]
    simp only [ensure_ok, exists_and_right]
    apply and_congr_left
    intro _
    constructor
    · rintro ⟨_, passed⟩
      exact passed
    · intro passed
      exact ⟨(), passed⟩
  have clips : ∀ {conditions : Prop} {render : Bytes → ApiResult Bytes}
      {complete : Bytes → Option Bytes}, (Encodable document format ↔ conditions) →
      (∀ canonical, Renders contract.maxEncodedBytes conditions (complete canonical)
        (render canonical)) →
      NeverClips contract.maxEncodedBytes
        (WithinCounts contract document.graph ∧ contract.verifyDigest document = true ∧
          Encodable document format ∧ CanonicalFits contract document)
        ((contract.canonicalDocumentBytes document).bind complete)
        (ensureGraphBounds contract document >>= fun _ =>
          ensure (contract.verifyDigest document = true) ApiErr.internal >>= fun _ =>
            encodeCanonical contract document render) := by
    intro conditions render complete encodable renders
    rw [← bind_assoc]
    apply (neverClips_encodeCanonical passes renders).congr
    rw [encodable, and_assoc]
  have free : format ≠ .xml → (Encodable document format ↔ True) := fun other =>
    iff_true_intro fun same => absurd same other
  cases format with
  | json5 => exact clips (free (by decide)) (renders_json5 parse bounded)
  | xml =>
      refine clips ?_ (renders_xml parse limit bytesLimit)
      exact ⟨fun encodable => encodable rfl, fun valid _ => valid⟩
  | csv => exact clips (free (by decide)) (renders_csv parse limit bytesLimit)
  | messagePack =>
      exact clips (free (by decide)) (renders_parsed parse MessagePackExport.messagepackValue)
  | protobuf => exact clips (free (by decide)) fun _ => renders_ok trivial

theorem bounded_rendering_never_clips (bytesLimit : contract.maxEncodedBytes = limit.toNat)
    (nodesLimit : contract.maxNodes < 2 ^ 64) :
    (∀ format, NeverClips contract.maxEncodedBytes
      (WithinCounts contract document.graph ∧ CanonicalFits contract document)
      ((contract.canonicalDocumentBytes document).bind fun canonical =>
        canonicalRendering floatText parse display document I.sha256 canonical format)
      (encode contract (graphRenderers contract floatText parse display limit) document
        format)) ∧
    (∀ format, NeverClips contract.maxEncodedBytes
      (WithinCounts contract document.graph ∧ contract.verifyDigest document = true ∧
        Encodable document format ∧ CanonicalFits contract document)
      ((contract.canonicalDocumentBytes document).bind fun canonical =>
        exportRendering parse document canonical format)
      (encodeExport contract (graphRenderers contract floatText parse display limit) document
        format)) ∧
    (∀ canonical members, parse canonical = .ok (.object members) →
      MessagePackExport.Representable (.object members) →
      (∀ format, ∃ bytes,
        canonicalRendering floatText parse display document I.sha256 canonical format =
          some bytes) ∧
        ∀ format, ∃ bytes, exportRendering parse document canonical format = some bytes) ∧
    ChecksAreExact contract display limit document ∧
    (∀ value, CsvExport.encodedLen value =
      if utf8Length (CsvExport.fieldText value) < 2 ^ 64
        then some (utf8Length (CsvExport.fieldText value)) else none) ∧
    ∀ value output after, (CsvExport.csvField limit value).run output = .ok ((), after) →
      after = output ++ CsvExport.fieldText value := by
  have bounded : contract.maxEncodedBytes < 2 ^ 64 := bytesLimit ▸ limit.toNat_lt
  refine ⟨canonical_never_clips floatText parse display document bounded nodesLimit,
    export_never_clips floatText parse display document bytesLimit nodesLimit,
    fun canonical members => renderings_exist floatText parse display,
    checksAreExact display document bounded, CsvExport.encodedLen_eq, ?_⟩
  intro value output after written
  rcases CsvExport.writes_csvField value output with whole | ⟨_, failed⟩
  · rw [written] at whole
    exact congrArg Prod.snd (Except.ok.inj whole)
  · rw [written] at failed
    cases failed

end Formats

/-- A contract whose canonical JSON is one small document. -/
def smallContract : GraphContract (Interfaces.sample [] []) :=
  { sampleContract with
    canonicalDocumentBytes := fun _ => some (GraphText.sampleCanonical "\"tls\"") }

theorem bounded_rendering_never_clips_sample :
    ChecksAreExact smallContract (fun identity => identity.name) 4096 CsvExport.sampleDocument :=
  (bounded_rendering_never_clips (fun _ => []) (GraphText.sampleParse "\"tls\"" "tls")
    (fun identity => identity.name) CsvExport.sampleDocument (by decide) (by decide)).2.2.2.1

end ZedRegistry
