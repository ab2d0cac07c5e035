import ZedRegistry.Lib.BoundedOutput
import ZedRegistry.Lib.Csv
import ZedRegistry.Lib.JsonText
import ZedRegistry.Utf8
import ZedRegistry.XmlExport

/-!
# The CSV rendering of a graph

`graph_exports/csv.rs`: one record for the header and one for each node, edge and
root, with fields that a spreadsheet would run as formulas made harmless.
-/

set_option autoImplicit false

namespace ZedRegistry

open BoundedOutput

namespace CsvExport

open XmlExport (utf8Length writeIf)

abbrev CsvWriter := Writer ApiErr Char Unit

/-! ## Fields -/

/-- `char::is_whitespace`: the `White_Space` characters of Unicode. -/
def isWhitespace (character : Char) : Bool :=
  (0x9 ≤ character.toNat && character.toNat ≤ 0xd) || character.toNat = 0x20 ||
    character.toNat = 0x85 || character.toNat = 0xa0 || character.toNat = 0x1680 ||
    (0x2000 ≤ character.toNat && character.toNat ≤ 0x200a) || character.toNat = 0x2028 ||
    character.toNat = 0x2029 || character.toNat = 0x202f || character.toNat = 0x205f ||
    character.toNat = 0x3000

def trimStart (value : List Char) : List Char := value.dropWhile isWhitespace

def opensLine (character : Char) : Bool :=
  character = '\t' || character = '\r' || character = '\n'

def opensFormula (character : Char) : Bool :=
  character = '=' || character = '+' || character = '-' || character = '@'

def spreadsheetUnsafe (value : List Char) : Bool :=
  value.head?.any opensLine || (trimStart value).head?.any opensFormula

def needsQuotes (value : String) : Bool :=
  spreadsheetUnsafe value.toList || (asBytes value).any fun byte =>
    byte = ','.toUInt8 || byte = '"'.toUInt8 || byte = '\r'.toUInt8 || byte = '\n'.toUInt8

def quoteExpansion (value : String) : Nat := (asBytes value).count '"'.toUInt8

/-- The length that `csv_field` predicts. -/
def encodedLen (value : String) : Option Nat := do
  let length ← checkedAdd (asBytes value).length (quoteExpansion value)
  let length ← checkedAdd length (if spreadsheetUnsafe value.toList then 1 else 0)
  checkedAdd length (if needsQuotes value then 2 else 0)

/-- What `csv_field` pushes. -/
def fieldText (value : String) : List Char :=
  if needsQuotes value then
    '"' :: ((if spreadsheetUnsafe value.toList then ['\''] else []) ++
      (value.toList.flatMap (fun character =>
        if character = '"' then ['"', '"'] else [character]) ++ ['"']))
  else value.toList

section Writers

-- `limit` is `DEPENDENCY_GRAPH_DEFAULT_MAX_ENCODED_BYTES`.
variable (limit : UInt64)

def ensureRoom (current additional : Nat) : ApiResult Unit := do
  let length ← okOrElse (checkedAdd current additional) representationTooLarge
  ensure (length ≤ limit.toNat) representationTooLarge

def pushBounded (value : String) : CsvWriter := fun output => do
  ensureRoom limit (utf8Length output) (utf8Length value.toList)
  pure ((), output ++ value.toList)

def csvField (value : String) : CsvWriter := fun output => do
  let encodedLen ← okOrElse (encodedLen value) representationTooLarge
  ensureRoom limit (utf8Length output) encodedLen
  pure ((), output ++ fieldText value)

/-! ## Records -/

def csvRecord {size : Nat} (fields : Vector String size) : CsvWriter := do
  fields.toList.zipIdx.forM fun (field, index) => do
    writeIf (0 < index) (pushBounded limit ",")
    csvField limit field
  pushBounded limit "\r\n"

def csvHeader : Vector String 20 :=
  #v["record_type", "view", "graph_digest", "from_registry", "from_org", "from_name",
    "from_version", "to_registry", "to_org", "to_name", "to_version", "requirement", "kind",
    "optional", "default_features", "target", "features_json", "artifact_digest",
    "completeness", "schema"]

def emptyIdentity : PackageVersionIdentity := ⟨"", "", "", ""⟩

def csvRow (recordType view graphDigest : String)
    (source destination : Option PackageVersionIdentity) (requirement kind : String)
    (optional defaultFeatures : Option Bool)
    (target featuresJson artifactDigest completeness schema : String) : Vector String 20 :=
  let source := source.getD emptyIdentity
  let destination := destination.getD emptyIdentity
  #v[recordType, view, graphDigest, source.registryId, source.org, source.name, source.version,
    destination.registryId, destination.org, destination.name, destination.version, requirement,
    kind, (optional.map boolName).getD "", (defaultFeatures.map boolName).getD "", target,
    featuresJson, artifactDigest, completeness, schema]

/-- `serde_json::to_string` of a list of strings, which has no failing case. -/
def featuresJson (features : List String) : String :=
  String.ofList ('[' :: ([','].intercalate (features.map JsonText.quote) ++ [']']))

section Rows

variable (digest schema : String)

def packageRow (package : PackageVersionIdentity) : Vector String 20 :=
  csvRow "node" "declared" digest (some package) none "" "" none none "" "[]" "" "" schema

def dependencyRow (package : PackageVersionIdentity) (dependency : DeclaredDependency) :
    Vector String 20 :=
  let target := ⟨dependency.registryId, dependency.org, dependency.name, ""⟩
  csvRow "edge" "declared" digest (some package) (some target) dependency.requirement
    (dependencyKindName dependency.kind) (some dependency.optional)
    (some dependency.defaultFeatures) (dependency.target.getD "")
    (featuresJson dependency.features) "" "" schema

def rootRow (completeness : DependencyGraphCompleteness) (root : PackageVersionIdentity) :
    Vector String 20 :=
  csvRow "root" "resolved" digest (some root) none "" "" none none "" "[]" ""
    (completenessName completeness) schema

def nodeRow (completeness : DependencyGraphCompleteness) (node : ResolvedDependencyNode) :
    Vector String 20 :=
  csvRow "node" "resolved" digest (some node.id) none "" "" none none ""
    (featuresJson node.features) (node.artifactDigest.getD "") (completenessName completeness)
    schema

def edgeRow (completeness : DependencyGraphCompleteness) (edge : ResolvedDependencyEdge) :
    Vector String 20 :=
  csvRow "edge" "resolved" digest (some edge.source) (some edge.destination)
    (edge.requirement.getD "") (dependencyKindName edge.kind) (some edge.optional) none
    (edge.target.getD "") (featuresJson edge.features) "" (completenessName completeness) schema

end Rows

def csvGraph (digest schema : String) : DependencyGraphData → CsvWriter
  | .declared package dependencies => do
    csvRecord limit (packageRow digest schema package)
    dependencies.forM fun dependency =>
      csvRecord limit (dependencyRow digest schema package dependency)
  | .resolved completeness roots nodes edges _ _ _ => do
    roots.forM fun root => csvRecord limit (rootRow digest schema completeness root)
    nodes.forM fun node => csvRecord limit (nodeRow digest schema completeness node)
    edges.forM fun edge => csvRecord limit (edgeRow digest schema completeness edge)

def csvDocument (document : DependencyGraphDocument) : CsvWriter := do
  csvRecord limit csvHeader
  csvGraph limit (document.graphDigest.getD "") document.schema document.graph

def encode (document : DependencyGraphDocument) : ApiResult Bytes := do
  let (_, output) ← (csvDocument limit document).run []
  pure (asBytes (String.ofList output))

end Writers

end CsvExport

end ZedRegistry
