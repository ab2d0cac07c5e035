import ZedRegistry.BinaryContract
import ZedRegistry.GraphDocument
import ZedRegistry.Lib.XmlSpelling

/-!
# The XML rendering of a graph

`graph_exports/xml.rs`: the bounded output, the escapes, and the elements of a
document.
-/

set_option autoImplicit false

namespace ZedRegistry

def dependencyKindName : DependencyKind → String
  | .runtime => "runtime"
  | .build => "build"
  | .development => "development"
  | .peer => "peer"
  | .tooling => "tooling"

def completenessName : DependencyGraphCompleteness → String
  | .complete => "complete"
  | .projected => "projected"

def boolName (value : Bool) : String := if value then "true" else "false"

namespace XmlExport

/-! ## Output -/

/-- The characters of the `String` that is built up. -/
abbrev XmlOutput := List Char

abbrev XmlWriter := StateT XmlOutput (Except ApiErr) Unit

/-- `str::len`. -/
def utf8Length (text : List Char) : Nat := (text.map Char.utf8Size).sum

def notRepresentable : ApiErr :=
  ⟨422, "graph_not_representable",
    "dependency graph contains a character XML 1.0 cannot represent"⟩

def isXml10Character (character : Char) : Bool :=
  character = '\t' || character = '\n' || character = '\r' ||
    (0x20 ≤ character.toNat && character.toNat ≤ 0xd7ff) ||
    (0xe000 ≤ character.toNat && character.toNat ≤ 0xfffd) ||
    (0x10000 ≤ character.toNat && character.toNat ≤ 0x10ffff)

def escaped (inAttribute : Bool) (character : Char) : String :=
  match character, inAttribute with
  | '&', _ => "&amp;"
  | '<', _ => "&lt;"
  | '>', _ => "&gt;"
  | '"', true => "&quot;"
  | '\'', true => "&apos;"
  | '\t', true => "&#9;"
  | '\n', true => "&#10;"
  | '\r', _ => "&#13;"
  | character, _ => String.singleton character

/-- `to_string` and `{}` of an integer. -/
def decimal (value : Nat) : String := String.ofList (Nat.toDigits 10 value)

def writeIf (condition : Bool) (write : XmlWriter) : XmlWriter :=
  if condition then write else pure ()

section Writers

-- `limit` is `DEPENDENCY_GRAPH_DEFAULT_MAX_ENCODED_BYTES`.
variable (limit : UInt64)

def pushStr (value : String) : XmlWriter := fun output => do
  let length ← okOrElse (checkedAdd (utf8Length output) (utf8Length value.toList))
    representationTooLarge
  ensure (length ≤ limit.toNat) representationTooLarge
  pure ((), output ++ value.toList)

def xmlEscaped (value : String) (inAttribute : Bool) : XmlWriter :=
  value.toList.forM fun character =>
    if isXml10Character character then pushStr limit (escaped inAttribute character)
    else throw notRepresentable

def xmlText (value : String) : XmlWriter := xmlEscaped limit value false

def xmlAttribute (name value : String) : XmlWriter := do
  pushStr limit (" " ++ name ++ "=\"")
  xmlEscaped limit value true
  pushStr limit "\""

def xmlIdentityAttributes (identity : PackageVersionIdentity) : XmlWriter := do
  xmlAttribute limit "registry-id" identity.registryId
  xmlAttribute limit "org" identity.org
  xmlAttribute limit "name" identity.name
  xmlAttribute limit "version" identity.version

def xmlIdentity (tag : String) (identity : PackageVersionIdentity) : XmlWriter := do
  pushStr limit ("<" ++ tag)
  xmlIdentityAttributes limit identity
  pushStr limit " />\n"

def xmlFeatures (features : List String) (spaces : Nat) : XmlWriter := do
  let indent := String.ofList (List.replicate spaces ' ')
  pushStr limit (indent ++ "<features>\n")
  features.forM fun feature => do
    pushStr limit (indent ++ "  <feature>")
    xmlText limit feature
    pushStr limit "</feature>\n"
  pushStr limit (indent ++ "</features>\n")

/-- An element that stands alone unless it has features. -/
def xmlFeaturesOrEmpty (features : List String) (closing : String) : XmlWriter :=
  if features.isEmpty then pushStr limit " />\n"
  else do
    pushStr limit ">\n"
    xmlFeatures limit features 6
    pushStr limit closing

def xmlDependency (dependency : DeclaredDependency) : XmlWriter := do
  pushStr limit "    <dependency"
  xmlAttribute limit "registry-id" dependency.registryId
  xmlAttribute limit "org" dependency.org
  xmlAttribute limit "name" dependency.name
  xmlAttribute limit "requirement" dependency.requirement
  xmlAttribute limit "kind" (dependencyKindName dependency.kind)
  xmlAttribute limit "optional" (boolName dependency.optional)
  xmlAttribute limit "default-features" (boolName dependency.defaultFeatures)
  dependency.target.toList.forM (xmlAttribute limit "target")
  xmlFeaturesOrEmpty limit dependency.features "    </dependency>\n"

def xmlNode (node : ResolvedDependencyNode) : XmlWriter := do
  pushStr limit "    <node"
  xmlIdentityAttributes limit node.id
  node.artifactDigest.toList.forM (xmlAttribute limit "artifact-digest")
  xmlFeaturesOrEmpty limit node.features "    </node>\n"

def xmlEdge (edge : ResolvedDependencyEdge) : XmlWriter := do
  pushStr limit "    <edge"
  xmlAttribute limit "kind" (dependencyKindName edge.kind)
  xmlAttribute limit "optional" (boolName edge.optional)
  edge.requirement.toList.forM (xmlAttribute limit "requirement")
  edge.target.toList.forM (xmlAttribute limit "target")
  pushStr limit ">\n      "
  xmlIdentity limit "from" edge.source
  pushStr limit "      "
  xmlIdentity limit "to" edge.destination
  writeIf (!edge.features.isEmpty) (xmlFeatures limit edge.features 6)
  pushStr limit "    </edge>\n"

def xmlSnapshot (snapshot : RegistrySnapshot) : XmlWriter := do
  pushStr limit "      <registry-snapshot"
  xmlAttribute limit "registry-id" snapshot.registryId
  xmlAttribute limit "checkpoint-digest" snapshot.checkpointDigest
  pushStr limit " />\n"

def xmlProvenance (provenance : ResolutionProvenance) : XmlWriter := do
  pushStr limit "<provenance"
  xmlAttribute limit "resolver-version" provenance.resolverVersion
  xmlAttribute limit "target" provenance.target
  xmlAttribute limit "lock-digest" provenance.lockDigest
  pushStr limit ">\n"
  writeIf (!provenance.enabledFeatures.isEmpty) (xmlFeatures limit provenance.enabledFeatures 4)
  pushStr limit "    <registry-snapshots>\n"
  provenance.registrySnapshots.forM (xmlSnapshot limit)
  pushStr limit "    </registry-snapshots>\n  </provenance>\n"

def xmlKind (kind : DependencyKind) : XmlWriter :=
  pushStr limit ("      <kind>" ++ dependencyKindName kind ++ "</kind>\n")

def xmlKinds (kinds : List DependencyKind) : XmlWriter := do
  pushStr limit "    <kinds>\n"
  kinds.forM (xmlKind limit)
  pushStr limit "    </kinds>\n"

def xmlProjection (projection : DependencyGraphProjection) : XmlWriter := do
  pushStr limit "<projection"
  projection.target.toList.forM (xmlAttribute limit "target")
  projection.maxDepth.toList.forM fun maxDepth =>
    xmlAttribute limit "max-depth" (decimal maxDepth.toNat)
  if projection.features.isEmpty && projection.kinds.isEmpty then pushStr limit " />\n"
  else do
    pushStr limit ">\n"
    writeIf (!projection.features.isEmpty) (xmlFeatures limit projection.features 4)
    writeIf (!projection.kinds.isEmpty) (xmlKinds limit projection.kinds)
    pushStr limit "  </projection>\n"

def xmlGraph : DependencyGraphData → XmlWriter
  | .declared package dependencies => do
    xmlAttribute limit "view" "declared"
    pushStr limit ">\n  "
    xmlIdentity limit "package" package
    pushStr limit ("  <dependencies count=\"" ++ decimal dependencies.length ++ "\">\n")
    dependencies.forM (xmlDependency limit)
    pushStr limit "  </dependencies>\n</dependency-graph>\n"
  | .resolved completeness roots nodes edges provenance parentGraphDigest projection => do
    xmlAttribute limit "view" "resolved"
    xmlAttribute limit "completeness" (completenessName completeness)
    pushStr limit ">\n  <roots>\n"
    roots.forM fun root => do
      pushStr limit "    "
      xmlIdentity limit "root" root
    pushStr limit "  </roots>\n  <nodes>\n"
    nodes.forM (xmlNode limit)
    pushStr limit "  </nodes>\n  <edges>\n"
    edges.forM (xmlEdge limit)
    pushStr limit "  </edges>\n  "
    xmlProvenance limit provenance
    parentGraphDigest.toList.forM fun parent => do
      pushStr limit "  <parent-graph"
      xmlAttribute limit "digest" parent
      pushStr limit " />\n"
    projection.toList.forM fun projection => do
      pushStr limit "  "
      xmlProjection limit projection
    pushStr limit "</dependency-graph>\n"

def xmlDocument (document : DependencyGraphDocument) : XmlWriter := do
  pushStr limit "<?xml version=\"1.0\" encoding=\"UTF-8\"?>\n"
  pushStr limit "<dependency-graph"
  xmlAttribute limit "schema" document.schema
  document.graphDigest.toList.forM (xmlAttribute limit "graph-digest")
  xmlGraph limit document.graph

def encode (document : DependencyGraphDocument) : ApiResult Bytes := do
  let (_, output) ← (xmlDocument limit document).run []
  pure (asBytes (String.ofList output))

end Writers

end XmlExport

end ZedRegistry
