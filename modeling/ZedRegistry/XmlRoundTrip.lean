import ZedRegistry.XmlCharacters

/-!
# Graphs through XML

The document that is read back from its elements, and the round trip through
the text of the rendering.
-/

set_option autoImplicit false

namespace ZedRegistry

namespace XmlExport

open Xml

/-! ## Reading a document -/

abbrev Content := List (String × String) × List Xml.Node

/-- The attributes and children of the elements of this name; layout is skipped. -/
def childrenNamed (name : String) (nodes : List Xml.Node) : List Content :=
  nodes.filterMap fun node =>
    match node with
    | .element other attributes children =>
      if other = name then some (attributes, children) else none
    | .char _ => none

def child (name : String) (nodes : List Xml.Node) : Option Content :=
  match childrenNamed name nodes with
  | [only] => some only
  | _ => none

def optionalChild (name : String) (nodes : List Xml.Node) : Option (Option Content) :=
  match childrenNamed name nodes with
  | [] => some none
  | [only] => some (some only)
  | _ => none

def nodeCharacter : Xml.Node → Option Char
  | .char character => some character
  | .element _ _ _ => none

def textOf (nodes : List Xml.Node) : Option String := (nodes.mapM nodeCharacter).map String.ofList

def readKind (name : String) : Option DependencyKind :=
  [.runtime, .build, .development, .peer, .tooling].find? fun kind =>
    dependencyKindName kind = name

def readFlag (name : String) : Option Bool := [false, true].find? fun flag => boolName flag = name

def readDecimal (value : String) : Option UInt32 :=
  if value.toList ≠ [] ∧ value.toList.all Char.isDigit = true ∧
      Nat.ofDigitChars 10 value.toList 0 < 2 ^ 32 then
    some (UInt32.ofNat (Nat.ofDigitChars 10 value.toList 0))
  else none

def readIdentity (attributes : List (String × String)) : Option PackageVersionIdentity := do
  let registryId ← attributes.lookup "registry-id"
  let org ← attributes.lookup "org"
  let name ← attributes.lookup "name"
  let version ← attributes.lookup "version"
  pure ⟨registryId, org, name, version⟩

def readIdentityChild (tag : String) (nodes : List Xml.Node) : Option PackageVersionIdentity := do
  let (attributes, _) ← child tag nodes
  readIdentity attributes

def readFeature (content : Content) : Option String := textOf content.2

def readFeatures (nodes : List Xml.Node) : Option (List String) := do
  match ← optionalChild "features" nodes with
  | none => pure []
  | some (_, children) => (childrenNamed "feature" children).mapM readFeature

def readDependency (content : Content) : Option DeclaredDependency := do
  let (attributes, children) := content
  let registryId ← attributes.lookup "registry-id"
  let org ← attributes.lookup "org"
  let name ← attributes.lookup "name"
  let requirement ← attributes.lookup "requirement"
  let kind ← (attributes.lookup "kind").bind readKind
  let optional ← (attributes.lookup "optional").bind readFlag
  let defaultFeatures ← (attributes.lookup "default-features").bind readFlag
  let features ← readFeatures children
  pure ⟨registryId, org, name, requirement, kind, optional, defaultFeatures, features,
    attributes.lookup "target"⟩

def readNode (content : Content) : Option ResolvedDependencyNode := do
  let (attributes, children) := content
  let id ← readIdentity attributes
  let features ← readFeatures children
  pure ⟨id, attributes.lookup "artifact-digest", features⟩

def readEdge (content : Content) : Option ResolvedDependencyEdge := do
  let (attributes, children) := content
  let kind ← (attributes.lookup "kind").bind readKind
  let optional ← (attributes.lookup "optional").bind readFlag
  let source ← readIdentityChild "from" children
  let destination ← readIdentityChild "to" children
  let features ← readFeatures children
  pure ⟨source, destination, kind, attributes.lookup "requirement", attributes.lookup "target",
    optional, features⟩

def readRoot (content : Content) : Option PackageVersionIdentity := readIdentity content.1

def readSnapshot (content : Content) : Option RegistrySnapshot := do
  let registryId ← content.1.lookup "registry-id"
  let checkpointDigest ← content.1.lookup "checkpoint-digest"
  pure ⟨registryId, checkpointDigest⟩

def readProvenance (content : Content) : Option ResolutionProvenance := do
  let (attributes, children) := content
  let resolverVersion ← attributes.lookup "resolver-version"
  let target ← attributes.lookup "target"
  let lockDigest ← attributes.lookup "lock-digest"
  let enabledFeatures ← readFeatures children
  let (_, snapshots) ← child "registry-snapshots" children
  let registrySnapshots ← (childrenNamed "registry-snapshot" snapshots).mapM readSnapshot
  pure ⟨resolverVersion, target, enabledFeatures, registrySnapshots, lockDigest⟩

def readKindElement (content : Content) : Option DependencyKind := (textOf content.2).bind readKind

def readKinds (nodes : List Xml.Node) : Option (List DependencyKind) := do
  match ← optionalChild "kinds" nodes with
  | none => pure []
  | some (_, children) => (childrenNamed "kind" children).mapM readKindElement

def readMaxDepth (attributes : List (String × String)) : Option (Option UInt32) :=
  match attributes.lookup "max-depth" with
  | none => some none
  | some value => (readDecimal value).map some

def readProjection (content : Content) : Option DependencyGraphProjection := do
  let (attributes, children) := content
  let features ← readFeatures children
  let kinds ← readKinds children
  let maxDepth ← readMaxDepth attributes
  pure ⟨attributes.lookup "target", features, kinds, maxDepth⟩

def readOptionalProjection (nodes : List Xml.Node) : Option (Option DependencyGraphProjection) := do
  match ← optionalChild "projection" nodes with
  | none => pure none
  | some content => (readProjection content).map some

def readParent (nodes : List Xml.Node) : Option (Option String) := do
  match ← optionalChild "parent-graph" nodes with
  | none => pure none
  | some (attributes, _) => (attributes.lookup "digest").map some

def readCompleteness (name : String) : Option DependencyGraphCompleteness :=
  [.complete, .projected].find? fun completeness => completenessName completeness = name

def readDeclared (nodes : List Xml.Node) : Option DependencyGraphData := do
  let package ← readIdentityChild "package" nodes
  let (_, children) ← child "dependencies" nodes
  let dependencies ← (childrenNamed "dependency" children).mapM readDependency
  pure (.declared package dependencies)

def readResolved (attributes : List (String × String)) (nodes : List Xml.Node) :
    Option DependencyGraphData := do
  let completeness ← (attributes.lookup "completeness").bind readCompleteness
  let (_, rootElements) ← child "roots" nodes
  let roots ← (childrenNamed "root" rootElements).mapM readRoot
  let (_, nodeElements) ← child "nodes" nodes
  let resolvedNodes ← (childrenNamed "node" nodeElements).mapM readNode
  let (_, edgeElements) ← child "edges" nodes
  let edges ← (childrenNamed "edge" edgeElements).mapM readEdge
  let content ← child "provenance" nodes
  let provenance ← readProvenance content
  let parentGraphDigest ← readParent nodes
  let projection ← readOptionalProjection nodes
  pure (.resolved completeness roots resolvedNodes edges provenance parentGraphDigest projection)

def readGraph (attributes : List (String × String)) (nodes : List Xml.Node) :
    Option DependencyGraphData :=
  match attributes.lookup "view" with
  | some "declared" => readDeclared nodes
  | some "resolved" => readResolved attributes nodes
  | _ => none

def readDocument : Xml.Node → Option DependencyGraphDocument
  | .element "dependency-graph" attributes children => do
    let schema ← attributes.lookup "schema"
    let graph ← readGraph attributes children
    pure ⟨schema, graph, attributes.lookup "graph-digest"⟩
  | _ => none

def decode (bytes : Bytes) : Option DependencyGraphDocument := do
  let text ← decodeUtf8 bytes
  let root ← parse text.toList
  readDocument root

/-! ## The elements read back -/

section Children

variable (name : String)

@[simp] theorem childrenNamed_nil : childrenNamed name [] = [] := rfl

@[simp] theorem childrenNamed_append (left right : List Xml.Node) :
    childrenNamed name (left ++ right) = childrenNamed name left ++ childrenNamed name right :=
  List.filterMap_append

@[simp] theorem childrenNamed_element (other : String) (attributes : List (String × String))
    (children nodes : List Xml.Node) :
    childrenNamed name (.element other attributes children :: nodes) =
      (if other = name then [(attributes, children)] else []) ++ childrenNamed name nodes := by
  unfold childrenNamed
  by_cases same : other = name <;> simp [same]

@[simp] theorem childrenNamed_text (value : String) : childrenNamed name (text value) = [] := by
  unfold text
  induction value.toList with
  | nil => rfl
  | cons character characters inductionHypothesis => exact inductionHypothesis

theorem childrenNamed_flatMap {α : Type} {nodes : α → List Xml.Node} {content : α → Content}
    (each : ∀ item, childrenNamed name (nodes item) = [content item]) (items : List α) :
    childrenNamed name (items.flatMap nodes) = items.map content := by
  induction items with
  | nil => rfl
  | cons item items inductionHypothesis =>
      rw [List.flatMap_cons, childrenNamed_append, each, inductionHypothesis, List.map_cons,
        List.singleton_append]

theorem childrenNamed_flatMap_other {α : Type} {nodes : α → List Xml.Node}
    (each : ∀ item, childrenNamed name (nodes item) = []) (items : List α) :
    childrenNamed name (items.flatMap nodes) = [] := by
  induction items with
  | nil => rfl
  | cons item items inductionHypothesis =>
      rw [List.flatMap_cons, childrenNamed_append, each, inductionHypothesis, List.nil_append]

/-- Each element of a list is read as the item it was written for. -/
theorem children_read {α : Type} {read : Content → Option α} {nodes : α → List Xml.Node}
    {content : α → Content} {before after : String}
    (each : ∀ item, childrenNamed name (nodes item) = [content item])
    (reads : ∀ item, read (content item) = some item) (items : List α) :
    (childrenNamed name (text before ++ items.flatMap nodes ++ text after)).mapM read =
      some items := by
  rw [childrenNamed_append, childrenNamed_append, childrenNamed_text, childrenNamed_text,
    List.nil_append, List.append_nil, childrenNamed_flatMap name each]
  induction items with
  | nil => rfl
  | cons item items inductionHypothesis =>
      rw [List.map_cons, List.mapM_cons, reads, inductionHypothesis]
      rfl

end Children

theorem lookup_optional (name : String) (value : Option String) :
    (value.toList.map (name, ·)).lookup name = value := by
  cases value <;> simp

theorem lookup_optional_other {name other : String} (different : name ≠ other)
    (value : Option String) : (value.toList.map (other, ·)).lookup name = none := by
  cases value <;> simp [different]

theorem textOf_text (value : String) : textOf (text value) = some value := by
  have characters : (text value).mapM nodeCharacter = some value.toList := by
    unfold text
    induction value.toList with
    | nil => rfl
    | cons character characters inductionHypothesis =>
        rw [List.map_cons, List.mapM_cons, inductionHypothesis]
        rfl
  rw [textOf, characters, Option.map_some, String.ofList_toList]

theorem readKind_name (kind : DependencyKind) : readKind (dependencyKindName kind) = some kind := by
  cases kind <;> decide

theorem readFlag_name (flag : Bool) : readFlag (boolName flag) = some flag := by
  cases flag <;> decide

theorem readDecimal_decimal (value : UInt32) : readDecimal (decimal value.toNat) = some value := by
  have digits := decimal_digits value.toNat
  have back : Nat.ofDigitChars 10 (decimal value.toNat).toList 0 = value.toNat := by
    rw [decimal, String.toList_ofList, Nat.ofDigitChars_ten_toDigits]
  have nonempty : (decimal value.toNat).toList ≠ [] := by
    rw [decimal, String.toList_ofList]
    exact Nat.toDigits_ne_nil
  rw [readDecimal, back, if_pos ⟨nonempty, List.all_eq_true.mpr digits, value.toNat_lt⟩,
    UInt32.ofNat_toNat]

theorem readIdentity_read (identity : PackageVersionIdentity) (more : List (String × String)) :
    readIdentity (identityAttributes identity ++ more) = some identity := by
  simp [readIdentity, identityAttributes, List.lookup_cons]

theorem child_single {name : String} {nodes : List Xml.Node} {content : Content}
    (single : childrenNamed name nodes = [content]) : child name nodes = some content := by
  rw [child, single]

theorem readIdentityChild_read {tag : String} {nodes : List Xml.Node}
    {identity : PackageVersionIdentity}
    (single : childrenNamed tag nodes = [(identityAttributes identity, [])]) :
    readIdentityChild tag nodes = some identity := by
  have read := readIdentity_read identity []
  rw [List.append_nil] at read
  rw [readIdentityChild, child_single single]
  exact read

/-- The content of the `features` element, if there is one. -/
def featuresContents (count : Nat) (features : List String) : List Content :=
  if features.isEmpty then []
  else [([], text "\n" ++ features.flatMap (featureNodes count) ++ text (spaces count))]

theorem readFeatures_read {nodes : List Xml.Node} {features : List String} {count : Nat}
    (written : childrenNamed "features" nodes = featuresContents count features) :
    readFeatures nodes = some features := by
  have each (feature : String) : childrenNamed "feature" (featureNodes count feature) =
      [([], text feature)] := by
    simp [featureNodes]
  have inside := @children_read "feature" _ readFeature _ _ "\n" (spaces count) each textOf_text
    features
  unfold featuresContents at written
  split at written
  · rename_i empty
    rw [readFeatures, optionalChild, written, List.isEmpty_iff.mp empty]
    rfl
  · rw [readFeatures, optionalChild, written]
    exact inside

theorem featuresNodes_children (name : String) (count : Nat) (features : List String) :
    childrenNamed name (featuresNodes count features) =
      if "features" = name then
        [([], text "\n" ++ features.flatMap (featureNodes count) ++ text (spaces count))]
      else [] := by
  simp [featuresNodes]

theorem featuresContent_children (features : List String) :
    childrenNamed "features" (featuresContent features) = featuresContents 6 features := by
  unfold featuresContent featuresContents
  split
  · rfl
  · simp [featuresNodes_children]

theorem optionalFeatures_children (count : Nat) (features : List String) :
    childrenNamed "features" (optionalFeatures count features) =
      featuresContents count features := by
  unfold optionalFeatures featuresContents
  cases features with
  | nil => rfl
  | cons feature features => simp [featuresNodes_children]

theorem optionalFeatures_other {name : String} (different : "features" ≠ name) (count : Nat)
    (features : List String) : childrenNamed name (optionalFeatures count features) = [] := by
  unfold optionalFeatures
  split
  · rw [featuresNodes_children, if_neg different]
  · rfl

theorem readDependency_read (dependency : DeclaredDependency) :
    readDependency (dependencyAttributes dependency, featuresContent dependency.features) =
      some dependency := by
  have features := readFeatures_read (featuresContent_children dependency.features)
  have target : (dependencyAttributes dependency).lookup "target" = dependency.target := by
    simp [dependencyAttributes, List.lookup_cons, lookup_optional]
  simp only [readDependency, features, target]
  simp [dependencyAttributes, List.lookup_cons, readKind_name, readFlag_name]

theorem dependency_children (dependency : DeclaredDependency) :
    childrenNamed "dependency" (dependencyNodes dependency) =
      [(dependencyAttributes dependency, featuresContent dependency.features)] := by
  simp [dependencyNodes]

theorem readNode_read (node : ResolvedDependencyNode) :
    readNode (identityAttributes node.id ++
      node.artifactDigest.toList.map ("artifact-digest", ·), featuresContent node.features) =
      some node := by
  have features := readFeatures_read (featuresContent_children node.features)
  have digest : (identityAttributes node.id ++
      node.artifactDigest.toList.map ("artifact-digest", ·)).lookup "artifact-digest" =
        node.artifactDigest := by
    simp [identityAttributes, List.lookup_cons, lookup_optional]
  simp only [readNode, features, digest, readIdentity_read, Option.bind_eq_bind,
    Option.bind_some, Option.pure_def]

theorem node_children (node : ResolvedDependencyNode) :
    childrenNamed "node" (nodeNodes node) = [(identityAttributes node.id ++
      node.artifactDigest.toList.map ("artifact-digest", ·), featuresContent node.features)] := by
  simp [nodeNodes]

def edgeContent (edge : ResolvedDependencyEdge) : List Xml.Node :=
  text "\n      " ++ [identityNode "from" edge.source] ++ text "\n      " ++
    [identityNode "to" edge.destination] ++ text "\n" ++ optionalFeatures 6 edge.features ++
    text "    "

theorem readEdge_read (edge : ResolvedDependencyEdge) :
    readEdge (edgeAttributes edge, edgeContent edge) = some edge := by
  have source : readIdentityChild "from" (edgeContent edge) = some edge.source :=
    readIdentityChild_read (by simp [edgeContent, identityNode, optionalFeatures_other])
  have destination : readIdentityChild "to" (edgeContent edge) = some edge.destination :=
    readIdentityChild_read (by simp [edgeContent, identityNode, optionalFeatures_other])
  have features : readFeatures (edgeContent edge) = some edge.features :=
    @readFeatures_read _ _ 6 (by simp [edgeContent, identityNode, optionalFeatures_children])
  have requirement : (edgeAttributes edge).lookup "requirement" = edge.requirement := by
    simp [edgeAttributes, List.lookup_cons, List.lookup_append, lookup_optional,
      lookup_optional_other]
  have target : (edgeAttributes edge).lookup "target" = edge.target := by
    simp [edgeAttributes, List.lookup_cons, List.lookup_append, lookup_optional,
      lookup_optional_other]
  simp only [readEdge, source, destination, features, requirement, target]
  simp [edgeAttributes, List.lookup_cons, readKind_name, readFlag_name]

theorem edge_children (edge : ResolvedDependencyEdge) :
    childrenNamed "edge" (edgeNodes edge) = [(edgeAttributes edge, edgeContent edge)] := by
  simp [edgeNodes, edgeContent]

theorem readRoot_read (root : PackageVersionIdentity) :
    readRoot (identityAttributes root, []) = some root := by
  have read := readIdentity_read root []
  rw [List.append_nil] at read
  exact read

theorem root_children (root : PackageVersionIdentity) :
    childrenNamed "root" (rootNodes root) = [(identityAttributes root, [])] := by
  simp [rootNodes, identityNode]

def snapshotContent (snapshot : RegistrySnapshot) : Content :=
  ([("registry-id", snapshot.registryId), ("checkpoint-digest", snapshot.checkpointDigest)], [])

theorem readSnapshot_read (snapshot : RegistrySnapshot) :
    readSnapshot (snapshotContent snapshot) = some snapshot := by
  simp [readSnapshot, snapshotContent, List.lookup_cons]

theorem snapshot_children (snapshot : RegistrySnapshot) :
    childrenNamed "registry-snapshot" (snapshotNodes snapshot) = [snapshotContent snapshot] := by
  simp [snapshotNodes, snapshotContent]

def provenanceContent (provenance : ResolutionProvenance) : Content :=
  ([("resolver-version", provenance.resolverVersion), ("target", provenance.target),
      ("lock-digest", provenance.lockDigest)],
    text "\n" ++ optionalFeatures 4 provenance.enabledFeatures ++ text "    " ++
      [.element "registry-snapshots" []
        (text "\n" ++ provenance.registrySnapshots.flatMap snapshotNodes ++ text "    ")] ++
      text "\n  ")

theorem readProvenance_read (provenance : ResolutionProvenance) :
    readProvenance (provenanceContent provenance) = some provenance := by
  have features : readFeatures (provenanceContent provenance).2 =
      some provenance.enabledFeatures :=
    @readFeatures_read _ _ 4 (by simp [provenanceContent, optionalFeatures_children])
  have listed : child "registry-snapshots" (provenanceContent provenance).2 = some ([],
      text "\n" ++ provenance.registrySnapshots.flatMap snapshotNodes ++ text "    ") := by
    apply child_single
    simp [provenanceContent, optionalFeatures_other]
  have snapshots := @children_read "registry-snapshot" _ readSnapshot _ _ "\n" "    "
    snapshot_children readSnapshot_read provenance.registrySnapshots
  have attributes : (provenanceContent provenance).1.lookup "resolver-version" =
        some provenance.resolverVersion ∧
      (provenanceContent provenance).1.lookup "target" = some provenance.target ∧
        (provenanceContent provenance).1.lookup "lock-digest" = some provenance.lockDigest := by
    simp [provenanceContent, List.lookup_cons]
  simp only [readProvenance, attributes, features, listed, snapshots, Option.bind_eq_bind,
    Option.bind_some, Option.pure_def]

theorem readKindElement_read (kind : DependencyKind) :
    readKindElement ([], text (dependencyKindName kind)) = some kind := by
  rw [readKindElement, textOf_text, Option.bind_some, readKind_name]

theorem kind_children (kind : DependencyKind) :
    childrenNamed "kind" (kindNodes kind) = [([], text (dependencyKindName kind))] := by
  simp [kindNodes]

theorem kindsNodes_children (kinds : List DependencyKind) :
    childrenNamed "kinds" (kindsNodes kinds) =
      if kinds.isEmpty then []
      else [([], text "\n" ++ kinds.flatMap kindNodes ++ text "    ")] := by
  unfold kindsNodes
  cases kinds with
  | nil => rfl
  | cons kind kinds => simp

theorem kindsNodes_other {name : String} (different : "kinds" ≠ name)
    (kinds : List DependencyKind) : childrenNamed name (kindsNodes kinds) = [] := by
  unfold kindsNodes
  split
  · simp [different]
  · rfl

theorem readKinds_read {nodes : List Xml.Node} {kinds : List DependencyKind}
    (written : childrenNamed "kinds" nodes = if kinds.isEmpty then []
      else [([], text "\n" ++ kinds.flatMap kindNodes ++ text "    ")]) :
    readKinds nodes = some kinds := by
  have inside := @children_read "kind" _ readKindElement _ _ "\n" "    " kind_children
    readKindElement_read kinds
  split at written
  · rename_i empty
    rw [readKinds, optionalChild, written, List.isEmpty_iff.mp empty]
    rfl
  · rw [readKinds, optionalChild, written]
    exact inside

theorem readProjection_read (projection : DependencyGraphProjection) :
    readProjection (projectionAttributes projection, projectionContent projection) =
      some projection := by
  have featureChildren : childrenNamed "features" (projectionContent projection) =
      featuresContents 4 projection.features := by
    unfold projectionContent
    split
    · rename_i empty
      simp only [Bool.and_eq_true] at empty
      simp [featuresContents, empty.1]
    · simp [optionalFeatures_children, kindsNodes_other]
  have kindChildren : childrenNamed "kinds" (projectionContent projection) =
      if projection.kinds.isEmpty then []
      else [([], text "\n" ++ projection.kinds.flatMap kindNodes ++ text "    ")] := by
    unfold projectionContent
    split
    · rename_i empty
      simp only [Bool.and_eq_true] at empty
      simp [empty.2]
    · simp [kindsNodes_children, optionalFeatures_other]
  have depth : readMaxDepth (projectionAttributes projection) = some projection.maxDepth := by
    cases maxDepth : projection.maxDepth with
    | none =>
        simp [readMaxDepth, projectionAttributes, maxDepth, lookup_optional_other]
    | some value =>
        simp [readMaxDepth, projectionAttributes, maxDepth, List.lookup_append,
          lookup_optional_other, readDecimal_decimal]
  have target : (projectionAttributes projection).lookup "target" = projection.target := by
    cases maxDepth : projection.maxDepth <;>
      simp [projectionAttributes, maxDepth, List.lookup_append, lookup_optional]
  simp only [readProjection, readFeatures_read featureChildren, readKinds_read kindChildren,
    depth, target, Option.bind_eq_bind, Option.bind_some, Option.pure_def]

theorem projection_children (projection : DependencyGraphProjection) :
    childrenNamed "projection" (projectionNodes projection) =
      [(projectionAttributes projection, projectionContent projection)] := by
  simp [projectionNodes]

theorem parent_children (parent : String) :
    childrenNamed "parent-graph" (parentNodes parent) = [([("digest", parent)], [])] := by
  simp [parentNodes]

/-! ## The round trip -/

theorem optionalChild_read {α : Type} {name : String} {nodes : List Xml.Node}
    {content : α → Content} {value : Option α}
    (written : childrenNamed name nodes = value.toList.map content) :
    optionalChild name nodes = some (value.map content) := by
  rw [optionalChild, written]
  cases value <;> rfl

theorem readGraph_declared (attributes : List (String × String))
    (package : PackageVersionIdentity) (dependencies : List DeclaredDependency)
    (view : attributes.lookup "view" = some "declared") :
    readGraph attributes (graphNodes (.declared package dependencies)) =
      some (.declared package dependencies) := by
  have identity : readIdentityChild "package" (graphNodes (.declared package dependencies)) =
      some package := readIdentityChild_read (by simp [graphNodes, identityNode])
  have listed : child "dependencies" (graphNodes (.declared package dependencies)) =
      some ([("count", decimal dependencies.length)],
        text "\n" ++ dependencies.flatMap dependencyNodes ++ text "  ") := by
    apply child_single
    simp [graphNodes, identityNode]
  have inside := @children_read "dependency" _ readDependency _ _ "\n" "  "
    dependency_children readDependency_read dependencies
  simp only [readGraph, view, readDeclared, identity, listed, inside, Option.bind_eq_bind,
    Option.bind_some, Option.pure_def]

theorem provenanceNodes_children (name : String) (provenance : ResolutionProvenance) :
    childrenNamed name (provenanceNodes provenance) =
      if "provenance" = name then [provenanceContent provenance] else [] := by
  simp [provenanceNodes, provenanceContent]

section Resolved

variable (completeness : DependencyGraphCompleteness) (roots : List PackageVersionIdentity)
  (nodes : List ResolvedDependencyNode) (edges : List ResolvedDependencyEdge)
  (provenance : ResolutionProvenance) (parentGraphDigest : Option String)
  (projection : Option DependencyGraphProjection)

theorem parentNodes_other {name : String} (different : "parent-graph" ≠ name) :
    childrenNamed name (parentGraphDigest.toList.flatMap parentNodes) = [] :=
  childrenNamed_flatMap_other name (fun parent => by simp [parentNodes, different]) _

theorem projectionNodes_other {name : String} (different : "projection" ≠ name) :
    childrenNamed name (projection.toList.flatMap projectionNodes) = [] :=
  childrenNamed_flatMap_other name (fun item => by simp [projectionNodes, different]) _

theorem readGraph_resolved (attributes : List (String × String))
    (view : attributes.lookup "view" = some "resolved")
    (complete : attributes.lookup "completeness" = some (completenessName completeness)) :
    readGraph attributes (graphNodes (.resolved completeness roots nodes edges provenance
        parentGraphDigest projection)) =
      some (.resolved completeness roots nodes edges provenance parentGraphDigest
        projection) := by
  have completenessRead : readCompleteness (completenessName completeness) =
      some completeness := by
    cases completeness <;> decide
  generalize written : graphNodes (.resolved completeness roots nodes edges provenance
    parentGraphDigest projection) = inner
  have rootList : child "roots" inner =
      some ([], text "\n" ++ roots.flatMap rootNodes ++ text "  ") := by
    apply child_single
    simp [← written, graphNodes, provenanceNodes_children, parentNodes_other,
      projectionNodes_other]
  have nodeList : child "nodes" inner =
      some ([], text "\n" ++ nodes.flatMap nodeNodes ++ text "  ") := by
    apply child_single
    simp [← written, graphNodes, provenanceNodes_children, parentNodes_other,
      projectionNodes_other]
  have edgeList : child "edges" inner =
      some ([], text "\n" ++ edges.flatMap edgeNodes ++ text "  ") := by
    apply child_single
    simp [← written, graphNodes, provenanceNodes_children, parentNodes_other,
      projectionNodes_other]
  have provenanceChild : child "provenance" inner = some (provenanceContent provenance) := by
    apply child_single
    simp [← written, graphNodes, provenanceNodes_children, parentNodes_other,
      projectionNodes_other]
  have parentChild : optionalChild "parent-graph" inner =
      some (parentGraphDigest.map fun parent => ([("digest", parent)], [])) := by
    apply optionalChild_read
    simp [← written, graphNodes, provenanceNodes_children, projectionNodes_other,
      childrenNamed_flatMap "parent-graph" parent_children]
  have projectionChild : optionalChild "projection" inner =
      some (projection.map fun item => (projectionAttributes item, projectionContent item)) := by
    apply optionalChild_read
    simp [← written, graphNodes, provenanceNodes_children, parentNodes_other,
      childrenNamed_flatMap "projection" projection_children]
  have readRoots := @children_read "root" _ readRoot _ _ "\n" "  " root_children readRoot_read
    roots
  have readNodes := @children_read "node" _ readNode _ _ "\n" "  " node_children readNode_read
    nodes
  have readEdges := @children_read "edge" _ readEdge _ _ "\n" "  " edge_children readEdge_read
    edges
  have parentRead : readParent inner = some parentGraphDigest := by
    rw [readParent, parentChild]
    cases parentGraphDigest <;> rfl
  have projectionRead : readOptionalProjection inner = some projection := by
    rw [readOptionalProjection, projectionChild]
    cases projection with
    | none => rfl
    | some item => simp [readProjection_read]
  simp only [readGraph, view, readResolved, complete, completenessRead, rootList, nodeList,
    edgeList, provenanceChild, readRoots, readNodes, readEdges, readProvenance_read, parentRead,
    projectionRead, Option.bind_eq_bind, Option.bind_some, Option.pure_def]

end Resolved

theorem readDocument_read (document : DependencyGraphDocument) :
    readDocument (documentNode document) = some document := by
  obtain ⟨schema, graph, graphDigest⟩ := document
  generalize written : [("schema", schema)] ++ graphDigest.toList.map ("graph-digest", ·) ++
    graphAttributes graph = attributes
  have schemaRead : attributes.lookup "schema" = some schema := by
    simp [← written]
  have digestRead : attributes.lookup "graph-digest" = graphDigest := by
    cases graph <;> simp [← written, graphAttributes, List.lookup_cons, List.lookup_append,
      lookup_optional]
  have graphRead : readGraph attributes (graphNodes graph) = some graph := by
    cases graph with
    | declared package dependencies =>
        apply readGraph_declared
        simp [← written, graphAttributes, List.lookup_cons, List.lookup_append,
          lookup_optional_other]
    | resolved completeness roots nodes edges provenance parentGraphDigest projection =>
        apply readGraph_resolved
        · simp [← written, graphAttributes, List.lookup_cons, List.lookup_append,
            lookup_optional_other]
        · simp [← written, graphAttributes, List.lookup_cons, List.lookup_append,
            lookup_optional_other]
  rw [documentNode, written]
  simp only [readDocument, schemaRead, digestRead, graphRead, Option.bind_eq_bind,
    Option.bind_some, Option.pure_def]

theorem rootOf_documentNodes (document : DependencyGraphDocument) :
    rootOf (documentNodes document) = some (documentNode document) := by
  have space : isSpace '\n' = true := by decide
  simp [documentNodes, documentNode, text, rootOf, space]

theorem decode_rendering {document : DependencyGraphDocument}
    (valid : (documentStrings document).all representable = true) :
    decode (asBytes (String.ofList (rendering document))) = some document := by
  have characters : (rendering document).all isChar = true := by
    rw [← isXml10Character_eq, rendering_valid, valid]
  have parsed : parse (rendering document) = some (documentNode document) := by
    rw [rendering, parse_spellDocument spelling (by decide) (by decide)
      (named_document document) characters, rootOf_documentNodes]
  simp only [decode, decodeUtf8_asBytes, String.toList_ofList, parsed, readDocument_read,
    Option.bind_eq_bind, Option.bind_some]

/-- What is written of a document. -/
def renderedBytes (document : DependencyGraphDocument) : Bytes :=
  asBytes (String.ofList (rendering document))

/-- `limit` bounds the text that would be written, whatever its characters. -/
theorem xml_round_trip {limit : UInt64} {document : DependencyGraphDocument}
    (small : utf8Length (rendering document) ≤ limit.toNat) :
    ((documentStrings document).all representable = true →
      encode limit document = .ok (renderedBytes document) ∧
        decode (renderedBytes document) = some document) ∧
      ((documentStrings document).all representable = false →
        encode limit document = .error notRepresentable) := by
  have emitted := @Emits.within limit _ _ (emits_document document) [] small
  rw [rendering_valid, List.nil_append] at emitted
  constructor
  · intro valid
    rw [if_pos valid] at emitted
    refine ⟨?_, decode_rendering valid⟩
    rw [encode, emitted]
    rfl
  · intro invalid
    rw [invalid] at emitted
    rw [encode, emitted]
    rfl

def sampleIdentity : PackageVersionIdentity := ⟨"zpkg", "acme", "app", "1.0.0"⟩

def sampleDocument : DependencyGraphDocument where
  schema := "zpkg/dependency-graph/v1"
  graphDigest := some "sha256:0d"
  graph := .declared sampleIdentity
    [⟨"zpkg", "acme", "lib\t<&\"", "^1\r\n", .peer, true, false, ["", "]]>\ré"], some "'"⟩]

theorem xml_round_trip_sample :
    ((documentStrings sampleDocument).all representable = true →
      encode 16777216 sampleDocument = .ok (renderedBytes sampleDocument) ∧
        decode (renderedBytes sampleDocument) = some sampleDocument) ∧
      ((documentStrings sampleDocument).all representable = false →
        encode 16777216 sampleDocument = .error notRepresentable) :=
  xml_round_trip (by decide +kernel)

end XmlExport

end ZedRegistry
