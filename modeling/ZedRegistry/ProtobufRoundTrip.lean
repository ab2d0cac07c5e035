import ZedRegistry.ProtobufExport

/-!
# Graphs through Protocol Buffers

What each writer of `ProtobufExport` leaves on the wire, message by message, and
the document that the committed schema reads back from it.
-/

set_option autoImplicit false

namespace ZedRegistry

namespace ProtobufExport

open Protobuf

/-! ## One message after another -/

def identityFields (identity : PackageVersionIdentity) : List Field :=
  [text 1 identity.registryId] ++ [text 2 identity.org] ++ [text 3 identity.name] ++
    [text 4 identity.version]

theorem protoIdentity_writes (identity : PackageVersionIdentity) :
    Writes (protoIdentity identity) (identityFields identity) := by
  have first := protoString_writes 1 (by omega) (by omega) identity.registryId
  have second := protoString_writes 2 (by omega) (by omega) identity.org
  have third := protoString_writes 3 (by omega) (by omega) identity.name
  have fourth := protoString_writes 4 (by omega) (by omega) identity.version
  exact writes_append (writes_append (writes_append first second) third) fourth

theorem protoIdentity_decodes (identity : PackageVersionIdentity)
    (short : (protoIdentity identity).length < 2 ^ 64) :
    decodeMessage packageVersionIdentity (protoIdentity identity) = some identity := by
  apply decodeMessage_of_writes (protoIdentity_writes identity) short
  intro _
  have registryId : string 1 (identityFields identity) = some identity.registryId :=
    string_read (by simp [identityFields])
  have org : string 2 (identityFields identity) = some identity.org :=
    string_read (by simp [identityFields])
  have name : string 3 (identityFields identity) = some identity.name :=
    string_read (by simp [identityFields])
  have version : string 4 (identityFields identity) = some identity.version :=
    string_read (by simp [identityFields])
  simp only [packageVersionIdentity, registryId, org, name, version, Option.bind_eq_bind,
    Option.bind_some, Option.pure_def]

def declaredDependencyFields (dependency : DeclaredDependency) : List Field :=
  [text 1 dependency.registryId] ++ [text 2 dependency.org] ++ [text 3 dependency.name] ++
    [text 4 dependency.requirement] ++ [kindField 5 dependency.kind] ++
    boolFields 6 dependency.optional ++ boolFields 7 dependency.defaultFeatures ++
    dependency.features.map (text 8) ++ dependency.target.toList.map (text 9)

theorem protoDeclaredDependency_writes (dependency : DeclaredDependency) :
    Writes (protoDeclaredDependency dependency) (declaredDependencyFields dependency) := by
  have registryId := protoString_writes 1 (by omega) (by omega) dependency.registryId
  have org := protoString_writes 2 (by omega) (by omega) dependency.org
  have name := protoString_writes 3 (by omega) (by omega) dependency.name
  have requirement := protoString_writes 4 (by omega) (by omega) dependency.requirement
  have kind := protoKind_writes 5 (by omega) (by omega) dependency.kind
  have optional := protoBool_writes 6 (by omega) (by omega) dependency.optional
  have defaultFeatures := protoBool_writes 7 (by omega) (by omega) dependency.defaultFeatures
  have features := protoStrings_writes 8 (by omega) (by omega) dependency.features
  have target := protoStrings_writes 9 (by omega) (by omega) dependency.target.toList
  have coordinates := writes_append (writes_append (writes_append registryId org) name) requirement
  have flags := writes_append (writes_append (writes_append coordinates kind) optional)
    defaultFeatures
  exact writes_append (writes_append flags features) target

theorem protoDeclaredDependency_decodes (dependency : DeclaredDependency)
    (short : (protoDeclaredDependency dependency).length < 2 ^ 64) :
    decodeMessage declaredDependency (protoDeclaredDependency dependency) = some dependency := by
  apply decodeMessage_of_writes (protoDeclaredDependency_writes dependency) short
  intro _
  generalize written : declaredDependencyFields dependency = fields
  have registryId : string 1 fields = some dependency.registryId :=
    string_read (by simp [← written, declaredDependencyFields])
  have org : string 2 fields = some dependency.org :=
    string_read (by simp [← written, declaredDependencyFields])
  have name : string 3 fields = some dependency.name :=
    string_read (by simp [← written, declaredDependencyFields])
  have requirement : string 4 fields = some dependency.requirement :=
    string_read (by simp [← written, declaredDependencyFields])
  have kind : dependencyKind 5 fields = some dependency.kind :=
    dependencyKind_read (by simp [← written, declaredDependencyFields])
  have optional : boolean 6 fields = dependency.optional :=
    boolean_read (by simp [← written, declaredDependencyFields])
  have defaultFeatures : boolean 7 fields = dependency.defaultFeatures :=
    boolean_read (by simp [← written, declaredDependencyFields])
  have features : strings 8 fields = some dependency.features :=
    strings_read (by simp [← written, declaredDependencyFields])
  have target : optionalString 9 fields = some dependency.target :=
    optionalString_read (by simp [← written, declaredDependencyFields])
  simp only [declaredDependency, registryId, org, name, requirement, kind, optional,
    defaultFeatures, features, target, Option.bind_eq_bind, Option.bind_some, Option.pure_def]

def resolvedNodeFields (node : ResolvedDependencyNode) : List Field :=
  [⟨1, .delimited (protoIdentity node.id)⟩] ++ node.artifactDigest.toList.map (text 2) ++
    node.features.map (text 3)

theorem protoResolvedNode_writes (node : ResolvedDependencyNode) :
    Writes (protoResolvedNode node) (resolvedNodeFields node) := by
  have id := protoMessage_writes (show 0 < 1 by omega) (by omega) (protoIdentity node.id)
  have artifactDigest := protoStrings_writes 2 (by omega) (by omega) node.artifactDigest.toList
  have features := protoStrings_writes 3 (by omega) (by omega) node.features
  exact writes_append (writes_append id artifactDigest) features

theorem protoResolvedNode_decodes (node : ResolvedDependencyNode)
    (short : (protoResolvedNode node).length < 2 ^ 64) :
    decodeMessage resolvedDependencyNode (protoResolvedNode node) = some node := by
  apply decodeMessage_of_writes (protoResolvedNode_writes node) short
  intro inner
  generalize written : resolvedNodeFields node = fields at inner ⊢
  have id : message packageVersionIdentity 1 fields = some node.id :=
    message_read inner protoIdentity_decodes (by simp [← written, resolvedNodeFields])
  have artifactDigest : optionalString 2 fields = some node.artifactDigest :=
    optionalString_read (by simp [← written, resolvedNodeFields])
  have features : strings 3 fields = some node.features :=
    strings_read (by simp [← written, resolvedNodeFields])
  simp only [resolvedDependencyNode, id, artifactDigest, features, Option.bind_eq_bind,
    Option.bind_some, Option.pure_def]

def resolvedEdgeFields (edge : ResolvedDependencyEdge) : List Field :=
  [⟨1, .delimited (protoIdentity edge.source)⟩] ++
    [⟨2, .delimited (protoIdentity edge.destination)⟩] ++ [kindField 3 edge.kind] ++
    edge.requirement.toList.map (text 4) ++ edge.target.toList.map (text 5) ++
    boolFields 6 edge.optional ++ edge.features.map (text 7)

theorem protoResolvedEdge_writes (edge : ResolvedDependencyEdge) :
    Writes (protoResolvedEdge edge) (resolvedEdgeFields edge) := by
  have source := protoMessage_writes (show 0 < 1 by omega) (by omega) (protoIdentity edge.source)
  have destination := protoMessage_writes (show 0 < 2 by omega) (by omega)
    (protoIdentity edge.destination)
  have kind := protoKind_writes 3 (by omega) (by omega) edge.kind
  have requirement := protoStrings_writes 4 (by omega) (by omega) edge.requirement.toList
  have target := protoStrings_writes 5 (by omega) (by omega) edge.target.toList
  have optional := protoBool_writes 6 (by omega) (by omega) edge.optional
  have features := protoStrings_writes 7 (by omega) (by omega) edge.features
  have ends := writes_append (writes_append source destination) kind
  have texts := writes_append (writes_append ends requirement) target
  exact writes_append (writes_append texts optional) features

theorem protoResolvedEdge_decodes (edge : ResolvedDependencyEdge)
    (short : (protoResolvedEdge edge).length < 2 ^ 64) :
    decodeMessage resolvedDependencyEdge (protoResolvedEdge edge) = some edge := by
  apply decodeMessage_of_writes (protoResolvedEdge_writes edge) short
  intro inner
  generalize written : resolvedEdgeFields edge = fields at inner ⊢
  have source : message packageVersionIdentity 1 fields = some edge.source :=
    message_read inner protoIdentity_decodes (by simp [← written, resolvedEdgeFields])
  have destination : message packageVersionIdentity 2 fields = some edge.destination :=
    message_read inner protoIdentity_decodes (by simp [← written, resolvedEdgeFields])
  have kind : dependencyKind 3 fields = some edge.kind :=
    dependencyKind_read (by simp [← written, resolvedEdgeFields])
  have requirement : optionalString 4 fields = some edge.requirement :=
    optionalString_read (by simp [← written, resolvedEdgeFields])
  have target : optionalString 5 fields = some edge.target :=
    optionalString_read (by simp [← written, resolvedEdgeFields])
  have optional : boolean 6 fields = edge.optional :=
    boolean_read (by simp [← written, resolvedEdgeFields])
  have features : strings 7 fields = some edge.features :=
    strings_read (by simp [← written, resolvedEdgeFields])
  simp only [resolvedDependencyEdge, source, destination, kind, requirement, target, optional,
    features, Option.bind_eq_bind, Option.bind_some, Option.pure_def]

def snapshotFields (snapshot : RegistrySnapshot) : List Field :=
  [text 1 snapshot.registryId] ++ [text 2 snapshot.checkpointDigest]

theorem protoSnapshot_writes (snapshot : RegistrySnapshot) :
    Writes (protoSnapshot snapshot) (snapshotFields snapshot) := by
  have registryId := protoString_writes 1 (by omega) (by omega) snapshot.registryId
  have checkpointDigest := protoString_writes 2 (by omega) (by omega) snapshot.checkpointDigest
  exact writes_append registryId checkpointDigest

theorem protoSnapshot_decodes (snapshot : RegistrySnapshot)
    (short : (protoSnapshot snapshot).length < 2 ^ 64) :
    decodeMessage registrySnapshot (protoSnapshot snapshot) = some snapshot := by
  apply decodeMessage_of_writes (protoSnapshot_writes snapshot) short
  intro _
  have registryId : string 1 (snapshotFields snapshot) = some snapshot.registryId :=
    string_read (by simp [snapshotFields])
  have checkpointDigest : string 2 (snapshotFields snapshot) = some snapshot.checkpointDigest :=
    string_read (by simp [snapshotFields])
  simp only [registrySnapshot, registryId, checkpointDigest, Option.bind_eq_bind,
    Option.bind_some, Option.pure_def]

def provenanceFields (provenance : ResolutionProvenance) : List Field :=
  [text 1 provenance.resolverVersion] ++ [text 2 provenance.target] ++
    provenance.enabledFeatures.map (text 3) ++
    provenance.registrySnapshots.map (fun snapshot => ⟨4, .delimited (protoSnapshot snapshot)⟩) ++
    [text 5 provenance.lockDigest]

theorem protoProvenance_writes (provenance : ResolutionProvenance) :
    Writes (protoProvenance provenance) (provenanceFields provenance) := by
  have resolverVersion := protoString_writes 1 (by omega) (by omega) provenance.resolverVersion
  have target := protoString_writes 2 (by omega) (by omega) provenance.target
  have enabledFeatures := protoStrings_writes 3 (by omega) (by omega) provenance.enabledFeatures
  have snapshots := protoMessages_writes 4 (by omega) (by omega) protoSnapshot
    provenance.registrySnapshots
  have lockDigest := protoString_writes 5 (by omega) (by omega) provenance.lockDigest
  have resolver := writes_append (writes_append resolverVersion target) enabledFeatures
  exact writes_append (writes_append resolver snapshots) lockDigest

theorem protoProvenance_decodes (provenance : ResolutionProvenance)
    (short : (protoProvenance provenance).length < 2 ^ 64) :
    decodeMessage resolutionProvenance (protoProvenance provenance) = some provenance := by
  apply decodeMessage_of_writes (protoProvenance_writes provenance) short
  intro inner
  generalize written : provenanceFields provenance = fields at inner ⊢
  have resolverVersion : string 1 fields = some provenance.resolverVersion :=
    string_read (by simp [← written, provenanceFields])
  have target : string 2 fields = some provenance.target :=
    string_read (by simp [← written, provenanceFields])
  have enabledFeatures : strings 3 fields = some provenance.enabledFeatures :=
    strings_read (by simp [← written, provenanceFields])
  have snapshots : messages registrySnapshot 4 fields = some provenance.registrySnapshots :=
    messages_read inner protoSnapshot_decodes (by simp [← written, provenanceFields])
  have lockDigest : string 5 fields = some provenance.lockDigest :=
    string_read (by simp [← written, provenanceFields])
  simp only [resolutionProvenance, resolverVersion, target, enabledFeatures, snapshots,
    lockDigest, Option.bind_eq_bind, Option.bind_some, Option.pure_def]

def projectionFields (projection : DependencyGraphProjection) : List Field :=
  projection.target.toList.map (text 1) ++ projection.features.map (text 2) ++
    projection.kinds.map (kindField 3) ++
    projection.maxDepth.toList.map (fun maxDepth => ⟨4, .varint maxDepth.toNat⟩)

theorem protoProjection_writes (projection : DependencyGraphProjection) :
    Writes (protoProjection projection) (projectionFields projection) := by
  have target := protoStrings_writes 1 (by omega) (by omega) projection.target.toList
  have features := protoStrings_writes 2 (by omega) (by omega) projection.features
  have kinds := writes_flatMap (protoKind_writes 3 (by omega) (by omega)) projection.kinds
  have depth (maxDepth : UInt32) :
      Writes (protoU64 4 maxDepth.toNat) [⟨4, .varint maxDepth.toNat⟩] :=
    protoU64_writes (by omega) (by omega) (Nat.lt_trans maxDepth.toNat_lt (by omega))
  have maxDepth := writes_flatMap depth projection.maxDepth.toList
  exact writes_append (writes_append (writes_append target features) kinds) maxDepth

theorem kinds_read (kinds : List DependencyKind) :
    (kinds.map dependencyKindCode).mapM (fun number => kindOfNumber (low32 number)) =
      some kinds := by
  induction kinds with
  | nil => rfl
  | cons kind kinds inductionHypothesis => simp [inductionHypothesis]

theorem maxDepth_read {fields : List Field} {maxDepth : Option UInt32}
    (written : varints 4 fields = maxDepth.toList.map UInt32.toNat) :
    (optionalScalar 4 fields).map (fun value => UInt32.ofNat (low32 value)) = maxDepth := by
  rw [optionalScalar, written]
  cases maxDepth with
  | none => rfl
  | some maxDepth =>
      have low : low32 maxDepth.toNat = maxDepth.toNat := Nat.mod_eq_of_lt maxDepth.toNat_lt
      simp [low]

theorem protoProjection_decodes (projection : DependencyGraphProjection)
    (short : (protoProjection projection).length < 2 ^ 64) :
    decodeMessage dependencyGraphProjection (protoProjection projection) = some projection := by
  apply decodeMessage_of_writes (protoProjection_writes projection) short
  intro _
  generalize written : projectionFields projection = fields
  have target : optionalString 1 fields = some projection.target :=
    optionalString_read (by simp [← written, projectionFields])
  have features : strings 2 fields = some projection.features :=
    strings_read (by simp [← written, projectionFields])
  have numbers : repeatedScalar 3 fields = some (projection.kinds.map dependencyKindCode) := by
    rw [repeatedScalar_unpacked (by simp [← written, projectionFields])]
    simp [← written, projectionFields]
  have maxDepth := @maxDepth_read fields projection.maxDepth
    (by simp [← written, projectionFields])
  simp only [dependencyGraphProjection, target, features, numbers, kinds_read, maxDepth,
    Option.bind_eq_bind, Option.bind_some, Option.pure_def]

/-! ## The two arms of the graph -/

def declaredGraphFields (package : PackageVersionIdentity)
    (dependencies : List DeclaredDependency) : List Field :=
  [⟨1, .delimited (protoIdentity package)⟩] ++
    dependencies.map fun dependency => ⟨2, .delimited (protoDeclaredDependency dependency)⟩

theorem protoDeclaredGraph_decodes {package : PackageVersionIdentity}
    {dependencies : List DeclaredDependency}
    (short : (protoDeclaredGraph package dependencies).length < 2 ^ 64) :
    decodeMessage declaredGraph (protoDeclaredGraph package dependencies) =
      some (.declared package dependencies) := by
  have writesPackage := protoMessage_writes (show 0 < 1 by omega) (by omega)
    (protoIdentity package)
  have writesDependencies := protoMessages_writes 2 (by omega) (by omega)
    protoDeclaredDependency dependencies
  have writes : Writes (protoDeclaredGraph package dependencies)
      (declaredGraphFields package dependencies) :=
    writes_append writesPackage writesDependencies
  apply decodeMessage_of_writes writes short
  intro inner
  generalize written : declaredGraphFields package dependencies = fields at inner ⊢
  have packageRead : message packageVersionIdentity 1 fields = some package :=
    message_read inner protoIdentity_decodes (by simp [← written, declaredGraphFields])
  have dependenciesRead : messages declaredDependency 2 fields = some dependencies :=
    messages_read inner protoDeclaredDependency_decodes
      (by simp [← written, declaredGraphFields])
  simp only [declaredGraph, packageRead, dependenciesRead, Option.bind_eq_bind,
    Option.bind_some, Option.pure_def]

section Resolved

variable (completeness : DependencyGraphCompleteness) (roots : List PackageVersionIdentity)
  (nodes : List ResolvedDependencyNode) (edges : List ResolvedDependencyEdge)
  (provenance : ResolutionProvenance) (parentGraphDigest : Option String)
  (projection : Option DependencyGraphProjection)

def resolvedGraphFields : List Field :=
  [⟨1, .varint (completenessCode completeness)⟩] ++
    roots.map (fun root => ⟨2, .delimited (protoIdentity root)⟩) ++
    nodes.map (fun node => ⟨3, .delimited (protoResolvedNode node)⟩) ++
    edges.map (fun edge => ⟨4, .delimited (protoResolvedEdge edge)⟩) ++
    [⟨5, .delimited (protoProvenance provenance)⟩] ++
    parentGraphDigest.toList.map (text 6) ++
    projection.toList.map (fun projection => ⟨7, .delimited (protoProjection projection)⟩)

theorem protoResolvedGraph_writes :
    Writes
      (protoResolvedGraph completeness roots nodes edges provenance parentGraphDigest projection)
      (resolvedGraphFields completeness roots nodes edges provenance parentGraphDigest
        projection) := by
  have code : completenessCode completeness < 2 ^ 64 := by
    cases completeness <;> decide
  have first := protoU64_writes (show 0 < 1 by omega) (by omega) code
  have writesRoots := protoMessages_writes 2 (by omega) (by omega) protoIdentity roots
  have writesNodes := protoMessages_writes 3 (by omega) (by omega) protoResolvedNode nodes
  have writesEdges := protoMessages_writes 4 (by omega) (by omega) protoResolvedEdge edges
  have writesProvenance := protoMessage_writes (show 0 < 5 by omega) (by omega)
    (protoProvenance provenance)
  have writesParent := protoStrings_writes 6 (by omega) (by omega) parentGraphDigest.toList
  have writesProjection := protoMessages_writes 7 (by omega) (by omega) protoProjection
    projection.toList
  have graph := writes_append (writes_append (writes_append first writesRoots) writesNodes)
    writesEdges
  exact writes_append (writes_append (writes_append graph writesProvenance) writesParent)
    writesProjection

theorem protoResolvedGraph_decodes
    (short : (protoResolvedGraph completeness roots nodes edges provenance parentGraphDigest
      projection).length < 2 ^ 64) :
    decodeMessage resolvedGraph (protoResolvedGraph completeness roots nodes edges provenance
        parentGraphDigest projection) =
      some (.resolved completeness roots nodes edges provenance parentGraphDigest
        projection) := by
  apply decodeMessage_of_writes (protoResolvedGraph_writes completeness roots nodes edges provenance
    parentGraphDigest projection) short
  intro inner
  generalize written : resolvedGraphFields completeness roots nodes edges provenance
    parentGraphDigest projection = fields at inner ⊢
  have complete : completenessOfNumber (low32 (implicitScalar 1 fields)) = some completeness := by
    have single : varints 1 fields = [completenessCode completeness] := by
      simp [← written, resolvedGraphFields]
    rw [implicitScalar, optionalScalar, single]
    cases completeness <;> rfl
  have rootsRead : messages packageVersionIdentity 2 fields = some roots :=
    messages_read inner protoIdentity_decodes (by simp [← written, resolvedGraphFields])
  have nodesRead : messages resolvedDependencyNode 3 fields = some nodes :=
    messages_read inner protoResolvedNode_decodes (by simp [← written, resolvedGraphFields])
  have edgesRead : messages resolvedDependencyEdge 4 fields = some edges :=
    messages_read inner protoResolvedEdge_decodes (by simp [← written, resolvedGraphFields])
  have provenanceRead : message resolutionProvenance 5 fields = some provenance :=
    message_read inner protoProvenance_decodes (by simp [← written, resolvedGraphFields])
  have parentRead : optionalString 6 fields = some parentGraphDigest :=
    optionalString_read (by simp [← written, resolvedGraphFields])
  have projectionRead :
      optionalMessage dependencyGraphProjection 7 fields = some projection :=
    optionalMessage_read inner protoProjection_decodes
      (by simp [← written, resolvedGraphFields])
  simp only [resolvedGraph, complete, rootsRead, nodesRead, edgesRead, provenanceRead,
    parentRead, projectionRead, Option.bind_eq_bind, Option.bind_some, Option.pure_def]

end Resolved

/-! ## The round trip -/

def documentFields (schema : String) (graphDigest : Option String) (graph : Field) : List Field :=
  [text 1 schema] ++ graphDigest.toList.map (text 2) ++ [graph]

/-- The one arm that is written is the arm that is read. -/
theorem dependencyGraphDocument_reads {schema digest : String} {arm : Nat} {graph : Bytes}
    {data : DependencyGraphData} (nonempty : digest ≠ "") (isArm : arm = 10 ∨ arm = 11)
    (decodes : decodeMessage (if arm = 10 then declaredGraph else resolvedGraph) graph =
      some data) :
    dependencyGraphDocument (documentFields schema (some digest) ⟨arm, .delimited graph⟩) =
      some ⟨schema, data, some digest⟩ := by
  generalize written : documentFields schema (some digest) ⟨arm, .delimited graph⟩ = fields
  have other : arm ≠ 1 ∧ arm ≠ 2 := by omega
  have schemaRead : string 1 fields = some schema :=
    string_read (by simp [← written, documentFields, other])
  have digestRead : string 2 fields = some digest :=
    string_read (by simp [← written, documentFields, other])
  have armRead : oneof [10, 11] fields = some (arm, graph) := by
    simp [← written, documentFields, oneof, oneofStep, text, isArm]
  simp only [dependencyGraphDocument, schemaRead, digestRead, armRead, decodes,
    Option.bind_eq_bind, Option.bind_some, Option.pure_def, if_neg nonempty]

theorem encode_writes (schema digest : String) (data : DependencyGraphData) {graph : Field}
    (writes : Writes (protoGraph data) [graph]) :
    Writes (encode ⟨schema, data, some digest⟩) (documentFields schema (some digest) graph) := by
  have writesSchema := protoString_writes 1 (by omega) (by omega) schema
  have writesDigest := protoStrings_writes 2 (by omega) (by omega) (some digest).toList
  exact writes_append (writes_append writesSchema writesDigest) writes

/-- A slice has fewer than 2^64 bytes. -/
theorem protobuf_round_trip {document : DependencyGraphDocument} {digest : String}
    (finalized : document.graphDigest = some digest) (nonempty : digest ≠ "")
    (short : (encode document).length < 2 ^ 64) : decode (encode document) = some document := by
  obtain ⟨schema, data, graphDigest⟩ := document
  obtain rfl : graphDigest = some digest := finalized
  cases data with
  | declared package dependencies =>
      have writes := encode_writes schema digest (.declared package dependencies)
        (protoMessage_writes (by omega) (by omega) _)
      apply decodeMessage_of_writes writes short
      intro inner
      apply dependencyGraphDocument_reads nonempty (.inl rfl)
      apply protoDeclaredGraph_decodes
      apply inner 10
      simp [documentFields]
  | resolved completeness roots nodes edges provenance parentGraphDigest projection =>
      have writes := encode_writes schema digest (.resolved completeness roots nodes edges
        provenance parentGraphDigest projection) (protoMessage_writes (by omega) (by omega) _)
      apply decodeMessage_of_writes writes short
      intro inner
      apply dependencyGraphDocument_reads nonempty (.inr rfl)
      apply protoResolvedGraph_decodes
      apply inner 11
      simp [documentFields]

/-! ## A projected graph -/

def sampleIdentity (name : String) : PackageVersionIdentity := ⟨"zpkg", "acme", name, "1.0.0"⟩

def sampleDocument : DependencyGraphDocument where
  schema := "zpkg/dependency-graph/v1"
  graphDigest := some "sha256:0d"
  graph := .resolved .projected [sampleIdentity "app"]
    [⟨sampleIdentity "app", none, []⟩, ⟨sampleIdentity "lib", some "", ["std", "é"]⟩]
    [⟨sampleIdentity "app", sampleIdentity "lib", .peer, some "^1", none, true, []⟩]
    ⟨"1.2.0", "", [], [⟨"zpkg", "sha256:0c"⟩], "sha256:0b"⟩ (some "")
    (some ⟨none, ["std"], [.runtime, .tooling], some 0⟩)

theorem protobuf_round_trip_sample : decode (encode sampleDocument) = some sampleDocument :=
  protobuf_round_trip rfl (by decide) (by decide +kernel)

end ProtobufExport

end ZedRegistry
