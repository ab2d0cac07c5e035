import ZedRegistry.XmlElements

/-!
# Names and characters of an XML rendering

Every element and attribute has a name of XML, and the rendering has a character
that XML lacks just where a string of the document has one.
-/

set_option autoImplicit false

namespace ZedRegistry

namespace XmlExport

open Xml

/-! ## Names -/

def AllNamed (nodes : List Xml.Node) : Prop := ∀ node ∈ nodes, node.Named

theorem named_text (value : String) : AllNamed (text value) := by
  intro node inside
  obtain ⟨character, _, rfl⟩ := List.mem_map.mp inside
  exact .char character

theorem named_append {left right : List Xml.Node} (namedLeft : AllNamed left)
    (namedRight : AllNamed right) : AllNamed (left ++ right) := by
  intro node inside
  rcases List.mem_append.mp inside with inLeft | inRight
  · exact namedLeft node inLeft
  · exact namedRight node inRight

theorem named_flatMap {α : Type} {nodes : α → List Xml.Node} (each : ∀ item, AllNamed (nodes item))
    (items : List α) : AllNamed (items.flatMap nodes) := by
  intro node inside
  obtain ⟨item, _, within⟩ := List.mem_flatMap.mp inside
  exact each item node within

theorem named_element {name : String} {attributes : List (String × String)}
    {children : List Xml.Node} (named : isName name = true)
    (attributesNamed : namedAttributes attributes) (inner : AllNamed children) :
    AllNamed [.element name attributes children] := by
  intro node inside
  obtain rfl := List.mem_singleton.mp inside
  exact .element name attributes children named attributesNamed inner

theorem named_nothing : AllNamed [] := fun _ inside => absurd inside List.not_mem_nil

theorem namedAttributes_nil : namedAttributes [] := ⟨rfl, List.nodup_nil⟩

/-- Some of these names, which all differ. -/
theorem namedAttributes_of_sublist {attributes : List (String × String)} {names : List String}
    (some : (attributes.map Prod.fst).Sublist names) (valid : names.all isName = true)
    (unique : names.Nodup) : namedAttributes attributes := by
  constructor
  · rw [List.all_eq_true] at valid ⊢
    intro named inside
    exact valid named.1 (some.subset (List.mem_map_of_mem inside))
  · exact unique.sublist some

theorem identityAttributes_named (identity : PackageVersionIdentity) :
    namedAttributes (identityAttributes identity) :=
  namedAttributes_of_sublist (List.Sublist.refl ["registry-id", "org", "name", "version"])
    (by decide) (by decide)

theorem optional_names (name : String) (value : Option String) :
    ((value.toList.map (name, ·)).map Prod.fst).Sublist [name] := by
  cases value with
  | none => exact List.nil_sublist _
  | some value => exact List.Sublist.refl _

theorem dependencyAttributes_named (dependency : DeclaredDependency) :
    namedAttributes (dependencyAttributes dependency) := by
  apply @namedAttributes_of_sublist _ (["registry-id", "org", "name", "requirement", "kind",
    "optional", "default-features"] ++ ["target"]) _ (by decide) (by decide)
  rw [dependencyAttributes, List.map_append]
  exact (List.Sublist.refl _).append (optional_names "target" dependency.target)

theorem nodeAttributes_named (node : ResolvedDependencyNode) :
    namedAttributes (identityAttributes node.id ++
      node.artifactDigest.toList.map ("artifact-digest", ·)) := by
  apply @namedAttributes_of_sublist _
    (["registry-id", "org", "name", "version"] ++ ["artifact-digest"]) _ (by decide) (by decide)
  rw [List.map_append]
  exact (List.Sublist.refl _).append (optional_names "artifact-digest" node.artifactDigest)

theorem edgeAttributes_named (edge : ResolvedDependencyEdge) :
    namedAttributes (edgeAttributes edge) := by
  apply @namedAttributes_of_sublist _ (["kind", "optional"] ++ ["requirement"] ++ ["target"]) _
    (by decide) (by decide)
  rw [edgeAttributes, List.map_append, List.map_append]
  exact ((List.Sublist.refl _).append (optional_names "requirement" edge.requirement)).append
    (optional_names "target" edge.target)

theorem projectionAttributes_named (projection : DependencyGraphProjection) :
    namedAttributes (projectionAttributes projection) := by
  apply @namedAttributes_of_sublist _ (["target"] ++ ["max-depth"]) _ (by decide) (by decide)
  have depth := optional_names "max-depth"
    (projection.maxDepth.map fun maxDepth => decimal maxDepth.toNat)
  rw [projectionAttributes, List.map_append]
  apply (optional_names "target" projection.target).append
  cases maxDepth : projection.maxDepth with
  | none => exact List.nil_sublist _
  | some maxDepth => exact List.Sublist.refl _

theorem named_features (count : Nat) (features : List String) :
    AllNamed (featuresNodes count features) := by
  have each (feature : String) : AllNamed (featureNodes count feature) :=
    named_append (named_append (named_text _)
      (named_element (by decide) namedAttributes_nil (named_text _))) (named_text _)
  exact named_append (named_append (named_text _) (named_element (by decide) namedAttributes_nil
    (named_append (named_append (named_text _) (named_flatMap each features)) (named_text _))))
    (named_text _)

theorem named_featuresContent (features : List String) :
    AllNamed (featuresContent features) := by
  unfold featuresContent
  split
  · exact named_nothing
  · exact named_append (named_append (named_text _) (named_features 6 features)) (named_text _)

theorem named_optionalFeatures (count : Nat) (features : List String) :
    AllNamed (optionalFeatures count features) := by
  unfold optionalFeatures
  split
  · exact named_features count features
  · exact named_nothing

theorem named_identity {tag : String} (named : isName tag = true)
    (identity : PackageVersionIdentity) : AllNamed [identityNode tag identity] :=
  named_element named (identityAttributes_named identity) named_nothing

/-- An element on a line of its own. -/
theorem named_line {before after name : String} {attributes : List (String × String)}
    {children : List Xml.Node} (named : isName name = true)
    (attributesNamed : namedAttributes attributes) (inner : AllNamed children) :
    AllNamed (text before ++ [.element name attributes children] ++ text after) :=
  named_append (named_append (named_text _) (named_element named attributesNamed inner))
    (named_text _)

theorem named_dependency (dependency : DeclaredDependency) :
    AllNamed (dependencyNodes dependency) :=
  named_line (by decide) (dependencyAttributes_named dependency)
    (named_featuresContent dependency.features)

theorem named_node (node : ResolvedDependencyNode) : AllNamed (nodeNodes node) :=
  named_line (by decide) (nodeAttributes_named node) (named_featuresContent node.features)

theorem named_edge (edge : ResolvedDependencyEdge) : AllNamed (edgeNodes edge) := by
  have source := @named_identity "from" (by decide) edge.source
  have destination := @named_identity "to" (by decide) edge.destination
  have ends := named_append (named_append (named_append (named_append
    (named_text "\n      ") source) (named_text "\n      ")) destination) (named_text "\n")
  have inside := named_append (named_append ends (named_optionalFeatures 6 edge.features))
    (named_text "    ")
  exact named_line (by decide) (edgeAttributes_named edge) inside

theorem named_root (root : PackageVersionIdentity) : AllNamed (rootNodes root) :=
  named_line (by decide) (identityAttributes_named root) named_nothing

theorem named_snapshot (snapshot : RegistrySnapshot) : AllNamed (snapshotNodes snapshot) :=
  named_line (by decide) (namedAttributes_of_sublist
    (List.Sublist.refl ["registry-id", "checkpoint-digest"]) (by decide) (by decide))
    named_nothing

/-- A list of elements between two layouts, as the children of one element. -/
theorem named_list {α : Type} {before after name : String} {nodes : α → List Xml.Node}
    (named : isName name = true) (each : ∀ item, AllNamed (nodes item)) (items : List α) :
    AllNamed [.element name [] (text before ++ items.flatMap nodes ++ text after)] :=
  named_element named namedAttributes_nil
    (named_append (named_append (named_text _) (named_flatMap each items)) (named_text _))

theorem named_provenance (provenance : ResolutionProvenance) :
    AllNamed (provenanceNodes provenance) := by
  have attributes : namedAttributes [("resolver-version", provenance.resolverVersion),
      ("target", provenance.target), ("lock-digest", provenance.lockDigest)] :=
    namedAttributes_of_sublist (List.Sublist.refl ["resolver-version", "target", "lock-digest"])
      (by decide) (by decide)
  have snapshots := @named_list _ "\n" "    " "registry-snapshots" _ (by decide) named_snapshot
    provenance.registrySnapshots
  have features := named_optionalFeatures 4 provenance.enabledFeatures
  have front := named_append (named_append (named_text "\n") features) (named_text "    ")
  have inside := named_append (named_append front snapshots) (named_text "\n  ")
  exact named_append (named_element (by decide) attributes inside) (named_text "\n")

theorem named_kinds (kinds : List DependencyKind) : AllNamed (kindsNodes kinds) := by
  have each (kind : DependencyKind) : AllNamed (kindNodes kind) :=
    named_line (by decide) namedAttributes_nil (named_text _)
  unfold kindsNodes
  split
  · exact named_append (named_append (named_text _) (named_list (by decide) each kinds))
      (named_text _)
  · exact named_nothing

theorem named_projection (projection : DependencyGraphProjection) :
    AllNamed (projectionNodes projection) := by
  have inside : AllNamed (projectionContent projection) := by
    unfold projectionContent
    split
    · exact named_nothing
    · exact named_append (named_append (named_append (named_text _)
        (named_optionalFeatures 4 projection.features)) (named_kinds projection.kinds))
        (named_text _)
  exact named_line (by decide) (projectionAttributes_named projection) inside

theorem named_parent (parent : String) : AllNamed (parentNodes parent) :=
  named_line (by decide) (namedAttributes_of_sublist (List.Sublist.refl ["digest"]) (by decide)
    (by decide)) named_nothing

theorem named_graph (graph : DependencyGraphData) : AllNamed (graphNodes graph) := by
  cases graph with
  | declared package dependencies =>
      have count : namedAttributes [("count", decimal dependencies.length)] :=
        namedAttributes_of_sublist (List.Sublist.refl ["count"]) (by decide) (by decide)
      have inside := named_append (named_append (named_text "\n")
        (named_flatMap named_dependency dependencies)) (named_text "  ")
      have listed := @named_element "dependencies" _ _ (by decide) count inside
      have front := named_append (named_append (named_text "\n  ")
        (@named_identity "package" (by decide) package)) (named_text "\n  ")
      exact named_append (named_append front listed) (named_text "\n")
  | resolved completeness roots nodes edges provenance parentGraphDigest projection =>
      have rootList := @named_list _ "\n" "  " "roots" _ (by decide) named_root roots
      have nodeList := @named_list _ "\n" "  " "nodes" _ (by decide) named_node nodes
      have edgeList := @named_list _ "\n" "  " "edges" _ (by decide) named_edge edges
      have upToNodes := named_append (named_append (named_append (named_text "\n  ") rootList)
        (named_text "\n  ")) nodeList
      have upToEdges := named_append (named_append (named_append upToNodes
        (named_text "\n  ")) edgeList) (named_text "\n  ")
      have upToParent := named_append (named_append upToEdges (named_provenance provenance))
        (named_flatMap named_parent parentGraphDigest.toList)
      exact named_append upToParent (named_flatMap named_projection projection.toList)

theorem named_document (document : DependencyGraphDocument) :
    AllNamed (documentNodes document) := by
  have attributes : namedAttributes ([("schema", document.schema)] ++
      document.graphDigest.toList.map ("graph-digest", ·) ++ graphAttributes document.graph) := by
    apply @namedAttributes_of_sublist _
      (["schema"] ++ ["graph-digest"] ++ ["view", "completeness"]) _ (by decide) (by decide)
    rw [List.map_append, List.map_append]
    apply ((List.Sublist.refl _).append
      (optional_names "graph-digest" document.graphDigest)).append
    cases document.graph with
    | declared package dependencies => exact (List.nil_sublist _).cons_cons _
    | resolved completeness roots nodes edges provenance parentGraphDigest projection =>
        exact List.Sublist.refl _
  exact named_line (by decide) attributes (named_graph document.graph)

/-! ## The strings of a document -/

def identityStrings (identity : PackageVersionIdentity) : List String :=
  [identity.registryId, identity.org, identity.name, identity.version]

def dependencyStrings (dependency : DeclaredDependency) : List String :=
  [dependency.registryId, dependency.org, dependency.name, dependency.requirement] ++
    dependency.target.toList ++ dependency.features

def nodeStrings (node : ResolvedDependencyNode) : List String :=
  identityStrings node.id ++ node.artifactDigest.toList ++ node.features

def edgeStrings (edge : ResolvedDependencyEdge) : List String :=
  edge.requirement.toList ++ edge.target.toList ++ identityStrings edge.source ++
    identityStrings edge.destination ++ edge.features

def snapshotStrings (snapshot : RegistrySnapshot) : List String :=
  [snapshot.registryId, snapshot.checkpointDigest]

def provenanceStrings (provenance : ResolutionProvenance) : List String :=
  [provenance.resolverVersion, provenance.target, provenance.lockDigest] ++
    provenance.enabledFeatures ++ provenance.registrySnapshots.flatMap snapshotStrings

def projectionStrings (projection : DependencyGraphProjection) : List String :=
  projection.target.toList ++ projection.features

def graphStrings : DependencyGraphData → List String
  | .declared package dependencies =>
    identityStrings package ++ dependencies.flatMap dependencyStrings
  | .resolved _ roots nodes edges provenance parentGraphDigest projection =>
    roots.flatMap identityStrings ++ nodes.flatMap nodeStrings ++ edges.flatMap edgeStrings ++
      provenanceStrings provenance ++ parentGraphDigest.toList ++
      projection.toList.flatMap projectionStrings

def documentStrings (document : DependencyGraphDocument) : List String :=
  [document.schema] ++ document.graphDigest.toList ++ graphStrings document.graph

def representable (value : String) : Bool := value.toList.all isXml10Character

/-- The elements hold the characters of these strings and no other that XML lacks. -/
def Carries (nodes : List Xml.Node) (values : List String) : Prop :=
  (charactersAll nodes).all isChar = values.all representable

@[simp] theorem characters_text (value : String) : charactersAll (text value) = value.toList := by
  unfold text
  induction value.toList with
  | nil => rfl
  | cons character characters inductionHypothesis =>
      rw [List.map_cons, charactersAll, inductionHypothesis]
      rfl

@[simp] theorem characters_nil : charactersAll [] = [] := rfl

@[simp] theorem isChar_layout : isChar ' ' = true ∧ isChar '\n' = true := by decide

@[simp] theorem isXml10Character_layout :
    isXml10Character ' ' = true ∧ isXml10Character '\n' = true := by decide

@[simp] theorem characters_element (name : String) (attributes : List (String × String))
    (children nodes : List Xml.Node) :
    charactersAll (.element name attributes children :: nodes) =
      attributes.flatMap (fun named => named.2.toList) ++
        (charactersAll children ++ charactersAll nodes) := by
  rw [charactersAll, Xml.Node.characters, List.append_assoc]

theorem carries_flatMap {α : Type} {nodes : α → List Xml.Node} {values : α → List String}
    (each : ∀ item, Carries (nodes item) (values item)) (items : List α) :
    Carries (items.flatMap nodes) (items.flatMap values) := by
  induction items with
  | nil => rfl
  | cons item items inductionHypothesis =>
      have first := each item
      unfold Carries at *
      rw [List.flatMap_cons, List.flatMap_cons, charactersAll_append, List.all_append,
        List.all_append, first, inductionHypothesis]

theorem all_isChar (value : String) : value.toList.all isChar = representable value := by
  rw [representable, isXml10Character_eq]

@[simp] theorem representable_kind (kind : DependencyKind) :
    representable (dependencyKindName kind) = true := by
  cases kind <;> decide

@[simp] theorem representable_flag (flag : Bool) : representable (boolName flag) = true := by
  cases flag <;> decide

@[simp] theorem representable_completeness (completeness : DependencyGraphCompleteness) :
    representable (completenessName completeness) = true := by
  cases completeness <;> decide

@[simp] theorem representable_decimal (value : Nat) : representable (decimal value) = true := by
  rw [representable, List.all_eq_true]
  intro character inside
  exact isXml10Character_digit (decimal_digits value character inside)

theorem carries_features (count : Nat) (features : List String) :
    Carries (featuresNodes count features) features := by
  have indent : representable (spaces count) = true := spaces_valid count
  have each (feature : String) : Carries (featureNodes count feature) [feature] := by
    simp [Carries, featureNodes, charactersAll_append, text_append, all_isChar, indent]
  have all := carries_flatMap each features
  have same : features.flatMap (fun feature => [feature]) = features := by simp
  rw [same] at all
  unfold Carries at *
  simp [featuresNodes, charactersAll_append, all_isChar, indent, all]

theorem carries_featuresContent (features : List String) :
    Carries (featuresContent features) features := by
  have inside := carries_features 6 features
  unfold Carries featuresContent at *
  split
  · rename_i empty
    rw [List.isEmpty_iff.mp empty]
    rfl
  · simp [charactersAll_append, inside]

theorem carries_optionalFeatures (count : Nat) (features : List String) :
    Carries (optionalFeatures count features) features := by
  have inside := carries_features count features
  unfold optionalFeatures
  split
  · exact inside
  · rename_i empty
    have none : features = [] := by simpa using empty
    rw [none]
    rfl

theorem carries_identity (tag : String) (identity : PackageVersionIdentity) :
    Carries [identityNode tag identity] (identityStrings identity) := by
  simp [Carries, identityNode, identityAttributes, identityStrings, all_isChar]

theorem all_optional (name : String) (value : Option String) :
    ((value.toList.map (name, ·)).flatMap fun named => named.2.toList).all isChar =
      value.toList.all representable := by
  cases value <;> simp [all_isChar]

theorem carries_dependency (dependency : DeclaredDependency) :
    Carries (dependencyNodes dependency) (dependencyStrings dependency) := by
  have inside := carries_featuresContent dependency.features
  have target := all_optional "target" dependency.target
  unfold Carries at *
  simp [dependencyNodes, dependencyAttributes, dependencyStrings, charactersAll_append,
    all_isChar, target, inside]

theorem carries_node (node : ResolvedDependencyNode) :
    Carries (nodeNodes node) (nodeStrings node) := by
  have inside := carries_featuresContent node.features
  have digest := all_optional "artifact-digest" node.artifactDigest
  unfold Carries at *
  simp [nodeNodes, identityAttributes, nodeStrings, identityStrings, charactersAll_append,
    all_isChar, digest, inside]

theorem carries_edge (edge : ResolvedDependencyEdge) :
    Carries (edgeNodes edge) (edgeStrings edge) := by
  have inside := carries_optionalFeatures 6 edge.features
  have requirement := all_optional "requirement" edge.requirement
  have target := all_optional "target" edge.target
  have source := carries_identity "from" edge.source
  have destination := carries_identity "to" edge.destination
  unfold Carries at *
  simp only [edgeNodes, edgeAttributes, edgeStrings, charactersAll_append, characters_element,
    characters_text, characters_nil, List.all_append, List.flatMap_append, List.flatMap_cons,
    List.flatMap_nil, List.append_nil, all_isChar, requirement, target, source, destination,
    inside, representable_kind, representable_flag]
  simp [representable, Bool.and_assoc]

theorem carries_root (root : PackageVersionIdentity) :
    Carries (rootNodes root) (identityStrings root) := by
  have inside := carries_identity "root" root
  unfold Carries at *
  simp only [rootNodes, charactersAll_append, characters_text, List.all_append, all_isChar,
    inside]
  simp [representable]

theorem carries_snapshot (snapshot : RegistrySnapshot) :
    Carries (snapshotNodes snapshot) (snapshotStrings snapshot) := by
  simp [Carries, snapshotNodes, snapshotStrings, charactersAll_append, all_isChar]

theorem carries_provenance (provenance : ResolutionProvenance) :
    Carries (provenanceNodes provenance) (provenanceStrings provenance) := by
  have features := carries_optionalFeatures 4 provenance.enabledFeatures
  have snapshots := carries_flatMap carries_snapshot provenance.registrySnapshots
  unfold Carries at *
  simp only [provenanceNodes, provenanceStrings, charactersAll_append, characters_element,
    characters_text, characters_nil, List.all_append, List.flatMap_cons, List.flatMap_nil,
    List.append_nil, all_isChar, features, snapshots]
  simp [representable, Bool.and_assoc]

theorem characters_kinds (kinds : List DependencyKind) :
    (charactersAll (kindsNodes kinds)).all isChar = true := by
  have each (kind : DependencyKind) : Carries (kindNodes kind) [] := by
    simp [Carries, kindNodes, charactersAll_append, all_isChar]
  have all := carries_flatMap each kinds
  unfold Carries at all
  unfold kindsNodes
  split
  · simp [charactersAll_append, all]
  · rfl

theorem carries_projection (projection : DependencyGraphProjection) :
    Carries (projectionNodes projection) (projectionStrings projection) := by
  have target := all_optional "target" projection.target
  have depth := all_optional "max-depth"
    (projection.maxDepth.map fun maxDepth => decimal maxDepth.toNat)
  have depthValid : (projection.maxDepth.map fun maxDepth =>
      decimal maxDepth.toNat).toList.all representable = true := by
    cases projection.maxDepth with
    | none => rfl
    | some maxDepth => simp
  have features := carries_optionalFeatures 4 projection.features
  have kinds := characters_kinds projection.kinds
  have inside : Carries (projectionContent projection) projection.features := by
    unfold Carries projectionContent at *
    split
    · rename_i empty
      simp only [Bool.and_eq_true, List.isEmpty_iff] at empty
      rw [empty.1]
      rfl
    · simp [charactersAll_append, features, kinds]
  unfold Carries at *
  rw [depthValid] at depth
  have mapped : projection.maxDepth.toList.map (fun maxDepth =>
      ("max-depth", decimal maxDepth.toNat)) =
      (projection.maxDepth.map fun maxDepth => decimal maxDepth.toNat).toList.map
        ("max-depth", ·) := by
    cases projection.maxDepth <;> rfl
  simp only [projectionNodes, projectionAttributes, projectionStrings, charactersAll_append,
    characters_element, characters_text, characters_nil, List.all_append, List.flatMap_append,
    mapped, target, depth, inside]
  simp

theorem carries_graph (graph : DependencyGraphData) :
    Carries (graphNodes graph) (graphStrings graph) := by
  cases graph with
  | declared package dependencies =>
      have identity := carries_identity "package" package
      have all := carries_flatMap carries_dependency dependencies
      unfold Carries at *
      simp only [graphNodes, graphStrings, charactersAll_append, characters_element,
        characters_text, characters_nil, List.all_append, List.flatMap_cons, List.flatMap_nil,
        List.append_nil, all_isChar, identity, all, representable_decimal]
      simp [representable]
  | resolved completeness roots nodes edges provenance parentGraphDigest projection =>
      have allRoots := carries_flatMap carries_root roots
      have allNodes := carries_flatMap carries_node nodes
      have allEdges := carries_flatMap carries_edge edges
      have allProvenance := carries_provenance provenance
      have parent (value : String) : Carries (parentNodes value) [value] := by
        simp [Carries, parentNodes, charactersAll_append, all_isChar]
      have allParents := carries_flatMap parent parentGraphDigest.toList
      have same : parentGraphDigest.toList.flatMap (fun value => [value]) =
          parentGraphDigest.toList := by simp
      rw [same] at allParents
      have allProjections := carries_flatMap carries_projection projection.toList
      unfold Carries at *
      simp only [graphNodes, graphStrings, charactersAll_append, characters_element,
        characters_text, characters_nil, List.all_append, List.flatMap_nil, List.nil_append,
        List.append_nil, all_isChar, allRoots, allNodes, allEdges, allProvenance, allParents,
        allProjections]
      simp [representable, Bool.and_assoc]

theorem carries_document (document : DependencyGraphDocument) :
    Carries (documentNodes document) (documentStrings document) := by
  have digest := all_optional "graph-digest" document.graphDigest
  have graph := carries_graph document.graph
  have attributes : ((graphAttributes document.graph).flatMap fun named =>
      named.2.toList).all isChar = true := by
    cases document.graph with
    | declared package dependencies => rfl
    | resolved completeness roots nodes edges provenance parentGraphDigest projection =>
        cases completeness <;> rfl
  unfold Carries at *
  simp only [documentNodes, documentNode, documentStrings, charactersAll_append,
    characters_element, characters_text, characters_nil, List.all_append, List.flatMap_append,
    List.flatMap_cons, List.flatMap_nil, List.append_nil, all_isChar, digest, attributes, graph]
  simp [representable]

/-- The rendering has a character that XML lacks just if a string of the document does. -/
theorem rendering_valid (document : DependencyGraphDocument) :
    (rendering document).all isXml10Character = (documentStrings document).all representable := by
  rw [isXml10Character_eq, rendering, spellDocument_isChar spelling (by decide) (by decide)
    (named_document document)]
  exact carries_document document

end XmlExport

end ZedRegistry
