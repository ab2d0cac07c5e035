import ZedRegistry.XmlExport

/-!
# The elements of an XML rendering

The tree that each writer of `XmlExport` spells, and that within the limit it
writes that spelling or refuses a character that XML cannot carry.
-/

set_option autoImplicit false

namespace ZedRegistry

namespace XmlExport

open Xml

/-! ## The escapes -/

theorem isXml10Character_eq : isXml10Character = isChar := by
  funext character
  have same (other : Char) : character = other ↔ character.toNat = other.toNat :=
    ⟨congrArg Char.toNat, Char.toNat_inj.mp⟩
  rw [Bool.eq_iff_iff]
  unfold isXml10Character isChar within
  simp only [same, List.any_cons, List.any_nil, Bool.or_eq_true, Bool.and_eq_true,
    decide_eq_true_eq, Bool.or_false, Char.reduceToNat]
  omega

def specialCharacters (inAttribute : Bool) : List Char :=
  if inAttribute then ['&', '<', '"', '\t', '\n', '\r'] else ['&', '<', '>', '\r']

theorem escaped_spells (inAttribute : Bool) (character : Char) :
    Spells (specialCharacters inAttribute) character (escaped inAttribute character).toList := by
  unfold escaped
  split
  · exact .escape ['a', 'm', 'p'] rfl (by decide)
  · exact .escape ['l', 't'] rfl (by decide)
  · exact .escape ['g', 't'] rfl (by decide)
  · exact .escape ['q', 'u', 'o', 't'] rfl (by decide)
  · exact .escape ['a', 'p', 'o', 's'] rfl (by decide)
  · exact .escape ['#', '9'] (by decide) (by decide)
  · exact .escape ['#', '1', '0'] (by decide) (by decide)
  · exact .escape ['#', '1', '3'] (by decide) (by decide)
  · rw [String.toList_singleton]
    apply Spells.plain
    cases inAttribute <;> simp_all [specialCharacters]

/-- An element without children is written as one tag, except for an empty feature. -/
def spelling : Spelling where
  attributeChar character := (escaped true character).toList
  textChar character := (escaped false character).toList
  selfClosing name := name ≠ "feature"
  attribute_spells := escaped_spells true
  text_spells := escaped_spells false

/-! ## What a writer emits -/

section Emits

variable (limit : UInt64)

/-- The writer adds the whole text, unless XML has no way to carry it or it does not fit. -/
def Emits (write : XmlWriter) (text : List Char) : Prop :=
  ∀ output,
    text.all isXml10Character = true ∧ write.run output = .ok ((), output ++ text) ∨
      text.all isXml10Character = false ∧ write.run output = .error notRepresentable ∨
      limit.toNat < utf8Length (output ++ text) ∧ write.run output = .error representationTooLarge

variable {limit}

theorem utf8Length_append (left right : List Char) :
    utf8Length (left ++ right) = utf8Length left + utf8Length right := by
  simp [utf8Length]

/-- Within the limit only the characters matter. -/
theorem Emits.within {write : XmlWriter} {text : List Char} (emits : Emits limit write text)
    {output : List Char} (small : utf8Length (output ++ text) ≤ limit.toNat) :
    write.run output =
      if text.all isXml10Character then .ok ((), output ++ text) else .error notRepresentable := by
  rcases emits output with ⟨valid, written⟩ | ⟨invalid, refused⟩ | ⟨tooLong, _⟩
  · rw [if_pos valid, written]
  · rw [if_neg (by rw [invalid]; exact Bool.false_ne_true), refused]
  · omega

theorem emits_congr {write : XmlWriter} {text other : List Char} (emits : Emits limit write text)
    (same : text = other) : Emits limit write other := same ▸ emits

theorem emits_nothing : Emits limit (pure ()) [] := by
  intro output
  left
  rw [List.append_nil]
  exact ⟨rfl, rfl⟩

theorem emits_pushStr {value : String} (valid : value.toList.all isXml10Character = true) :
    Emits limit (pushStr limit value) value.toList := by
  have bounded := limit.toNat_lt
  intro output
  rw [utf8Length_append]
  unfold pushStr checkedAdd
  by_cases fits : utf8Length output + utf8Length value.toList ≤ limit.toNat
  · left
    refine ⟨valid, ?_⟩
    rw [StateT.run, if_pos (by omega)]
    simp only [okOrElse, Option.elim_some, bind, Except.bind, ensure, if_pos fits]
    rfl
  · right; right
    refine ⟨by omega, ?_⟩
    by_cases counted : utf8Length output + utf8Length value.toList < 2 ^ 64
    · rw [StateT.run, if_pos counted]
      simp only [okOrElse, Option.elim_some, bind, Except.bind, ensure, if_neg fits]
    · rw [StateT.run, if_neg counted]
      rfl

theorem emits_bind {first second : XmlWriter} {left right : List Char}
    (emitsFirst : Emits limit first left) (emitsSecond : Emits limit second right) :
    Emits limit (first >>= fun _ => second) (left ++ right) := by
  intro output
  rw [← List.append_assoc, StateT.run_bind, List.all_append]
  rcases emitsFirst output with ⟨valid, written⟩ | ⟨invalid, refused⟩ | ⟨tooLong, failed⟩
  · rw [valid, written, Bool.true_and]
    exact emitsSecond (output ++ left)
  · right; left
    rw [invalid, refused]
    exact ⟨rfl, rfl⟩
  · right; right
    rw [failed]
    refine ⟨?_, rfl⟩
    rw [utf8Length_append]
    omega

theorem emits_forM {α : Type} {write : α → XmlWriter} {text : α → List Char}
    (each : ∀ item, Emits limit (write item) (text item)) (items : List α) :
    Emits limit (items.forM write) (items.flatMap text) := by
  induction items with
  | nil => exact emits_nothing
  | cons item items inductionHypothesis => exact emits_bind (each item) inductionHypothesis

theorem emits_if {write : XmlWriter} {text : List Char} (emits : Emits limit write text)
    (condition : Bool) :
    Emits limit (writeIf condition write) (if condition then text else []) := by
  cases condition with
  | false => exact emits_nothing
  | true => exact emits

theorem emits_escaped (inAttribute : Bool) (value : String) :
    Emits limit (xmlEscaped limit value inAttribute)
      (value.toList.flatMap fun character => (escaped inAttribute character).toList) := by
  apply emits_forM
  intro character
  have whole : (escaped inAttribute character).toList.all isXml10Character =
      isXml10Character character := by
    rw [isXml10Character_eq]
    exact spells_isChar (escaped_spells inAttribute character)
  cases valid : isXml10Character character with
  | true => exact emits_pushStr (whole.trans valid)
  | false =>
      intro output
      right; left
      exact ⟨whole.trans valid, rfl⟩

theorem emits_attribute {name : String} (valid : name.toList.all isXml10Character = true)
    (value : String) :
    Emits limit (xmlAttribute limit name value) (spelling.spellAttribute (name, value)) := by
  have opening : (" " ++ name ++ "=\"").toList.all isXml10Character = true := by
    simp [valid]
    decide
  refine emits_congr (emits_bind (emits_pushStr opening) (emits_bind (emits_escaped true value)
    (emits_pushStr (by decide)))) ?_
  simp [Spelling.spellAttribute, spelling]

end Emits

/-! ## The elements of a document -/

def text (value : String) : List Xml.Node := value.toList.map .char

def spaces (count : Nat) : String := String.ofList (List.replicate count ' ')

def identityAttributes (identity : PackageVersionIdentity) : List (String × String) :=
  [("registry-id", identity.registryId), ("org", identity.org), ("name", identity.name),
    ("version", identity.version)]

def identityNode (tag : String) (identity : PackageVersionIdentity) : Xml.Node :=
  .element tag (identityAttributes identity) []

def featureNodes (indent : Nat) (feature : String) : List Xml.Node :=
  text (spaces indent ++ "  ") ++ [.element "feature" [] (text feature)] ++ text "\n"

def featuresNodes (indent : Nat) (features : List String) : List Xml.Node :=
  text (spaces indent) ++ [.element "features" []
    (text "\n" ++ features.flatMap (featureNodes indent) ++ text (spaces indent))] ++ text "\n"

def featuresContent (features : List String) : List Xml.Node :=
  if features.isEmpty then [] else text "\n" ++ featuresNodes 6 features ++ text "    "

def optionalFeatures (indent : Nat) (features : List String) : List Xml.Node :=
  if !features.isEmpty then featuresNodes indent features else []

def dependencyAttributes (dependency : DeclaredDependency) : List (String × String) :=
  [("registry-id", dependency.registryId), ("org", dependency.org), ("name", dependency.name),
    ("requirement", dependency.requirement), ("kind", dependencyKindName dependency.kind),
    ("optional", boolName dependency.optional),
    ("default-features", boolName dependency.defaultFeatures)] ++
    dependency.target.toList.map ("target", ·)

def dependencyNodes (dependency : DeclaredDependency) : List Xml.Node :=
  text "    " ++ [.element "dependency" (dependencyAttributes dependency)
    (featuresContent dependency.features)] ++ text "\n"

def nodeNodes (node : ResolvedDependencyNode) : List Xml.Node :=
  text "    " ++ [.element "node"
    (identityAttributes node.id ++ node.artifactDigest.toList.map ("artifact-digest", ·))
    (featuresContent node.features)] ++ text "\n"

def edgeAttributes (edge : ResolvedDependencyEdge) : List (String × String) :=
  [("kind", dependencyKindName edge.kind), ("optional", boolName edge.optional)] ++
    edge.requirement.toList.map ("requirement", ·) ++ edge.target.toList.map ("target", ·)

def edgeNodes (edge : ResolvedDependencyEdge) : List Xml.Node :=
  text "    " ++ [.element "edge" (edgeAttributes edge)
    (text "\n      " ++ [identityNode "from" edge.source] ++ text "\n      " ++
      [identityNode "to" edge.destination] ++ text "\n" ++ optionalFeatures 6 edge.features ++
      text "    ")] ++ text "\n"

def rootNodes (root : PackageVersionIdentity) : List Xml.Node :=
  text "    " ++ [identityNode "root" root] ++ text "\n"

def snapshotNodes (snapshot : RegistrySnapshot) : List Xml.Node :=
  text "      " ++ [.element "registry-snapshot" [("registry-id", snapshot.registryId),
    ("checkpoint-digest", snapshot.checkpointDigest)] []] ++ text "\n"

def provenanceNodes (provenance : ResolutionProvenance) : List Xml.Node :=
  [.element "provenance" [("resolver-version", provenance.resolverVersion),
      ("target", provenance.target), ("lock-digest", provenance.lockDigest)]
    (text "\n" ++ optionalFeatures 4 provenance.enabledFeatures ++ text "    " ++
      [.element "registry-snapshots" []
        (text "\n" ++ provenance.registrySnapshots.flatMap snapshotNodes ++ text "    ")] ++
      text "\n  ")] ++ text "\n"

def kindNodes (kind : DependencyKind) : List Xml.Node :=
  text "      " ++ [.element "kind" [] (text (dependencyKindName kind))] ++ text "\n"

def kindsNodes (kinds : List DependencyKind) : List Xml.Node :=
  if !kinds.isEmpty then
    text "    " ++ [.element "kinds" [] (text "\n" ++ kinds.flatMap kindNodes ++ text "    ")] ++
      text "\n"
  else []

def projectionAttributes (projection : DependencyGraphProjection) : List (String × String) :=
  projection.target.toList.map ("target", ·) ++
    projection.maxDepth.toList.map fun maxDepth => ("max-depth", decimal maxDepth.toNat)

def projectionContent (projection : DependencyGraphProjection) : List Xml.Node :=
  if projection.features.isEmpty && projection.kinds.isEmpty then []
  else text "\n" ++ optionalFeatures 4 projection.features ++ kindsNodes projection.kinds ++
    text "  "

def projectionNodes (projection : DependencyGraphProjection) : List Xml.Node :=
  text "  " ++ [.element "projection" (projectionAttributes projection)
    (projectionContent projection)] ++ text "\n"

def parentNodes (parent : String) : List Xml.Node :=
  text "  " ++ [.element "parent-graph" [("digest", parent)] []] ++ text "\n"

/-- The attributes and children that the arm of the graph gives the root. -/
def graphAttributes : DependencyGraphData → List (String × String)
  | .declared _ _ => [("view", "declared")]
  | .resolved completeness _ _ _ _ _ _ =>
    [("view", "resolved"), ("completeness", completenessName completeness)]

def graphNodes : DependencyGraphData → List Xml.Node
  | .declared package dependencies =>
    text "\n  " ++ [identityNode "package" package] ++ text "\n  " ++
      [.element "dependencies" [("count", decimal dependencies.length)]
        (text "\n" ++ dependencies.flatMap dependencyNodes ++ text "  ")] ++ text "\n"
  | .resolved _ roots nodes edges provenance parentGraphDigest projection =>
    text "\n  " ++ [.element "roots" [] (text "\n" ++ roots.flatMap rootNodes ++ text "  ")] ++
      text "\n  " ++ [.element "nodes" [] (text "\n" ++ nodes.flatMap nodeNodes ++ text "  ")] ++
      text "\n  " ++ [.element "edges" [] (text "\n" ++ edges.flatMap edgeNodes ++ text "  ")] ++
      text "\n  " ++ provenanceNodes provenance ++
      parentGraphDigest.toList.flatMap parentNodes ++ projection.toList.flatMap projectionNodes

def documentNode (document : DependencyGraphDocument) : Xml.Node :=
  .element "dependency-graph" ([("schema", document.schema)] ++
    document.graphDigest.toList.map ("graph-digest", ·) ++ graphAttributes document.graph)
    (graphNodes document.graph)

def documentNodes (document : DependencyGraphDocument) : List Xml.Node :=
  text "\n" ++ [documentNode document] ++ text "\n"

def declaration : List (String × String) := [("version", "1.0"), ("encoding", "UTF-8")]

/-- The text of a document, whatever its size and its characters. -/
def rendering (document : DependencyGraphDocument) : List Char :=
  spelling.spellDocument declaration (documentNodes document)

/-! ## The writers emit the elements -/

theorem spell_text (value : String) :
    spelling.spell (text value) =
      value.toList.flatMap fun character => (escaped false character).toList :=
  spelling.spell_characters value.toList

/-- Layout and names are written as they are. -/
def plain (value : String) : Bool :=
  value.toList.all fun character => (escaped false character).toList = [character]

theorem spell_plain {value : String} (isPlain : plain value = true) :
    spelling.spell (text value) = value.toList := by
  rw [spell_text]
  unfold plain at isPlain
  generalize value.toList = characters at isPlain ⊢
  induction characters with
  | nil => rfl
  | cons character characters inductionHypothesis =>
      simp only [List.all_cons, Bool.and_eq_true, decide_eq_true_eq] at isPlain
      rw [List.flatMap_cons, isPlain.1, inductionHypothesis isPlain.2, List.singleton_append]

theorem text_isEmpty {value : String} (nonempty : value.toList.isEmpty = false)
    (nodes : List Xml.Node) : (text value ++ nodes).isEmpty = false := by
  unfold text
  generalize value.toList = characters at nonempty ⊢
  cases characters with
  | nil => contradiction
  | cons character characters => rfl

/-- An element whose children begin with layout is written with two tags. -/
theorem spellInside_layout (name : String) {layout : String}
    (nonempty : layout.toList.isEmpty = false) (nodes : List Xml.Node) :
    spelling.spellInside name (text layout ++ nodes) =
      '>' :: (spelling.spell (text layout) ++ (spelling.spell nodes ++
        '<' :: '/' :: (name.toList ++ ['>']))) := by
  rw [spelling.spellInside_open (.inl (text_isEmpty nonempty nodes)), spelling.spell_append,
    List.append_assoc]

theorem spellInside_text {name value : String} (closes : spelling.selfClosing name = false) :
    spelling.spellInside name (text value) =
      '>' :: (spelling.spell (text value) ++ '<' :: '/' :: (name.toList ++ ['>'])) :=
  spelling.spellInside_open (.inr closes)

theorem spellInside_nil {name : String} (closes : name ≠ "feature") :
    spelling.spellInside name [] = [' ', '/', '>'] :=
  spelling.spellInside_nil (decide_eq_true closes)

section Writers

variable {limit : UInt64}

theorem emits_identityAttributes (identity : PackageVersionIdentity) :
    Emits limit (xmlIdentityAttributes limit identity)
      ((identityAttributes identity).flatMap spelling.spellAttribute) := by
  refine emits_congr (emits_bind (emits_attribute (by decide) _) (emits_bind
    (emits_attribute (by decide) _) (emits_bind (emits_attribute (by decide) _)
      (emits_attribute (by decide) _)))) ?_
  simp [identityAttributes]

theorem emits_identity {tag : String} (valid : tag.toList.all isXml10Character = true)
    (closes : tag ≠ "feature") (identity : PackageVersionIdentity) :
    Emits limit (xmlIdentity limit tag identity)
      (spelling.spell ([identityNode tag identity] ++ text "\n")) := by
  have opening : ("<" ++ tag).toList.all isXml10Character = true := by
    simp [valid]
    decide
  refine emits_congr (emits_bind (emits_pushStr opening) (emits_bind
    (emits_identityAttributes identity) (emits_pushStr (by decide)))) ?_
  simp (disch := decide) [identityNode, spellInside_nil closes, Spelling.spellTag, spell_plain]

theorem spaces_toList (count : Nat) : (spaces count).toList = List.replicate count ' ' :=
  String.toList_ofList

theorem spaces_valid (count : Nat) : (spaces count).toList.all isXml10Character = true := by
  rw [spaces_toList, List.all_eq_true]
  intro character inside
  rw [List.eq_of_mem_replicate inside]
  decide

theorem spell_spaces (count : Nat) : spelling.spell (text (spaces count)) =
    List.replicate count ' ' := by
  rw [← spaces_toList]
  apply spell_plain
  rw [plain, spaces_toList, List.all_eq_true]
  intro character inside
  rw [List.eq_of_mem_replicate inside]
  decide

theorem text_append (left right : String) : text (left ++ right) = text left ++ text right := by
  simp [text]

theorem indented_valid (count : Nat) {value : String}
    (valid : value.toList.all isXml10Character = true) :
    (spaces count ++ value).toList.all isXml10Character = true := by
  rw [String.toList_append, List.all_append, spaces_valid, valid, Bool.and_self]

theorem emits_feature (feature : String) (count : Nat) :
    Emits limit (do
        pushStr limit (spaces count ++ "  <feature>")
        xmlText limit feature
        pushStr limit "</feature>\n")
      (spelling.spell (featureNodes count feature)) := by
  refine emits_congr (emits_bind (emits_pushStr (indented_valid count (by decide)))
    (emits_bind (emits_escaped false feature) (emits_pushStr (by decide)))) ?_
  simp (disch := decide) [featureNodes, spaces_toList, spell_spaces, text_append,
    spellInside_text, spell_text feature, spell_plain, Spelling.spellTag]

theorem emits_features (features : List String) (count : Nat) :
    Emits limit (xmlFeatures limit features count)
      (spelling.spell (featuresNodes count features)) := by
  refine emits_congr (emits_bind (emits_pushStr (indented_valid count (by decide)))
    (emits_bind (emits_forM (fun feature => emits_feature feature count) features)
      (emits_pushStr (indented_valid count (by decide))))) ?_
  simp (disch := decide) [featuresNodes, spell_spaces, spell_plain,
    spellInside_layout, Spelling.spellTag]

/-- What follows the attributes of an element that has features or nothing inside. -/
theorem emits_featuresOrEmpty {name : String} (features : List String) {closing : String}
    (valid : closing.toList.all isXml10Character = true) (closes : name ≠ "feature")
    (same : closing.toList = "    </".toList ++ name.toList ++ ">\n".toList) :
    Emits limit (xmlFeaturesOrEmpty limit features closing)
      (spelling.spellInside name (featuresContent features) ++ ['\n']) := by
  cases features with
  | nil =>
      refine emits_congr (@emits_pushStr limit " />\n" (by decide)) ?_
      simp [featuresContent, spellInside_nil closes]
  | cons feature features =>
      refine emits_congr (emits_bind (@emits_pushStr limit ">\n" (by decide)) (emits_bind
        (emits_features (feature :: features) 6) (emits_pushStr valid))) ?_
      simp (disch := decide) [featuresContent, spellInside_layout, spell_plain, same]

theorem emits_dependency (dependency : DeclaredDependency) :
    Emits limit (xmlDependency limit dependency)
      (spelling.spell (dependencyNodes dependency)) := by
  have target := emits_forM (fun value => @emits_attribute limit "target" (by decide) value)
    dependency.target.toList
  have inside := @emits_featuresOrEmpty limit "dependency" dependency.features
    "    </dependency>\n" (by decide) (by decide) (by decide)
  refine emits_congr (emits_bind (emits_pushStr (by decide))
    (emits_bind (emits_attribute (by decide) _) (emits_bind (emits_attribute (by decide) _)
    (emits_bind (emits_attribute (by decide) _) (emits_bind (emits_attribute (by decide) _)
    (emits_bind (emits_attribute (by decide) _) (emits_bind (emits_attribute (by decide) _)
    (emits_bind (emits_attribute (by decide) _) (emits_bind target inside))))))))) ?_
  simp (disch := decide) [dependencyNodes, dependencyAttributes, spell_plain,
    Spelling.spellTag, List.flatMap_map]

theorem emits_node (node : ResolvedDependencyNode) :
    Emits limit (xmlNode limit node) (spelling.spell (nodeNodes node)) := by
  have digest := emits_forM
    (fun value => @emits_attribute limit "artifact-digest" (by decide) value)
    node.artifactDigest.toList
  have inside := @emits_featuresOrEmpty limit "node" node.features "    </node>\n"
    (by decide) (by decide) (by decide)
  refine emits_congr (emits_bind (emits_pushStr (by decide))
    (emits_bind (emits_identityAttributes node.id) (emits_bind digest inside))) ?_
  simp (disch := decide) [nodeNodes, spell_plain, Spelling.spellTag, List.flatMap_map]

theorem emits_optionalFeatures (features : List String) (count : Nat) :
    Emits limit (writeIf (!features.isEmpty) (xmlFeatures limit features count))
      (spelling.spell (optionalFeatures count features)) := by
  refine emits_congr (emits_if (emits_features features count) (!features.isEmpty)) ?_
  rw [optionalFeatures]
  split <;> rfl

theorem emits_edge (edge : ResolvedDependencyEdge) :
    Emits limit (xmlEdge limit edge) (spelling.spell (edgeNodes edge)) := by
  have requirement := emits_forM
    (fun value => @emits_attribute limit "requirement" (by decide) value)
    edge.requirement.toList
  have target := emits_forM (fun value => @emits_attribute limit "target" (by decide) value)
    edge.target.toList
  have source := @emits_identity limit "from" (by decide) (by decide) edge.source
  have destination := @emits_identity limit "to" (by decide) (by decide) edge.destination
  have features := @emits_optionalFeatures limit edge.features 6
  have inside := emits_bind (@emits_pushStr limit ">\n      " (by decide)) (emits_bind source
    (emits_bind (@emits_pushStr limit "      " (by decide)) (emits_bind destination
      (emits_bind features (@emits_pushStr limit "    </edge>\n" (by decide))))))
  refine emits_congr (emits_bind (emits_pushStr (by decide)) (emits_bind
    (emits_attribute (by decide) _) (emits_bind (emits_attribute (by decide) _)
      (emits_bind requirement (emits_bind target inside))))) ?_
  simp (disch := decide) [edgeNodes, edgeAttributes, identityNode, spell_plain,
    spellInside_layout, Spelling.spellTag, List.flatMap_map]

theorem emits_root (root : PackageVersionIdentity) :
    Emits limit (do
        pushStr limit "    "
        xmlIdentity limit "root" root)
      (spelling.spell (rootNodes root)) := by
  have identity := @emits_identity limit "root" (by decide) (by decide) root
  refine emits_congr (emits_bind (@emits_pushStr limit "    " (by decide)) identity) ?_
  simp (disch := decide) [rootNodes, spell_plain]

theorem emits_snapshot (snapshot : RegistrySnapshot) :
    Emits limit (xmlSnapshot limit snapshot) (spelling.spell (snapshotNodes snapshot)) := by
  refine emits_congr (emits_bind (emits_pushStr (by decide)) (emits_bind
    (emits_attribute (by decide) _) (emits_bind (emits_attribute (by decide) _)
      (emits_pushStr (by decide))))) ?_
  simp (disch := decide) [snapshotNodes, spell_plain, spellInside_nil, Spelling.spellTag]

theorem emits_provenance (provenance : ResolutionProvenance) :
    Emits limit (xmlProvenance limit provenance)
      (spelling.spell (provenanceNodes provenance)) := by
  have features := @emits_optionalFeatures limit provenance.enabledFeatures 4
  have snapshots := emits_forM (@emits_snapshot limit) provenance.registrySnapshots
  have inside := emits_bind (@emits_pushStr limit ">\n" (by decide)) (emits_bind features
    (emits_bind (@emits_pushStr limit "    <registry-snapshots>\n" (by decide))
      (emits_bind snapshots
        (@emits_pushStr limit "    </registry-snapshots>\n  </provenance>\n" (by decide)))))
  refine emits_congr (emits_bind (emits_pushStr (by decide)) (emits_bind
    (emits_attribute (by decide) _) (emits_bind (emits_attribute (by decide) _)
      (emits_bind (emits_attribute (by decide) _) inside)))) ?_
  simp (disch := decide) [provenanceNodes, spell_plain, spellInside_layout, Spelling.spellTag]

theorem dependencyKindName_plain (kind : DependencyKind) :
    plain (dependencyKindName kind) = true ∧
      (dependencyKindName kind).toList.all isXml10Character = true := by
  cases kind <;> decide

theorem emits_kind (kind : DependencyKind) :
    Emits limit (xmlKind limit kind) (spelling.spell (kindNodes kind)) := by
  have name := dependencyKindName_plain kind
  have valid : ("      <kind>" ++ dependencyKindName kind ++ "</kind>\n").toList.all
      isXml10Character = true := by
    rw [String.toList_append, String.toList_append, List.all_append, List.all_append, name.2]
    decide
  have opened : (text (dependencyKindName kind)).isEmpty = false := by
    cases kind <;> rfl
  refine emits_congr (emits_pushStr valid) ?_
  simp (disch := decide) [kindNodes, spell_plain, spell_plain name.1,
    spelling.spellInside_open (.inl opened), Spelling.spellTag]

theorem emits_kinds (kinds : List DependencyKind) :
    Emits limit (writeIf (!kinds.isEmpty) (xmlKinds limit kinds))
      (spelling.spell (kindsNodes kinds)) := by
  have each := emits_forM (@emits_kind limit) kinds
  have all := emits_bind (@emits_pushStr limit "    <kinds>\n" (by decide))
    (emits_bind each (@emits_pushStr limit "    </kinds>\n" (by decide)))
  refine emits_congr (emits_if all (!kinds.isEmpty)) ?_
  rw [kindsNodes]
  split
  · simp (disch := decide) [spell_plain, spellInside_layout, Spelling.spellTag]
  · rfl

theorem emits_projection (projection : DependencyGraphProjection) :
    Emits limit (do
        pushStr limit "  "
        xmlProjection limit projection)
      (spelling.spell (projectionNodes projection)) := by
  have target := emits_forM (fun value => @emits_attribute limit "target" (by decide) value)
    projection.target.toList
  have depth := emits_forM (fun maxDepth : UInt32 =>
    @emits_attribute limit "max-depth" (by decide) (decimal maxDepth.toNat))
    projection.maxDepth.toList
  have features := @emits_optionalFeatures limit projection.features 4
  have kinds := @emits_kinds limit projection.kinds
  have whole := emits_bind (@emits_pushStr limit ">\n" (by decide)) (emits_bind features
    (emits_bind kinds (@emits_pushStr limit "  </projection>\n" (by decide))))
  have inside : Emits limit
      (if projection.features.isEmpty && projection.kinds.isEmpty then pushStr limit " />\n"
      else do
        pushStr limit ">\n"
        writeIf (!projection.features.isEmpty) (xmlFeatures limit projection.features 4)
        writeIf (!projection.kinds.isEmpty) (xmlKinds limit projection.kinds)
        pushStr limit "  </projection>\n")
      (spelling.spellInside "projection" (projectionContent projection) ++ ['\n']) := by
    rw [projectionContent]
    split
    · refine emits_congr (@emits_pushStr limit " />\n" (by decide)) ?_
      simp (disch := decide) [spellInside_nil]
    · refine emits_congr whole ?_
      simp (disch := decide) [spell_plain, spellInside_layout]
  refine emits_congr (emits_bind (@emits_pushStr limit "  " (by decide)) (emits_bind
    (@emits_pushStr limit "<projection" (by decide)) (emits_bind target (emits_bind depth
      inside)))) ?_
  simp (disch := decide) [projectionNodes, projectionAttributes, spell_plain,
    Spelling.spellTag, List.flatMap_map]

theorem emits_parent (parent : String) :
    Emits limit (do
        pushStr limit "  <parent-graph"
        xmlAttribute limit "digest" parent
        pushStr limit " />\n")
      (spelling.spell (parentNodes parent)) := by
  refine emits_congr (emits_bind (emits_pushStr (by decide)) (emits_bind
    (emits_attribute (by decide) _) (emits_pushStr (by decide)))) ?_
  simp (disch := decide) [parentNodes, spell_plain, spellInside_nil, Spelling.spellTag]

theorem escaped_digit {character : Char} (digit : character.isDigit = true)
    (inAttribute : Bool) : (escaped inAttribute character).toList = [character] := by
  unfold escaped
  split
  all_goals first
    | exact absurd digit (by decide)
    | exact String.toList_singleton _

theorem isXml10Character_digit {character : Char} (digit : character.isDigit = true) :
    isXml10Character character = true := by
  have range : 48 ≤ character.toNat ∧ character.toNat ≤ 57 := by
    simpa [Char.isDigit, UInt32.le_iff_toNat_le] using digit
  unfold isXml10Character
  simp only [Bool.or_eq_true, Bool.and_eq_true, decide_eq_true_eq]
  omega

theorem decimal_digits (value : Nat) :
    ∀ character ∈ (decimal value).toList, character.isDigit = true := by
  intro character inside
  rw [decimal, String.toList_ofList] at inside
  exact Nat.isDigit_of_mem_toDigits (by decide) (by decide) inside

theorem spellAttribute_count (value : Nat) :
    spelling.spellAttribute ("count", decimal value) =
      " count=\"".toList ++ ((decimal value).toList ++ "\"".toList) := by
  have unescaped : ∀ characters : List Char, (∀ character ∈ characters, character.isDigit = true) →
      characters.flatMap spelling.attributeChar = characters := by
    intro characters digits
    induction characters with
    | nil => rfl
    | cons character characters inductionHypothesis =>
        have first : spelling.attributeChar character = [character] :=
          escaped_digit (digits character List.mem_cons_self) true
        rw [List.flatMap_cons, first, inductionHypothesis fun other inside =>
          digits other (List.mem_cons_of_mem _ inside), List.singleton_append]
  simp [Spelling.spellAttribute, unescaped _ (decimal_digits value)]

theorem emits_declared (package : PackageVersionIdentity)
    (dependencies : List DeclaredDependency) :
    Emits limit (xmlGraph limit (.declared package dependencies))
      (spelling.spellAttribute ("view", "declared") ++
        (spelling.spellInside "dependency-graph" (graphNodes (.declared package dependencies)) ++
          ['\n'])) := by
  have counted : ("  <dependencies count=\"" ++ decimal dependencies.length ++
      "\">\n").toList.all isXml10Character = true := by
    have digits : (decimal dependencies.length).toList.all isXml10Character = true := by
      rw [List.all_eq_true]
      intro character inside
      exact isXml10Character_digit (decimal_digits _ character inside)
    rw [String.toList_append, String.toList_append, List.all_append, List.all_append, digits]
    decide
  have identity := @emits_identity limit "package" (by decide) (by decide) package
  have each := emits_forM (@emits_dependency limit) dependencies
  refine emits_congr (emits_bind (emits_attribute (by decide) _) (emits_bind
    (@emits_pushStr limit ">\n  " (by decide)) (emits_bind identity (emits_bind
      (emits_pushStr counted) (emits_bind each
        (@emits_pushStr limit "  </dependencies>\n</dependency-graph>\n" (by decide))))))) ?_
  simp (disch := decide) [graphNodes, spell_plain, spellInside_layout, spellAttribute_count,
    Spelling.spellTag, identityNode]

theorem emits_resolved (completeness : DependencyGraphCompleteness)
    (roots : List PackageVersionIdentity) (nodes : List ResolvedDependencyNode)
    (edges : List ResolvedDependencyEdge) (provenance : ResolutionProvenance)
    (parentGraphDigest : Option String) (projection : Option DependencyGraphProjection) :
    Emits limit (xmlGraph limit (.resolved completeness roots nodes edges provenance
        parentGraphDigest projection))
      ((spelling.spellAttribute ("view", "resolved") ++
        spelling.spellAttribute ("completeness", completenessName completeness)) ++
        (spelling.spellInside "dependency-graph" (graphNodes (.resolved completeness roots nodes
          edges provenance parentGraphDigest projection)) ++ ['\n'])) := by
  have writtenRoots := emits_forM (@emits_root limit) roots
  have writtenNodes := emits_forM (@emits_node limit) nodes
  have writtenEdges := emits_forM (@emits_edge limit) edges
  have writtenProvenance := @emits_provenance limit provenance
  have writtenParent := emits_forM (@emits_parent limit) parentGraphDigest.toList
  have writtenProjection := emits_forM (@emits_projection limit) projection.toList
  refine emits_congr (emits_bind (emits_attribute (by decide) _) (emits_bind
    (emits_attribute (by decide) _) (emits_bind (@emits_pushStr limit ">\n  <roots>\n" (by decide))
    (emits_bind writtenRoots (emits_bind
      (@emits_pushStr limit "  </roots>\n  <nodes>\n" (by decide)) (emits_bind writtenNodes
      (emits_bind (@emits_pushStr limit "  </nodes>\n  <edges>\n" (by decide)) (emits_bind
        writtenEdges (emits_bind (@emits_pushStr limit "  </edges>\n  " (by decide)) (emits_bind
          writtenProvenance (emits_bind writtenParent (emits_bind writtenProjection
            (@emits_pushStr limit "</dependency-graph>\n" (by decide)))))))))))))) ?_
  simp (disch := decide) [graphNodes, spell_plain, spellInside_layout, Spelling.spellTag]

theorem emits_document (document : DependencyGraphDocument) :
    Emits limit (xmlDocument limit document) (rendering document) := by
  have digest := emits_forM
    (fun value => @emits_attribute limit "graph-digest" (by decide) value)
    document.graphDigest.toList
  have graph : Emits limit (xmlGraph limit document.graph)
      ((graphAttributes document.graph).flatMap spelling.spellAttribute ++
        (spelling.spellInside "dependency-graph" (graphNodes document.graph) ++ ['\n'])) := by
    cases document.graph with
    | declared package dependencies =>
        refine emits_congr (emits_declared package dependencies) ?_
        simp [graphAttributes]
    | resolved completeness roots nodes edges provenance parentGraphDigest projection =>
        refine emits_congr (emits_resolved completeness roots nodes edges provenance
          parentGraphDigest projection) ?_
        simp [graphAttributes]
  refine emits_congr (emits_bind
    (@emits_pushStr limit "<?xml version=\"1.0\" encoding=\"UTF-8\"?>\n" (by decide))
    (emits_bind (@emits_pushStr limit "<dependency-graph" (by decide))
      (emits_bind (emits_attribute (by decide) _) (emits_bind digest graph)))) ?_
  have declared : declaration.flatMap spelling.spellAttribute =
      " version=\"1.0\" encoding=\"UTF-8\"".toList := by decide
  simp (disch := decide) [rendering, Spelling.spellDocument, declared, documentNodes,
    documentNode, spell_plain, Spelling.spellTag, List.flatMap_map]

end Writers

end XmlExport

end ZedRegistry
