import ZedRegistry.BinaryContract
import ZedRegistry.GraphDocument
import ZedRegistry.Lib.Protobuf

/-!
# The Protocol Buffers rendering of a graph

`graph_exports/protobuf.rs`, the committed schema `zpkg_dependency_graph_v1.proto`
as a proto3 parser reads it, and a document written by the one and read by the
other.
-/

set_option autoImplicit false

namespace ZedRegistry

def dependencyKindCode : DependencyKind → Nat
  | .runtime => 1
  | .build => 2
  | .development => 3
  | .peer => 4
  | .tooling => 5

def completenessCode : DependencyGraphCompleteness → Nat
  | .complete => 1
  | .projected => 2

namespace ProtobufExport

open Protobuf

/-! ## The writers -/

def protoVarint (value : Nat) : Bytes :=
  if 0x80 ≤ value then (UInt8.ofNat value &&& 0x7f ||| 0x80) :: protoVarint (value >>> 7)
  else [UInt8.ofNat value]
termination_by value
decreasing_by
  rw [Nat.shiftRight_eq_div_pow]
  omega

/-- The length goes through `as u64`. -/
def protoMessage (field : Nat) (value : Bytes) : Bytes :=
  protoVarint (field <<< 3 ||| 2) ++ (protoVarint (value.length % 2 ^ 64) ++ value)

def protoString (field : Nat) (value : String) : Bytes := protoMessage field (asBytes value)

def protoU64 (field value : Nat) : Bytes := protoVarint (field <<< 3) ++ protoVarint value

def protoEnum (field value : Nat) : Bytes := protoU64 field value

def protoBool (field : Nat) (value : Bool) : Bytes := if value then protoU64 field 1 else []

def protoIdentity (identity : PackageVersionIdentity) : Bytes :=
  protoString 1 identity.registryId ++ protoString 2 identity.org ++
    protoString 3 identity.name ++ protoString 4 identity.version

def protoDeclaredDependency (dependency : DeclaredDependency) : Bytes :=
  protoString 1 dependency.registryId ++ protoString 2 dependency.org ++
    protoString 3 dependency.name ++ protoString 4 dependency.requirement ++
    protoEnum 5 (dependencyKindCode dependency.kind) ++ protoBool 6 dependency.optional ++
    protoBool 7 dependency.defaultFeatures ++ dependency.features.flatMap (protoString 8) ++
    dependency.target.toList.flatMap (protoString 9)

def protoResolvedNode (node : ResolvedDependencyNode) : Bytes :=
  protoMessage 1 (protoIdentity node.id) ++ node.artifactDigest.toList.flatMap (protoString 2) ++
    node.features.flatMap (protoString 3)

def protoResolvedEdge (edge : ResolvedDependencyEdge) : Bytes :=
  protoMessage 1 (protoIdentity edge.source) ++ protoMessage 2 (protoIdentity edge.destination) ++
    protoEnum 3 (dependencyKindCode edge.kind) ++
    edge.requirement.toList.flatMap (protoString 4) ++
    edge.target.toList.flatMap (protoString 5) ++ protoBool 6 edge.optional ++
    edge.features.flatMap (protoString 7)

def protoSnapshot (snapshot : RegistrySnapshot) : Bytes :=
  protoString 1 snapshot.registryId ++ protoString 2 snapshot.checkpointDigest

def protoProvenance (provenance : ResolutionProvenance) : Bytes :=
  protoString 1 provenance.resolverVersion ++ protoString 2 provenance.target ++
    provenance.enabledFeatures.flatMap (protoString 3) ++
    provenance.registrySnapshots.flatMap
      (fun snapshot => protoMessage 4 (protoSnapshot snapshot)) ++
    protoString 5 provenance.lockDigest

def protoProjection (projection : DependencyGraphProjection) : Bytes :=
  projection.target.toList.flatMap (protoString 1) ++
    projection.features.flatMap (protoString 2) ++
    projection.kinds.flatMap (fun kind => protoEnum 3 (dependencyKindCode kind)) ++
    projection.maxDepth.toList.flatMap (fun maxDepth => protoU64 4 maxDepth.toNat)

def protoDeclaredGraph (package : PackageVersionIdentity)
    (dependencies : List DeclaredDependency) : Bytes :=
  protoMessage 1 (protoIdentity package) ++
    dependencies.flatMap fun dependency => protoMessage 2 (protoDeclaredDependency dependency)

def protoResolvedGraph (completeness : DependencyGraphCompleteness)
    (roots : List PackageVersionIdentity) (nodes : List ResolvedDependencyNode)
    (edges : List ResolvedDependencyEdge) (provenance : ResolutionProvenance)
    (parentGraphDigest : Option String) (projection : Option DependencyGraphProjection) : Bytes :=
  protoEnum 1 (completenessCode completeness) ++
    roots.flatMap (fun root => protoMessage 2 (protoIdentity root)) ++
    nodes.flatMap (fun node => protoMessage 3 (protoResolvedNode node)) ++
    edges.flatMap (fun edge => protoMessage 4 (protoResolvedEdge edge)) ++
    protoMessage 5 (protoProvenance provenance) ++
    parentGraphDigest.toList.flatMap (protoString 6) ++
    projection.toList.flatMap (fun projection => protoMessage 7 (protoProjection projection))

def protoGraph : DependencyGraphData → Bytes
  | .declared package dependencies => protoMessage 10 (protoDeclaredGraph package dependencies)
  | .resolved completeness roots nodes edges provenance parentGraphDigest projection =>
    protoMessage 11 (protoResolvedGraph completeness roots nodes edges provenance
      parentGraphDigest projection)

def encode (document : DependencyGraphDocument) : Bytes :=
  protoString 1 document.schema ++ document.graphDigest.toList.flatMap (protoString 2) ++
    protoGraph document.graph

/-! ## The committed schema -/

/-- `enum DependencyKind`; zero is unspecified. -/
def kindOfNumber : Nat → Option DependencyKind
  | 1 => some .runtime
  | 2 => some .build
  | 3 => some .development
  | 4 => some .peer
  | 5 => some .tooling
  | _ => none

/-- `enum GraphCompleteness`. -/
def completenessOfNumber : Nat → Option DependencyGraphCompleteness
  | 1 => some .complete
  | 2 => some .projected
  | _ => none

def string (number : Nat) (fields : List Field) : Option String :=
  implicitField decodeUtf8 "" number fields

def optionalString (number : Nat) (fields : List Field) : Option (Option String) :=
  optionalField decodeUtf8 number fields

def strings (number : Nat) (fields : List Field) : Option (List String) :=
  repeatedField decodeUtf8 number fields

def boolean (number : Nat) (fields : List Field) : Bool := implicitScalar number fields ≠ 0

/-- An enumeration or a `uint32` keeps the low 32 bits of its varint. -/
def low32 (value : Nat) : Nat := value % 2 ^ 32

def dependencyKind (number : Nat) (fields : List Field) : Option DependencyKind :=
  kindOfNumber (low32 (implicitScalar number fields))

def message {α : Type} (ofFields : List Field → Option α) (number : Nat)
    (fields : List Field) : Option α :=
  (mergedMessage number fields).bind (decodeMessage ofFields)

def messages {α : Type} (ofFields : List Field → Option α) (number : Nat)
    (fields : List Field) : Option (List α) :=
  repeatedField (decodeMessage ofFields) number fields

def optionalMessage {α : Type} (ofFields : List Field → Option α) (number : Nat)
    (fields : List Field) : Option (Option α) :=
  match mergedMessage number fields with
  | none => some none
  | some bytes => (decodeMessage ofFields bytes).map some

def packageVersionIdentity (fields : List Field) : Option PackageVersionIdentity := do
  let registryId ← string 1 fields
  let org ← string 2 fields
  let name ← string 3 fields
  let version ← string 4 fields
  pure ⟨registryId, org, name, version⟩

def declaredDependency (fields : List Field) : Option DeclaredDependency := do
  let registryId ← string 1 fields
  let org ← string 2 fields
  let name ← string 3 fields
  let requirement ← string 4 fields
  let kind ← dependencyKind 5 fields
  let optional := boolean 6 fields
  let defaultFeatures := boolean 7 fields
  let features ← strings 8 fields
  let target ← optionalString 9 fields
  pure ⟨registryId, org, name, requirement, kind, optional, defaultFeatures, features, target⟩

def declaredGraph (fields : List Field) : Option DependencyGraphData := do
  let package ← message packageVersionIdentity 1 fields
  let dependencies ← messages declaredDependency 2 fields
  pure (.declared package dependencies)

def resolvedDependencyNode (fields : List Field) : Option ResolvedDependencyNode := do
  let id ← message packageVersionIdentity 1 fields
  let artifactDigest ← optionalString 2 fields
  let features ← strings 3 fields
  pure ⟨id, artifactDigest, features⟩

def resolvedDependencyEdge (fields : List Field) : Option ResolvedDependencyEdge := do
  let source ← message packageVersionIdentity 1 fields
  let destination ← message packageVersionIdentity 2 fields
  let kind ← dependencyKind 3 fields
  let requirement ← optionalString 4 fields
  let target ← optionalString 5 fields
  let optional := boolean 6 fields
  let features ← strings 7 fields
  pure ⟨source, destination, kind, requirement, target, optional, features⟩

def registrySnapshot (fields : List Field) : Option RegistrySnapshot := do
  let registryId ← string 1 fields
  let checkpointDigest ← string 2 fields
  pure ⟨registryId, checkpointDigest⟩

def resolutionProvenance (fields : List Field) : Option ResolutionProvenance := do
  let resolverVersion ← string 1 fields
  let target ← string 2 fields
  let enabledFeatures ← strings 3 fields
  let registrySnapshots ← messages registrySnapshot 4 fields
  let lockDigest ← string 5 fields
  pure ⟨resolverVersion, target, enabledFeatures, registrySnapshots, lockDigest⟩

def dependencyGraphProjection (fields : List Field) : Option DependencyGraphProjection := do
  let target ← optionalString 1 fields
  let features ← strings 2 fields
  let numbers ← repeatedScalar 3 fields
  let kinds ← numbers.mapM fun number => kindOfNumber (low32 number)
  let maxDepth := (optionalScalar 4 fields).map fun value => UInt32.ofNat (low32 value)
  pure ⟨target, features, kinds, maxDepth⟩

def resolvedGraph (fields : List Field) : Option DependencyGraphData := do
  let completeness ← completenessOfNumber (low32 (implicitScalar 1 fields))
  let roots ← messages packageVersionIdentity 2 fields
  let nodes ← messages resolvedDependencyNode 3 fields
  let edges ← messages resolvedDependencyEdge 4 fields
  let provenance ← message resolutionProvenance 5 fields
  let parentGraphDigest ← optionalString 6 fields
  let projection ← optionalMessage dependencyGraphProjection 7 fields
  pure (.resolved completeness roots nodes edges provenance parentGraphDigest projection)

/-- The digest has implicit presence: a document without one has the empty text. -/
def dependencyGraphDocument (fields : List Field) : Option DependencyGraphDocument := do
  let schema ← string 1 fields
  let graphDigest ← string 2 fields
  let (arm, bytes) ← oneof [10, 11] fields
  let graph ← decodeMessage (if arm = 10 then declaredGraph else resolvedGraph) bytes
  pure ⟨schema, graph, if graphDigest = "" then none else some graphDigest⟩

def decode (bytes : Bytes) : Option DependencyGraphDocument :=
  decodeMessage dependencyGraphDocument bytes

/-! ## Single fields -/

theorem continued_toNat (value : Nat) :
    (UInt8.ofNat value &&& 0x7f ||| 0x80).toNat = value % 0x80 + 0x80 := by
  have low : (UInt8.ofNat value &&& 0x7f).toNat = value % 0x80 := by
    rw [UInt8.toNat_and, UInt8.toNat_ofNat']
    have mask : (0x7f : UInt8).toNat = 2 ^ 7 - 1 := rfl
    rw [mask, Nat.and_two_pow_sub_one_eq_mod]
    omega
  have high : (0x80 : UInt8).toNat = 2 ^ 7 * 1 := rfl
  rw [UInt8.toNat_or, low, high, Nat.or_comm,
    ← Nat.two_pow_add_eq_or_of_lt (Nat.mod_lt value (by omega))]
  omega

/-- The induction is on the number of bytes the value can need. -/
theorem readVarint_protoVarint {limit value : Nat} (fits : value < 0x80 ^ (limit + 1))
    (rest : Bytes) : readVarint (limit + 1) (protoVarint value ++ rest) = some (value, rest) := by
  induction limit generalizing value with
  | zero =>
      rw [protoVarint, if_neg (by omega)]
      have byte : (UInt8.ofNat value).toNat = value := by
        rw [UInt8.toNat_ofNat']
        omega
      rw [List.singleton_append, readVarint, byte, if_pos (by omega)]
  | succ limit inductionHypothesis =>
      rw [protoVarint]
      split
      · have shifted : value >>> 7 = value / 0x80 := Nat.shiftRight_eq_div_pow value 7
        have smaller : value >>> 7 < 0x80 ^ (limit + 1) := by
          rw [shifted]
          apply Nat.div_lt_of_lt_mul
          rw [← Nat.pow_succ']
          exact fits
        have sum : value % 0x80 + 0x80 - 0x80 + 0x80 * (value >>> 7) = value := by omega
        rw [List.cons_append, readVarint, continued_toNat, if_neg (by omega),
          inductionHypothesis smaller, Option.map_some]
        simp only [sum]
      · have byte : (UInt8.ofNat value).toNat = value := by
          rw [UInt8.toNat_ofNat']
          omega
        rw [List.singleton_append, readVarint, byte, if_pos (by omega)]

theorem protoVarint_writes {value : Nat} (fits : value < 2 ^ 64) :
    WritesVarint (protoVarint value) value := by
  constructor
  · rw [protoVarint]
    split <;> simp
  · intro rest
    have read := readVarint_protoVarint (show value < 0x80 ^ (9 + 1) by omega) rest
    rw [readUInt64, read, Option.map_some]
    simp only [Nat.mod_eq_of_lt fits]

theorem protoMessage_writes {field : Nat} (positive : 0 < field) (bounded : field < 2 ^ 29)
    (value : Bytes) : Writes (protoMessage field value) [⟨field, .delimited value⟩] := by
  have key : field <<< 3 ||| 2 = 8 * field + 2 := by
    rw [← Nat.shiftLeft_add_eq_or_of_lt (show 2 < 2 ^ 3 by omega), Nat.shiftLeft_eq]
    omega
  unfold protoMessage
  rw [key]
  apply writes_delimited (protoVarint_writes (by omega)) positive bounded
  intro short
  rw [Nat.mod_eq_of_lt short]
  exact protoVarint_writes short

theorem protoU64_writes {field value : Nat} (positive : 0 < field) (bounded : field < 2 ^ 29)
    (fits : value < 2 ^ 64) : Writes (protoU64 field value) [⟨field, .varint value⟩] := by
  have key : field <<< 3 = 8 * field := by
    rw [Nat.shiftLeft_eq]
    omega
  unfold protoU64
  rw [key]
  exact writes_varint (protoVarint_writes (by omega)) positive bounded (protoVarint_writes fits)

/-! ## Fields of a message -/

def text (field : Nat) (value : String) : Field := ⟨field, .delimited (asBytes value)⟩

def boolFields (field : Nat) (value : Bool) : List Field :=
  if value then [⟨field, .varint 1⟩] else []

def kindField (field : Nat) (kind : DependencyKind) : Field :=
  ⟨field, .varint (dependencyKindCode kind)⟩

section Members

variable (field : Nat) (positive : 0 < field) (bounded : field < 2 ^ 29)
include positive bounded

theorem protoString_writes (value : String) :
    Writes (protoString field value) [text field value] :=
  protoMessage_writes positive bounded (asBytes value)

theorem protoStrings_writes (values : List String) :
    Writes (values.flatMap (protoString field)) (values.map (text field)) :=
  writes_flatMap (protoString_writes field positive bounded) values

theorem protoMessages_writes {α : Type} (write : α → Bytes) (items : List α) :
    Writes (items.flatMap fun item => protoMessage field (write item))
      (items.map fun item => ⟨field, .delimited (write item)⟩) :=
  writes_flatMap (fun item => protoMessage_writes positive bounded (write item)) items

theorem protoBool_writes (value : Bool) :
    Writes (protoBool field value) (boolFields field value) := by
  cases value with
  | false => exact writes_nil
  | true => exact protoU64_writes positive bounded (by omega)

theorem protoKind_writes (kind : DependencyKind) :
    Writes (protoEnum field (dependencyKindCode kind)) [kindField field kind] := by
  apply protoU64_writes positive bounded
  cases kind <;> decide

end Members

section Selected

variable (number field : Nat) (fields : List Field)

@[simp] theorem payloads_text (value : String) :
    payloads number (text field value :: fields) =
      (if field = number then [asBytes value] else []) ++ payloads number fields :=
  payloads_cons_delimited number field fields (asBytes value)

@[simp] theorem varints_text (value : String) :
    varints number (text field value :: fields) = varints number fields := rfl

@[simp] theorem payloads_map_text (values : List String) :
    payloads number (values.map (text field)) =
      if field = number then values.map asBytes else [] :=
  payloads_map_delimited number field asBytes values

@[simp] theorem varints_map_text (values : List String) :
    varints number (values.map (text field)) = [] :=
  varints_map_delimited number field asBytes values

@[simp] theorem payloads_boolFields (value : Bool) :
    payloads number (boolFields field value) = [] := by
  cases value <;> rfl

@[simp] theorem varints_boolFields (value : Bool) :
    varints number (boolFields field value) =
      if field = number then (if value then [1] else []) else [] := by
  cases value <;> simp [boolFields]

@[simp] theorem payloads_kindField (kind : DependencyKind) :
    payloads number (kindField field kind :: fields) = payloads number fields := rfl

@[simp] theorem varints_kindField (kind : DependencyKind) :
    varints number (kindField field kind :: fields) =
      (if field = number then [dependencyKindCode kind] else []) ++ varints number fields :=
  varints_cons_varint number field fields (dependencyKindCode kind)

@[simp] theorem payloads_map_kindField (kinds : List DependencyKind) :
    payloads number (kinds.map (kindField field)) = [] :=
  payloads_map_varint number field dependencyKindCode kinds

@[simp] theorem varints_map_kindField (kinds : List DependencyKind) :
    varints number (kinds.map (kindField field)) =
      if field = number then kinds.map dependencyKindCode else [] :=
  varints_map_varint number field dependencyKindCode kinds

end Selected

section Read

variable {number : Nat} {fields : List Field}

theorem strings_read {values : List String}
    (written : payloads number fields = values.map asBytes) :
    strings number fields = some values :=
  repeatedField_map written fun value _ => decodeUtf8_asBytes value

theorem optionalString_read {value : Option String}
    (written : payloads number fields = value.toList.map asBytes) :
    optionalString number fields = some value := by
  have read := strings_read written
  rw [strings] at read
  rw [optionalString, optionalField, read]
  cases value <;> rfl

theorem string_read {value : String} (written : payloads number fields = [asBytes value]) :
    string number fields = some value := by
  have read := @optionalString_read number fields (some value) written
  rw [optionalString] at read
  rw [string, implicitField, read]
  rfl

theorem boolean_read {value : Bool}
    (written : varints number fields = if value then [1] else []) :
    boolean number fields = value := by
  rw [boolean, implicitScalar, optionalScalar, written]
  cases value <;> rfl

@[simp] theorem kindOfNumber_code (kind : DependencyKind) :
    kindOfNumber (low32 (dependencyKindCode kind)) = some kind := by
  cases kind <;> rfl

theorem dependencyKind_read {kind : DependencyKind}
    (written : varints number fields = [dependencyKindCode kind]) :
    dependencyKind number fields = some kind := by
  rw [dependencyKind, implicitScalar, optionalScalar, written]
  exact kindOfNumber_code kind

section Messages

variable {α : Type} {ofFields : List Field → Option α} {write : α → Bytes} (short : Short fields)
  (decodes : ∀ item, (write item).length < 2 ^ 64 →
    decodeMessage ofFields (write item) = some item)
include short decodes

theorem messages_read {items : List α} (written : payloads number fields = items.map write) :
    messages ofFields number fields = some items := by
  apply repeatedField_map written
  intro item inside
  apply decodes
  apply short number
  rw [written]
  exact List.mem_map_of_mem inside

theorem message_read {value : α} (written : payloads number fields = [write value]) :
    message ofFields number fields = some value := by
  rw [message, mergedMessage_single written, Option.bind_some]
  apply decodes
  apply short number
  rw [written]
  exact List.mem_singleton_self _

theorem optionalMessage_read {value : Option α}
    (written : payloads number fields = value.toList.map write) :
    optionalMessage ofFields number fields = some value := by
  cases value with
  | none => simp [optionalMessage, mergedMessage, written]
  | some item =>
      have single : mergedMessage number fields = some (write item) :=
        mergedMessage_single written
      have decoded : decodeMessage ofFields (write item) = some item := by
        apply decodes
        apply short number
        simp [written]
      simp [optionalMessage, single, decoded]

end Messages

end Read

end ProtobufExport

end ZedRegistry
