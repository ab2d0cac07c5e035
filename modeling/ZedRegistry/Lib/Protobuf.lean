import ZedRegistry.Lib.ByteReader

/-!
# Protocol Buffers wire format

Messages as sequences of numbered fields, and what a proto3 parser takes from them:
the last value of a singular field, all values of a repeated one, merged
submessages, and the arm of a `oneof` that was set last.
-/

set_option autoImplicit false

namespace Protobuf

open ByteReader

/-! ## Varints -/

def readVarint : Nat → List UInt8 → Option (Nat × List UInt8)
  | 0, _ => none
  | _ + 1, [] => none
  | limit + 1, byte :: rest =>
    if byte.toNat < 0x80 then some (byte.toNat, rest)
    else (readVarint limit rest).map fun (high, rest) => (byte.toNat - 0x80 + 0x80 * high, rest)

/-- At most ten bytes; bits above the 64th are dropped. -/
def readUInt64 (bytes : List UInt8) : Option (Nat × List UInt8) :=
  (readVarint 10 bytes).map fun (value, rest) => (value % 2 ^ 64, rest)

/-! ## Fields -/

inductive WireValue where
  | varint (value : Nat)
  | fixed64 (bytes : List UInt8)
  | delimited (payload : List UInt8)
  | fixed32 (bytes : List UInt8)

structure Field where
  number : Nat
  value : WireValue

/-- The value of a field by its wire type; proto3 has no groups. -/
def readWireValue (wireType : Nat) (bytes : List UInt8) : Option (WireValue × List UInt8) :=
  match wireType with
  | 0 => (readUInt64 bytes).map fun (value, rest) => (.varint value, rest)
  | 1 => (readBytes 8 bytes).map fun (front, rest) => (.fixed64 front, rest)
  | 2 => do
    let (size, bytes) ← readUInt64 bytes
    let (payload, rest) ← readBytes size bytes
    pure (.delimited payload, rest)
  | 5 => (readBytes 4 bytes).map fun (front, rest) => (.fixed32 front, rest)
  | _ => none

def readField (bytes : List UInt8) : Option (Field × List UInt8) := do
  let (key, bytes) ← readUInt64 bytes
  if 8 ≤ key ∧ key < 2 ^ 32 then
    let (value, rest) ← readWireValue (key % 8) bytes
    pure (⟨key / 8, value⟩, rest)
  else none

def readFields : Nat → List UInt8 → Option (List Field)
  | _, [] => some []
  | 0, _ :: _ => none
  | fuel + 1, byte :: bytes => do
    let (field, rest) ← readField (byte :: bytes)
    let others ← readFields fuel rest
    pure (field :: others)

/-- Every field takes at least one byte. -/
def parseFields (bytes : List UInt8) : Option (List Field) := readFields bytes.length bytes

/-! ## Fields of a schema -/

def payloads (number : Nat) (fields : List Field) : List (List UInt8) :=
  fields.filterMap fun field =>
    match field.value with
    | .delimited payload => if field.number = number then some payload else none
    | _ => none

def varints (number : Nat) (fields : List Field) : List Nat :=
  fields.filterMap fun field =>
    match field.value with
    | .varint value => if field.number = number then some value else none
    | _ => none

def readPacked : Nat → List UInt8 → Option (List Nat)
  | _, [] => some []
  | 0, _ :: _ => none
  | fuel + 1, byte :: bytes => do
    let (value, rest) ← readUInt64 (byte :: bytes)
    let others ← readPacked fuel rest
    pure (value :: others)

/-- The elements one field adds to a repeated scalar, packed or not. -/
def elements (number : Nat) (field : Field) : Option (List Nat) :=
  if field.number = number then
    match field.value with
    | .varint value => some [value]
    | .delimited payload => readPacked payload.length payload
    | _ => some []
  else some []

def repeatedScalar (number : Nat) (fields : List Field) : Option (List Nat) :=
  (fields.mapM (elements number)).map List.flatten

def repeatedField {α : Type} (decode : List UInt8 → Option α) (number : Nat)
    (fields : List Field) : Option (List α) :=
  (payloads number fields).mapM decode

/-- A field with explicit presence. -/
def optionalField {α : Type} (decode : List UInt8 → Option α) (number : Nat)
    (fields : List Field) : Option (Option α) :=
  (repeatedField decode number fields).map List.getLast?

/-- A field whose default stands for its absence. -/
def implicitField {α : Type} (decode : List UInt8 → Option α) (default : α) (number : Nat)
    (fields : List Field) : Option α :=
  (optionalField decode number fields).map fun value => value.getD default

def optionalScalar (number : Nat) (fields : List Field) : Option Nat :=
  (varints number fields).getLast?

def implicitScalar (number : Nat) (fields : List Field) : Nat :=
  (optionalScalar number fields).getD 0

/-- A submessage: its occurrences are merged, which is to parse them as one. -/
def mergedMessage (number : Nat) (fields : List Field) : Option (List UInt8) :=
  match payloads number fields with
  | [] => none
  | all => some all.flatten

/-- The arm of a `oneof` that was set last; another arm clears what was set before. -/
def oneofStep (arms : List Nat) (current : Option (Nat × List UInt8)) (field : Field) :
    Option (Nat × List UInt8) :=
  match field.value with
  | .delimited payload =>
    if field.number ∈ arms then
      match current with
      | some (arm, merged) =>
        if arm = field.number then some (arm, merged ++ payload)
        else some (field.number, payload)
      | none => some (field.number, payload)
    else current
  | _ => current

def oneof (arms : List Nat) (fields : List Field) : Option (Nat × List UInt8) :=
  fields.foldl (oneofStep arms) none

def decodeMessage {α : Type} (ofFields : List Field → Option α) (bytes : List UInt8) : Option α :=
  (parseFields bytes).bind ofFields

/-! ## What a writer has to write -/

theorem readFields_succ {fuel : Nat} {bytes : List UInt8} {fields : List Field}
    (read : readFields fuel bytes = some fields) : readFields (fuel + 1) bytes = some fields := by
  induction fuel generalizing bytes fields with
  | zero =>
      cases bytes with
      | nil => exact read
      | cons byte bytes => contradiction
  | succ fuel inductionHypothesis =>
      cases bytes with
      | nil => exact read
      | cons byte bytes =>
          simp only [readFields, Option.bind_eq_bind, Option.bind_eq_some_iff,
            Option.pure_def, Option.some.injEq] at read ⊢
          obtain ⟨next, readNext, others, readOthers, same⟩ := read
          exact ⟨next, readNext, others, inductionHypothesis readOthers, same⟩

theorem readFields_add {fuel : Nat} {bytes : List UInt8} {fields : List Field}
    (read : readFields fuel bytes = some fields) (more : Nat) :
    readFields (fuel + more) bytes = some fields := by
  induction more with
  | zero => exact read
  | succ more inductionHypothesis => exact readFields_succ inductionHypothesis

/-- In front of any fields, the bytes are read as these, as long as a 64-bit length
can hold their number. -/
def Writes (bytes : List UInt8) (fields : List Field) : Prop :=
  bytes.length < 2 ^ 64 → ∀ fuel rest more, readFields fuel rest = some more →
    readFields (fuel + bytes.length) (bytes ++ rest) = some (fields ++ more)

theorem writes_nil : Writes [] [] := fun _ _ _ _ read => read

theorem writes_append {left right : List UInt8} {leftFields rightFields : List Field}
    (writesLeft : Writes left leftFields) (writesRight : Writes right rightFields) :
    Writes (left ++ right) (leftFields ++ rightFields) := by
  intro short fuel rest more read
  rw [List.length_append] at short
  have afterRight := writesRight (by omega) fuel rest more read
  have afterLeft := writesLeft (by omega) _ _ _ afterRight
  rw [List.length_append, List.append_assoc, List.append_assoc, Nat.add_comm left.length,
    ← Nat.add_assoc]
  exact afterLeft

theorem writes_flatMap {α : Type} {write : α → List UInt8} {field : α → Field}
    (each : ∀ item, Writes (write item) [field item]) (items : List α) :
    Writes (items.flatMap write) (items.map field) := by
  induction items with
  | nil => exact writes_nil
  | cons item items inductionHypothesis =>
      rw [List.flatMap_cons, List.map_cons]
      exact writes_append (each item) inductionHypothesis

theorem writes_field {bytes : List UInt8} {field : Field} (nonempty : bytes ≠ [])
    (reads : bytes.length < 2 ^ 64 → ∀ rest, readField (bytes ++ rest) = some (field, rest)) :
    Writes bytes [field] := by
  intro short fuel rest more read
  cases bytes with
  | nil => exact absurd rfl nonempty
  | cons byte bytes =>
      have readFirst := reads short rest
      have readRest := readFields_add read bytes.length
      rw [List.cons_append] at readFirst
      rw [List.length_cons, ← Nat.add_assoc, List.cons_append]
      simp only [readFields, readFirst, readRest, Option.bind_eq_bind, Option.bind_some,
        Option.pure_def, List.cons_append, List.nil_append]

theorem parseFields_of_writes {bytes : List UInt8} {fields : List Field}
    (writes : Writes bytes fields) (short : bytes.length < 2 ^ 64) :
    parseFields bytes = some fields := by
  have read := writes short 0 [] [] rfl
  rw [Nat.zero_add, List.append_nil, List.append_nil] at read
  exact read

/-- The bytes are read as this number wherever they stand. -/
def WritesVarint (bytes : List UInt8) (value : Nat) : Prop :=
  bytes ≠ [] ∧ ∀ rest, readUInt64 (bytes ++ rest) = some (value, rest)

theorem readField_append {key : List UInt8} {number wireType : Nat} {value : WireValue}
    {bytes rest : List UInt8} (writesKey : WritesVarint key (8 * number + wireType))
    (small : wireType < 8) (positive : 0 < number) (bounded : number < 2 ^ 29)
    (reads : readWireValue wireType (bytes ++ rest) = some (value, rest)) :
    readField ((key ++ bytes) ++ rest) = some (⟨number, value⟩, rest) := by
  have shifted : (8 * number + wireType) / 8 = number := by omega
  have low : (8 * number + wireType) % 8 = wireType := by omega
  unfold readField
  rw [List.append_assoc, writesKey.2]
  simp only [Option.bind_eq_bind, Option.bind_some, shifted, low, reads, Option.pure_def]
  rw [if_pos (by omega)]

theorem writes_varint {key bytes : List UInt8} {number value : Nat}
    (writesKey : WritesVarint key (8 * number)) (positive : 0 < number)
    (bounded : number < 2 ^ 29) (writesValue : WritesVarint bytes value) :
    Writes (key ++ bytes) [⟨number, .varint value⟩] := by
  apply writes_field (List.append_ne_nil_of_left_ne_nil writesKey.1 _)
  intro _ rest
  apply readField_append (show WritesVarint key (8 * number + 0) from writesKey) (by omega)
    positive bounded
  simp only [readWireValue, writesValue.2, Option.map_some]

theorem writes_delimited {key length payload : List UInt8} {number : Nat}
    (writesKey : WritesVarint key (8 * number + 2)) (positive : 0 < number)
    (bounded : number < 2 ^ 29)
    (writesLength : payload.length < 2 ^ 64 → WritesVarint length payload.length) :
    Writes (key ++ (length ++ payload)) [⟨number, .delimited payload⟩] := by
  apply writes_field (List.append_ne_nil_of_left_ne_nil writesKey.1 _)
  intro short rest
  simp only [List.length_append] at short
  apply readField_append writesKey (by omega) positive bounded
  simp only [readWireValue, List.append_assoc, (writesLength (by omega)).2,
    Option.bind_eq_bind, Option.bind_some, readBytes_append, Option.pure_def]

/-! ## A payload is no longer than its message -/

theorem readVarint_length {limit value : Nat} {bytes rest : List UInt8}
    (read : readVarint limit bytes = some (value, rest)) : rest.length ≤ bytes.length := by
  induction limit generalizing bytes value rest with
  | zero => contradiction
  | succ limit inductionHypothesis =>
      cases bytes with
      | nil => contradiction
      | cons byte bytes =>
          unfold readVarint at read
          split at read
          · simp only [Option.some.injEq, Prod.mk.injEq] at read
            rw [← read.2, List.length_cons]
            omega
          · simp only [Option.map_eq_some_iff, Prod.mk.injEq] at read
            obtain ⟨⟨high, others⟩, readHigh, _, rfl⟩ := read
            have shorter : others.length ≤ bytes.length := inductionHypothesis readHigh
            exact Nat.le_succ_of_le shorter

theorem readUInt64_length {value : Nat} {bytes rest : List UInt8}
    (read : readUInt64 bytes = some (value, rest)) : rest.length ≤ bytes.length := by
  simp only [readUInt64, Option.map_eq_some_iff, Prod.mk.injEq] at read
  obtain ⟨⟨whole, others⟩, readWhole, _, same⟩ := read
  rw [← same]
  exact readVarint_length readWhole

theorem readBytes_length {size : Nat} {bytes front rest : List UInt8}
    (read : readBytes size bytes = some (front, rest)) :
    front.length + rest.length = bytes.length := by
  rw [readBytes_some read, List.length_append]

/-- The payload of a length-delimited value. -/
def WireValue.payload : WireValue → List UInt8
  | .delimited payload => payload
  | _ => []

theorem readWireValue_length {wireType : Nat} {value : WireValue} {bytes rest : List UInt8}
    (read : readWireValue wireType bytes = some (value, rest)) :
    value.payload.length + rest.length ≤ bytes.length := by
  unfold readWireValue at read
  split at read
  · simp only [Option.map_eq_some_iff, Prod.mk.injEq] at read
    obtain ⟨⟨_, _⟩, readValue, rfl, rfl⟩ := read
    simpa [WireValue.payload] using readUInt64_length readValue
  · simp only [Option.map_eq_some_iff, Prod.mk.injEq] at read
    obtain ⟨⟨_, _⟩, readValue, rfl, rfl⟩ := read
    have split := readBytes_length readValue
    simp only [WireValue.payload, List.length_nil]
    omega
  · simp only [Option.bind_eq_bind, Option.bind_eq_some_iff, Option.pure_def,
      Option.some.injEq, Prod.mk.injEq] at read
    obtain ⟨⟨size, others⟩, readSize, ⟨payload, after⟩, readPayload, rfl, rfl⟩ := read
    have shorter : others.length ≤ bytes.length := readUInt64_length readSize
    have split : payload.length + after.length = others.length := readBytes_length readPayload
    simp only [WireValue.payload]
    omega
  · simp only [Option.map_eq_some_iff, Prod.mk.injEq] at read
    obtain ⟨⟨_, _⟩, readValue, rfl, rfl⟩ := read
    have split := readBytes_length readValue
    simp only [WireValue.payload, List.length_nil]
    omega
  · contradiction

theorem readField_length {field : Field} {bytes rest : List UInt8}
    (read : readField bytes = some (field, rest)) :
    field.value.payload.length + rest.length ≤ bytes.length := by
  simp only [readField, Option.bind_eq_bind, Option.bind_eq_some_iff] at read
  obtain ⟨⟨key, others⟩, readKey, read⟩ := read
  split at read
  · simp only [Option.bind_eq_some_iff, Option.pure_def, Option.some.injEq,
      Prod.mk.injEq] at read
    obtain ⟨⟨value, after⟩, readValue, rfl, rfl⟩ := read
    have inside : value.payload.length + after.length ≤ others.length :=
      readWireValue_length readValue
    exact Nat.le_trans inside (readUInt64_length readKey)
  · contradiction

theorem readFields_payload_length {fuel : Nat} {bytes payload : List UInt8}
    {fields : List Field} {number : Nat} (read : readFields fuel bytes = some fields)
    (inside : ⟨number, .delimited payload⟩ ∈ fields) : payload.length ≤ bytes.length := by
  induction fuel generalizing bytes fields with
  | zero =>
      cases bytes with
      | nil =>
          obtain rfl := Option.some.inj read
          contradiction
      | cons byte bytes => contradiction
  | succ fuel inductionHypothesis =>
      cases bytes with
      | nil =>
          obtain rfl := Option.some.inj read
          contradiction
      | cons byte bytes =>
          simp only [readFields, Option.bind_eq_bind, Option.bind_eq_some_iff,
            Option.pure_def, Option.some.injEq] at read
          obtain ⟨⟨field, rest⟩, readFirst, others, readOthers, rfl⟩ := read
          have first := readField_length readFirst
          cases inside with
          | head => exact Nat.le_trans (Nat.le_add_right _ _) first
          | tail _ later =>
              have bounded : payload.length ≤ rest.length := inductionHypothesis readOthers later
              exact Nat.le_trans bounded (Nat.le_trans (Nat.le_add_left _ _) first)

/-! ## What a schema takes from written fields -/

section Fields

variable (number other : Nat) (fields more : List Field)

@[simp] theorem payloads_nil : payloads number [] = [] := rfl

@[simp] theorem payloads_append :
    payloads number (fields ++ more) = payloads number fields ++ payloads number more :=
  List.filterMap_append

@[simp] theorem payloads_cons_delimited (payload : List UInt8) :
    payloads number (⟨other, .delimited payload⟩ :: fields) =
      (if other = number then [payload] else []) ++ payloads number fields := by
  unfold payloads
  by_cases same : other = number <;> simp [same]

@[simp] theorem payloads_cons_varint (value : Nat) :
    payloads number (⟨other, .varint value⟩ :: fields) = payloads number fields := rfl

@[simp] theorem varints_nil : varints number [] = [] := rfl

@[simp] theorem varints_append :
    varints number (fields ++ more) = varints number fields ++ varints number more :=
  List.filterMap_append

@[simp] theorem varints_cons_delimited (payload : List UInt8) :
    varints number (⟨other, .delimited payload⟩ :: fields) = varints number fields := rfl

@[simp] theorem varints_cons_varint (value : Nat) :
    varints number (⟨other, .varint value⟩ :: fields) =
      (if other = number then [value] else []) ++ varints number fields := by
  unfold varints
  by_cases same : other = number <;> simp [same]

@[simp] theorem payloads_map_delimited {α : Type} (payload : α → List UInt8) (items : List α) :
    payloads number (items.map fun item => ⟨other, .delimited (payload item)⟩) =
      if other = number then items.map payload else [] := by
  induction items with
  | nil => simp
  | cons item items inductionHypothesis =>
      rw [List.map_cons, payloads_cons_delimited, inductionHypothesis]
      by_cases same : other = number <;> simp [same]

@[simp] theorem payloads_map_varint {α : Type} (value : α → Nat) (items : List α) :
    payloads number (items.map fun item => ⟨other, .varint (value item)⟩) = [] := by
  induction items with
  | nil => rfl
  | cons item items inductionHypothesis =>
      rw [List.map_cons, payloads_cons_varint, inductionHypothesis]

@[simp] theorem varints_map_delimited {α : Type} (payload : α → List UInt8) (items : List α) :
    varints number (items.map fun item => ⟨other, .delimited (payload item)⟩) = [] := by
  induction items with
  | nil => rfl
  | cons item items inductionHypothesis =>
      rw [List.map_cons, varints_cons_delimited, inductionHypothesis]

@[simp] theorem varints_map_varint {α : Type} (value : α → Nat) (items : List α) :
    varints number (items.map fun item => ⟨other, .varint (value item)⟩) =
      if other = number then items.map value else [] := by
  induction items with
  | nil => simp
  | cons item items inductionHypothesis =>
      rw [List.map_cons, varints_cons_varint, inductionHypothesis]
      by_cases same : other = number <;> simp [same]

end Fields

theorem mem_of_mem_payloads {number : Nat} {fields : List Field} {payload : List UInt8}
    (inside : payload ∈ payloads number fields) : ⟨number, .delimited payload⟩ ∈ fields := by
  simp only [payloads, List.mem_filterMap] at inside
  obtain ⟨⟨other, value⟩, member, selected⟩ := inside
  cases value with
  | delimited bytes =>
      by_cases same : other = number
      · simp only [same, if_true, Option.some.injEq] at selected
        rw [← selected, ← same]
        exact member
      · simp [same] at selected
  | varint value => contradiction
  | fixed64 bytes => contradiction
  | fixed32 bytes => contradiction

theorem repeatedScalar_unpacked {number : Nat} {fields : List Field}
    (unpacked : payloads number fields = []) :
    repeatedScalar number fields = some (varints number fields) := by
  induction fields with
  | nil => rfl
  | cons field fields inductionHypothesis =>
      obtain ⟨other, value⟩ := field
      have later : payloads number fields = [] := by
        unfold payloads at unpacked ⊢
        rw [List.filterMap_cons] at unpacked
        split at unpacked
        · exact unpacked
        · contradiction
      have tail := inductionHypothesis later
      simp only [repeatedScalar, Option.map_eq_some_iff] at tail ⊢
      obtain ⟨lists, mapped, flat⟩ := tail
      have head : elements number ⟨other, value⟩ = some (varints number [⟨other, value⟩]) := by
        by_cases same : other = number
        · cases value with
          | delimited payload => simp [same] at unpacked
          | varint value => simp [elements, same]
          | fixed64 bytes => simp [elements, varints]
          | fixed32 bytes => simp [elements, varints]
        · cases value <;> simp [elements, varints, same]
      refine ⟨varints number [⟨other, value⟩] :: lists, by simp [head, mapped], ?_⟩
      rw [List.flatten_cons, flat, ← varints_append, List.singleton_append]

theorem repeatedField_map {α : Type} {decode : List UInt8 → Option α} {encode : α → List UInt8}
    {number : Nat} {fields : List Field} {items : List α}
    (written : payloads number fields = items.map encode)
    (each : ∀ item ∈ items, decode (encode item) = some item) :
    repeatedField decode number fields = some items := by
  unfold repeatedField
  rw [written]
  clear written
  induction items with
  | nil => rfl
  | cons item items inductionHypothesis =>
      have first := each item List.mem_cons_self
      have others := inductionHypothesis fun item inside =>
        each item (List.mem_cons_of_mem _ inside)
      simp [first, others]

theorem mergedMessage_single {number : Nat} {fields : List Field} {payload : List UInt8}
    (written : payloads number fields = [payload]) :
    mergedMessage number fields = some payload := by
  simp [mergedMessage, written]

/-- A message of these fields, whose payloads are as short as it is. -/
def Short (fields : List Field) : Prop :=
  ∀ number, ∀ payload ∈ payloads number fields, payload.length < 2 ^ 64

theorem decodeMessage_of_writes {α : Type} {ofFields : List Field → Option α}
    {bytes : List UInt8} {fields : List Field} {value : α} (writes : Writes bytes fields)
    (short : bytes.length < 2 ^ 64) (holds : Short fields → ofFields fields = some value) :
    decodeMessage ofFields bytes = some value := by
  have parsed := parseFields_of_writes writes short
  rw [decodeMessage, parsed, Option.bind_some]
  apply holds
  intro number payload inside
  have bounded := readFields_payload_length parsed (mem_of_mem_payloads inside)
  exact Nat.lt_of_le_of_lt bounded short

end Protobuf
