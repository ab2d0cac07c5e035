import Mathlib.Tactic.IntervalCases
import ZedRegistry.Access
import ZedRegistry.BinaryContract
import ZedRegistry.Lib.JsonValue
import ZedRegistry.Lib.MessagePack

/-!
# The MessagePack rendering of a graph

`graph_exports/messagepack.rs` over any JSON value, and its output read back by
the format's own rules.
-/

set_option autoImplicit false

namespace ZedRegistry

open ByteReader MessagePack

/-! ## The writer -/

namespace MessagePackExport

def asU64 : JsonNumber → Option Nat
  | .posInt value _ => some value
  | .negInt _ _ _ | .float _ => none

def asI64 : JsonNumber → Option Int
  | .posInt value _ => if value < 2 ^ 63 then some value else none
  | .negInt value _ _ => some value
  | .float _ => none

def messagepackU64 (value : Nat) : Bytes :=
  if value ≤ 0x7f then [UInt8.ofNat value]
  else if value ≤ 0xff then [0xcc, UInt8.ofNat value]
  else if value ≤ 0xffff then 0xcd :: toBigEndian 2 value
  else if value ≤ 0xffffffff then 0xce :: toBigEndian 4 value
  else 0xcf :: toBigEndian 8 value

/-- The low `width` bytes of an `i64`: `as` and then `to_be_bytes`. -/
def truncated (width : Nat) (value : Int) : Bytes :=
  toBigEndian width (value % 2 ^ (8 * width)).toNat

def messagepackI64 (value : Int) : Bytes :=
  if 0 ≤ value then messagepackU64 value.toNat
  else if -32 ≤ value then truncated 1 value
  else if -128 ≤ value then 0xd0 :: truncated 1 value
  else if -32768 ≤ value then 0xd1 :: truncated 2 value
  else if -2147483648 ≤ value then 0xd2 :: truncated 4 value
  else 0xd3 :: truncated 8 value

def messagepackNumber (number : JsonNumber) : ApiResult Bytes :=
  match asU64 number with
  | some value => .ok (messagepackU64 value)
  | none =>
    match asI64 number with
    | some value => .ok (messagepackI64 value)
    | none => .error .internal

/-- A length: in the marker, in one byte where the kind has that format, or in two
or four bytes. -/
def messagepackLen (fixed : UInt8) (fixedMax : Nat) (one : Option UInt8) (two four : UInt8)
    (length : Nat) : ApiResult Bytes :=
  if length ≤ fixedMax then .ok [fixed ||| UInt8.ofNat length]
  else
    match one, decide (length ≤ 0xff) with
    | some marker, true => .ok [marker, UInt8.ofNat length]
    | _, _ =>
      if length ≤ 0xffff then .ok (two :: toBigEndian 2 length)
      else if length < 2 ^ 32 then .ok (four :: toBigEndian 4 length)
      else .error .internal

def messagepackStringLen : Nat → ApiResult Bytes :=
  messagepackLen 0xa0 31 (some 0xd9) 0xda 0xdb

def messagepackArrayLen : Nat → ApiResult Bytes := messagepackLen 0x90 15 none 0xdc 0xdd

def messagepackMapLen : Nat → ApiResult Bytes := messagepackLen 0x80 15 none 0xde 0xdf

def messagepackString (text : String) : ApiResult Bytes := do
  let header ← messagepackStringLen (asBytes text).length
  pure (header ++ asBytes text)

mutual

def messagepackValue : JsonValue → ApiResult Bytes
  | .null => .ok [0xc0]
  | .bool false => .ok [0xc2]
  | .bool true => .ok [0xc3]
  | .number number => messagepackNumber number
  | .string text => messagepackString text
  | .array items => do
    let header ← messagepackArrayLen items.length
    let body ← messagepackItems items
    pure (header ++ body)
  | .object members => do
    let header ← messagepackMapLen members.length
    let body ← messagepackMembers members
    pure (header ++ body)

def messagepackItems : List JsonValue → ApiResult Bytes
  | [] => .ok []
  | item :: rest => do
    let first ← messagepackValue item
    let others ← messagepackItems rest
    pure (first ++ others)

def messagepackMembers : List (String × JsonValue) → ApiResult Bytes
  | [] => .ok []
  | (key, value) :: rest => do
    let name ← messagepackString key
    let first ← messagepackValue value
    let others ← messagepackMembers rest
    pure (name ++ (first ++ others))

end

/-- `parse` is `serde_json::from_slice`. -/
def encode (parse : Bytes → Except String JsonValue) (canonical : Bytes) : ApiResult Bytes := do
  let value ← (parse canonical).mapError fun _ => .internal
  messagepackValue value

/-! ## JSON as MessagePack holds it -/

mutual

def ofMessagePack : MessagePack.Value → Option JsonValue
  | .nil => some .null
  | .bool value => some (.bool value)
  | .int value => (JsonNumber.ofInt value).map .number
  | .str bytes => (decodeUtf8 bytes).map .string
  | .array items => (ofItems items).map .array
  | .map entries => (ofEntries entries).map .object
  | .float _ _ | .bin _ | .ext _ _ => none

def ofItems : List MessagePack.Value → Option (List JsonValue)
  | [] => some []
  | item :: rest => do
    let first ← ofMessagePack item
    let others ← ofItems rest
    pure (first :: others)

def ofEntries :
    List (MessagePack.Value × MessagePack.Value) → Option (List (String × JsonValue))
  | [] => some []
  | (key, value) :: rest => do
    let name ←
      match key with
      | .str bytes => decodeUtf8 bytes
      | _ => none
    let first ← ofMessagePack value
    let others ← ofEntries rest
    pure ((name, first) :: others)

end

def decodeJson (bytes : Bytes) : Option JsonValue := (decode bytes).bind ofMessagePack

/-! ## Headers -/

/-- The header announces a container of this kind and size. -/
def Announces (kind : Kind) (size : Nat) (header : Bytes) : Prop :=
  ∃ marker counter declared, header = marker :: counter ∧
    lead marker = some (.sized kind declared) ∧
      ∀ bytes, readSize declared (counter ++ bytes) = some (size, bytes)

theorem announces_counted {kind : Kind} {width size : Nat} {marker : UInt8}
    (leads : lead marker = some (.sized kind (.counted width))) (fits : size < 256 ^ width) :
    Announces kind size (marker :: toBigEndian width size) :=
  ⟨marker, _, _, rfl, leads, fun bytes => readUInt_append fits bytes⟩

theorem messagepackLen_announces {kind : Kind} {fixed two four : UInt8} {fixedMax length : Nat}
    {one : Option UInt8} {header : Bytes}
    (leadsFixed : ∀ size ≤ fixedMax,
      lead (fixed ||| UInt8.ofNat size) = some (.sized kind (.fixed size)))
    (leadsOne : ∀ marker ∈ one, lead marker = some (.sized kind (.counted 1)))
    (leadsTwo : lead two = some (.sized kind (.counted 2)))
    (leadsFour : lead four = some (.sized kind (.counted 4)))
    (written : messagepackLen fixed fixedMax one two four length = .ok header) :
    Announces kind length header := by
  unfold messagepackLen at written
  split at written
  · rename_i small
    cases written
    exact ⟨_, [], _, rfl, leadsFixed length small, fun bytes => rfl⟩
  · split at written
    · rename_i marker short
      cases written
      simp only [decide_eq_true_eq] at short
      have bytes : [UInt8.ofNat length] = toBigEndian 1 length := rfl
      rw [bytes]
      apply announces_counted (leadsOne marker rfl)
      omega
    · split at written
      · cases written
        apply announces_counted leadsTwo
        omega
      · split at written
        · cases written
          apply announces_counted leadsFour
          omega
        · contradiction

theorem lead_fixstr (size : Nat) (small : size ≤ 31) :
    lead (0xa0 ||| UInt8.ofNat size) = some (.sized .str (.fixed size)) := by
  interval_cases size <;> rfl

theorem lead_fixarray (size : Nat) (small : size ≤ 15) :
    lead (0x90 ||| UInt8.ofNat size) = some (.sized .array (.fixed size)) := by
  interval_cases size <;> rfl

theorem lead_fixmap (size : Nat) (small : size ≤ 15) :
    lead (0x80 ||| UInt8.ofNat size) = some (.sized .map (.fixed size)) := by
  interval_cases size <;> rfl

theorem messagepackStringLen_announces {length : Nat} {header : Bytes}
    (written : messagepackStringLen length = .ok header) : Announces .str length header := by
  apply messagepackLen_announces lead_fixstr _ rfl rfl written
  intro marker member
  obtain rfl := Option.mem_some_iff.mp member
  rfl

theorem messagepackArrayLen_announces {length : Nat} {header : Bytes}
    (written : messagepackArrayLen length = .ok header) : Announces .array length header := by
  apply messagepackLen_announces lead_fixarray _ rfl rfl written
  simp

theorem messagepackMapLen_announces {length : Nat} {header : Bytes}
    (written : messagepackMapLen length = .ok header) : Announces .map length header := by
  apply messagepackLen_announces lead_fixmap _ rfl rfl written
  simp

/-! ## Reading one written value -/

/-- Wherever it stands, `output` is read as `packed` and nothing more is taken. -/
def Packs (packed : MessagePack.Value) (output : Bytes) : Prop :=
  ∀ fuel rest, output.length ≤ fuel → readValue fuel (output ++ rest) = some (packed, rest)

theorem packs_cons {packed : MessagePack.Value} {marker : UInt8} {first : Lead} {bytes : Bytes}
    (leads : lead marker = some first)
    (body : ∀ fuel rest, readBody (readValue fuel) (bytes ++ rest) first = some (packed, rest)) :
    Packs packed (marker :: bytes) := by
  intro fuel rest enough
  cases fuel with
  | zero => simp at enough
  | succ fuel =>
      rw [List.cons_append, readValue_cons leads]
      exact body fuel rest

theorem packs_sized {packed : MessagePack.Value} {kind : Kind} {size : Nat} {header body : Bytes}
    (announces : Announces kind size header)
    (sized : ∀ fuel rest, body.length ≤ fuel →
      readSized (readValue fuel) size (body ++ rest) kind = some (packed, rest)) :
    Packs packed (header ++ body) := by
  obtain ⟨marker, counter, declared, rfl, leads, counts⟩ := announces
  intro fuel rest enough
  simp only [List.cons_append, List.append_assoc, List.length_cons,
    List.length_append] at enough ⊢
  cases fuel with
  | zero => omega
  | succ fuel =>
      rw [readValue_sized leads (counts _)]
      apply sized
      omega

theorem packs_uint {width value : Nat} {marker : UInt8} (leads : lead marker = some (.uint width))
    (fits : value < 256 ^ width) : Packs (.int value) (marker :: toBigEndian width value) := by
  apply packs_cons leads
  intro fuel rest
  simp only [readBody, readUInt_append fits, Option.map_some]

theorem packs_int {width : Nat} {value : Int} {marker : UInt8}
    (leads : lead marker = some (.int width)) (positive : 0 < width)
    (low : -2 ^ (8 * width - 1) ≤ value) (high : value < 0) :
    Packs (.int value) (marker :: truncated width value) := by
  have fits : (value % 2 ^ (8 * width)).toNat < 256 ^ width := by
    have modulus : (256 : Nat) ^ width = 2 ^ (8 * width) := by rw [Nat.pow_mul]
    have below := Int.emod_lt_of_pos value (show (0 : Int) < 2 ^ (8 * width) by positivity)
    have cast : ((2 ^ (8 * width) : Nat) : Int) = 2 ^ (8 * width) := by push_cast; rfl
    omega
  apply packs_cons leads
  intro fuel rest
  simp only [readBody, truncated, readUInt_append fits, Option.map_some,
    signed_emod positive low high]

/-! ## Numbers -/

theorem lead_fixint {value : Nat} (small : value ≤ 0x7f) :
    lead (UInt8.ofNat value) = some (.value (.int value)) := by
  have same : (UInt8.ofNat value).toNat = value := by
    rw [UInt8.toNat_ofNat']
    omega
  unfold lead
  rw [same, if_pos (by omega)]

theorem lead_negative_fixint {value : Int} (low : -32 ≤ value) (high : value < 0) :
    lead (UInt8.ofNat (value % 256).toNat) = some (.value (.int value)) := by
  have wraps : value % 256 = value + 256 := by omega
  have same : (UInt8.ofNat (value % 256).toNat).toNat = (value + 256).toNat := by
    rw [UInt8.toNat_ofNat', wraps]
    omega
  unfold lead
  rw [same, if_neg (by omega), if_neg (by omega), if_neg (by omega), if_neg (by omega),
    if_neg (by omega)]
  congr 3
  omega

theorem messagepackU64_packs {value : Nat} (fits : value < 2 ^ 64) :
    Packs (.int value) (messagepackU64 value) := by
  unfold messagepackU64
  split
  · rename_i small
    apply packs_cons (lead_fixint small)
    intro fuel rest
    rfl
  · split
    · have byte : [UInt8.ofNat value] = toBigEndian 1 value := rfl
      rw [byte]
      apply packs_uint rfl
      omega
    · split
      · apply packs_uint rfl
        omega
      · split
        · apply packs_uint rfl
          omega
        · apply packs_uint rfl
          omega

theorem messagepackI64_packs {value : Int} (low : -2 ^ 63 ≤ value) (negative : value < 0) :
    Packs (.int value) (messagepackI64 value) := by
  unfold messagepackI64
  rw [if_neg (by omega)]
  split
  · rename_i small
    apply packs_cons (lead_negative_fixint small negative)
    intro fuel rest
    rfl
  · split
    · apply packs_int rfl <;> omega
    · split
      · apply packs_int rfl <;> omega
      · split
        · apply packs_int rfl <;> omega
        · apply packs_int rfl <;> omega

/-- The output reads back as the value. -/
def ReadsBack (value : JsonValue) (output : Bytes) : Prop :=
  ∃ packed, ofMessagePack packed = some value ∧ Packs packed output

theorem messagepackNumber_readsBack {number : JsonNumber} {output : Bytes}
    (written : messagepackNumber number = .ok output) : ReadsBack (.number number) output := by
  cases number with
  | posInt value fits =>
      simp only [messagepackNumber, asU64, Except.ok.injEq] at written
      subst written
      have back := @JsonNumber.ofInt_toInt (.posInt value fits) value rfl
      exact ⟨.int value, by simp [ofMessagePack, back], messagepackU64_packs fits⟩
  | negInt value fits negative =>
      simp only [messagepackNumber, asU64, asI64, Except.ok.injEq] at written
      subst written
      have back := @JsonNumber.ofInt_toInt (.negInt value fits negative) value rfl
      exact ⟨.int value, by simp [ofMessagePack, back], messagepackI64_packs fits negative⟩
  | float bits => contradiction

/-! ## Strings -/

theorem messagepackString_packs {text : String} {output : Bytes}
    (written : messagepackString text = .ok output) : Packs (.str (asBytes text)) output := by
  obtain ⟨header, counted, same⟩ := bind_ok.mp written
  obtain rfl := Except.ok.inj same
  apply packs_sized (messagepackStringLen_announces counted)
  intro fuel rest _
  simp only [readSized, readBytes_append, Option.map_some]

/-! ## Containers -/

theorem messagepackItems_readsBack {items : List JsonValue}
    (each : ∀ item ∈ items, ∀ output,
      messagepackValue item = .ok output → ReadsBack item output)
    {body : Bytes} (written : messagepackItems items = .ok body) :
    ∃ packed, ofItems packed = some items ∧ ∀ fuel rest, body.length ≤ fuel →
      readMany (readValue fuel) items.length (body ++ rest) = some (packed, rest) := by
  induction items generalizing body with
  | nil =>
      simp only [messagepackItems, Except.ok.injEq] at written
      subst written
      exact ⟨[], rfl, fun fuel rest _ => rfl⟩
  | cons item items inductionHypothesis =>
      simp only [messagepackItems, bind_ok] at written
      obtain ⟨first, writtenFirst, others, writtenOthers, same⟩ := written
      obtain rfl := Except.ok.inj same
      obtain ⟨packed, isItem, packs⟩ := each item List.mem_cons_self first writtenFirst
      obtain ⟨rest, areItems, reads⟩ := inductionHypothesis
        (fun item inside => each item (List.mem_cons_of_mem _ inside)) writtenOthers
      refine ⟨packed :: rest, by simp [ofItems, isItem, areItems], ?_⟩
      intro fuel after enough
      rw [List.length_append] at enough
      have readFirst := packs fuel (others ++ after) (by omega)
      have readOthers := reads fuel after (by omega)
      simp only [List.length_cons, readMany, List.append_assoc, readFirst, readOthers,
        Option.bind_eq_bind, Option.bind_some, Option.pure_def]

theorem messagepackMembers_readsBack {members : List (String × JsonValue)}
    (each : ∀ member ∈ members, ∀ output,
      messagepackValue member.2 = .ok output → ReadsBack member.2 output)
    {body : Bytes} (written : messagepackMembers members = .ok body) :
    ∃ packed, ofEntries packed = some members ∧ ∀ fuel rest, body.length ≤ fuel →
      readMany (readPair (readValue fuel)) members.length (body ++ rest) =
        some (packed, rest) := by
  induction members generalizing body with
  | nil =>
      simp only [messagepackMembers, Except.ok.injEq] at written
      subst written
      exact ⟨[], rfl, fun fuel rest _ => rfl⟩
  | cons member members inductionHypothesis =>
      obtain ⟨key, value⟩ := member
      simp only [messagepackMembers, bind_ok] at written
      obtain ⟨name, writtenName, first, writtenFirst, others, writtenOthers, same⟩ := written
      obtain rfl := Except.ok.inj same
      have packsName := messagepackString_packs writtenName
      obtain ⟨packed, isValue, packs⟩ := each _ List.mem_cons_self first writtenFirst
      obtain ⟨rest, areMembers, reads⟩ := inductionHypothesis
        (fun member inside => each member (List.mem_cons_of_mem _ inside)) writtenOthers
      refine ⟨(.str (asBytes key), packed) :: rest,
        by simp [ofEntries, isValue, areMembers], ?_⟩
      intro fuel after enough
      simp only [List.length_append] at enough
      have readName := packsName fuel (first ++ (others ++ after)) (by omega)
      have readFirst := packs fuel (others ++ after) (by omega)
      have readOthers := reads fuel after (by omega)
      simp only [List.length_cons, readMany, readPair, List.append_assoc, readName, readFirst,
        readOthers, Option.bind_eq_bind, Option.bind_some, Option.pure_def]

theorem messagepackValue_readsBack (value : JsonValue) :
    ∀ output, messagepackValue value = .ok output → ReadsBack value output := by
  induction value using JsonValue.induct with
  | null =>
      intro output written
      obtain rfl := Except.ok.inj written
      exact ⟨.nil, rfl, packs_cons rfl fun fuel rest => rfl⟩
  | bool value =>
      intro output written
      refine ⟨.bool value, rfl, ?_⟩
      cases value <;>
        · obtain rfl := Except.ok.inj written
          exact packs_cons rfl fun fuel rest => rfl
  | number number =>
      intro output written
      exact messagepackNumber_readsBack written
  | string text =>
      intro output written
      refine ⟨.str (asBytes text), ?_, messagepackString_packs written⟩
      simp only [ofMessagePack, decodeUtf8_asBytes, Option.map_some]
  | array items each =>
      intro output written
      simp only [messagepackValue, bind_ok] at written
      obtain ⟨header, counted, body, writtenBody, same⟩ := written
      obtain rfl := Except.ok.inj same
      obtain ⟨packed, areItems, reads⟩ := messagepackItems_readsBack each writtenBody
      refine ⟨.array packed, by simp only [ofMessagePack, areItems, Option.map_some], ?_⟩
      apply packs_sized (messagepackArrayLen_announces counted)
      intro fuel rest enough
      simp only [readSized, reads fuel rest enough, Option.map_some]
  | object members each =>
      intro output written
      simp only [messagepackValue, bind_ok] at written
      obtain ⟨header, counted, body, writtenBody, same⟩ := written
      obtain rfl := Except.ok.inj same
      obtain ⟨packed, areMembers, reads⟩ := messagepackMembers_readsBack each writtenBody
      refine ⟨.map packed, by simp only [ofMessagePack, areMembers, Option.map_some], ?_⟩
      apply packs_sized (messagepackMapLen_announces counted)
      intro fuel rest enough
      simp only [readSized, reads fuel rest enough, Option.map_some]

theorem decodeJson_of_readsBack {value : JsonValue} {output : Bytes}
    (back : ReadsBack value output) : decodeJson output = some value := by
  obtain ⟨packed, isValue, packs⟩ := back
  have read := packs output.length [] le_rfl
  rw [List.append_nil] at read
  rw [decodeJson, decode_of_readValue read, Option.bind_some, isValue]

/-! ## Values the format can hold -/

inductive Representable : JsonValue → Prop where
  | null : Representable .null
  | bool (value : Bool) : Representable (.bool value)
  | number (value : JsonNumber) (isInt : value.toInt?.isSome = true) :
      Representable (.number value)
  | string (text : String) (short : (asBytes text).length < 2 ^ 32) : Representable (.string text)
  | array (items : List JsonValue) (short : items.length < 2 ^ 32)
      (all : ∀ item ∈ items, Representable item) : Representable (.array items)
  | object (members : List (String × JsonValue)) (short : members.length < 2 ^ 32)
      (keys : ∀ member ∈ members, (asBytes member.1).length < 2 ^ 32)
      (all : ∀ member ∈ members, Representable member.2) : Representable (.object members)

theorem messagepackLen_succeeds {fixed two four : UInt8} {fixedMax length : Nat}
    {one : Option UInt8} (short : length < 2 ^ 32) :
    ∃ header, messagepackLen fixed fixedMax one two four length = .ok header := by
  unfold messagepackLen
  split
  · exact ⟨_, rfl⟩
  · split
    · exact ⟨_, rfl⟩
    · split
      · exact ⟨_, rfl⟩
      · exact ⟨_, rfl⟩

theorem messagepackString_succeeds {text : String} (short : (asBytes text).length < 2 ^ 32) :
    ∃ output, messagepackString text = .ok output := by
  obtain ⟨header, counted⟩ := messagepackLen_succeeds short
  exact ⟨_, bind_ok.mpr ⟨header, counted, rfl⟩⟩

theorem messagepackNumber_succeeds {number : JsonNumber} (isInt : number.toInt?.isSome = true) :
    ∃ output, messagepackNumber number = .ok output := by
  cases number with
  | posInt value fits => exact ⟨_, rfl⟩
  | negInt value fits negative => exact ⟨_, rfl⟩
  | float bits => contradiction

theorem messagepackItems_succeeds {items : List JsonValue}
    (each : ∀ item ∈ items, ∃ output, messagepackValue item = .ok output) :
    ∃ body, messagepackItems items = .ok body := by
  induction items with
  | nil => exact ⟨[], rfl⟩
  | cons item items inductionHypothesis =>
      obtain ⟨first, writtenFirst⟩ := each item List.mem_cons_self
      obtain ⟨others, writtenOthers⟩ := inductionHypothesis
        fun item inside => each item (List.mem_cons_of_mem _ inside)
      refine ⟨first ++ others, ?_⟩
      simp only [messagepackItems, bind_ok]
      exact ⟨first, writtenFirst, others, writtenOthers, rfl⟩

theorem messagepackMembers_succeeds {members : List (String × JsonValue)}
    (keys : ∀ member ∈ members, (asBytes member.1).length < 2 ^ 32)
    (each : ∀ member ∈ members, ∃ output, messagepackValue member.2 = .ok output) :
    ∃ body, messagepackMembers members = .ok body := by
  induction members with
  | nil => exact ⟨[], rfl⟩
  | cons member members inductionHypothesis =>
      obtain ⟨name, writtenName⟩ := messagepackString_succeeds (keys member List.mem_cons_self)
      obtain ⟨first, writtenFirst⟩ := each member List.mem_cons_self
      obtain ⟨others, writtenOthers⟩ := inductionHypothesis
        (fun member inside => keys member (List.mem_cons_of_mem _ inside))
        (fun member inside => each member (List.mem_cons_of_mem _ inside))
      refine ⟨name ++ (first ++ others), ?_⟩
      simp only [messagepackMembers, bind_ok]
      exact ⟨name, writtenName, first, writtenFirst, others, writtenOthers, rfl⟩

theorem messagepackValue_succeeds {value : JsonValue} (representable : Representable value) :
    ∃ output, messagepackValue value = .ok output := by
  induction representable with
  | null => exact ⟨_, rfl⟩
  | bool value => cases value <;> exact ⟨_, rfl⟩
  | number number isInt => exact messagepackNumber_succeeds isInt
  | string text short => exact messagepackString_succeeds short
  | array items short all each =>
      obtain ⟨header, counted⟩ := messagepackLen_succeeds short
      obtain ⟨body, written⟩ := messagepackItems_succeeds each
      refine ⟨header ++ body, ?_⟩
      simp only [messagepackValue, bind_ok]
      exact ⟨header, counted, body, written, rfl⟩
  | object members short keys all each =>
      obtain ⟨header, counted⟩ := messagepackLen_succeeds short
      obtain ⟨body, written⟩ := messagepackMembers_succeeds keys each
      refine ⟨header ++ body, ?_⟩
      simp only [messagepackValue, bind_ok]
      exact ⟨header, counted, body, written, rfl⟩

/-! ## The round trip -/

theorem messagepack_round_trip {parse : Bytes → Except String JsonValue} {canonical : Bytes}
    {value : JsonValue} (parsed : parse canonical = .ok value)
    (representable : Representable value) :
    ∃ output, encode parse canonical = .ok output ∧ decodeJson output = some value := by
  obtain ⟨output, written⟩ := messagepackValue_succeeds representable
  refine ⟨output, ?_, decodeJson_of_readsBack (messagepackValue_readsBack value output written)⟩
  simp only [encode, bind_ok, mapError_ok]
  exact ⟨value, parsed, written⟩

def sampleItems : List JsonValue :=
  [.null, .bool true, .number (.posInt 300 (by omega)),
    .number (.negInt (-200) (by omega) (by omega)), .string "\t\u00e9"]

def sampleValue : JsonValue := .object [("roots", .array sampleItems), ("", .object [])]

def sampleCanonical : Bytes :=
  asBytes "\x7b\"roots\":[null,true,300,-200,\"\\t\u00e9\"],\"\":\x7b\x7d\x7d"

def sampleParse (bytes : Bytes) : Except String JsonValue :=
  if bytes = sampleCanonical then .ok sampleValue else .error "expected value"

theorem sampleItems_representable : ∀ item ∈ sampleItems, Representable item := by
  intro item inside
  simp only [sampleItems, List.mem_cons, List.not_mem_nil, or_false] at inside
  obtain rfl | rfl | rfl | rfl | rfl := inside
  · exact .null
  · exact .bool true
  · exact .number _ rfl
  · exact .number _ rfl
  · exact .string _ (by decide)

theorem sampleValue_representable : Representable sampleValue := by
  apply Representable.object _ (by decide)
  · decide
  · intro member inside
    simp only [List.mem_cons, List.not_mem_nil, or_false] at inside
    obtain rfl | rfl := inside
    · exact .array _ (by decide) sampleItems_representable
    · exact .object _ (by decide) (by simp) (by simp)

theorem messagepack_round_trip_sample :
    ∃ output, encode sampleParse sampleCanonical = .ok output ∧
      decodeJson output = some sampleValue :=
  messagepack_round_trip (if_pos rfl) sampleValue_representable

end MessagePackExport

end ZedRegistry
