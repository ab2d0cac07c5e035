import ZedRegistry.Lib.ByteReader

/-!
# MessagePack

The format of the specification: every marker byte, lengths and integers in
big-endian order, and a reader that takes one value off a byte sequence.  The
reader's fuel bounds the nesting; a sequence is never nested deeper than it is
long.
-/

set_option autoImplicit false

namespace MessagePack

open ByteReader

/-! ## Big-endian integers -/

def toBigEndian : Nat → Nat → List UInt8
  | 0, _ => []
  | width + 1, value => toBigEndian width (value / 256) ++ [UInt8.ofNat value]

def ofBigEndian (bytes : List UInt8) : Nat :=
  bytes.foldl (fun value byte => value * 256 + byte.toNat) 0

@[simp] theorem length_toBigEndian (width value : Nat) :
    (toBigEndian width value).length = width := by
  induction width generalizing value with
  | zero => rfl
  | succ width ih => simp [toBigEndian, ih]

theorem ofBigEndian_toBigEndian {width value : Nat} (fits : value < 256 ^ width) :
    ofBigEndian (toBigEndian width value) = value := by
  induction width generalizing value with
  | zero =>
      have zero : value = 0 := by omega
      rw [zero]
      rfl
  | succ width ih =>
      have high : value / 256 < 256 ^ width := by
        apply Nat.div_lt_of_lt_mul
        rw [Nat.mul_comm, ← Nat.pow_succ]
        exact fits
      have front := ih high
      unfold ofBigEndian at front ⊢
      simp only [toBigEndian, List.foldl_append, List.foldl_cons, List.foldl_nil, front,
        UInt8.toNat_ofNat']
      omega

/-- Two's complement of `width` bytes. -/
def signed (width value : Nat) : Int :=
  if value < 2 ^ (8 * width - 1) then value else value - 2 ^ (8 * width)

/-! ## Values and markers -/

inductive Value where
  | nil
  | bool (value : Bool)
  | int (value : Int)
  | float (width bits : Nat)
  | str (bytes : List UInt8)
  | bin (bytes : List UInt8)
  | ext (type : UInt8) (bytes : List UInt8)
  | array (items : List Value)
  | map (entries : List (Value × Value))

inductive Kind where
  | str
  | bin
  | ext
  | array
  | map

/-- A length in the marker, or in the bytes after it. -/
inductive Size where
  | fixed (size : Nat)
  | counted (width : Nat)

inductive Lead where
  | value (value : Value)
  | uint (width : Nat)
  | int (width : Nat)
  | float (width : Nat)
  | sized (kind : Kind) (size : Size)

/-- The formats from `0xc0` to `0xdf`; `0xc1` is never used. -/
def plainLead : Nat → Option Lead
  | 0xc0 => some (.value .nil)
  | 0xc2 => some (.value (.bool false))
  | 0xc3 => some (.value (.bool true))
  | 0xc4 => some (.sized .bin (.counted 1))
  | 0xc5 => some (.sized .bin (.counted 2))
  | 0xc6 => some (.sized .bin (.counted 4))
  | 0xc7 => some (.sized .ext (.counted 1))
  | 0xc8 => some (.sized .ext (.counted 2))
  | 0xc9 => some (.sized .ext (.counted 4))
  | 0xca => some (.float 4)
  | 0xcb => some (.float 8)
  | 0xcc => some (.uint 1)
  | 0xcd => some (.uint 2)
  | 0xce => some (.uint 4)
  | 0xcf => some (.uint 8)
  | 0xd0 => some (.int 1)
  | 0xd1 => some (.int 2)
  | 0xd2 => some (.int 4)
  | 0xd3 => some (.int 8)
  | 0xd4 => some (.sized .ext (.fixed 1))
  | 0xd5 => some (.sized .ext (.fixed 2))
  | 0xd6 => some (.sized .ext (.fixed 4))
  | 0xd7 => some (.sized .ext (.fixed 8))
  | 0xd8 => some (.sized .ext (.fixed 16))
  | 0xd9 => some (.sized .str (.counted 1))
  | 0xda => some (.sized .str (.counted 2))
  | 0xdb => some (.sized .str (.counted 4))
  | 0xdc => some (.sized .array (.counted 2))
  | 0xdd => some (.sized .array (.counted 4))
  | 0xde => some (.sized .map (.counted 2))
  | 0xdf => some (.sized .map (.counted 4))
  | _ => none

def lead (marker : UInt8) : Option Lead :=
  if marker.toNat < 0x80 then some (.value (.int marker.toNat))
  else if marker.toNat < 0x90 then some (.sized .map (.fixed (marker.toNat - 0x80)))
  else if marker.toNat < 0xa0 then some (.sized .array (.fixed (marker.toNat - 0x90)))
  else if marker.toNat < 0xc0 then some (.sized .str (.fixed (marker.toNat - 0xa0)))
  else if marker.toNat < 0xe0 then plainLead marker.toNat
  else some (.value (.int (marker.toNat - 256)))

/-! ## Reading -/

def readUInt (width : Nat) (bytes : List UInt8) : Option (Nat × List UInt8) :=
  (readBytes width bytes).map fun (front, rest) => (ofBigEndian front, rest)

def readSize : Size → List UInt8 → Option (Nat × List UInt8)
  | .fixed size, bytes => some (size, bytes)
  | .counted width, bytes => readUInt width bytes

def readExt (size : Nat) : List UInt8 → Option (Value × List UInt8)
  | [] => none
  | type :: bytes => (readBytes size bytes).map fun (front, rest) => (.ext type front, rest)

section Body

variable (read : List UInt8 → Option (Value × List UInt8))

def readSized (size : Nat) (bytes : List UInt8) : Kind → Option (Value × List UInt8)
  | .str => (readBytes size bytes).map fun (front, rest) => (.str front, rest)
  | .bin => (readBytes size bytes).map fun (front, rest) => (.bin front, rest)
  | .ext => readExt size bytes
  | .array => (readMany read size bytes).map fun (items, rest) => (.array items, rest)
  | .map => (readMany (readPair read) size bytes).map fun (entries, rest) => (.map entries, rest)

def readBody (bytes : List UInt8) : Lead → Option (Value × List UInt8)
  | .value value => some (value, bytes)
  | .uint width => (readUInt width bytes).map fun (value, rest) => (.int value, rest)
  | .int width => (readUInt width bytes).map fun (value, rest) => (.int (signed width value), rest)
  | .float width => (readUInt width bytes).map fun (bits, rest) => (.float width bits, rest)
  | .sized kind size => do
    let (size, bytes) ← readSize size bytes
    readSized read size bytes kind

end Body

def readValue : Nat → List UInt8 → Option (Value × List UInt8)
  | 0, _ => none
  | _ + 1, [] => none
  | fuel + 1, marker :: bytes => (lead marker).bind (readBody (readValue fuel) bytes)

/-- One value and nothing after it. -/
def decode (bytes : List UInt8) : Option Value :=
  match readValue bytes.length bytes with
  | some (value, []) => some value
  | _ => none

/-! ## What a writer has to write -/

theorem readUInt_append {width value : Nat} (fits : value < 256 ^ width) (rest : List UInt8) :
    readUInt width (toBigEndian width value ++ rest) = some (value, rest) := by
  have read := readBytes_append (toBigEndian width value) rest
  rw [length_toBigEndian] at read
  simp [readUInt, read, ofBigEndian_toBigEndian fits]

theorem readValue_cons {fuel : Nat} {marker : UInt8} {first : Lead}
    (leads : lead marker = some first) (bytes : List UInt8) :
    readValue (fuel + 1) (marker :: bytes) = readBody (readValue fuel) bytes first := by
  simp [readValue, leads]

/-- The marker and length of a container, and what is read of the rest. -/
theorem readValue_sized {fuel size : Nat} {marker : UInt8} {kind : Kind} {declared : Size}
    {counter bytes : List UInt8} (leads : lead marker = some (.sized kind declared))
    (counts : readSize declared (counter ++ bytes) = some (size, bytes)) :
    readValue (fuel + 1) (marker :: (counter ++ bytes)) =
      readSized (readValue fuel) size bytes kind := by
  rw [readValue_cons leads]
  simp [readBody, counts]

theorem decode_of_readValue {bytes : List UInt8} {value : Value}
    (read : readValue bytes.length bytes = some (value, [])) : decode bytes = some value := by
  simp [decode, read]

/-! ## Signed integers -/

theorem signed_emod {width : Nat} {value : Int} (positive : 0 < width)
    (low : -2 ^ (8 * width - 1) ≤ value) (high : value < 0) :
    signed width (value % 2 ^ (8 * width)).toNat = value := by
  have double : (2 : Int) ^ (8 * width) = 2 * 2 ^ (8 * width - 1) := by
    rw [← Int.pow_succ']
    congr 1
    omega
  have doubleNat : 2 ^ (8 * width) = 2 * 2 ^ (8 * width - 1) := by
    rw [← Nat.pow_succ']
    congr 1
    omega
  have wraps : value % 2 ^ (8 * width) = value + 2 ^ (8 * width) := by
    rw [← Int.add_emod_right]
    apply Int.emod_eq_of_lt <;> omega
  have cast : ((2 ^ (8 * width - 1) : Nat) : Int) = 2 ^ (8 * width - 1) := by push_cast; rfl
  unfold signed
  rw [wraps, if_neg (by omega)]
  omega

end MessagePack
