import ZedRegistry.Lib.JsonText
import ZedRegistry.Lib.PathResolution

/-!
# Paths of URLs

Percent-encoding of a segment, and what an `https` URL asks for: its authority, the
segments of its path without the dot segments, and what follows the path.
-/

set_option autoImplicit false

namespace UrlPath

open JsonText PathResolution

/-! ## Percent-encoding -/

def upperHex (value : Nat) : Char := (Nat.digitChar value).toUpper

def percentByte (byte : UInt8) : List Char :=
  ['%', upperHex (byte.toNat / 16), upperHex (byte.toNat % 16)]

/-- A kept character stands for itself; the bytes of any other are written out. -/
def percentEncode (kept : Char → Bool) (text : List Char) : List Char :=
  text.flatMap fun character =>
    if kept character then [character] else (String.utf8EncodeChar character).flatMap percentByte

/-- The bytes that a text stands for; a `%` without two digits stands for itself. -/
def percentDecode : List Char → List UInt8
  | [] => []
  | '%' :: high :: low :: rest =>
    match hexValue high, hexValue low with
    | some high, some low => UInt8.ofNat (high * 16 + low) :: percentDecode rest
    | _, _ => String.utf8EncodeChar '%' ++ percentDecode (high :: low :: rest)
  | character :: rest => String.utf8EncodeChar character ++ percentDecode rest

theorem percentDecode_cons {character : Char} (plain : character ≠ '%') (rest : List Char) :
    percentDecode (character :: rest) =
      String.utf8EncodeChar character ++ percentDecode rest := by
  rw [percentDecode]
  intro high low rest' same
  exact absurd same plain

theorem hexValue_upperHex {value : Nat} (small : value < 16) :
    hexValue (upperHex value) = some value := by
  have all : ∀ value : Fin 16, hexValue (upperHex value) = some value.val := by decide
  exact all ⟨value, small⟩

theorem percentDecode_byte (byte : UInt8) (rest : List Char) :
    percentDecode (percentByte byte ++ rest) = byte :: percentDecode rest := by
  have size := byte.toNat_lt
  have high := hexValue_upperHex (show byte.toNat / 16 < 16 by omega)
  have low := hexValue_upperHex (show byte.toNat % 16 < 16 by omega)
  have whole : byte.toNat / 16 * 16 + byte.toNat % 16 = byte.toNat := by omega
  simp only [percentByte, List.cons_append, List.nil_append, percentDecode, high, low, whole,
    UInt8.ofNat_toNat]

theorem percentDecode_bytes (bytes : List UInt8) (rest : List Char) :
    percentDecode (bytes.flatMap percentByte ++ rest) = bytes ++ percentDecode rest := by
  induction bytes with
  | nil => rfl
  | cons byte bytes ih =>
      rw [List.flatMap_cons, List.append_assoc, percentDecode_byte, ih, List.cons_append]

theorem percentDecode_percentEncode {kept : Char → Bool} (percent : kept '%' = false)
    (text : List Char) :
    percentDecode (percentEncode kept text) = text.flatMap String.utf8EncodeChar := by
  unfold percentEncode
  induction text with
  | nil => rfl
  | cons character rest ih =>
      rw [List.flatMap_cons, List.flatMap_cons]
      by_cases stays : kept character = true
      · have plain : character ≠ '%' := by
          intro same
          rw [same, percent] at stays
          contradiction
        rw [if_pos stays, List.singleton_append, percentDecode_cons plain, ih]
      · rw [if_neg stays, percentDecode_bytes, ih]

theorem utf8_injective :
    Function.Injective fun text : List Char => text.flatMap String.utf8EncodeChar := by
  have spelled (text : List Char) : (String.ofList text).toByteArray.data.toList =
      text.flatMap String.utf8EncodeChar := by
    rw [← String.utf8Encode_toList, String.toList_ofList]
    unfold List.utf8Encode
    rw [List.toList_data_toByteArray]
  intro left right same
  have bytes : (String.ofList left).toByteArray.data.toList =
      (String.ofList right).toByteArray.data.toList := by
    rw [spelled, spelled]
    exact same
  have texts := String.toByteArray_inj.mp (ByteArray.ext (Array.toList_inj.mp bytes))
  rw [← String.toList_ofList (l := left), texts, String.toList_ofList]

theorem percentEncode_injective {kept : Char → Bool} (percent : kept '%' = false) :
    Function.Injective (percentEncode kept) := by
  intro left right same
  have bytes := congrArg percentDecode same
  rw [percentDecode_percentEncode percent, percentDecode_percentEncode percent] at bytes
  exact utf8_injective bytes

theorem percentEncode_kept {kept : Char → Bool} {text : List Char}
    (stays : ∀ character ∈ text, kept character = true) : percentEncode kept text = text := by
  unfold percentEncode
  induction text with
  | nil => rfl
  | cons character rest ih =>
      rw [List.flatMap_cons, if_pos (stays character List.mem_cons_self),
        ih fun other member => stays other (List.mem_cons_of_mem _ member)]
      rfl

/-- Only kept characters, `%` and digits are written. -/
theorem mem_percentEncode {kept : Char → Bool} {text : List Char} {written : Char}
    (member : written ∈ percentEncode kept text) :
    kept written = true ∨ written = '%' ∨ ∃ value < 16, written = upperHex value := by
  unfold percentEncode at member
  obtain ⟨character, -, member⟩ := List.mem_flatMap.mp member
  split at member
  · rename_i stays
    rw [List.mem_singleton] at member
    exact .inl (member ▸ stays)
  · obtain ⟨byte, -, member⟩ := List.mem_flatMap.mp member
    have size := byte.toNat_lt
    simp only [percentByte, List.mem_cons, List.not_mem_nil, or_false] at member
    rcases member with same | same | same
    · exact .inr (.inl same)
    · exact .inr (.inr ⟨_, by omega, same⟩)
    · exact .inr (.inr ⟨_, by omega, same⟩)

/-! ## Requests -/

/-- An `https` URL taken apart; `suffix` is its query and fragment. -/
structure Target where
  authority : List Char
  segments : List (List Char)
  suffix : List Char

def separates (character : Char) : Bool := character = '/' || character = '\\'

def endsPath (character : Char) : Bool := character = '?' || character = '#'

/-- `%2e` is a dot too. -/
def undotted : List Char → List Char
  | '%' :: '2' :: 'e' :: rest => '.' :: undotted rest
  | '%' :: '2' :: 'E' :: rest => '.' :: undotted rest
  | character :: rest => character :: undotted rest
  | [] => []

def segmentPart (segment : List Char) : PathPart (List Char) :=
  if undotted segment = ['.'] then .skip
  else if undotted segment = ['.', '.'] then .up
  else .name segment

/-- A path that ends in a dot segment ends in a slash. -/
def ending (segments : List (List Char)) : List (PathPart (List Char)) :=
  match segments.getLast?.map segmentPart with
  | some .skip | some .up => [.name []]
  | some (.name _) | none => []

def resolve (segments : List (List Char)) : List (List Char) :=
  clamped [] (segments.map segmentPart ++ ending segments)

def target (url : List Char) : Option Target := do
  let rest ← url.dropPrefix? "https://".toList
  let inside := fun character => !separates character && !endsPath character
  let following := rest.dropWhile inside
  let path := following.takeWhile fun character => !endsPath character
  some ⟨rest.takeWhile inside, resolve ((path.drop 1).splitOnP separates),
    following.dropWhile fun character => !endsPath character⟩

/-- Nothing in the text ends a segment or the path. -/
def Plain (text : List Char) : Prop :=
  ∀ character ∈ text, separates character = false ∧ endsPath character = false

instance (text : List Char) : Decidable (Plain text) :=
  List.decidableBAll (fun character => separates character = false ∧ endsPath character = false)
    text

def joined (segments : List (List Char)) : List Char :=
  segments.flatMap fun segment => '/' :: segment

theorem joined_onPath {segments : List (List Char)} (plain : ∀ segment ∈ segments, Plain segment) :
    ∀ character ∈ joined segments, (!endsPath character) = true := by
  intro character member
  obtain ⟨segment, inside, member⟩ := List.mem_flatMap.mp member
  rcases List.mem_cons.mp member with rfl | member
  · rfl
  · rw [(plain segment inside character member).2]
    rfl

theorem splitOnP_joined {first : List Char} {rest : List (List Char)} (plain : Plain first)
    (others : ∀ segment ∈ rest, Plain segment) :
    (first ++ joined rest).splitOnP separates = first :: rest := by
  have unmarked : ∀ character ∈ first, separates character = false :=
    fun character member => (plain character member).1
  rw [splitOnP_append_unmarked unmarked]
  induction rest generalizing first with
  | nil => simp [joined]
  | cons second rest ih =>
      have here : ∀ character ∈ second, separates character = false :=
        fun character member => (others second List.mem_cons_self character member).1
      have tail := ih (others second List.mem_cons_self)
        (fun segment member => others segment (List.mem_cons_of_mem _ member)) here
      rw [← splitOnP_append_unmarked here] at tail
      have slash : separates '/' = true := rfl
      have opened : joined (second :: rest) = '/' :: (second ++ joined rest) := rfl
      rw [opened, List.splitOnP_cons_eq_if_modifyHead, if_pos slash, tail]
      simp

/-- What a URL of plain segments asks for. -/
theorem target_joined {authority first : List Char} {rest : List (List Char)}
    (host : Plain authority) (plain : Plain first) (others : ∀ segment ∈ rest, Plain segment) :
    target ("https://".toList ++ (authority ++ joined (first :: rest))) =
      some ⟨authority, resolve (first :: rest), []⟩ := by
  have whole : ∀ segment ∈ first :: rest, Plain segment := by
    intro segment member
    rcases List.mem_cons.mp member with rfl | member
    · exact plain
    · exact others segment member
  have opened : joined (first :: rest) = '/' :: (first ++ joined rest) := rfl
  have onPath := joined_onPath whole
  have inside : ∀ character ∈ authority,
      (!separates character && !endsPath character) = true := by
    intro character member
    rw [(host character member).1, (host character member).2]
    rfl
  have scheme : ("https://".toList ++ (authority ++ joined (first :: rest))).dropPrefix?
      "https://".toList = some (authority ++ joined (first :: rest)) := by
    simp [List.dropPrefix?]
  have taken : (authority ++ joined (first :: rest)).takeWhile
      (fun character => !separates character && !endsPath character) = authority := by
    rw [List.takeWhile_append_of_pos inside, opened]
    simp [separates]
  have dropped : (authority ++ joined (first :: rest)).dropWhile
      (fun character => !separates character && !endsPath character) = joined (first :: rest) := by
    rw [List.dropWhile_append_of_pos inside, opened]
    simp [separates]
  simp only [target, scheme, Option.bind_eq_bind, Option.bind_some, taken, dropped]
  rw [List.takeWhile_eq_self_iff.mpr onPath, List.dropWhile_eq_nil_iff.mpr onPath, opened,
    List.drop_one, List.tail_cons, splitOnP_joined plain others]

/-! ## Encoded segments -/

section Encoded

variable {kept : Char → Bool}

theorem plain_percentEncode (safe : ∀ character, kept character = true →
    separates character = false ∧ endsPath character = false) (text : List Char) :
    Plain (percentEncode kept text) := by
  intro character member
  rcases mem_percentEncode member with stays | rfl | ⟨value, small, rfl⟩
  · exact safe character stays
  · exact ⟨rfl, rfl⟩
  · have all : ∀ value : Fin 16, separates (upperHex value) = false ∧
        endsPath (upperHex value) = false := by decide
    exact all ⟨value, small⟩

theorem percentDecode_of_dot {segment rest : List Char} (dotted : undotted segment = '.' :: rest) :
    ∃ later, undotted later = rest ∧
      percentDecode segment = String.utf8EncodeChar '.' ++ percentDecode later := by
  fun_cases undotted segment with
  | case1 later =>
      simp only [undotted, List.cons.injEq, true_and] at dotted
      exact ⟨later, dotted, rfl⟩
  | case2 later =>
      simp only [undotted, List.cons.injEq, true_and] at dotted
      exact ⟨later, dotted, rfl⟩
  | case3 character later small large =>
      rw [undotted] at dotted
      · obtain ⟨rfl, same⟩ := List.cons.inj dotted
        exact ⟨later, same, percentDecode_cons (by decide) later⟩
      · exact small
      · exact large
  | case4 => simp [undotted] at dotted

/-- A segment that reads as dots stands for dots. -/
theorem percentDecode_of_dots {segment : List Char} {dots : Nat}
    (dotted : undotted segment = List.replicate dots '.') :
    percentDecode segment = (List.replicate dots '.').flatMap String.utf8EncodeChar := by
  induction dots generalizing segment with
  | zero =>
      fun_cases undotted segment with
      | case1 later => simp [undotted] at dotted
      | case2 later => simp [undotted] at dotted
      | case3 character later small large =>
          rw [undotted] at dotted
          · simp at dotted
          · exact small
          · exact large
      | case4 => rfl
  | succ dots ih =>
      obtain ⟨later, dotted, decoded⟩ := percentDecode_of_dot dotted
      rw [decoded, ih dotted, List.replicate_succ, List.flatMap_cons]

theorem undotted_percentEncode_iff (percent : kept '%' = false) (dot : kept '.' = true)
    {text : List Char} (dots : Nat) :
    undotted (percentEncode kept text) = List.replicate dots '.' ↔
      text = List.replicate dots '.' := by
  constructor
  · intro dotted
    have decoded := percentDecode_of_dots dotted
    rw [percentDecode_percentEncode percent] at decoded
    exact utf8_injective decoded
  · rintro rfl
    rw [percentEncode_kept fun character member => List.eq_of_mem_replicate member ▸ dot]
    induction dots with
    | zero => rfl
    | succ dots ih =>
        rw [List.replicate_succ, undotted, ih]
        · intro rest same
          exact absurd same (by decide)
        · intro rest same
          exact absurd same (by decide)

/-- An encoded text is a dot segment only when it is dots itself. -/
theorem segmentPart_percentEncode (percent : kept '%' = false) (dot : kept '.' = true)
    (text : List Char) :
    segmentPart (percentEncode kept text) =
      if text = ['.'] then .skip
      else if text = ['.', '.'] then .up
      else .name (percentEncode kept text) := by
  have one : undotted (percentEncode kept text) = ['.'] ↔ text = ['.'] :=
    undotted_percentEncode_iff percent dot 1
  have two : undotted (percentEncode kept text) = ['.', '.'] ↔ text = ['.', '.'] :=
    undotted_percentEncode_iff percent dot 2
  simp only [segmentPart, one, two]

end Encoded

theorem clamped_names (above names : List (List Char)) (parts : List (PathPart (List Char))) :
    clamped above (names.map .name ++ parts) = clamped (names.reverse ++ above) parts := by
  induction names generalizing above with
  | nil => rfl
  | cons name rest ih =>
      rw [List.map_cons, List.cons_append, clamped, ih, List.reverse_cons, List.append_assoc]
      rfl

/-- Only the last of these segments may be a dot segment. -/
theorem resolve_names {names : List (List Char)}
    (solid : ∀ name ∈ names, segmentPart name = .name name) (last : List Char) :
    resolve (names ++ [last]) = clamped names.reverse (segmentPart last :: ending [last]) := by
  have parts : names.map segmentPart = names.map .name := List.map_congr_left solid
  have same : ending (names ++ [last]) = ending [last] := by
    simp [ending]
  rw [resolve, same, List.map_append, parts, List.append_assoc, clamped_names, List.append_nil]
  rfl

end UrlPath
