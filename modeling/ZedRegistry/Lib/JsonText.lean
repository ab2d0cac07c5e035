import ZedRegistry.Lib.JsonValue

/-!
# JSON strings and integers as text

The escapes of a JSON string literal, and a reader of quoted text for any format
with escapes of its own: what stands between the quotes is a list of characters
that were escaped or stand there themselves.
-/

set_option autoImplicit false

namespace JsonText

/-! ## Writing -/

/-- Characters with an escape of one letter. -/
def shortEscapes : List (Char × Char) :=
  [('"', '"'), ('\\', '\\'), ('\x08', 'b'), ('\t', 't'), ('\n', 'n'), ('\x0c', 'f'), ('\r', 'r')]

def escape (character : Char) : List Char :=
  match shortEscapes.lookup character with
  | some letter => ['\\', letter]
  | none =>
    if character.toNat < 0x20 then
      ['\\', 'u', '0', '0', Nat.digitChar (character.toNat / 16),
        Nat.digitChar (character.toNat % 16)]
    else [character]

def quote (text : String) : List Char := '"' :: (text.toList.flatMap escape ++ ['"'])

section Numbers

variable (floatText : UInt64 → List Char)

def numberText : JsonNumber → List Char
  | .posInt value _ => Nat.toDigits 10 value
  | .negInt value _ _ => '-' :: Nat.toDigits 10 value.natAbs
  | .float bits => floatText bits

end Numbers

/-! ## Reading -/

inductive Atom where
  | raw (character : Char)
  | escaped (character : Char)
  deriving DecidableEq

def Atom.character : Atom → Char
  | .raw character | .escaped character => character

/-- The letters after a backslash: one stands for a character, or begins a number of
so many hexadecimal digits. The rest are the characters that may stand themselves. -/
structure QuotedStyle where
  short : Char → Option Char
  long : Char → Option Nat
  raw : Char → Bool

def hexValue (character : Char) : Option Nat :=
  if '0' ≤ character ∧ character ≤ '9' then some (character.toNat - 0x30)
  else if 'a' ≤ character ∧ character ≤ 'f' then some (character.toNat - 0x57)
  else if 'A' ≤ character ∧ character ≤ 'F' then some (character.toNat - 0x37)
  else none

def readHex : Nat → Nat → List Char → Option (Nat × List Char)
  | 0, value, characters => some (value, characters)
  | _ + 1, _, [] => none
  | width + 1, value, character :: rest => do
    let digit ← hexValue character
    readHex width (value * 16 + digit) rest

section Readers

variable (style : QuotedStyle)

def readEscape : List Char → Option (Char × List Char)
  | [] => none
  | letter :: rest =>
    match style.short letter with
    | some character => some (character, rest)
    | none => do
      let width ← style.long letter
      let (code, rest) ← readHex width 0 rest
      if code.isValidChar then some (Char.ofNat code, rest) else none

/-- Up to the closing quote. -/
def readAtoms : Nat → List Char → Option (List Atom × List Char)
  | 0, _ => none
  | _ + 1, [] => none
  | _ + 1, '"' :: rest => some ([], rest)
  | fuel + 1, '\\' :: rest => do
    let (character, rest) ← readEscape style rest
    let (others, rest) ← readAtoms fuel rest
    pure (.escaped character :: others, rest)
  | fuel + 1, character :: rest =>
    if style.raw character then do
      let (others, rest) ← readAtoms fuel rest
      pure (.raw character :: others, rest)
    else none

def readQuoted : List Char → Option (List Atom × List Char)
  | '"' :: rest => readAtoms style rest.length rest
  | _ => none

end Readers

/-- Decimal digits without leading zeros. -/
def readNatural (digits : List Char) : Option Nat :=
  if Nat.toDigits 10 (Nat.ofDigitChars 10 digits 0) = digits then
    some (Nat.ofDigitChars 10 digits 0)
  else none

def readInteger : List Char → Option JsonNumber
  | '-' :: digits => (readNatural digits).bind fun value => JsonNumber.ofInt (-value)
  | digits => (readNatural digits).bind fun value => JsonNumber.ofInt value

/-! ## What is written is read -/

def escaped (character : Char) : Bool :=
  (shortEscapes.lookup character).isSome || character.toNat < 0x20

theorem escaped_iff (character : Char) :
    escaped character = true ↔ character.toNat < 0x20 ∨ character = '"' ∨ character = '\\' := by
  by_cases control : character.toNat < 0x20
  · simp [escaped, control]
  · have others : ∀ other : Char, other.toNat < 0x20 → (character == other) = false := by
      intro other small
      rw [beq_eq_false_iff_ne]
      intro same
      exact control (same ▸ small)
    simp only [escaped, shortEscapes, List.lookup_cons, List.lookup_nil, control,
      others '\x08' (by decide), others '\t' (by decide), others '\n' (by decide),
      others '\x0c' (by decide), others '\r' (by decide), decide_false, Bool.or_false, false_or]
    by_cases quoted : character = '"'
    · simp [quoted]
    · by_cases slash : character = '\\'
      · simp [slash]
      · simp [quoted, slash, beq_eq_false_iff_ne.mpr]

/-- How a string literal holds a character. -/
def atom (character : Char) : Atom :=
  if escaped character then .escaped character else .raw character

@[simp] theorem atom_character (character : Char) : (atom character).character = character := by
  unfold atom
  split <;> rfl

@[simp] theorem map_atom_character (text : List Char) :
    (text.map atom).map Atom.character = text := by
  simp only [List.map_map, Function.comp_def, atom_character, List.map_id']

/-- The style allows the character as a string literal holds it. -/
def QuotedStyle.allows (style : QuotedStyle) (character : Char) : Bool :=
  escaped character || style.raw character

/-- The style has the escapes of JSON. -/
structure ReadsJson (style : QuotedStyle) : Prop where
  short : ∀ pair ∈ shortEscapes, style.short pair.2 = some pair.1
  notShort : style.short 'u' = none
  long : style.long 'u' = some 4

theorem hexValue_digitChar {value : Nat} (small : value < 16) :
    hexValue (Nat.digitChar value) = some value := by
  have all : ∀ value : Fin 16, hexValue (Nat.digitChar value) = some value.val := by decide
  exact all ⟨value, small⟩

theorem escape_nonempty (character : Char) : 1 ≤ (escape character).length := by
  unfold escape
  split
  · simp
  · split <;> simp

theorem length_flatMap_escape (text : List Char) :
    text.length ≤ (text.flatMap escape).length := by
  induction text with
  | nil => exact le_rfl
  | cons character text inductionHypothesis =>
      have one := escape_nonempty character
      simp only [List.flatMap_cons, List.length_append, List.length_cons]
      omega

section Reads

variable {style : QuotedStyle} (reads : ReadsJson style)
include reads

theorem readEscape_short {character letter : Char}
    (short : shortEscapes.lookup character = some letter) (rest : List Char) :
    readEscape style (letter :: rest) = some (character, rest) := by
  obtain ⟨before, after, split, _⟩ := List.lookup_eq_some_iff.mp short
  have member : (character, letter) ∈ shortEscapes := by
    rw [split]
    simp
  rw [readEscape, reads.short _ member]

theorem readEscape_control {character : Char} (control : character.toNat < 0x20)
    (rest : List Char) :
    readEscape style ('u' :: '0' :: '0' :: Nat.digitChar (character.toNat / 16) ::
      Nat.digitChar (character.toNat % 16) :: rest) = some (character, rest) := by
  have zero : hexValue '0' = some 0 := by decide
  have high := hexValue_digitChar (show character.toNat / 16 < 16 by omega)
  have low := hexValue_digitChar (show character.toNat % 16 < 16 by omega)
  have code : ((0 * 16 + 0) * 16 + 0) * 16 + character.toNat / 16 = character.toNat / 16 := by
    omega
  have whole : character.toNat / 16 * 16 + character.toNat % 16 = character.toNat := by omega
  have valid : character.toNat.isValidChar := character.valid
  simp only [readEscape, reads.notShort, reads.long, readHex, zero, high, low, code, whole,
    Option.bind_eq_bind, Option.bind_some, if_pos valid, Char.ofNat_toNat]

/-- One character is read as it was written, or refused where it may not stand itself. -/
theorem readAtoms_escape_cons (character : Char) (fuel : Nat) (rest : List Char) :
    readAtoms style (fuel + 1) (escape character ++ rest) =
      if style.allows character then
        (readAtoms style fuel rest).map fun read => (atom character :: read.1, read.2)
      else none := by
  unfold escape atom QuotedStyle.allows escaped
  cases short : shortEscapes.lookup character with
  | some letter =>
      simp only [List.cons_append, List.nil_append, readAtoms, readEscape_short reads short,
        Option.bind_eq_bind, Option.bind_some, Option.isSome_some, Bool.true_or, if_true]
      rw [Option.map_eq_bind]
      rfl
  | none =>
      by_cases control : character.toNat < 0x20
      · simp only [control, if_true, List.cons_append, List.nil_append, readAtoms,
          readEscape_control reads control, Option.bind_eq_bind, Option.bind_some,
          Option.isSome_none, Bool.false_or, decide_true, Bool.true_or]
        rw [Option.map_eq_bind]
        rfl
      · have notQuote : character ≠ '"' := by
          intro same
          rw [same] at short
          exact absurd short (by decide)
        have notBackslash : character ≠ '\\' := by
          intro same
          rw [same] at short
          exact absurd short (by decide)
        cases allowed : style.raw character with
        | false => simp [control, readAtoms, allowed]
        | true =>
            simp only [control, if_false, List.cons_append, List.nil_append, readAtoms, allowed,
              Option.isSome_none, Bool.false_or, decide_false, if_true, Option.bind_eq_bind]
            rw [Option.map_eq_bind]
            rfl

theorem readAtoms_escape (text rest : List Char) {fuel : Nat} (enough : text.length < fuel) :
    readAtoms style fuel (text.flatMap escape ++ '"' :: rest) =
      if text.all style.allows then some (text.map atom, rest) else none := by
  induction text generalizing fuel with
  | nil =>
      cases fuel with
      | zero => omega
      | succ fuel => rfl
  | cons character text inductionHypothesis =>
      simp only [List.length_cons] at enough
      cases fuel with
      | zero => omega
      | succ fuel =>
          have later := inductionHypothesis (show text.length < fuel by omega)
          rw [List.flatMap_cons, List.append_assoc, readAtoms_escape_cons reads, later,
            List.all_cons, List.map_cons]
          cases style.allows character with
          | false => rfl
          | true => cases text.all style.allows <;> rfl

theorem readQuoted_quote (text : String) (rest : List Char) :
    readQuoted style (quote text ++ rest) =
      if text.toList.all style.allows then some (text.toList.map atom, rest) else none := by
  have long := length_flatMap_escape text.toList
  rw [quote, List.cons_append, List.append_assoc, List.singleton_append, readQuoted]
  apply readAtoms_escape reads
  simp only [List.length_append, List.length_cons]
  omega

end Reads

theorem readNatural_toDigits (value : Nat) :
    readNatural (Nat.toDigits 10 value) = some value := by
  rw [readNatural, Nat.ofDigitChars_ten_toDigits, if_pos rfl]

theorem readInteger_numberText (floatText : UInt64 → List Char) {number : JsonNumber}
    (isInt : number.toInt?.isSome = true) :
    readInteger (numberText floatText number) = some number := by
  cases number with
  | posInt value fits =>
      have back := @JsonNumber.ofInt_toInt (.posInt value fits) value rfl
      have digits : ∀ rest, Nat.toDigits 10 value ≠ '-' :: rest := by
        intro rest same
        have digit : '-'.isDigit = true := Nat.isDigit_of_mem_toDigits (by decide) (by decide)
          (same ▸ List.mem_cons_self)
        exact absurd digit (by decide)
      unfold readInteger numberText
      split
      · rename_i same
        exact absurd same (digits _)
      · rw [readNatural_toDigits, Option.bind_some, back]
  | negInt value fits negative =>
      have back := @JsonNumber.ofInt_toInt (.negInt value fits negative) value rfl
      have size : -(value.natAbs : Int) = value := by omega
      rw [numberText, readInteger, readNatural_toDigits, Option.bind_some, size, back]
  | float bits => contradiction

theorem numberText_digits (floatText : UInt64 → List Char) {number : JsonNumber}
    (isInt : number.toInt?.isSome = true) :
    ∀ character ∈ numberText floatText number, character = '-' ∨ character.isDigit = true := by
  intro character inside
  cases number with
  | posInt value fits => exact .inr (Nat.isDigit_of_mem_toDigits (by decide) (by decide) inside)
  | negInt value fits negative =>
      obtain minus | digit := List.mem_cons.mp inside
      · exact .inl minus
      · exact .inr (Nat.isDigit_of_mem_toDigits (by decide) (by decide) digit)
  | float bits => contradiction

theorem not_mem_numberText (floatText : UInt64 → List Char) {number : JsonNumber}
    (isInt : number.toInt?.isSome = true) {character : Char} (other : character.isDigit = false)
    (notMinus : character ≠ '-') : character ∉ numberText floatText number := by
  intro inside
  obtain minus | digit := numberText_digits floatText isInt character inside
  · exact notMinus minus
  · rw [other] at digit
    contradiction

theorem numberText_ne (floatText : UInt64 → List Char) {number : JsonNumber}
    (isInt : number.toInt?.isSome = true) {token : List Char} {character : Char}
    (head : token.head? = some character) (other : character.isDigit = false)
    (notMinus : character ≠ '-') : numberText floatText number ≠ token := by
  intro same
  apply not_mem_numberText floatText isInt other notMinus
  rw [same]
  exact List.mem_of_mem_head? head

theorem numberText_nonempty (floatText : UInt64 → List Char) {number : JsonNumber}
    (isInt : number.toInt?.isSome = true) : numberText floatText number ≠ [] := by
  cases number with
  | posInt value fits => exact Nat.toDigits_ne_nil
  | negInt value fits negative => exact List.cons_ne_nil _ _
  | float bits => contradiction

end JsonText
