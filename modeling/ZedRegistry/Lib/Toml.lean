import ZedRegistry.Lib.JsonText

/-!
# TOML

The document of TOML 1.0: key-value lines, tables, arrays of tables and inline values.
Keys are basic strings, and values are basic strings, decimal integers of 64 bits,
booleans, arrays and inline tables on one line; the reader refuses what is outside this
part of the format.
-/

set_option autoImplicit false

namespace Toml

open JsonText

/-! ## Values -/

def shortEscape : Char → Option Char
  | 'b' => some '\x08'
  | 't' => some '\t'
  | 'n' => some '\n'
  | 'f' => some '\x0c'
  | 'r' => some '\r'
  | '"' => some '"'
  | '\\' => some '\\'
  | _ => none

def longEscape : Char → Option Nat
  | 'u' => some 4
  | 'U' => some 8
  | _ => none

/-- Control characters other than tab may not stand themselves, nor may U+007F. -/
def basicString : QuotedStyle where
  short := shortEscape
  long := longEscape
  raw character :=
    character == '\t' || (0x20 ≤ character.toNat && character.toNat != 0x7f)

theorem basicString_readsJson : ReadsJson basicString where
  short := by decide
  notShort := rfl
  long := rfl

def skipSpace (text : List Char) : List Char := text.dropWhile fun character =>
  character == ' ' || character == '\t'

def readString (text : List Char) : Option (String × List Char) := do
  let (atoms, rest) ← readQuoted basicString text
  pure (String.ofList (atoms.map Atom.character), rest)

def bare (character : Char) : Bool :=
  character.isAlphanum || character == '-' || character == '_' || character == '+'

def readBare (token : List Char) : Option JsonValue :=
  if token = "true".toList then some (.bool true)
  else if token = "false".toList then some (.bool false)
  else do
    let number ← readInteger token
    let value ← number.toInt?
    if value < 2 ^ 63 then some (.number number) else none

mutual

def readValue : Nat → List Char → Option (JsonValue × List Char)
  | 0, _ => none
  | fuel + 1, text =>
    match text with
    | '"' :: _ => do
      let (value, rest) ← readString text
      pure (.string value, rest)
    | '[' :: rest =>
      match skipSpace rest with
      | ']' :: rest => some (.array [], rest)
      | rest => do
        let (items, rest) ← readItems fuel rest
        pure (.array items, rest)
    | '\x7b' :: rest =>
      match skipSpace rest with
      | '\x7d' :: rest => some (.object [], rest)
      | rest => do
        let (members, rest) ← readPairs fuel rest
        pure (.object members, rest)
    | _ => do
      let value ← readBare (text.takeWhile bare)
      pure (value, text.dropWhile bare)

/-- The items of an array up to its bracket. -/
def readItems : Nat → List Char → Option (List JsonValue × List Char)
  | 0, _ => none
  | fuel + 1, text => do
    let (item, rest) ← readValue fuel text
    match skipSpace rest with
    | ',' :: rest => do
      let (others, rest) ← readItems fuel (skipSpace rest)
      pure (item :: others, rest)
    | ']' :: rest => some ([item], rest)
    | _ => none

/-- The pairs of an inline table up to its brace. -/
def readPairs : Nat → List Char → Option (List (String × JsonValue) × List Char)
  | 0, _ => none
  | fuel + 1, text => do
    let (key, rest) ← readString text
    match skipSpace rest with
    | '=' :: rest => do
      let (value, rest) ← readValue fuel (skipSpace rest)
      match skipSpace rest with
      | ',' :: rest => do
        let (others, rest) ← readPairs fuel (skipSpace rest)
        if (others.map Prod.fst).contains key then none else pure ((key, value) :: others, rest)
      | '\x7d' :: rest => some ([(key, value)], rest)
      | _ => none
    | _ => none

end

/-! ## Documents -/

/-- `[key]` opens a table, `[[key]]` one more element of an array of tables. -/
inductive Header where
  | table (key : String)
  | element (key : String)

structure Section where
  header : Header
  members : List (String × JsonValue)

def lineEnd : List Char → Option (List Char)
  | '\n' :: rest => some rest
  | _ => none

/-- One `key = value` line. -/
def readPair (text : List Char) : Option ((String × JsonValue) × List Char) := do
  let (key, rest) ← readString text
  match skipSpace rest with
  | '=' :: rest => do
    let (value, rest) ← readValue rest.length (skipSpace rest)
    let rest ← lineEnd (skipSpace rest)
    pure ((key, value), rest)
  | _ => none

/-- The lines of one table, up to the next header. -/
def readLines : Nat → List Char → Option (List (String × JsonValue) × List Char)
  | 0, _ => none
  | _ + 1, [] => some ([], [])
  | fuel + 1, '\n' :: rest => readLines fuel rest
  | _ + 1, '[' :: rest => some ([], '[' :: rest)
  | fuel + 1, text => do
    let (pair, rest) ← readPair text
    let (others, rest) ← readLines fuel rest
    if (others.map Prod.fst).contains pair.1 then none else pure (pair :: others, rest)

def tableEnd (key : String) (text : List Char) : Option (Header × List Char) :=
  match skipSpace text with
  | ']' :: rest => (lineEnd (skipSpace rest)).map fun rest => (.table key, rest)
  | _ => none

def elementEnd (key : String) (text : List Char) : Option (Header × List Char) :=
  match skipSpace text with
  | ']' :: ']' :: rest => (lineEnd (skipSpace rest)).map fun rest => (.element key, rest)
  | _ => none

def readHeader : List Char → Option (Header × List Char)
  | '[' :: '[' :: rest => do
    let (key, rest) ← readString (skipSpace rest)
    elementEnd key rest
  | '[' :: rest => do
    let (key, rest) ← readString (skipSpace rest)
    tableEnd key rest
  | _ => none

def readSections : Nat → List Char → Option (List Section)
  | _, [] => some []
  | 0, _ => none
  | fuel + 1, text => do
    let (header, rest) ← readHeader text
    let (members, rest) ← readLines fuel rest
    let others ← readSections fuel rest
    pure (⟨header, members⟩ :: others)

/-- What a key of the root table is bound to: an array of tables stays open for more. -/
inductive Binding where
  | closed (value : JsonValue)
  | tables (items : List JsonValue)

def Binding.value : Binding → JsonValue
  | .closed value => value
  | .tables items => .array items

def Binding.add (item : JsonValue) : Binding → Option Binding
  | .closed _ => none
  | .tables items => some (.tables (items ++ [item]))

/-- The element is added to the array of tables of its key, which the first one opens. -/
def addElement (key : String) (item : JsonValue) :
    List (String × Binding) → Option (List (String × Binding))
  | [] => some [(key, .tables [item])]
  | (name, binding) :: rest =>
    if name = key then (binding.add item).map fun binding => (name, binding) :: rest
    else (addElement key item rest).map ((name, binding) :: ·)

/-- A key is bound once, except that an array of tables grows. -/
def addSection (root : List (String × Binding)) :
    Section → Option (List (String × Binding))
  | ⟨.table key, members⟩ =>
    if (root.map Prod.fst).contains key then none
    else some (root ++ [(key, .closed (.object members))])
  | ⟨.element key, members⟩ => addElement key (.object members) root

def assemble (root : List (String × JsonValue)) (sections : List Section) :
    Option (List (String × JsonValue)) :=
  (sections.foldlM addSection (root.map fun member => (member.1, .closed member.2))).map fun root =>
    root.map fun member => (member.1, member.2.value)

def parse (text : List Char) : Option JsonValue := do
  let (root, rest) ← readLines (text.length + 2) text
  let sections ← readSections rest.length rest
  let members ← assemble root sections
  pure (.object members)

/-! ## String literals -/

/-- A string literal of the text is a basic string. -/
def legal (text : String) : Bool := text.toList.all basicString.allows

theorem readString_quote (text : String) (rest : List Char) :
    readString (quote text ++ rest) = if legal text then some (text, rest) else none := by
  rw [readString, readQuoted_quote basicString_readsJson, legal]
  cases text.toList.all basicString.allows with
  | false => rfl
  | true =>
      simp only [if_true, Option.bind_eq_bind, Option.bind_some, map_atom_character,
        String.ofList_toList]
      rfl

theorem readValue_quote (fuel : Nat) (text : String) (rest : List Char) :
    readValue (fuel + 1) (quote text ++ rest) =
      if legal text then some (.string text, rest) else none := by
  have read := readString_quote text rest
  rw [quote, List.cons_append] at read ⊢
  rw [readValue, read]
  cases legal text <;> rfl

/-! ## Bare values -/

/-- The text does not go on with a character of a bare value. -/
def Delimited (text : List Char) : Prop := ∀ character ∈ text.head?, bare character = false

theorem readValue_bare (fuel : Nat) {token rest : List Char} (nonempty : token ≠ [])
    (inside : ∀ character ∈ token, bare character = true) (delimited : Delimited rest) :
    readValue (fuel + 1) (token ++ rest) = (readBare token).map fun value => (value, rest) := by
  have taken : (token ++ rest).takeWhile bare = token := by
    rw [List.takeWhile_append_of_pos inside]
    cases rest with
    | nil => simp
    | cons character rest =>
        rw [List.takeWhile_cons, delimited character rfl, if_neg Bool.false_ne_true,
          List.append_nil]
  have dropped : (token ++ rest).dropWhile bare = rest := by
    rw [List.dropWhile_append_of_pos inside]
    cases rest with
    | nil => rfl
    | cons character rest =>
        rw [List.dropWhile_cons, delimited character rfl, if_neg Bool.false_ne_true]
  have first : ∀ character more, token ++ rest = character :: more → bare character = true := by
    intro character more same
    cases token with
    | nil => contradiction
    | cons head token =>
        rw [← (List.cons.inj same).1]
        exact inside head List.mem_cons_self
  unfold readValue
  split
  · rename_i same
    exact absurd (first _ _ same) (by decide)
  · rename_i same
    exact absurd (first _ _ same) (by decide)
  · rename_i same
    exact absurd (first _ _ same) (by decide)
  · rw [taken, dropped]
    cases readBare token <;> rfl

theorem bare_of_digit {character : Char} (digit : character = '-' ∨ character.isDigit = true) :
    bare character = true := by
  obtain rfl | isDigit := digit
  · rfl
  · simp [bare, Char.isAlphanum, isDigit]

theorem readBare_number (floatText : UInt64 → List Char) {number : JsonNumber} {value : Int}
    (isInt : number.toInt? = some value) (fits : value < 2 ^ 63) :
    readBare (numberText floatText number) = some (.number number) := by
  have some_int : number.toInt?.isSome = true := by rw [isInt]; rfl
  have ne := @numberText_ne floatText number some_int
  rw [readBare, if_neg (ne rfl (by decide) (by decide) : _ ≠ "true".toList),
    if_neg (ne rfl (by decide) (by decide) : _ ≠ "false".toList),
    readInteger_numberText floatText some_int]
  simp only [Option.bind_eq_bind, Option.bind_some, isInt, if_pos fits]

/-! ## White space -/

theorem skipSpace_cons {character : Char} (notSpace : character ≠ ' ') (notTab : character ≠ '\t')
    (rest : List Char) : skipSpace (character :: rest) = character :: rest := by
  rw [skipSpace, List.dropWhile_cons, if_neg]
  simp [notSpace, notTab]

@[simp] theorem skipSpace_space (rest : List Char) : skipSpace (' ' :: rest) = skipSpace rest := rfl

end Toml
