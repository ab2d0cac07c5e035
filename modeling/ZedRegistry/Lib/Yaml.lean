import ZedRegistry.Lib.JsonText

/-!
# YAML

Block mappings and sequences, double-quoted scalars with their line folding, and the
plain booleans and integers, for YAML 1.1 and 1.2.  The reader refuses what is outside
this part of the format: comments, anchors, tags, other plain scalars, nonempty flow
collections and escaped line breaks.
-/

set_option autoImplicit false

namespace Yaml

open JsonText

/-! ## Characters -/

inductive Version where
  | v11
  | v12
  deriving DecidableEq

/-- `c-printable`, which is the same in both versions. -/
def printable (character : Char) : Bool :=
  let code := character.toNat
  code == 0x09 || code == 0x0a || code == 0x0d || (0x20 ≤ code && code ≤ 0x7e) || code == 0x85 ||
    (0xa0 ≤ code && code ≤ 0xd7ff) || (0xe000 ≤ code && code ≤ 0xfffd) || 0x10000 ≤ code

/-- Breaks that folding keeps as they are: the line and paragraph separators of 1.1. -/
def isSpecific : Version → Char → Bool
  | .v11, character => character.toNat == 0x2028 || character.toNat == 0x2029
  | .v12, _ => false

def isBreak (version : Version) (character : Char) : Bool :=
  character == '\n' || character == '\r' || isSpecific version character ||
    (version == .v11 && character.toNat == 0x85)

def white (character : Char) : Bool := character == ' ' || character == '\t'

/-! ## Double-quoted scalars -/

def shortEscape : Char → Option Char
  | '0' => some '\x00'
  | 'a' => some '\x07'
  | 'b' => some '\x08'
  | 't' | '\t' => some '\t'
  | 'n' => some '\n'
  | 'v' => some '\x0b'
  | 'f' => some '\x0c'
  | 'r' => some '\r'
  | 'e' => some '\x1b'
  | ' ' => some ' '
  | '"' => some '"'
  | '/' => some '/'
  | '\\' => some '\\'
  | 'N' => some '\u0085'
  | '_' => some '\u00a0'
  | 'L' => some '\u2028'
  | 'P' => some '\u2029'
  | _ => none

def longEscape : Char → Option Nat
  | 'x' => some 2
  | 'u' => some 4
  | 'U' => some 8
  | _ => none

def doubleQuoted : QuotedStyle where
  short := shortEscape
  long := longEscape
  raw character := 0x20 ≤ character.toNat || character == '\t' || character == '\n' ||
    character == '\r'

theorem doubleQuoted_readsJson : ReadsJson doubleQuoted where
  short := by decide
  notShort := rfl
  long := rfl

def rawBreak (version : Version) : Atom → Bool
  | .raw character => isBreak version character
  | .escaped _ => false

def rawWhite : Atom → Bool
  | .raw character => white character
  | .escaped _ => false

def rawSpace : Atom → Bool
  | .raw character => character == ' '
  | .escaped _ => false

/-- The first line, and every later one with the break before it. -/
def breakLines (version : Version) : List Atom → List Atom × List (Char × List Atom)
  | [] => ([], [])
  | .raw '\r' :: .raw '\n' :: rest =>
    let (line, lines) := breakLines version rest
    ([], ('\n', line) :: lines)
  | atom :: rest =>
    let (line, lines) := breakLines version rest
    if rawBreak version atom then ([], (atom.character, line) :: lines) else (atom :: line, lines)

def trimEnd (line : List Atom) : List Atom := (line.reverse.dropWhile rawWhite).reverse

/-- A break as content: the two of 1.1 that folding keeps, and a line feed for the rest. -/
def normalized (version : Version) (break_ : Char) : Char :=
  if isSpecific version break_ then break_ else '\n'

/-- The breaks between two lines of text: a single one is a space, and the first of
several is dropped. -/
def foldBreaks (version : Version) : List Char → List Char
  | [] => []
  | [break_] => if isSpecific version break_ then [break_] else [' ']
  | break_ :: others =>
    (if isSpecific version break_ then [break_] else []) ++ others.map (normalized version)

/-- The content of a line that is indented by `indent` spaces at least. -/
def continued (indent : Nat) (line : List Atom) : Option (List Atom) :=
  if indent ≤ (line.takeWhile rawSpace).length then some (line.dropWhile rawWhite) else none

/-- A line of spaces, or of any white space after the indentation. -/
def emptyLine (indent : Nat) (line : List Atom) : Bool :=
  line.all rawSpace || (line.all rawWhite && indent ≤ (line.takeWhile rawSpace).length)

/-- The lines after the first: `breaks` are those read since the last line of text. -/
def foldLines (version : Version) (indent : Nat) :
    List Char → List Atom → List (Char × List Atom) → Option (List Char)
  | breaks, line, [] => do
    let content ← continued indent line
    pure (foldBreaks version breaks ++ content.map Atom.character)
  | breaks, line, (break_, next) :: lines =>
    if emptyLine indent line then foldLines version indent (breaks ++ [break_]) next lines
    else do
      let content ← continued indent line
      let others ← foldLines version indent [break_] next lines
      pure (foldBreaks version breaks ++ ((trimEnd content).map Atom.character ++ others))

def fold (version : Version) (indent : Nat) (atoms : List Atom) : Option (List Char) :=
  match breakLines version atoms with
  | (line, []) => some (line.map Atom.character)
  | (line, (break_, next) :: lines) => do
    let others ← foldLines version indent [break_] next lines
    pure ((trimEnd line).map Atom.character ++ others)

/-! ## What folding loses -/

/-- The characters of the lines after the first, their breaks included. -/
def linesLength (lines : List (Char × List Atom)) : Nat :=
  (lines.map fun line => line.2.length + 1).sum

theorem breakLines_of_single {version : Version} {atoms : List Atom}
    (single : atoms.any (rawBreak version) = false) : breakLines version atoms = (atoms, []) := by
  induction atoms with
  | nil => rfl
  | cons atom atoms inductionHypothesis =>
      rw [List.any_cons, Bool.or_eq_false_iff] at single
      have later := inductionHypothesis single.2
      unfold breakLines
      split
      · contradiction
      · rename_i same
        obtain ⟨rfl, _⟩ := List.cons.inj same
        exact absurd single.1 (by cases version <;> decide)
      · rename_i same
        obtain ⟨rfl, rfl⟩ := List.cons.inj same
        rw [later]
        simp [single.1]

theorem breakLines_length (version : Version) (atoms : List Atom) :
    (breakLines version atoms).1.length + linesLength (breakLines version atoms).2 ≤
      atoms.length := by
  fun_induction breakLines version atoms with
  | case1 => exact le_rfl
  | case2 rest line lines read inductionHypothesis =>
      simp only [read, linesLength, List.map_cons, List.sum_cons, List.length_cons,
        List.length_nil] at inductionHypothesis ⊢
      omega
  | case3 atom rest special line lines read broken inductionHypothesis =>
      simp only [read, linesLength, List.map_cons, List.sum_cons, List.length_cons,
        List.length_nil] at inductionHypothesis ⊢
      omega
  | case4 atom rest special line lines read broken inductionHypothesis =>
      simp only [read, List.length_cons] at inductionHypothesis ⊢
      omega

theorem breakLines_of_broken {version : Version} {atoms : List Atom}
    (broken : atoms.any (rawBreak version) = true) : (breakLines version atoms).2 ≠ [] := by
  fun_induction breakLines version atoms with
  | case1 => contradiction
  | case2 rest line lines read inductionHypothesis => exact List.cons_ne_nil _ _
  | case3 atom rest special line lines read here inductionHypothesis => exact List.cons_ne_nil _ _
  | case4 atom rest special line lines read here inductionHypothesis =>
      rw [List.any_cons, Bool.or_eq_true, or_iff_right here] at broken
      have later := inductionHypothesis broken
      rw [read] at later
      exact later

theorem foldBreaks_length (version : Version) (breaks : List Char) :
    (foldBreaks version breaks).length ≤ breaks.length := by
  unfold foldBreaks
  split
  · exact le_rfl
  · split <;> simp
  · split <;> simp

theorem trimEnd_length (line : List Atom) : (trimEnd line).length ≤ line.length := by
  have shorter := (@List.dropWhile_sublist _ line.reverse rawWhite).length_le
  simpa only [trimEnd, List.length_reverse] using shorter

theorem dropWhile_white_length (line : List Atom) :
    (line.dropWhile rawWhite).length + (line.takeWhile rawSpace).length ≤ line.length := by
  induction line with
  | nil => exact le_rfl
  | cons atom line inductionHypothesis =>
      rw [List.dropWhile_cons, List.takeWhile_cons]
      cases space : rawSpace atom with
      | false =>
          have shorter := (@List.dropWhile_sublist _ line rawWhite).length_le
          simp only [Bool.false_eq_true, if_false, List.length_nil]
          split
          · simp only [List.length_cons]
            omega
          · exact le_rfl
      | true =>
          have blank : rawWhite atom = true := by
            cases atom with
            | raw character => simp_all [rawSpace, rawWhite, white]
            | escaped character => contradiction
          simp only [blank, if_true, List.length_cons]
          omega

theorem continued_length {indent : Nat} {line content : List Atom}
    (found : continued indent line = some content) : content.length + indent ≤ line.length := by
  unfold continued at found
  split at found
  · obtain rfl := Option.some.inj found
    have shorter := dropWhile_white_length line
    omega
  · contradiction

/-- No break adds to the text, and the last line loses its indentation. -/
theorem foldLines_length {version : Version} {indent : Nat} {breaks : List Char}
    {line : List Atom} {lines : List (Char × List Atom)} {text : List Char}
    (folded : foldLines version indent breaks line lines = some text) :
    text.length + indent ≤ breaks.length + line.length + linesLength lines := by
  induction lines generalizing breaks line text with
  | nil =>
      have fewer := foldBreaks_length version breaks
      simp only [foldLines, Option.bind_eq_bind, Option.bind_eq_some_iff, Option.pure_def,
        Option.some.injEq] at folded
      obtain ⟨content, found, rfl⟩ := folded
      have shorter := continued_length found
      simp only [List.length_append, List.length_map]
      omega
  | cons next lines inductionHypothesis =>
      obtain ⟨break_, next⟩ := next
      have fewer := foldBreaks_length version breaks
      simp only [linesLength, List.map_cons, List.sum_cons] at inductionHypothesis ⊢
      rw [foldLines] at folded
      split at folded
      · have shorter := inductionHypothesis folded
        simp only [List.length_append, List.length_singleton] at shorter
        omega
      · simp only [Option.bind_eq_bind, Option.bind_eq_some_iff, Option.pure_def,
          Option.some.injEq] at folded
        obtain ⟨content, found, others, later, rfl⟩ := folded
        have shorter := continued_length found
        have trimmed := trimEnd_length content
        have rest := inductionHypothesis later
        simp only [List.length_append, List.length_map, List.length_singleton] at rest ⊢
        omega

theorem fold_of_single {version : Version} {indent : Nat} {atoms : List Atom}
    (single : atoms.any (rawBreak version) = false) :
    fold version indent atoms = some (atoms.map Atom.character) := by
  rw [fold, breakLines_of_single single]

theorem fold_length {version : Version} {indent : Nat} {atoms : List Atom} {text : List Char}
    (broken : atoms.any (rawBreak version) = true)
    (folded : fold version indent atoms = some text) : text.length + indent ≤ atoms.length := by
  have total := breakLines_length version atoms
  have several := breakLines_of_broken broken
  unfold fold at folded
  split at folded
  · rename_i same
    rw [same] at several
    contradiction
  · rename_i line break_ next lines same
    rw [same] at total
    simp only [linesLength, List.map_cons, List.sum_cons] at total
    simp only [Option.bind_eq_bind, Option.bind_eq_some_iff, Option.pure_def,
      Option.some.injEq] at folded
    obtain ⟨others, later, rfl⟩ := folded
    have shorter := foldLines_length later
    have trimmed := trimEnd_length line
    simp only [linesLength, List.length_singleton, List.length_append, List.length_map]
      at shorter ⊢
    omega

/-- An indented scalar keeps its text exactly when it stands on one line. -/
theorem fold_eq_some_iff {version : Version} {indent : Nat} (positive : 0 < indent)
    (atoms : List Atom) :
    fold version indent atoms = some (atoms.map Atom.character) ↔
      atoms.any (rawBreak version) = false := by
  constructor
  · intro folded
    cases broken : atoms.any (rawBreak version) with
    | false => rfl
    | true =>
        have shorter := fold_length broken folded
        simp only [List.length_map] at shorter
        omega
  · intro single
    exact fold_of_single single

/-! ## Nodes -/

def plain (token : List Char) : Option JsonValue :=
  if token = "true".toList then some (.bool true)
  else if token = "false".toList then some (.bool false)
  else if token = "\x7b\x7d".toList then some (.object [])
  else if token = "[]".toList then some (.array [])
  else (readInteger token).map .number

def lineEnd : List Char → Option (List Char)
  | '\n' :: rest => some rest
  | _ => none

/-- A scalar or an empty collection, and the end of its line. -/
def readFlow (version : Version) (indent : Nat) (text : List Char) :
    Option (JsonValue × List Char) :=
  if text.head? = some '"' then do
    let (atoms, rest) ← readQuoted doubleQuoted text
    let content ← fold version indent atoms
    let rest ← lineEnd rest
    pure (.string (String.ofList content), rest)
  else do
    let value ← plain (text.takeWhile (· != '\n'))
    let rest ← lineEnd (text.dropWhile (· != '\n'))
    pure (value, rest)

def maxKeyLength : Nat := 1024

/-- An implicit key: on one line, and not too long to look ahead for its colon. -/
def readKey (version : Version) (text : List Char) : Option (String × List Char) := do
  let (atoms, rest) ← readQuoted doubleQuoted text
  if atoms.any (rawBreak version) || maxKeyLength < text.length - rest.length then none
  else
    match rest with
    | ':' :: rest => some (String.ofList (atoms.map Atom.character), rest)
    | _ => none

def indentation (text : List Char) : Nat := (text.takeWhile (· == ' ')).length

/-- What follows the indentation of a further entry of the collection at `column`. -/
def nextEntry (column : Nat) (text : List Char) : Option (List Char) :=
  if text ≠ [] ∧ indentation text = column then some (text.drop column) else none

mutual

/-- The entries of a mapping, from the key of the first one. -/
def readMembers (version : Version) :
    Nat → Nat → List Char → Option (List (String × JsonValue) × List Char)
  | 0, _, _ => none
  | fuel + 1, column, text => do
    let (key, rest) ← readKey version text
    let (value, rest) ← readValue version fuel column rest
    match nextEntry column rest with
    | none => pure ([(key, value)], rest)
    | some entry => do
      let (others, rest) ← readMembers version fuel column entry
      if (others.map Prod.fst).contains key then none else pure ((key, value) :: others, rest)

/-- The entries of a sequence, from the dash of the first one. -/
def readItems (version : Version) :
    Nat → Nat → List Char → Option (List JsonValue × List Char)
  | 0, _, _ => none
  | fuel + 1, column, '-' :: ' ' :: rest => do
    let (item, rest) ← readItem version fuel column rest
    match nextEntry column rest with
    | none => pure ([item], rest)
    | some entry => do
      let (others, rest) ← readItems version fuel column entry
      pure (item :: others, rest)
  | _ + 1, _, _ => none

/-- A mapping whose first key stands on the line of the dash, or a flow node. -/
def readItem (version : Version) : Nat → Nat → List Char → Option (JsonValue × List Char)
  | 0, _, _ => none
  | fuel + 1, column, text =>
    if (readKey version text).isSome then do
      let (members, rest) ← readMembers version fuel (column + 2) text
      pure (.object members, rest)
    else readFlow version (column + 1) text

/-- What a key of the mapping at `column` has after its colon. -/
def readValue (version : Version) : Nat → Nat → List Char → Option (JsonValue × List Char)
  | 0, _, _ => none
  | _ + 1, column, ' ' :: rest => readFlow version (column + 1) rest
  | fuel + 1, column, '\n' :: rest =>
    if column < indentation rest then
      let entry := rest.drop (indentation rest)
      if entry.head? = some '-' then do
        let (items, rest) ← readItems version fuel (indentation rest) entry
        pure (.array items, rest)
      else do
        let (members, rest) ← readMembers version fuel (indentation rest) entry
        pure (.object members, rest)
    else none
  | _ + 1, _, _ => none

end

/-- A stream of one document, whose root is a block mapping at its left margin. -/
def parse (version : Version) (text : List Char) : Option JsonValue :=
  match readMembers version text.length 0 text with
  | some (members, []) => some (.object members)
  | _ => none

/-! ## Indentation -/

@[simp] theorem indentation_nil : indentation [] = 0 := rfl

theorem indentation_replicate (column : Nat) {text : List Char}
    (starts : text.head? ≠ some ' ') :
    indentation (List.replicate column ' ' ++ text) = column := by
  induction column with
  | zero =>
      cases text with
      | nil => rfl
      | cons character text =>
          have other : (character == ' ') = false := by simpa using starts
          simp [indentation, other]
  | succ column inductionHypothesis =>
      rw [List.replicate_succ, List.cons_append]
      simp only [indentation, List.takeWhile_cons, beq_self_eq_true, if_true, List.length_cons]
        at inductionHypothesis ⊢
      omega

/-- The text after a collection at `column` or deeper: it ends, or goes back. -/
def Closed (column : Nat) (text : List Char) : Prop := text = [] ∨ indentation text < column

theorem nextEntry_of_closed {column : Nat} {text : List Char} (closed : Closed column text) :
    nextEntry column text = none := by
  obtain rfl | less := closed
  · rfl
  · rw [nextEntry, if_neg]
    omega

theorem nextEntry_replicate (column : Nat) {text : List Char} (nonempty : text ≠ [])
    (starts : text.head? ≠ some ' ') :
    nextEntry column (List.replicate column ' ' ++ text) = some text := by
  rw [nextEntry, if_pos ⟨by simp [nonempty], indentation_replicate column starts⟩,
    List.drop_left' (List.length_replicate ..)]

theorem closed_replicate {column deeper : Nat} (less : column < deeper) {text : List Char}
    (starts : text.head? ≠ some ' ') : Closed deeper (List.replicate column ' ' ++ text) := by
  right
  rw [indentation_replicate column starts]
  exact less

theorem closed_mono {column deeper : Nat} {text : List Char} (closed : Closed column text)
    (less : column ≤ deeper) : Closed deeper text := by
  obtain empty | shallow := closed
  · exact .inl empty
  · exact .inr (by omega)

/-! ## String literals -/

@[simp] theorem doubleQuoted_allows (character : Char) : doubleQuoted.allows character = true := by
  unfold QuotedStyle.allows escaped doubleQuoted
  by_cases control : character.toNat < 0x20
  · simp [control]
  · simp [Nat.not_lt.mp control]

theorem readQuoted_quote (text : String) (rest : List Char) :
    readQuoted doubleQuoted (quote text ++ rest) = some (text.toList.map atom, rest) := by
  rw [JsonText.readQuoted_quote doubleQuoted_readsJson, if_pos]
  simp only [doubleQuoted_allows, List.all_eq_true, implies_true]

/-- The literal of the text stands on one line. -/
def single (version : Version) (text : String) : Bool :=
  !(text.toList.map atom).any (rawBreak version)

theorem readKey_quote {version : Version} {key : String}
    (short : (quote key).length ≤ maxKeyLength) (rest : List Char) :
    readKey version (quote key ++ ':' :: rest) =
      if single version key then some (key, rest) else none := by
  have length : (quote key ++ ':' :: rest).length - (':' :: rest).length = (quote key).length := by
    simp only [List.length_append]
    omega
  rw [readKey, readQuoted_quote]
  simp only [Option.bind_eq_bind, Option.bind_some, length, decide_eq_false (Nat.not_lt.mpr short),
    Bool.or_false, map_atom_character, String.ofList_toList, single]
  by_cases broken : (key.toList.map atom).any (rawBreak version) = true
  · simp [broken]
  · simp [Bool.not_eq_true _ ▸ broken]

/-- A scalar is no key, whatever it is followed by. -/
theorem readKey_quote_line (version : Version) (text : String) (rest : List Char) :
    readKey version (quote text ++ '\n' :: rest) = none := by
  rw [readKey, readQuoted_quote]
  exact ite_self none

theorem readKey_unquoted (version : Version) {text : List Char}
    (unquoted : text.head? ≠ some '"') : readKey version text = none := by
  have none_read : readQuoted doubleQuoted text = none := by
    cases text with
    | nil => rfl
    | cons character text =>
        unfold readQuoted
        split
        · rename_i same
          rw [(List.cons.inj same).1] at unquoted
          contradiction
        · rfl
  rw [readKey, none_read]
  rfl

theorem readFlow_quote (version : Version) (indent : Nat) (text : String) (rest : List Char) :
    readFlow version indent (quote text ++ '\n' :: rest) =
      (fold version indent (text.toList.map atom)).map fun content =>
        (.string (String.ofList content), rest) := by
  have starts : (quote text ++ '\n' :: rest).head? = some '"' := rfl
  rw [readFlow, if_pos starts, readQuoted_quote]
  simp only [Option.bind_eq_bind, Option.bind_some, lineEnd, Option.map_eq_bind]
  rfl

theorem readFlow_quote_key (version : Version) (indent : Nat) (key : String) (rest : List Char) :
    readFlow version indent (quote key ++ ':' :: rest) = none := by
  have starts : (quote key ++ ':' :: rest).head? = some '"' := rfl
  rw [readFlow, if_pos starts, readQuoted_quote]
  exact Option.bind_fun_none _

theorem readFlow_plain (version : Version) (indent : Nat) {token : List Char} {value : JsonValue}
    (known : plain token = some value) (unquoted : token.head? ≠ some '"')
    (line : '\n' ∉ token) (rest : List Char) :
    readFlow version indent (token ++ '\n' :: rest) = some (value, rest) := by
  have starts : (token ++ '\n' :: rest).head? ≠ some '"' := by
    cases token with
    | nil => simp
    | cons character token => simpa using unquoted
  have inside : ∀ character ∈ token, (character != '\n') = true := by
    intro character member
    rw [bne_iff_ne]
    intro same
    exact line (same ▸ member)
  rw [readFlow, if_neg starts, List.takeWhile_append_of_pos inside,
    List.dropWhile_append_of_pos inside]
  simp [known, lineEnd]

end Yaml
