import Mathlib.Data.Char
import Mathlib.Data.List.Infix
import ZedRegistry.Lib.Delimiters
import ZedRegistry.Lib.Lexing

/-!
# The tokens of a Mermaid flowchart

The part of Mermaid's flowchart lexer that plain nodes, their labels and plain links need,
after the comment lines are taken out.  The rules of a state are tried in their order and
the first one that matches wins.  What other statements are made of has no tokens here.
-/

set_option autoImplicit false

namespace Mermaid

open Delimiters Lexing

inductive Token where
  | keyword (word : List Char)
  | graph
  | orientation (word : List Char)
  | direction (word : List Char)
  | number (digits : List Char)
  | mark (text : List Char)
  | link (text : List Char)
  | node (text : List Char)
  | opening
  | closing
  | string (text : List Char)
  | markdown (text : List Char)
  | text (text : List Char)
  | newline
  | space
  deriving DecidableEq

/-- The states that have rules of their own. -/
inductive Mode where
  | orientation
  | text
  | string
  | markdown
  deriving DecidableEq

/-- Whether the graph was announced, and the states entered and not left yet. -/
structure Place where
  started : Bool
  modes : List Mode
  deriving DecidableEq

def Place.enter (place : Place) (mode : Mode) : Place :=
  { place with modes := mode :: place.modes }

def Place.leave (place : Place) : Place := { place with modes := place.modes.tail }

abbrev Step := List Token × Place × List Char

/-! ## Characters -/

/-- `\s` of a regular expression. -/
def jsSpace (character : Char) : Bool :=
  (9 ≤ character.toNat && character.toNat ≤ 13) ||
    (0x2000 ≤ character.toNat && character.toNat ≤ 0x200a) ||
    [0x20, 0xa0, 0x1680, 0x2028, 0x2029, 0x202f, 0x205f, 0x3000, 0xfeff].contains character.toNat

/-- What `.` of a regular expression does not match. -/
def lineEnd (character : Char) : Bool :=
  [0x0a, 0x0d, 0x2028, 0x2029].contains character.toNat

def wordChar (character : Char) : Bool := character.isAlphanum || character = '_'

def inLine (character : Char) : Bool := character ≠ '\n'

def inString (character : Char) : Bool := character ≠ '"'

def dash (character : Char) : Bool := character = '-'

def graphWords : List (List Char) := ["graph", "flowchart"].map String.toList

def keywords : List (List Char) :=
  ["style", "default", "linkStyle", "interpolate", "classDef", "class", "href", "click",
    "subgraph", "end", "_self", "_blank", "_parent", "_top", "v"].map String.toList

def orientations : List (List Char) :=
  ["LR", "RL", "TB", "BT", "TD", "BR", "v"].map String.toList

def nodeMarks : List Char :=
  ['!', '"', '#', '$', '%', '&', '\'', '*', '+', '.', '\x60', '?', '\\', '_', '/']

/-- A dash or an equals sign belongs to a node where it cannot begin a link. -/
def nodeChar (character : Char) (rest : List Char) : Bool :=
  character.isAlphanum || nodeMarks.contains character ||
    (character = '-' && rest.head?.any fun next => !(['>', '-', '.'].contains next)) ||
    (character = '=' && rest.head? ≠ some '=')

def nodeRun : List Char → List Char × List Char
  | [] => ([], [])
  | character :: rest =>
    if nodeChar character rest then (character :: (nodeRun rest).1, (nodeRun rest).2)
    else ([], character :: rest)

/-! ## Directions -/

section Directions

variable (space : Char → Bool) (word : List Char)

def spoken : List Char := ['d', 'i', 'r', 'e', 'c', 't', 'i', 'o', 'n']

/-- `direction\s+` and the word, at the front of a text. -/
def directionHere (text : List Char) : Option (List Char) :=
  (text.dropPrefix? spoken).bind fun rest =>
    if rest.head?.any space then (rest.dropWhile space).dropPrefix? word else none

def saysDirection : List Char → Bool
  | [] => false
  | character :: rest => (directionHere space word (character :: rest)).isSome || saysDirection rest

/-- What `.*direction\s+`, the word and the rest of the line leave of a text. -/
def directionRest : List Char → Option (List Char)
  | [] => none
  | character :: rest =>
    (if lineEnd character then none else directionRest rest) <|>
      (directionHere jsSpace word (character :: rest)).map (List.dropWhile inLine)

end Directions

/-! ## Rules -/

section Rules

variable (place : Place)

local instance lawfulBEqWord : LawfulBEq (List Char) := inferInstance

/-- The rules of every state. -/
def opens : List Char → Option Step
  | '"' :: '\x60' :: rest => some ([], place.enter .markdown, rest)
  | '"' :: rest => some ([], place.enter .string, rest)
  | _ => none

def keyword (text : List Char) : Option Step :=
  if text.takeWhile wordChar ∈ graphWords then
    some ([.graph], if place.started then place else ⟨true, .orientation :: place.modes⟩,
      text.dropWhile wordChar)
  else if text.takeWhile wordChar ∈ keywords then
    some ([.keyword (text.takeWhile wordChar)], place, text.dropWhile wordChar)
  else none

def direction (words : List (List Char)) (text : List Char) : Option Step :=
  words.findSome? fun word =>
    (directionRest word text).map fun rest => ([.direction word], place, rest)

def number : List Char → Option Step
  | [] => none
  | character :: rest =>
    if character.isDigit then
      some ([.number (character :: rest.takeWhile Char.isDigit)], place, rest.dropWhile Char.isDigit)
    else none

def mark : List Char → Option Step
  | ':' :: ':' :: ':' :: rest => some ([.mark [':', ':', ':']], place, rest)
  | character :: rest =>
    if character ∈ ['#', ':', '&', ';', ',', '*'] then some ([.mark [character]], place, rest)
    else none
  | [] => none

def linkHead (text : List Char) : List Char := (text.takeWhile (['x', 'o', '<'].contains ·)).take 1

/-- `--+[-xo>]\s*` -/
def linkBody (head text : List Char) : Option Step :=
  if 2 ≤ (text.takeWhile dash).length ∧
      (text.dropWhile dash).head?.any (['x', 'o', '>'].contains ·) = true then
    some ([.link (head ++ text.takeWhile dash ++ (text.dropWhile dash).take 1)], place,
      ((text.dropWhile dash).drop 1).dropWhile jsSpace)
  else if 3 ≤ (text.takeWhile dash).length then
    some ([.link (head ++ text.takeWhile dash)], place, (text.dropWhile dash).dropWhile jsSpace)
  else none

/-- `\s*[xo<]?` and the rest of a link. -/
def link (text : List Char) : Option Step :=
  linkBody place (linkHead (text.dropWhile jsSpace))
    ((text.dropWhile jsSpace).drop (linkHead (text.dropWhile jsSpace)).length)

def node (text : List Char) : Option Step :=
  if (nodeRun text).1 = [] then none
  else some ([.node (nodeRun text).1], place, (nodeRun text).2)

/-- A bracket that does not open one of the other shapes. -/
def bracket : List Char → Option Step
  | '[' :: rest =>
    if rest.head?.any (['[', '(', '|', '/', '\\'].contains ·) then none
    else some ([.opening], place.enter .text, rest)
  | _ => none

def newline : List Char → Option Step
  | '\n' :: rest => some ([.newline], place, rest.dropWhile (· = '\n'))
  | _ => none

def space : List Char → Option Step
  | [] => none
  | character :: rest => if jsSpace character then some ([.space], place, rest) else none

def inInitial (words : List (List Char)) (text : List Char) : Option Step :=
  opens place text <|> keyword place text <|> direction place words text <|> number place text <|>
    mark place text <|> link place text <|> node place text <|> bracket place text <|>
    newline place text <|> space place text

def inOrientation (text : List Char) : Option Step :=
  if (text.dropWhile jsSpace).takeWhile wordChar ∈ orientations then
    some ([.orientation ((text.dropWhile jsSpace).takeWhile wordChar)], place.leave,
      (text.dropWhile jsSpace).dropWhile wordChar)
  else none

def plainText (character : Char) : Bool :=
  !(['[', ']', '(', ')', '\x7b', '\x7d', '|', '"'].contains character)

def inBrackets : List Char → Option Step
  | '"' :: rest => opens place ('"' :: rest)
  | ']' :: rest => some ([.closing], place.leave, rest)
  | character :: rest =>
    if plainText character then
      some ([.text (character :: rest.takeWhile plainText)], place, rest.dropWhile plainText)
    else none
  | [] => none

def inQuotes : List Char → Option Step
  | '"' :: '\x60' :: rest => some ([], place.enter .markdown, rest)
  | '"' :: rest => some ([], place.leave, rest)
  | character :: rest =>
    some ([.string (character :: rest.takeWhile inString)], place, rest.dropWhile inString)
  | [] => none

def inMarkdown : List Char → Option Step
  | '\x60' :: '"' :: rest => some ([], place.leave, rest)
  | '"' :: rest => opens place ('"' :: rest)
  | '\x60' :: _ => none
  | character :: rest =>
    let kept := fun other => other ≠ '\x60' && other ≠ '"'
    some ([.markdown (character :: rest.takeWhile kept)], place, rest.dropWhile kept)
  | [] => none

def next (words : List (List Char)) (text : List Char) : Option Step :=
  match place.modes with
  | [] => inInitial place words text
  | .orientation :: _ => inOrientation place text
  | .text :: _ => inBrackets place text
  | .string :: _ => inQuotes place text
  | .markdown :: _ => inMarkdown place text

end Rules

/-! ## Every rule takes something -/

theorem dropWhile_length (keep : Char → Bool) (text : List Char) :
    (text.dropWhile keep).length ≤ text.length := (List.dropWhile_suffix keep).length_le

theorem takeWhile_length (keep : Char → Bool) (text : List Char) :
    (text.takeWhile keep).length + (text.dropWhile keep).length = text.length := by
  rw [← List.length_append, List.takeWhile_append_dropWhile]

theorem dropWhile_length_lt {keep : Char → Bool} {text : List Char} {words : List (List Char)}
    (isWord : text.takeWhile keep ∈ words) (empty : [] ∉ words) :
    (text.dropWhile keep).length < text.length := by
  have cut := takeWhile_length keep text
  have taken : (text.takeWhile keep).length ≠ 0 := by
    intro none
    exact empty (List.length_eq_zero_iff.mp none ▸ isWord)
  omega

theorem dropPrefix_length {text word rest : List Char} (found : text.dropPrefix? word = some rest) :
    rest.length + word.length = text.length := by
  obtain ⟨front, whole, same⟩ := List.dropPrefix?_eq_some_iff.mp found
  rw [whole, List.length_append, eq_of_beq same]
  omega

section Shrinks

variable {place after : Place} {text rest : List Char} {read : List Token}

theorem directionHere_length {space : Char → Bool} {word : List Char}
    (found : directionHere space word text = some rest) : rest.length < text.length := by
  obtain ⟨start, marked, found⟩ := Option.bind_eq_some_iff.mp found
  have taken : start.length + 9 = text.length := dropPrefix_length marked
  split at found
  · have left := dropPrefix_length found
    have blanks := dropWhile_length space start
    omega
  · cases found

theorem directionRest_length {word : List Char} (found : directionRest word text = some rest) :
    rest.length < text.length := by
  induction text generalizing rest with
  | nil => cases found
  | cons character text inductionHypothesis =>
      simp only [directionRest, Option.orElse_eq_orElse, Option.orElse_eq_or,
        Option.or_eq_some_iff] at found
      rcases found with later | ⟨_, here⟩
      · split at later
        · cases later
        · exact Nat.lt_succ_of_lt (inductionHypothesis later)
      · obtain ⟨start, marked, rfl⟩ := Option.map_eq_some_iff.mp here
        exact (dropWhile_length inLine start).trans_lt (directionHere_length marked)

theorem opens_length (found : opens place text = some (read, after, rest)) :
    rest.length < text.length := by
  unfold opens at found
  split at found
  · cases found
    simp only [List.length_cons]
    omega
  · cases found
    exact Nat.lt_succ_self _
  · cases found

theorem keyword_length (found : keyword place text = some (read, after, rest)) :
    rest.length < text.length := by
  unfold keyword at found
  split at found
  · rename_i isGraph
    cases found
    exact dropWhile_length_lt isGraph (by decide)
  split at found
  · rename_i isKeyword
    cases found
    exact dropWhile_length_lt isKeyword (by decide)
  · cases found

theorem direction_length {words : List (List Char)}
    (found : direction place words text = some (read, after, rest)) :
    rest.length < text.length := by
  obtain ⟨word, _, found⟩ := List.exists_of_findSome?_eq_some found
  obtain ⟨left, marked, same⟩ := Option.map_eq_some_iff.mp found
  cases same
  exact directionRest_length marked

theorem number_length (found : number place text = some (read, after, rest)) :
    rest.length < text.length := by
  cases text with
  | nil => cases found
  | cons character text =>
      rw [number] at found
      split at found
      · cases found
        exact Nat.lt_succ_of_le (dropWhile_length Char.isDigit text)
      · cases found

theorem mark_length (found : mark place text = some (read, after, rest)) :
    rest.length < text.length := by
  unfold mark at found
  split at found
  · cases found
    simp only [List.length_cons]
    omega
  · split at found
    · cases found
      exact Nat.lt_succ_self _
    · cases found
  · cases found

theorem linkBody_length {head : List Char}
    (found : linkBody place head text = some (read, after, rest)) : rest.length < text.length := by
  have cut := takeWhile_length dash text
  unfold linkBody at found
  split at found
  · cases found
    have blanks := dropWhile_length jsSpace ((text.dropWhile dash).drop 1)
    rw [List.length_drop] at blanks
    omega
  split at found
  · cases found
    have blanks := dropWhile_length jsSpace (text.dropWhile dash)
    omega
  · cases found

theorem link_length (found : link place text = some (read, after, rest)) :
    rest.length < text.length := by
  have start := dropWhile_length jsSpace text
  have body := linkBody_length found
  rw [List.length_drop] at body
  omega

theorem nodeRun_length (text : List Char) :
    (nodeRun text).1.length + (nodeRun text).2.length = text.length := by
  induction text with
  | nil => rfl
  | cons character text inductionHypothesis =>
      rw [nodeRun]
      split
      · simp only [List.length_cons]
        omega
      · simp

theorem node_length (found : node place text = some (read, after, rest)) :
    rest.length < text.length := by
  have cut := nodeRun_length text
  unfold node at found
  split at found
  · cases found
  · rename_i some
    have taken := List.length_pos_iff.mpr some
    cases found
    omega

theorem bracket_length (found : bracket place text = some (read, after, rest)) :
    rest.length < text.length := by
  unfold bracket at found
  split at found
  · split at found
    · cases found
    · cases found
      exact Nat.lt_succ_self _
  · cases found

theorem newline_length (found : newline place text = some (read, after, rest)) :
    rest.length < text.length := by
  unfold newline at found
  split at found
  · cases found
    exact Nat.lt_succ_of_le (dropWhile_length _ _)
  · cases found

theorem space_length (found : space place text = some (read, after, rest)) :
    rest.length < text.length := by
  cases text with
  | nil => cases found
  | cons character text =>
      rw [space] at found
      split at found
      · cases found
        exact Nat.lt_succ_self _
      · cases found

theorem inInitial_length {words : List (List Char)}
    (found : inInitial place words text = some (read, after, rest)) :
    rest.length < text.length := by
  simp only [inInitial, Option.orElse_eq_orElse, Option.orElse_eq_or, Option.or_eq_some_iff]
    at found
  rcases found with found | ⟨_, found | ⟨_, found | ⟨_, found | ⟨_, found | ⟨_, found |
    ⟨_, found | ⟨_, found | ⟨_, found | ⟨_, found⟩⟩⟩⟩⟩⟩⟩⟩⟩
  · exact opens_length found
  · exact keyword_length found
  · exact direction_length found
  · exact number_length found
  · exact mark_length found
  · exact link_length found
  · exact node_length found
  · exact bracket_length found
  · exact newline_length found
  · exact space_length found

theorem inOrientation_length (found : inOrientation place text = some (read, after, rest)) :
    rest.length < text.length := by
  unfold inOrientation at found
  split at found
  · rename_i oriented
    cases found
    exact (dropWhile_length_lt oriented (by decide)).trans_le (dropWhile_length jsSpace text)
  · cases found

theorem inBrackets_length (found : inBrackets place text = some (read, after, rest)) :
    rest.length < text.length := by
  unfold inBrackets at found
  split at found
  · exact opens_length found
  · cases found
    exact Nat.lt_succ_self _
  · split at found
    · cases found
      exact Nat.lt_succ_of_le (dropWhile_length _ _)
    · cases found
  · cases found

theorem inQuotes_length (found : inQuotes place text = some (read, after, rest)) :
    rest.length < text.length := by
  unfold inQuotes at found
  split at found
  · cases found
    simp only [List.length_cons]
    omega
  · cases found
    exact Nat.lt_succ_self _
  · cases found
    exact Nat.lt_succ_of_le (dropWhile_length _ _)
  · cases found

theorem inMarkdown_length (found : inMarkdown place text = some (read, after, rest)) :
    rest.length < text.length := by
  unfold inMarkdown at found
  split at found
  · cases found
    simp only [List.length_cons]
    omega
  · exact opens_length found
  · cases found
  · cases found
    exact Nat.lt_succ_of_le (dropWhile_length _ _)
  · cases found

theorem next_length {words : List (List Char)}
    (found : next place words text = some (read, after, rest)) : rest.length < text.length := by
  unfold next at found
  split at found
  · exact inInitial_length found
  · exact inOrientation_length found
  · exact inBrackets_length found
  · exact inQuotes_length found
  · exact inMarkdown_length found

end Shrinks

/-! ## Flowcharts -/

def lexer (words : List (List Char)) : Lexer Place Token where
  next place text := next place words text
  accepts place := place.modes.isEmpty
  shrinks := next_length

def unifyLineEnds : List Char → List Char
  | [] => []
  | '\r' :: '\n' :: rest => '\n' :: unifyLineEnds rest
  | '\r' :: rest => '\n' :: unifyLineEnds rest
  | character :: rest => character :: unifyLineEnds rest

/-- The lines of a text with the ends they have. -/
def lines : List Char → List (List Char)
  | [] => []
  | character :: rest =>
    if character = '\n' then ['\n'] :: lines rest
    else match lines rest with
      | [] => [[character]]
      | line :: more => (character :: line) :: more

def isComment (line : List Char) : Bool :=
  match line.dropWhile jsSpace with
  | '%' :: '%' :: character :: _ => character ≠ '\x7b' && character ≠ '\n'
  | _ => false

/-- The comment lines that were taken out, and the tokens of the rest. -/
structure Flowchart where
  comments : List (List Char)
  tokens : List Token
  deriving DecidableEq

/-- Front matter and `%%` directives configure a diagram and are not read here. -/
def readLines (words : List (List Char)) (text : List Char) : Option Flowchart :=
  if ['-', '-', '-'] <+: text ∨ ['%', '%', '\x7b'] <:+: text then none
  else
    ((lexer words).tokens ⟨false, []⟩ ((lines text).filter fun line => !isComment line).flatten).map
      fun tokens => ⟨(lines text).filter isComment, tokens⟩

def read (words : List (List Char)) (text : List Char) : Option Flowchart :=
  readLines words (unifyLineEnds text)

/-- The words that the lexer knows after `direction`. -/
def directionWords : List (List Char) := ["TB", "BT", "RL", "LR"].map String.toList

/-! ## Where no direction is said -/

section Quiet

variable {space : Char → Bool} {word : List Char}

theorem directionHere_other {character : Char} (other : character ≠ 'd') (rest : List Char) :
    directionHere space word (character :: rest) = none := by
  have apart : (character == 'd') = false := beq_eq_false_iff_ne.mpr other
  simp [directionHere, spoken, List.dropPrefix?, apart]

theorem directionHere_second {second : Char} (other : second ≠ 'i') (first : Char)
    (rest : List Char) : directionHere space word (first :: second :: rest) = none := by
  have apart : (second == 'i') = false := beq_eq_false_iff_ne.mpr other
  simp [directionHere, spoken, List.dropPrefix?, apart]

theorem directionRest_lineEnd {character : Char} (ends : lineEnd character = true)
    (other : character ≠ 'd') (rest : List Char) : directionRest word (character :: rest) = none := by
  simp [directionRest, ends, directionHere_other other]

/-- Nothing is said in a front without the second letter of the word. -/
theorem directionRest_front {front rest : List Char} {stop : Char} (free : 'i' ∉ front)
    (inLine : ∀ character ∈ front, lineEnd character = false) (stopsLine : lineEnd stop = false)
    (notFirst : stop ≠ 'd') (notSecond : stop ≠ 'i') :
    directionRest word (front ++ stop :: rest) = directionRest word rest := by
  induction front with
  | nil => simp [directionRest, stopsLine, directionHere_other notFirst]
  | cons character front inductionHypothesis =>
      obtain ⟨_, freeRest⟩ := not_or.mp (mt List.mem_cons.mpr free)
      rw [List.forall_mem_cons] at inLine
      have here : directionHere jsSpace word (character :: (front ++ stop :: rest)) = none := by
        cases front with
        | nil => exact directionHere_second notSecond _ _
        | cons second front =>
            apply directionHere_second
            intro same
            exact freeRest (same ▸ List.mem_cons_self)
      simp [directionRest, inLine.1, here, inductionHypothesis freeRest inLine.2]

theorem directionRest_row {row : List Char} (free : 'i' ∉ row)
    (inLine : ∀ character ∈ row, lineEnd character = false) (rest : List Char) :
    directionRest word (row ++ '\n' :: rest) = none := by
  induction row with
  | nil => exact directionRest_lineEnd (by decide) (by decide) rest
  | cons character row inductionHypothesis =>
      obtain ⟨_, freeRest⟩ := not_or.mp (mt List.mem_cons.mpr free)
      rw [List.forall_mem_cons] at inLine
      have here : directionHere jsSpace word (character :: (row ++ '\n' :: rest)) = none := by
        cases row with
        | nil => exact directionHere_second (by decide) _ _
        | cons second row =>
            apply directionHere_second
            intro same
            exact freeRest (same ▸ List.mem_cons_self)
      simp [directionRest, inLine.1, here, inductionHypothesis freeRest inLine.2]

theorem direction_none {place : Place} {words : List (List Char)} {text : List Char}
    (quiet : ∀ word ∈ words, (directionRest word text).isSome = false) :
    direction place words text = none := by
  apply List.findSome?_eq_none_iff.mpr
  intro word isWord
  rw [Option.map_eq_none_iff]
  exact Option.isSome_eq_false_iff.mp (quiet word isWord) |> Option.isNone_iff_eq_none.mp

theorem direction_some {place : Place} {words : List (List Char)} {text word : List Char}
    (isWord : word ∈ words) (said : (directionRest word text).isSome = true) :
    ∃ other rest, direction place words text = some ([.direction other], place, rest) := by
  cases found : direction place words text with
  | none =>
      have quiet := List.findSome?_eq_none_iff.mp found word isWord
      rw [Option.map_eq_none_iff] at quiet
      rw [quiet] at said
      cases said
  | some step =>
      obtain ⟨other, _, marked⟩ := List.exists_of_findSome?_eq_some found
      obtain ⟨rest, _, same⟩ := Option.map_eq_some_iff.mp marked
      exact ⟨other, rest, congrArg some same.symm⟩

theorem dropPrefix_stop {stop : Char} {expected : List Char} (free : stop ∉ expected)
    (text rest : List Char) : (text ++ stop :: rest).dropPrefix? expected =
      (text.dropPrefix? expected).map (· ++ stop :: rest) := by
  induction expected generalizing text with
  | nil => simp
  | cons letter expected inductionHypothesis =>
      obtain ⟨other, freeRest⟩ := not_or.mp (mt List.mem_cons.mpr free)
      cases text with
      | nil => simp [List.dropPrefix?, other]
      | cons character text =>
          rw [List.cons_append, List.dropPrefix?, List.dropPrefix?]
          split
          · exact inductionHypothesis freeRest text
          · rfl

/-- A direction is said before a quote or not at all. -/
theorem directionHere_stop {stop : Char} (notWord : stop ∉ word) (notSpace : space stop = false)
    (notLetter : stop ∉ spoken) (text rest : List Char) :
    (directionHere space word (text ++ stop :: rest)).isSome =
      (directionHere space word text).isSome := by
  unfold directionHere
  rw [dropPrefix_stop notLetter]
  cases text.dropPrefix? spoken with
  | none => rfl
  | some after =>
      rw [Option.map_some, Option.bind_some, Option.bind_some]
      cases after with
      | nil => simp [notSpace]
      | cons character after =>
          rw [dropWhile_stop notSpace, dropPrefix_stop notWord, List.cons_append, List.head?_cons,
            List.head?_cons]
          by_cases blank : Option.any space (some character) = true
          · rw [if_pos blank, if_pos blank, Option.isSome_map]
          · rw [if_neg blank, if_neg blank]

theorem directionRest_label {label after : List Char} {stop : Char} (notWord : stop ∉ word)
    (notSpace : jsSpace stop = false) (notLetter : stop ∉ spoken)
    (inLine : ∀ character ∈ label, lineEnd character = false)
    (quiet : directionRest word (stop :: after) = none) :
    (directionRest word (label ++ stop :: after)).isSome = saysDirection jsSpace word label := by
  induction label with
  | nil => rw [List.nil_append, quiet, saysDirection, Option.isSome_none]
  | cons character label inductionHypothesis =>
      rw [List.forall_mem_cons] at inLine
      have here := @directionHere_stop jsSpace word stop notWord notSpace notLetter
        (character :: label) after
      rw [List.cons_append] at here
      rw [List.cons_append, directionRest, saysDirection, inLine.1, ← inductionHypothesis inLine.2,
        ← here]
      simp [Bool.or_comm]

end Quiet

/-! ## Reading piece by piece -/

section Reading

variable {words : List (List Char)} {rest : List Char}

def ready : Place := ⟨true, []⟩

theorem tokens_next {place after : Place} {text : List Char} {read : List Token}
    (found : next place words text = some (read, after, rest)) :
    (lexer words).tokens place text = ((lexer words).tokens after rest).map (read ++ ·) :=
  Lexer.tokens_next found

/-- Where one of the first four rules might match. -/
def early (character : Char) : Bool :=
  character = '"' || wordChar character || ['#', ':', '&', ';', ',', '*'].contains character

theorem inInitial_late {place : Place} {character : Char} (late : early character = false) :
    inInitial place words (character :: rest) =
      (direction place words (character :: rest) <|> link place (character :: rest) <|>
        node place (character :: rest) <|> bracket place (character :: rest) <|>
        newline place (character :: rest) <|> space place (character :: rest)) := by
  simp only [early, Bool.or_eq_false_iff, decide_eq_false_iff_not, List.contains_eq_mem] at late
  obtain ⟨⟨notQuote, notWord⟩, notMark⟩ := late
  have noOpening : opens place (character :: rest) = none := by
    unfold opens
    split <;> simp_all
  have noKeyword : keyword place (character :: rest) = none := by
    have noWord : (character :: rest).takeWhile wordChar = [] := by simp [notWord]
    rw [keyword, noWord]
    rfl
  have noNumber : number place (character :: rest) = none := by
    have notDigit : character.isDigit = false := by
      simp only [wordChar, Char.isAlphanum, Bool.or_eq_false_iff] at notWord
      exact notWord.1.2
    simp [number, notDigit]
  have noMark : mark place (character :: rest) = none := by
    unfold mark
    split
    · rename_i same
      cases same
      exact absurd (by simp) notMark
    · rename_i same
      cases same
      exact if_neg notMark
    · rfl
  simp [inInitial, noOpening, noKeyword, noNumber, noMark]

theorem nodeRun_front {name : List Char} {stop : Char} (named : ∀ letter ∈ name, letter.isAlphanum)
    (stops : nodeChar stop rest = false) : nodeRun (name ++ stop :: rest) = (name, stop :: rest) := by
  induction name with
  | nil => simp [nodeRun, stops]
  | cons letter name inductionHypothesis =>
      rw [List.forall_mem_cons] at named
      rw [List.cons_append, nodeRun, inductionHypothesis named.2, if_pos]
      simp [nodeChar, named.1]

theorem link_other {place : Place} {character : Char} (notSpace : jsSpace character = false)
    (notHead : character ∉ ['x', 'o', '<']) (notDash : dash character = false) :
    link place (character :: rest) = none := by
  have start : (character :: rest).dropWhile jsSpace = character :: rest :=
    List.dropWhile_cons_of_neg (by simp [notSpace])
  have head : linkHead (character :: rest) = [] := by simpa [linkHead] using notHead
  have none : (character :: rest).takeWhile dash = [] := List.takeWhile_cons_of_neg (by simp [notDash])
  rw [link, start, head, linkBody, List.length_nil, List.drop_zero, none]
  simp

theorem link_blank {place : Place} {character : Char} (blank : jsSpace character = true) :
    link place (character :: rest) = link place rest := by
  rw [link, link, List.dropWhile_cons_of_pos blank]

theorem node_none {place : Place} {character : Char} (other : nodeChar character rest = false) :
    node place (character :: rest) = none := by
  have none : (nodeRun (character :: rest)).1 = [] := by simp [nodeRun, other]
  rw [node, if_pos none]

theorem tokens_space (quiet : direction ready words (' ' :: rest) = none)
    (noLink : link ready rest = none) :
    (lexer words).tokens ready (' ' :: rest) =
      ((lexer words).tokens ready rest).map (.space :: ·) := by
  have noNode : node ready (' ' :: rest) = none := node_none (by simp [nodeChar, nodeMarks])
  have blank : link ready (' ' :: rest) = none := (link_blank (by decide)).trans noLink
  have found : next ready words (' ' :: rest) = some ([.space], ready, rest) := by
    change inInitial ready words (' ' :: rest) = _
    rw [inInitial_late (by decide), quiet, blank, noNode]
    rfl
  exact tokens_next found

theorem tokens_direction {step : Step} (found : direction ready words (' ' :: rest) = some step) :
    (lexer words).tokens ready (' ' :: rest) =
      ((lexer words).tokens step.2.1 step.2.2).map (step.1 ++ ·) := by
  apply tokens_next
  change inInitial ready words (' ' :: rest) = _
  rw [inInitial_late (by decide), found]
  rfl

/-- A space, an arrow and a space. -/
theorem tokens_link (quiet : direction ready words (' ' :: '-' :: '-' :: '>' :: ' ' :: rest) = none)
    (stops : Stops jsSpace rest) :
    (lexer words).tokens ready (' ' :: '-' :: '-' :: '>' :: ' ' :: rest) =
      ((lexer words).tokens ready rest).map (.link ['-', '-', '>'] :: ·) := by
  have arrow (after : List Char) : link ready ('-' :: '-' :: '>' :: after) =
      some ([.link ['-', '-', '>']], ready, after.dropWhile jsSpace) := rfl
  have linked : link ready (' ' :: '-' :: '-' :: '>' :: ' ' :: rest) =
      some ([.link ['-', '-', '>']], ready, rest) := by
    rw [link_blank (by decide), arrow, List.dropWhile_cons_of_pos (by decide),
      dropWhile_stops stops]
  have found : next ready words (' ' :: '-' :: '-' :: '>' :: ' ' :: rest) =
      some ([.link ['-', '-', '>']], ready, rest) := by
    change inInitial ready words _ = _
    rw [inInitial_late (by decide), quiet, linked]
    rfl
  exact tokens_next found

theorem tokens_newline (noLink : link ready rest = none) (stops : Stops (· = '\n') rest) :
    (lexer words).tokens ready ('\n' :: rest) =
      ((lexer words).tokens ready rest).map (.newline :: ·) := by
  have quiet : direction ready words ('\n' :: rest) = none := by
    apply direction_none
    intro word _
    rw [directionRest_lineEnd (by decide) (by decide), Option.isSome_none]
  have noNode : node ready ('\n' :: rest) = none := node_none (by simp [nodeChar, nodeMarks])
  have blank : link ready ('\n' :: rest) = none := (link_blank (by decide)).trans noLink
  have found : next ready words ('\n' :: rest) = some ([.newline], ready, rest) := by
    change inInitial ready words ('\n' :: rest) = _
    rw [inInitial_late (by decide), quiet, blank, noNode]
    change some _ = some _
    rw [dropWhile_stops stops]
  exact tokens_next found

/-- A name that cannot be anything else. -/
theorem tokens_node {first stop : Char} {name : List Char}
    (quiet : direction ready words (first :: (name ++ stop :: rest)) = none)
    (named : ∀ letter ∈ first :: name, letter.isAlphanum) (notBlank : jsSpace first = false)
    (notDigit : first.isDigit = false)
    (notHead : first ∉ ['x', 'o']) (notWord : first :: name ∉ graphWords ++ keywords)
    (stopsWord : wordChar stop = false) (stopsNode : nodeChar stop rest = false) :
    (lexer words).tokens ready (first :: (name ++ stop :: rest)) =
      ((lexer words).tokens ready (stop :: rest)).map (.node (first :: name) :: ·) := by
  have alone : ∀ other ∈ ['"', '#', ':', '&', ';', ',', '*', '<', '-'], first ≠ other := by
    intro other isMark same
    have all : ['"', '#', ':', '&', ';', ',', '*', '<', '-'].all (fun mark => !mark.isAlphanum) =
        true := by decide
    have notNamed := List.all_eq_true.mp all other isMark
    rw [← same, named first List.mem_cons_self] at notNamed
    cases notNamed
  have word : (first :: (name ++ stop :: rest)).takeWhile wordChar = first :: name := by
    have lettered : ∀ letter ∈ first :: name, wordChar letter = true := by
      intro letter inside
      rw [wordChar, named letter inside, Bool.true_or]
    exact takeWhile_front lettered (stops_cons stopsWord)
  obtain ⟨notGraph, notKeyword⟩ := not_or.mp (mt List.mem_append.mpr notWord)
  have noOpening : opens ready (first :: (name ++ stop :: rest)) = none := by
    unfold opens
    split
    · rename_i same
      exact absurd (List.cons.inj same).1 (alone '"' (by decide))
    · rename_i same
      exact absurd (List.cons.inj same).1 (alone '"' (by decide))
    · rfl
  have noKeyword : keyword ready (first :: (name ++ stop :: rest)) = none := by
    rw [keyword, word, if_neg notGraph, if_neg notKeyword]
  have noNumber : number ready (first :: (name ++ stop :: rest)) = none := by
    rw [number, notDigit, if_neg Bool.false_ne_true]
  have noMark : mark ready (first :: (name ++ stop :: rest)) = none := by
    unfold mark
    split
    · rename_i same
      exact absurd (List.cons.inj same).1 (alone ':' (by decide))
    · rename_i same
      cases same
      apply if_neg
      intro isMark
      have mark := List.mem_append_right ['"'] (List.mem_append_left ['<', '-'] isMark)
      exact alone _ mark rfl
    · rfl
  have noLink : link ready (first :: (name ++ stop :: rest)) = none := by
    apply link_other
    · exact notBlank
    · intro isHead
      simp only [List.mem_cons, List.not_mem_nil, or_false] at isHead notHead
      rcases isHead with same | same | same
      · exact notHead (.inl same)
      · exact notHead (.inr same)
      · exact alone '<' (by decide) same
    · exact decide_eq_false (alone '-' (by decide))
  have named' : node ready (first :: (name ++ stop :: rest)) =
      some ([.node (first :: name)], ready, stop :: rest) := by
    have run : nodeRun (first :: (name ++ stop :: rest)) = (first :: name, stop :: rest) :=
      nodeRun_front named stopsNode
    rw [node, run, if_neg (List.cons_ne_nil _ _)]
  have found : next ready words (first :: (name ++ stop :: rest)) =
      some ([.node (first :: name)], ready, stop :: rest) := by
    change inInitial ready words _ = _
    rw [inInitial, noOpening, noKeyword, quiet, noNumber, noMark, noLink, named']
    rfl
  exact tokens_next found

theorem tokens_label {label : List Char} (nonempty : label ≠ []) (closed : '"' ∉ label)
    (plain : label.head? ≠ some '\x60')
    (quiet : direction ready words ('[' :: '"' :: (label ++ '"' :: ']' :: rest)) = none) :
    (lexer words).tokens ready ('[' :: '"' :: (label ++ '"' :: ']' :: rest)) =
      ((lexer words).tokens ready rest).map ([.opening, .string label, .closing] ++ ·) := by
  cases label with
  | nil => exact absurd rfl nonempty
  | cons first label =>
      rw [List.head?_cons, ne_eq, Option.some.injEq] at plain
      have notQuote : first ≠ '"' := fun same => closed (same ▸ List.mem_cons_self)
      have noLink : link ready ('[' :: '"' :: (first :: label ++ '"' :: ']' :: rest)) = none :=
        link_other (by decide) (by decide) (by decide)
      have noNode : node ready ('[' :: '"' :: (first :: label ++ '"' :: ']' :: rest)) = none :=
        node_none (by simp [nodeChar, nodeMarks])
      have opened : next ready words ('[' :: '"' :: (first :: label ++ '"' :: ']' :: rest)) =
          some ([.opening], ⟨true, [.text]⟩, '"' :: (first :: label ++ '"' :: ']' :: rest)) := by
        change inInitial ready words _ = _
        rw [inInitial_late (by decide), quiet, noLink, noNode]
        rfl
      have quoted : next ⟨true, [.text]⟩ words ('"' :: (first :: label ++ '"' :: ']' :: rest)) =
          some ([], ⟨true, [.string, .text]⟩, first :: label ++ '"' :: ']' :: rest) := by
        change opens _ _ = _
        unfold opens
        split
        · rename_i same
          exact absurd (List.cons.inj (List.cons.inj same).2).1 plain
        · rename_i same
          cases same
          rfl
        · rename_i _ other
          exact absurd rfl (other _)
      have kept : ∀ letter ∈ label, inString letter = true := by
        intro letter inside
        apply decide_eq_true
        intro same
        exact closed (List.mem_cons_of_mem _ (same ▸ inside))
      have stops : Stops inString ('"' :: ']' :: rest) := stops_cons (by decide)
      have held : next ⟨true, [.string, .text]⟩ words (first :: label ++ '"' :: ']' :: rest) =
          some ([.string (first :: label)], ⟨true, [.string, .text]⟩, '"' :: ']' :: rest) := by
        change inQuotes _ (first :: (label ++ '"' :: ']' :: rest)) = _
        rw [inQuotes.eq_3 _ _ _ (fun _ same _ => notQuote same) notQuote,
          takeWhile_front kept stops, dropWhile_front kept stops]
      have unquoted : next ⟨true, [.string, .text]⟩ words ('"' :: ']' :: rest) =
          some ([], ⟨true, [.text]⟩, ']' :: rest) := rfl
      have left : next ⟨true, [.text]⟩ words (']' :: rest) = some ([.closing], ready, rest) := rfl
      rw [tokens_next opened, tokens_next quoted, tokens_next held, tokens_next unquoted,
        tokens_next left]
      simp [Option.map_map, Function.comp_def]

theorem tokens_graph (noLink : link ready rest = none) (stops : Stops (· = '\n') rest) :
    (lexer words).tokens ⟨false, []⟩ ('g' :: 'r' :: 'a' :: 'p' :: 'h' :: ' ' :: 'L' :: 'R' :: '\n' ::
        rest) =
      ((lexer words).tokens ready rest).map
        ([.graph, .orientation ['L', 'R'], .newline] ++ ·) := by
  have announced : next ⟨false, []⟩ words ('g' :: 'r' :: 'a' :: 'p' :: 'h' :: ' ' :: 'L' :: 'R' ::
      '\n' :: rest) = some ([.graph], ⟨true, [.orientation]⟩, ' ' :: 'L' :: 'R' :: '\n' :: rest) :=
    rfl
  have oriented : next ⟨true, [.orientation]⟩ words (' ' :: 'L' :: 'R' :: '\n' :: rest) =
      some ([.orientation ['L', 'R']], ready, '\n' :: rest) := rfl
  rw [tokens_next announced, tokens_next oriented, tokens_newline noLink stops]
  simp [Option.map_map, Function.comp_def]

end Reading

/-! ## Texts given by their lines -/

def endLine (row : List Char) : List Char := row ++ ['\n']

theorem unifyLineEnds_free {text : List Char} (free : '\r' ∉ text) : unifyLineEnds text = text := by
  induction text with
  | nil => rfl
  | cons character text inductionHypothesis =>
      obtain ⟨other, freeRest⟩ := not_or.mp (mt List.mem_cons.mpr free)
      rw [unifyLineEnds.eq_4 _ _ (fun _ same _ => other same.symm) fun same => other same.symm,
        inductionHypothesis freeRest]

theorem lines_endLine {row : List Char} (line : '\n' ∉ row) (rest : List Char) :
    lines (endLine row ++ rest) = endLine row :: lines rest := by
  induction row with
  | nil => rfl
  | cons character row inductionHypothesis =>
      obtain ⟨other, freeRest⟩ := not_or.mp (mt List.mem_cons.mpr line)
      change lines (character :: (endLine row ++ rest)) = _
      rw [lines, if_neg fun same => other same.symm, inductionHypothesis freeRest]
      rfl

theorem lines_rows {rows : List (List Char)} (each : ∀ row ∈ rows, '\n' ∉ row) :
    lines (rows.flatMap endLine) = rows.map endLine := by
  induction rows with
  | nil => rfl
  | cons row rows inductionHypothesis =>
      rw [List.forall_mem_cons] at each
      rw [List.flatMap_cons, lines_endLine each.1, inductionHypothesis each.2, List.map_cons]

/-- Characters that keep a text free of the marks that configure a diagram. -/
def unmarked (character : Char) : Bool :=
  character ≠ '\n' && character ≠ '\r' && character ≠ '\x7b'

theorem filter_parts {α : Type} {test : α → Bool} {front rest : List α}
    (kept : ∀ item ∈ front, test item = true) (left : ∀ item ∈ rest, test item = false) :
    (front ++ rest).filter test = front ∧
      (front ++ rest).filter (fun item => !test item) = rest := by
  have noRest : rest.filter test = [] := by
    rw [List.filter_eq_nil_iff]
    intro item inside
    rw [left item inside]
    exact Bool.false_ne_true
  have noFront : front.filter (fun item => !test item) = [] := by
    rw [List.filter_eq_nil_iff]
    intro item inside
    rw [kept item inside]
    exact Bool.false_ne_true
  have allRest : rest.filter (fun item => !test item) = rest := by
    rw [List.filter_eq_self]
    intro item inside
    rw [left item inside]
    rfl
  constructor
  · rw [List.filter_append, List.filter_eq_self.mpr kept, noRest, List.append_nil]
  · rw [List.filter_append, noFront, allRest, List.nil_append]

theorem read_rows {words : List (List Char)} {comments rows : List (List Char)}
    (commented : ∀ row ∈ comments, isComment (endLine row) = true)
    (plain : ∀ row ∈ rows, isComment (endLine row) = false)
    (each : ∀ row ∈ comments ++ rows, row.all unmarked = true)
    (noMatter : ¬['-', '-', '-'] <+: (comments ++ rows).flatMap endLine) :
    read words ((comments ++ rows).flatMap endLine) =
      ((lexer words).tokens ⟨false, []⟩ (rows.flatMap endLine)).map fun tokens =>
        ⟨comments.map endLine, tokens⟩ := by
  have free {other : Char} (marked : unmarked other = false) (notEnd : other ≠ '\n') :
      other ∉ (comments ++ rows).flatMap endLine := by
    intro inside
    obtain ⟨row, isRow, inside⟩ := List.mem_flatMap.mp inside
    rcases List.mem_append.mp inside with inside | isEnd
    · have allowed := List.all_eq_true.mp (each row isRow) other inside
      rw [marked] at allowed
      cases allowed
    · exact notEnd (List.mem_singleton.mp isEnd)
  have lined : ∀ row ∈ comments ++ rows, '\n' ∉ row := by
    intro row isRow inside
    have allowed := List.all_eq_true.mp (each row isRow) '\n' inside
    cases allowed
  have noDirective : ¬['%', '%', '\x7b'] <:+: (comments ++ rows).flatMap endLine := by
    intro stands
    exact @free '\x7b' rfl (by decide) (stands.subset (by decide))
  obtain ⟨kept, left⟩ := filter_parts (List.forall_mem_map.mpr commented)
    (List.forall_mem_map.mpr plain)
  rw [read, unifyLineEnds_free (@free '\r' rfl (by decide)), readLines,
    if_neg (not_or.mpr ⟨noMatter, noDirective⟩), lines_rows lined, List.map_append, kept, left,
    List.flatMap_def]

example : read directionWords "%% a\ngraph LR\n  a[\"b, c\"]\n  a --> d\n".toList =
    some ⟨["%% a\n".toList], [.graph, .orientation "LR".toList, .newline, .space, .space,
      .node ['a'], .opening, .string "b, c".toList, .closing, .newline, .space, .space,
      .node ['a'], .link "-->".toList, .node ['d'], .newline]⟩ := by decide

example : read directionWords "graph LR\n  a[\"direction TB\"]\n".toList =
    some ⟨[], [.graph, .orientation "LR".toList, .newline, .direction "TB".toList, .newline]⟩ := by
  decide

end Mermaid
