import Mathlib
import ZedRegistry.ArtifactStore
import ZedRegistry.GraphRendering
import ZedRegistry.Lib.Dot
import ZedRegistry.Lib.Mermaid

/-!
# What a drawing says

The two drawings of a graph as Graphviz and Mermaid read them: one statement for each
package and one for each edge, with every piece of metadata inside the label it belongs to.
-/

set_option autoImplicit false

namespace ZedRegistry

namespace GraphDrawing

open Delimiters Lexing

/-! ## Statements -/

inductive Statement where
  | package (label : String)
  | target (label : String)
  | arrow (source destination : String)

def statements (display : PackageVersionIdentity → String) : DependencyGraphData → List Statement
  | .declared package dependencies =>
    .package (display package) :: dependencies.flatMap fun dependency =>
      [.target (dependencyTarget dependency),
        .arrow (display package) (dependencyTarget dependency)]
  | .resolved _ _ nodes edges _ _ _ =>
    nodes.map (fun node => .package (display node.id)) ++
      edges.map fun edge => .arrow (display edge.source) (display edge.destination)

/-- The texts that are written into labels. -/
def Statement.labels : Statement → List String
  | .package label | .target label => [label]
  | .arrow _ _ => []

section Statements

variable (sha256 : Bytes → String)

def Statement.dotLine : Statement → String
  | .package label => dotBox sha256 label
  | .target label => dotTarget sha256 label
  | .arrow source destination => dotArrow sha256 source destination

def Statement.mermaidLine : Statement → String
  | .package label | .target label => mermaidLabel sha256 label
  | .arrow source destination => mermaidArrow sha256 source destination

/-- The node of a text, as a name of either language. -/
def nodeName (text : String) : List Char := (graphNodeId sha256 text).toList

def Statement.dotTokens : Statement → List Dot.Token
  | .package label =>
    [.name (nodeName sha256 label), .mark '[', .name "label".toList, .mark '=',
      .quoted (label.toList.flatMap JsonText.escape), .mark ',', .name "shape".toList, .mark '=',
      .name "box".toList, .mark ']', .mark ';']
  | .target label =>
    [.name (nodeName sha256 label), .mark '[', .name "label".toList, .mark '=',
      .quoted (label.toList.flatMap JsonText.escape), .mark ']', .mark ';']
  | .arrow source destination =>
    [.name (nodeName sha256 source), .directed, .name (nodeName sha256 destination), .mark ';']

def Statement.mermaidTokens : Statement → List Mermaid.Token
  | .package label | .target label =>
    [.space, .space, .node (nodeName sha256 label), .opening,
      .string (mermaidSafeLabel label).toList, .closing, .newline]
  | .arrow source destination =>
    [.space, .space, .node (nodeName sha256 source), .link "-->".toList,
      .node (nodeName sha256 destination), .newline]

theorem dotLines_eq (display : PackageVersionIdentity → String) (graph : DependencyGraphData) :
    dotLines sha256 display graph = (statements display graph).map (Statement.dotLine sha256) := by
  cases graph with
  | declared package dependencies =>
      simp only [dotLines, statements, List.map_cons, List.map_flatMap]
      rfl
  | resolved _ _ nodes edges _ _ _ =>
      simp only [dotLines, statements, List.map_append, List.map_map]
      rfl

theorem mermaidLines_eq (display : PackageVersionIdentity → String)
    (graph : DependencyGraphData) : mermaidLines sha256 display graph =
      (statements display graph).map (Statement.mermaidLine sha256) := by
  cases graph with
  | declared package dependencies =>
      simp only [mermaidLines, statements, List.map_cons, List.map_flatMap]
      rfl
  | resolved _ _ nodes edges _ _ _ =>
      simp only [mermaidLines, statements, List.map_append, List.map_map]
      rfl

end Statements

/-! ## Characters -/

def lowerHex (character : Char) : Bool :=
  character.isDigit || ('a' ≤ character && character ≤ 'f')

theorem isAlphanum_range {character : Char} (letter : character.isAlphanum = true) :
    (48 ≤ character.toNat ∧ character.toNat ≤ 57) ∨
      (65 ≤ character.toNat ∧ character.toNat ≤ 90) ∨
      97 ≤ character.toNat ∧ character.toNat ≤ 122 := by
  simp only [Char.isAlphanum, Char.isAlpha, Char.isUpper, Char.isLower, Char.isDigit,
    Bool.or_eq_true, Bool.and_eq_true, decide_eq_true_eq, ge_iff_le, UInt32.le_iff_toNat_le]
    at letter
  change (48 ≤ character.val.toNat ∧ character.val.toNat ≤ 57) ∨
    (65 ≤ character.val.toNat ∧ character.val.toNat ≤ 90) ∨
    97 ≤ character.val.toNat ∧ character.val.toNat ≤ 122
  rcases letter with (upper | lower) | digit
  · exact .inr (.inl upper)
  · exact .inr (.inr lower)
  · exact .inl digit

theorem lowerHex_isAlphanum {character : Char} (hex : lowerHex character = true) :
    character.isAlphanum = true := by
  simp only [lowerHex, Bool.or_eq_true, Bool.and_eq_true, decide_eq_true_eq] at hex
  rcases hex with digit | ⟨low, high⟩
  · rw [Char.isAlphanum, digit, Bool.or_true]
  · have lower : character.isLower = true := by
      simp only [Char.isLower, Bool.and_eq_true, decide_eq_true_eq, ge_iff_le]
      exact ⟨low, le_trans high (by decide)⟩
    rw [Char.isAlphanum, Char.isAlpha, lower, Bool.or_true, Bool.true_or]

/-! ## DOT -/

theorem escape_closed (character : Char) : Dot.Closed (JsonText.escape character) := by
  unfold JsonText.escape
  split
  · exact .pair _ .nil
  · rename_i unlisted
    have notQuote : character ≠ '"' := by
      intro same
      rw [same] at unlisted
      exact absurd unlisted (by decide)
    have notSlash : character ≠ '\\' := by
      intro same
      rw [same] at unlisted
      exact absurd unlisted (by decide)
    have digit : ∀ value < 16, Nat.digitChar value ≠ '"' ∧ Nat.digitChar value ≠ '\\' := by
      decide
    split
    · rename_i control
      have high := digit (character.toNat / 16) (by omega)
      have low := digit (character.toNat % 16) (by omega)
      exact .pair _ (.plain (by decide) (by decide) (.plain (by decide) (by decide)
        (.plain high.1 high.2 (.plain low.1 low.2 .nil))))
    · exact .plain notQuote notSlash .nil

section Dot

variable {sha256 : Bytes → String} (hex : ∀ bytes, isSha256Hex (sha256 bytes) = true)
include hex

theorem nodeName_hex (text : String) :
    ∃ name, nodeName sha256 text = 'n' :: name ∧ ∀ letter ∈ name, lowerHex letter = true := by
  refine ⟨(sha256 (asBytes text)).toList.take 16, by simp [nodeName, graphNodeId], ?_⟩
  intro letter inside
  have digits := (Bool.and_eq_true_iff.mp (hex (asBytes text))).2
  exact List.all_eq_true.mp digits letter (List.mem_of_mem_take inside)

theorem nodeName_isName (text : String) : Dot.isName (nodeName sha256 text) = true := by
  obtain ⟨name, same, digits⟩ := nodeName_hex hex text
  rw [same, Dot.isName, Bool.and_eq_true]
  refine ⟨by decide, List.all_eq_true.mpr ?_⟩
  intro letter inside
  have alphanum := lowerHex_isAlphanum (digits letter inside)
  simp only [Char.isAlphanum, Bool.or_eq_true] at alphanum
  simp only [Dot.nameRest, Dot.nameStart, Bool.or_eq_true]
  rcases alphanum with alpha | digit
  · exact .inl (.inl (.inl alpha))
  · exact .inr digit

/-- A node and its label, up to the other attributes. -/
theorem tokens_dotNode (label : String) (rest : List Char) :
    Dot.tokens (' ' :: ' ' :: (nodeName sha256 label ++ ' ' :: '[' :: ("label".toList ++ '=' ::
        '"' :: (label.toList.flatMap JsonText.escape ++ '"' :: rest)))) =
      (Dot.tokens rest).map ([.name (nodeName sha256 label), .mark '[', .name "label".toList,
        .mark '=', .quoted (label.toList.flatMap JsonText.escape)] ++ ·) := by
  rw [Dot.tokens_blank (by decide), Dot.tokens_blank (by decide),
    Dot.tokens_name (nodeName_isName hex label) (stops_cons (by decide)),
    Dot.tokens_blank (by decide), Dot.tokens_mark (by decide),
    Dot.tokens_name (by decide) (stops_cons (by decide)), Dot.tokens_mark (by decide),
    Dot.tokens_quoted (Dot.closed_flatMap escape_closed label.toList)]
  simp only [Option.map_map, Function.comp_def, List.cons_append, List.nil_append]

theorem tokens_dotLine (statement : Statement) (rest : List Char) :
    Dot.tokens ((statement.dotLine sha256).toList ++ rest) =
      (Dot.tokens rest).map (statement.dotTokens sha256 ++ ·) := by
  cases statement with
  | package label =>
      have text : (dotBox sha256 label).toList ++ rest =
          ' ' :: ' ' :: (nodeName sha256 label ++ ' ' :: '[' :: ("label".toList ++ '=' :: '"' ::
            (label.toList.flatMap JsonText.escape ++ '"' :: ',' :: ' ' :: ("shape".toList ++ '=' ::
              ("box".toList ++ ']' :: ';' :: '\n' :: rest))))) := by
        simp [dotBox, nodeName, GraphText.jsonString, JsonText.quote]
      rw [Statement.dotLine, text, tokens_dotNode hex, Dot.tokens_mark (by decide),
        Dot.tokens_blank (by decide), Dot.tokens_name (by decide) (stops_cons (by decide)),
        Dot.tokens_mark (by decide), Dot.tokens_name (by decide) (stops_cons (by decide)),
        Dot.tokens_mark (by decide), Dot.tokens_mark (by decide), Dot.tokens_blank (by decide)]
      simp only [Option.map_map, Function.comp_def, Statement.dotTokens, List.cons_append,
        List.nil_append]
  | target label =>
      have text : (dotTarget sha256 label).toList ++ rest =
          ' ' :: ' ' :: (nodeName sha256 label ++ ' ' :: '[' :: ("label".toList ++ '=' :: '"' ::
            (label.toList.flatMap JsonText.escape ++ '"' :: ']' :: ';' :: '\n' :: rest))) := by
        simp [dotTarget, nodeName, GraphText.jsonString, JsonText.quote]
      rw [Statement.dotLine, text, tokens_dotNode hex, Dot.tokens_mark (by decide),
        Dot.tokens_mark (by decide), Dot.tokens_blank (by decide)]
      simp only [Option.map_map, Function.comp_def, Statement.dotTokens, List.cons_append,
        List.nil_append]
  | arrow source destination =>
      have text : (dotArrow sha256 source destination).toList ++ rest =
          ' ' :: ' ' :: (nodeName sha256 source ++ ' ' :: '-' :: '>' :: ' ' ::
            (nodeName sha256 destination ++ ';' :: '\n' :: rest)) := by
        simp [dotArrow, nodeName]
      rw [Statement.dotLine, text, Dot.tokens_blank (by decide), Dot.tokens_blank (by decide),
        Dot.tokens_name (nodeName_isName hex source) (stops_cons (by decide)),
        Dot.tokens_blank (by decide), Dot.tokens_directed, Dot.tokens_blank (by decide),
        Dot.tokens_name (nodeName_isName hex destination) (stops_cons (by decide)),
        Dot.tokens_mark (by decide), Dot.tokens_blank (by decide)]
      simp only [Option.map_map, Function.comp_def, Statement.dotTokens, List.cons_append,
        List.nil_append]

end Dot

def authorityNote : List Char :=
  " Non-authoritative rendering of a zpkg/dependency-graph/v1 document.".toList

def interchangeNote : List Char :=
  " Use the JSON, YAML, or TOML representation for interchange.".toList

theorem authorityNote_line : '\n' ∉ authorityNote := by decide +kernel

theorem interchangeNote_line : '\n' ∉ interchangeNote := by decide +kernel

def dotPreamble : List Dot.Token :=
  [.comment authorityNote, .comment interchangeNote, .name "digraph".toList, .name "zpkg".toList,
    .mark '\x7b', .name "rankdir".toList, .mark '=', .name "LR".toList, .mark ';']

theorem dotHeading_eq : dotHeading.toList =
    '/' :: '/' :: (authorityNote ++ '\n' :: '/' :: '/' :: (interchangeNote ++ '\n' ::
      ("digraph".toList ++ ' ' :: ("zpkg".toList ++ ' ' :: '\x7b' :: '\n' :: ' ' :: ' ' ::
        ("rankdir".toList ++ '=' :: ("LR".toList ++ [';', '\n'])))))) := by
  decide +kernel

theorem tokens_dotHeading (rest : List Char) :
    Dot.tokens (dotHeading.toList ++ rest) = (Dot.tokens rest).map (dotPreamble ++ ·) := by
  rw [dotHeading_eq]
  simp only [List.cons_append, List.append_assoc, List.nil_append]
  rw [Dot.tokens_comment authorityNote_line, Dot.tokens_comment interchangeNote_line,
    Dot.tokens_name (by decide) (stops_cons (by decide)), Dot.tokens_blank (by decide),
    Dot.tokens_name (by decide) (stops_cons (by decide)), Dot.tokens_blank (by decide),
    Dot.tokens_mark (by decide), Dot.tokens_blank (by decide), Dot.tokens_blank (by decide),
    Dot.tokens_blank (by decide), Dot.tokens_name (by decide) (stops_cons (by decide)),
    Dot.tokens_mark (by decide), Dot.tokens_name (by decide) (stops_cons (by decide)),
    Dot.tokens_mark (by decide), Dot.tokens_blank (by decide)]
  simp only [Option.map_map, Function.comp_def, dotPreamble, List.cons_append, List.nil_append]

theorem tokens_dotRendering {sha256 : Bytes → String}
    (hex : ∀ bytes, isSha256Hex (sha256 bytes) = true)
    (display : PackageVersionIdentity → String) (document : DependencyGraphDocument) :
    Dot.tokens (dotRendering sha256 display document) =
      some (dotPreamble ++ (statements display document.graph).flatMap
        (Statement.dotTokens sha256) ++ [.mark '\x7d']) := by
  have text : dotRendering sha256 display document = dotHeading.toList ++
      ((statements display document.graph).flatMap (fun statement =>
        (statement.dotLine sha256).toList) ++ ['\x7d', '\n']) := by
    rw [dotRendering, dotLines_eq, List.flatMap_cons, List.flatMap_append, List.flatMap_map]
    rfl
  have lines := Lexer.tokens_flatMap (tokens_dotLine hex) (statements display document.graph)
    ['\x7d', '\n']
  have closes : Dot.tokens ['\x7d', '\n'] = some [.mark '\x7d'] := by decide
  rw [text, tokens_dotHeading]
  change (Dot.lexer.tokens () _).map _ = _
  rw [lines]
  change ((Dot.tokens ['\x7d', '\n']).map _).map _ = _
  rw [closes]
  simp only [Option.map_some, List.append_assoc]

/-! ## Labels of Mermaid -/

/-- What a character of a label is written as. -/
def spell (character : Char) : List Char :=
  if plainInLabel character then [character] else labelToken character

theorem mermaidSafeLabel_toList (text : String) :
    (mermaidSafeLabel text).toList = text.toList.flatMap spell := String.toList_ofList

theorem plainInLabel_of_isAlphanum {character : Char} (letter : character.isAlphanum = true) :
    plainInLabel character = true := by
  rw [plainInLabel, letter, Bool.true_or]

theorem plainInLabel_cases {character : Char} (plain : plainInLabel character = true) :
    character.isAlphanum = true ∨
      character ∈ [' ', '.', '_', ':', '/', '@', '+', '-', '^', '=', ','] := by
  simpa only [plainInLabel, Bool.or_eq_true, List.contains_iff_mem] using plain

/-- The only blank that a label holds is the space. -/
theorem jsSpace_plain {character : Char} (plain : plainInLabel character = true) :
    Mermaid.jsSpace character = decide (character = ' ') := by
  rcases plainInLabel_cases plain with letter | listed
  · have codes := isAlphanum_range letter
    have notBlank : character ≠ ' ' := by
      rintro rfl
      exact absurd letter (by decide)
    rw [decide_eq_false notBlank]
    simp only [Mermaid.jsSpace, Bool.or_eq_false_iff, Bool.and_eq_false_iff,
      decide_eq_false_iff_not, List.contains_eq_mem, List.mem_cons, List.not_mem_nil, or_false]
    omega
  · have all : [' ', '.', '_', ':', '/', '@', '+', '-', '^', '=', ','].all (fun listed =>
        Mermaid.jsSpace listed = decide (listed = ' ')) = true := by decide
    exact of_decide_eq_true (List.all_eq_true.mp all character listed)

theorem inLine_plain {character : Char} (plain : plainInLabel character = true) :
    Mermaid.lineEnd character = false ∧ Mermaid.unmarked character = true := by
  rcases plainInLabel_cases plain with letter | listed
  · have codes := isAlphanum_range letter
    constructor
    · simp only [Mermaid.lineEnd, List.contains_eq_mem, decide_eq_false_iff_not, List.mem_cons,
        List.not_mem_nil, or_false]
      omega
    · have apart : ∀ other ∈ ['\n', '\r', '\x7b'], character ≠ other := by
        intro other isMark same
        have none : ['\n', '\r', '\x7b'].all (fun mark => !mark.isAlphanum) = true := by decide
        have notLetter := List.all_eq_true.mp none other isMark
        rw [← same, letter] at notLetter
        cases notLetter
      simp [Mermaid.unmarked, apart '\n' (by decide), apart '\r' (by decide),
        apart '\x7b' (by decide)]
  · have all : [' ', '.', '_', ':', '/', '@', '+', '-', '^', '=', ','].all (fun listed =>
        !Mermaid.lineEnd listed && Mermaid.unmarked listed) = true := by decide
    simpa using List.all_eq_true.mp all character listed

theorem mem_toDigits {base value : Nat} (large : 1 < base) {digit : Char}
    (inside : digit ∈ Nat.toDigits base value) : ∃ small < base, digit = Nat.digitChar small := by
  induction value using Nat.strongRecOn with
  | ind value inductionHypothesis =>
      by_cases small : value < base
      · rw [Nat.toDigits_of_lt_base small, List.mem_singleton] at inside
        exact ⟨value, small, inside⟩
      · rw [Nat.toDigits_of_base_le large (Nat.le_of_not_lt small), List.mem_append,
          List.mem_singleton] at inside
        rcases inside with front | last
        · exact inductionHypothesis (value / base) (Nat.div_lt_self (by omega) large) front
        · exact ⟨value % base, Nat.mod_lt _ (by omega), last⟩

theorem labelToken_letters {character letter : Char} (inside : letter ∈ labelToken character) :
    plainInLabel letter = true ∧ letter ≠ 'd' := by
  have digits : ∀ value < 16, plainInLabel (Nat.digitChar value).toUpper = true ∧
      (Nat.digitChar value).toUpper ≠ 'd' := by decide
  rw [labelToken, List.mem_append, List.mem_append, List.mem_singleton] at inside
  rcases inside with opening | digit | rfl
  · have all : "_u".toList.all (fun letter => plainInLabel letter && letter != 'd') = true := by
      decide
    simpa using List.all_eq_true.mp all letter opening
  · obtain ⟨small, isDigit, rfl⟩ := List.mem_map.mp digit
    obtain ⟨value, bounded, rfl⟩ := mem_toDigits (by decide) isDigit
    exact digits value bounded
  · decide

theorem labelToken_opens (character : Char) : ∃ rest, labelToken character = '_' :: rest :=
  ⟨_, rfl⟩

theorem mermaidSafeLabel_plain {text : String} {letter : Char}
    (inside : letter ∈ (mermaidSafeLabel text).toList) : plainInLabel letter = true := by
  rw [mermaidSafeLabel_toList] at inside
  obtain ⟨character, _, inside⟩ := List.mem_flatMap.mp inside
  unfold spell at inside
  split at inside
  · rename_i plain
    rw [List.mem_singleton.mp inside]
    exact plain
  · exact (labelToken_letters inside).1

theorem mermaidSafeLabel_nonempty {text : String} (shown : text ≠ "") :
    (mermaidSafeLabel text).toList ≠ [] := by
  rw [mermaidSafeLabel_toList, ne_eq, List.flatMap_eq_nil_iff]
  intro empty
  apply shown
  rw [← String.toList_eq_nil_iff]
  apply List.eq_nil_iff_forall_not_mem.mpr
  intro character inside
  have nothing := empty character inside
  unfold spell at nothing
  split at nothing
  · cases nothing
  · cases nothing

/-! ## Directions in labels -/

section Directions

variable {word : List Char}

theorem dropPrefix_spelled {expected : List Char}
    (plain : ∀ letter ∈ expected, plainInLabel letter = true) (noMark : '_' ∉ expected)
    (text : List Char) : (text.flatMap spell).dropPrefix? expected =
      (text.dropPrefix? expected).map (·.flatMap spell) := by
  induction expected generalizing text with
  | nil => simp
  | cons letter expected inductionHypothesis =>
      obtain ⟨other, noMarkRest⟩ := not_or.mp (mt List.mem_cons.mpr noMark)
      rw [List.forall_mem_cons] at plain
      cases text with
      | nil => rfl
      | cons character text =>
          rw [List.flatMap_cons, List.dropPrefix?]
          cases allowed : plainInLabel character with
          | true =>
              rw [spell, if_pos allowed, List.singleton_append, List.dropPrefix?]
              split
              · exact inductionHypothesis plain.2 noMarkRest text
              · rfl
          | false =>
              obtain ⟨rest, token⟩ := labelToken_opens character
              have apart : character ≠ letter := by
                rintro rfl
                rw [plain.1] at allowed
                cases allowed
              rw [spell, allowed, if_neg Bool.false_ne_true, token, List.cons_append,
                List.dropPrefix?, beq_eq_false_iff_ne.mpr other, beq_eq_false_iff_ne.mpr apart]
              rfl

theorem dropWhile_spelled (text : List Char) :
    (text.flatMap spell).dropWhile Mermaid.jsSpace =
      (text.dropWhile (· = ' ')).flatMap spell := by
  induction text with
  | nil => rfl
  | cons character text inductionHypothesis =>
      rw [List.flatMap_cons]
      cases allowed : plainInLabel character with
      | true =>
          rw [spell, if_pos allowed, List.singleton_append, List.dropWhile_cons,
            jsSpace_plain allowed, List.dropWhile_cons]
          split
          · exact inductionHypothesis
          · rw [List.flatMap_cons, spell, if_pos allowed, List.singleton_append]
      | false =>
          obtain ⟨rest, token⟩ := labelToken_opens character
          have notBlank : character ≠ ' ' := by
            rintro rfl
            exact absurd allowed (by decide)
          rw [spell, allowed, if_neg Bool.false_ne_true, token, List.cons_append,
            List.dropWhile_cons_of_neg (by decide),
            List.dropWhile_cons_of_neg (by simpa using notBlank), List.flatMap_cons, spell, allowed,
            if_neg Bool.false_ne_true, token, List.cons_append]

theorem head_spelled (text : List Char) :
    (text.flatMap spell).head?.any Mermaid.jsSpace = text.head?.any (· = ' ') := by
  cases text with
  | nil => rfl
  | cons character text =>
      rw [List.flatMap_cons]
      cases allowed : plainInLabel character with
      | true =>
          rw [spell, if_pos allowed, List.singleton_append]
          exact jsSpace_plain allowed
      | false =>
          obtain ⟨rest, token⟩ := labelToken_opens character
          have notBlank : character ≠ ' ' := by
            rintro rfl
            exact absurd allowed (by decide)
          rw [spell, allowed, if_neg Bool.false_ne_true, token]
          exact (decide_eq_false notBlank).symm

variable (letters : word.all Char.isUpper = true)

theorem saysDirection_front {space : Char → Bool} {front : List Char} (free : 'd' ∉ front)
    (rest : List Char) : Mermaid.saysDirection space word (front ++ rest) =
      Mermaid.saysDirection space word rest := by
  induction front with
  | nil => rfl
  | cons character front inductionHypothesis =>
      obtain ⟨other, freeRest⟩ := not_or.mp (mt List.mem_cons.mpr free)
      rw [List.cons_append, Mermaid.saysDirection,
        Mermaid.directionHere_other fun same => other same.symm, inductionHypothesis freeRest]
      rfl

include letters

theorem word_plain : (∀ letter ∈ word, plainInLabel letter = true) ∧ '_' ∉ word ∧ '"' ∉ word := by
  have upper := List.all_eq_true.mp letters
  refine ⟨?_, ?_, ?_⟩
  · intro letter inside
    apply plainInLabel_of_isAlphanum
    rw [Char.isAlphanum, Char.isAlpha, upper letter inside]
    rfl
  · intro inside
    exact absurd (upper '_' inside) (by decide)
  · intro inside
    exact absurd (upper '"' inside) (by decide)

theorem directionHere_spelled (text : List Char) :
    (Mermaid.directionHere Mermaid.jsSpace word (text.flatMap spell)).isSome =
      (Mermaid.directionHere (· = ' ') word text).isSome := by
  obtain ⟨plain, noMark, _⟩ := word_plain letters
  have spokenPlain : ∀ letter ∈ Mermaid.spoken, plainInLabel letter = true :=
    List.all_eq_true.mp (by decide)
  rw [Mermaid.directionHere, Mermaid.directionHere, dropPrefix_spelled spokenPlain (by decide)]
  cases text.dropPrefix? Mermaid.spoken with
  | none => rfl
  | some rest =>
      rw [Option.map_some, Option.bind_some, Option.bind_some, head_spelled, dropWhile_spelled,
        dropPrefix_spelled plain noMark]
      split
      · rw [Option.isSome_map]
      · rfl

/-- A label says a direction where its text does. -/
theorem saysDirection_spelled (text : List Char) :
    Mermaid.saysDirection Mermaid.jsSpace word (text.flatMap spell) =
      Mermaid.saysDirection (· = ' ') word text := by
  induction text with
  | nil => rfl
  | cons character text inductionHypothesis =>
      cases allowed : plainInLabel character with
      | true =>
          have here := directionHere_spelled letters (character :: text)
          rw [List.flatMap_cons, spell, if_pos allowed, List.singleton_append] at here ⊢
          rw [Mermaid.saysDirection, Mermaid.saysDirection, here, inductionHypothesis]
      | false =>
          have free : 'd' ∉ labelToken character := by
            intro inside
            exact (labelToken_letters inside).2 rfl
          have notFirst : character ≠ 'd' := by
            rintro rfl
            exact absurd allowed (by decide)
          rw [List.flatMap_cons, spell, allowed, if_neg Bool.false_ne_true,
            saysDirection_front free, inductionHypothesis, Mermaid.saysDirection,
            Mermaid.directionHere_other notFirst, Option.isSome_none, Bool.false_or]

end Directions

/-! ## Mermaid -/

section Mermaid

variable {sha256 : Bytes → String} (hex : ∀ bytes, isSha256Hex (sha256 bytes) = true)
  {words : List (List Char)} (letters : ∀ word ∈ words, word.all Char.isUpper = true)

/-- The text says `direction` and one of the words after it. -/
def mentionsDirection (words : List (List Char)) (text : String) : Bool :=
  words.any fun word => Mermaid.saysDirection (· = ' ') word text.toList

/-- A character of the name of a node, or of what stands around one. -/
def framing (character : Char) : Bool :=
  lowerHex character || [' ', 'n', '[', '-', '>'].contains character

theorem inLine_framing {letter : Char} (framed : framing letter = true) :
    Mermaid.lineEnd letter = false ∧ Mermaid.unmarked letter = true := by
  rw [framing, Bool.or_eq_true] at framed
  rcases framed with digit | listed
  · exact inLine_plain (plainInLabel_of_isAlphanum (lowerHex_isAlphanum digit))
  · have all : [' ', 'n', '[', '-', '>'].all (fun listed =>
        !Mermaid.lineEnd listed && Mermaid.unmarked listed) = true := by decide
    simpa using List.all_eq_true.mp all letter (List.contains_iff_mem.mp listed)

theorem framing_quiet {front : List Char} (framed : ∀ letter ∈ front, framing letter = true) :
    'i' ∉ front ∧ ∀ letter ∈ front, Mermaid.lineEnd letter = false := by
  constructor
  · intro inside
    exact absurd (framed 'i' inside) (by decide)
  · intro letter inside
    exact (inLine_framing (framed letter inside)).1

theorem framing_cons {letter : Char} {front : List Char} (first : framing letter = true)
    (framed : ∀ letter ∈ front, framing letter = true) :
    ∀ other ∈ letter :: front, framing other = true := List.forall_mem_cons.mpr ⟨first, framed⟩

theorem framing_name {name : List Char} (digits : ∀ letter ∈ name, lowerHex letter = true) :
    ∀ letter ∈ name, framing letter = true := by
  intro letter inside
  rw [framing, digits letter inside, Bool.true_or]

theorem framing_bracket : ∀ letter ∈ ['['], framing letter = true :=
  List.forall_mem_singleton.mpr rfl

theorem framing_node {name : List Char} (digits : ∀ letter ∈ name, lowerHex letter = true) :
    ∀ letter ∈ 'n' :: (name ++ ['[']), framing letter = true :=
  framing_cons rfl (List.forall_mem_append.mpr ⟨framing_name digits, framing_bracket⟩)

def mermaidRow (sha256 : Bytes → String) : Statement → List Char
  | .package label | .target label =>
    ' ' :: ' ' :: (nodeName sha256 label ++ '[' :: '"' ::
      ((mermaidSafeLabel label).toList ++ ['"', ']']))
  | .arrow source destination =>
    ' ' :: ' ' :: (nodeName sha256 source ++ ' ' :: '-' :: '-' :: '>' :: ' ' ::
      nodeName sha256 destination)

theorem mermaidLine_toList (statement : Statement) :
    (statement.mermaidLine sha256).toList = Mermaid.endLine (mermaidRow sha256 statement) := by
  cases statement with
  | package label | target label =>
      simp [Statement.mermaidLine, mermaidRow, mermaidLabel, nodeName, Mermaid.endLine]
  | arrow source destination =>
      simp [Statement.mermaidLine, mermaidRow, mermaidArrow, nodeName, Mermaid.endLine]

section Labels

include letters

/-- In a line with a label, only the label can say a direction. -/
theorem directionRest_labelled {word front : List Char} (isWord : word ∈ words)
    (framed : ∀ letter ∈ front, framing letter = true) (label : String) (rest : List Char) :
    (Mermaid.directionRest word (front ++ '"' ::
        ((mermaidSafeLabel label).toList ++ '"' :: ']' :: '\n' :: rest))).isSome =
      Mermaid.saysDirection (· = ' ') word label.toList := by
  obtain ⟨free, inLine⟩ := framing_quiet framed
  have quiet : Mermaid.directionRest word ('"' :: ']' :: '\n' :: rest) = none :=
    @Mermaid.directionRest_row word ['"', ']'] (by decide)
      (List.forall_mem_cons.mpr ⟨rfl, List.forall_mem_singleton.mpr rfl⟩) rest
  rw [Mermaid.directionRest_front free inLine (by decide) (by decide) (by decide),
    Mermaid.directionRest_label (word_plain (letters word isWord)).2.2 (by decide) (by decide)
      (fun letter inside => (inLine_plain (mermaidSafeLabel_plain inside)).1) quiet,
    mermaidSafeLabel_toList, saysDirection_spelled (letters word isWord)]

theorem labelled_quiet {label : String} (unsaid : mentionsDirection words label = false)
    {front : List Char} (framed : ∀ letter ∈ front, framing letter = true) (rest : List Char) :
    Mermaid.direction Mermaid.ready words (front ++ '"' ::
      ((mermaidSafeLabel label).toList ++ '"' :: ']' :: '\n' :: rest)) = none := by
  apply Mermaid.direction_none
  intro word isWord
  rw [directionRest_labelled letters isWord framed]
  exact Bool.eq_false_iff.mpr (List.any_eq_false.mp unsaid word isWord)

end Labels

/-- What may follow a line: nothing, or a line that begins with a node. -/
structure Follows (rest : List Char) : Prop where
  noLink : Mermaid.link Mermaid.ready rest = none
  stops : Stops (· = '\n') rest

theorem link_node (rest : List Char) : Mermaid.link Mermaid.ready ('n' :: rest) = none :=
  Mermaid.link_other (by decide) (by decide) (by decide)

theorem link_blank_node (rest : List Char) :
    Mermaid.link Mermaid.ready (' ' :: 'n' :: rest) = none :=
  (Mermaid.link_blank (by decide)).trans (link_node rest)

theorem follows_nil : Follows [] := ⟨rfl, stops_nil⟩

theorem follows_node (rest : List Char) : Follows (' ' :: ' ' :: 'n' :: rest) where
  noLink := (Mermaid.link_blank (by decide)).trans (link_blank_node rest)
  stops := stops_cons (by decide)

/-- The name of a node, where no direction is said from it on. -/
theorem tokens_nodeName {name : List Char} (digits : ∀ letter ∈ name, lowerHex letter = true)
    {stop : Char} {rest : List Char}
    (quiet : Mermaid.direction Mermaid.ready words ('n' :: (name ++ stop :: rest)) = none)
    (stopsWord : Mermaid.wordChar stop = false) (stopsNode : Mermaid.nodeChar stop rest = false) :
    (Mermaid.lexer words).tokens Mermaid.ready ('n' :: (name ++ stop :: rest)) =
      ((Mermaid.lexer words).tokens Mermaid.ready (stop :: rest)).map
        (.node ('n' :: name) :: ·) := by
  have named : ∀ letter ∈ 'n' :: name, letter.isAlphanum = true := by
    rw [List.forall_mem_cons]
    exact ⟨by decide, fun letter inside => lowerHex_isAlphanum (digits letter inside)⟩
  have notWord : 'n' :: name ∉ Mermaid.graphWords ++ Mermaid.keywords := by
    intro isWord
    have all : (Mermaid.graphWords ++ Mermaid.keywords).all (fun word => word.head? != some 'n') =
        true := by decide
    have otherHead := List.all_eq_true.mp all _ isWord
    rw [List.head?_cons, bne_self_eq_false] at otherHead
    cases otherHead
  exact Mermaid.tokens_node quiet named (by decide) (by decide) (by decide) notWord stopsWord
    stopsNode

include hex in
theorem tokens_arrowRow (source destination : String) {rest : List Char} (follows : Follows rest) :
    (Mermaid.lexer words).tokens Mermaid.ready
        (Mermaid.endLine (mermaidRow sha256 (.arrow source destination)) ++ rest) =
      ((Mermaid.lexer words).tokens Mermaid.ready rest).map
        (Statement.mermaidTokens sha256 (.arrow source destination) ++ ·) := by
  obtain ⟨first, isFirst, firstDigits⟩ := nodeName_hex hex source
  obtain ⟨second, isSecond, secondDigits⟩ := nodeName_hex hex destination
  have text : Mermaid.endLine (mermaidRow sha256 (.arrow source destination)) ++ rest =
      ' ' :: ' ' :: 'n' :: (first ++ ' ' :: '-' :: '-' :: '>' :: ' ' :: 'n' ::
        (second ++ '\n' :: rest)) := by
    simp [Mermaid.endLine, mermaidRow, isFirst, isSecond]
  have quiet {row text : List Char} (framed : ∀ letter ∈ row, framing letter = true)
      (same : text = row ++ '\n' :: rest) : Mermaid.direction Mermaid.ready words text = none := by
    obtain ⟨free, inLine⟩ := framing_quiet framed
    apply Mermaid.direction_none
    intro word _
    rw [same, Mermaid.directionRest_row free inLine, Option.isSome_none]
  have framedSecond := framing_cons (by decide : framing 'n') (framing_name secondDigits)
  have framedTip := framing_cons (by decide : framing '>')
    (framing_cons (by decide : framing ' ') framedSecond)
  have framedArrow := framing_cons (by decide : framing ' ')
    (framing_cons (by decide : framing '-') (framing_cons (by decide : framing '-') framedTip))
  have framedFirst := framing_cons (by decide : framing 'n')
    (List.forall_mem_append.mpr ⟨framing_name firstDigits, framedArrow⟩)
  have framedTail := framing_cons (by decide : framing ' ') framedFirst
  have framedRow := framing_cons (by decide : framing ' ') framedTail
  rw [text, Mermaid.tokens_space (quiet framedRow (by simp)) (link_blank_node _),
    Mermaid.tokens_space (quiet framedTail (by simp)) (link_node _),
    tokens_nodeName firstDigits (quiet framedFirst (by simp)) (by decide) rfl,
    Mermaid.tokens_link (quiet framedArrow (by simp)) (stops_cons (by decide)),
    tokens_nodeName secondDigits (quiet framedSecond (by simp)) (by decide) rfl,
    Mermaid.tokens_newline follows.noLink follows.stops]
  simp only [Option.map_map, Function.comp_def, Statement.mermaidTokens, isFirst, isSecond,
    List.cons_append, List.nil_append]
  rfl

include letters in
include hex in
theorem tokens_labelledRow {label : String} (shown : label ≠ "")
    (unsaid : mentionsDirection words label = false) {rest : List Char} (follows : Follows rest) :
    (Mermaid.lexer words).tokens Mermaid.ready
        (Mermaid.endLine (mermaidRow sha256 (.package label)) ++ rest) =
      ((Mermaid.lexer words).tokens Mermaid.ready rest).map
        (Statement.mermaidTokens sha256 (.package label) ++ ·) := by
  obtain ⟨name, isName, digits⟩ := nodeName_hex hex label
  have text : Mermaid.endLine (mermaidRow sha256 (.package label)) ++ rest =
      ' ' :: ' ' :: 'n' :: (name ++ '[' :: '"' ::
        ((mermaidSafeLabel label).toList ++ '"' :: ']' :: '\n' :: rest)) := by
    simp [Mermaid.endLine, mermaidRow, isName]
  have quiet {front text : List Char} (framed : ∀ letter ∈ front, framing letter = true)
      (same : text = front ++ '"' ::
        ((mermaidSafeLabel label).toList ++ '"' :: ']' :: '\n' :: rest)) :
      Mermaid.direction Mermaid.ready words text = none := by
    rw [same]
    exact labelled_quiet letters unsaid framed rest
  have framedNode := framing_node digits
  have framedTail := framing_cons (rfl : framing ' ' = true) framedNode
  have framedRow := framing_cons (rfl : framing ' ' = true) framedTail
  have closed : '"' ∉ (mermaidSafeLabel label).toList := by
    intro inside
    exact absurd (mermaidSafeLabel_plain inside) (by decide)
  have plain : (mermaidSafeLabel label).toList.head? ≠ some '\x60' := by
    intro isHead
    exact absurd (mermaidSafeLabel_plain (List.mem_of_mem_head? isHead)) (by decide)
  rw [text, Mermaid.tokens_space (quiet framedRow (by simp)) (link_blank_node _),
    Mermaid.tokens_space (quiet framedTail (by simp)) (link_node _),
    tokens_nodeName digits (quiet framedNode (by simp)) (by decide) rfl,
    Mermaid.tokens_label (mermaidSafeLabel_nonempty shown) closed plain (quiet framing_bracket rfl),
    Mermaid.tokens_newline follows.noLink follows.stops]
  simp only [Option.map_map, Function.comp_def, Statement.mermaidTokens, isName,
    List.cons_append, List.nil_append]

include letters in
include hex in
/-- A label that says a direction takes its whole line along. -/
theorem tokens_saidRow {label : String} (said : mentionsDirection words label = true)
    (rest : List Char) : ∃ other left, (Mermaid.lexer words).tokens Mermaid.ready
        (Mermaid.endLine (mermaidRow sha256 (.package label)) ++ rest) =
      ((Mermaid.lexer words).tokens Mermaid.ready left).map ([.direction other] ++ ·) := by
  obtain ⟨name, isName, digits⟩ := nodeName_hex hex label
  have text : Mermaid.endLine (mermaidRow sha256 (.package label)) ++ rest =
      (' ' :: ' ' :: 'n' :: (name ++ ['['])) ++ '"' ::
        ((mermaidSafeLabel label).toList ++ '"' :: ']' :: '\n' :: rest) := by
    simp [Mermaid.endLine, mermaidRow, isName]
  have framed := framing_cons (rfl : framing ' ' = true)
    (framing_cons (rfl : framing ' ' = true) (framing_node digits))
  obtain ⟨word, isWord, there⟩ := List.any_eq_true.mp said
  rw [← directionRest_labelled letters isWord framed label rest] at there
  obtain ⟨other, left, found⟩ := @Mermaid.direction_some Mermaid.ready _ _ _ isWord there
  exact ⟨other, left, by rw [text]; exact Mermaid.tokens_direction found⟩

include hex in
theorem follows_rows (list : List Statement) :
    Follows (list.flatMap fun statement => Mermaid.endLine (mermaidRow sha256 statement)) := by
  cases list with
  | nil => exact follows_nil
  | cons statement list =>
      cases statement with
      | package label | target label =>
          obtain ⟨name, isName, _⟩ := nodeName_hex hex label
          simp only [List.flatMap_cons, mermaidRow, isName, Mermaid.endLine, List.cons_append]
          exact follows_node _
      | arrow source destination =>
          obtain ⟨name, isName, _⟩ := nodeName_hex hex source
          simp only [List.flatMap_cons, mermaidRow, isName, Mermaid.endLine, List.cons_append]
          exact follows_node _

include letters in
include hex in
/-- One statement and what is left, or a direction in its place. -/
theorem tokens_mermaidRow {statement : Statement} (shown : ∀ label ∈ statement.labels, label ≠ "")
    {rest : List Char} (follows : Follows rest) (others : List Mermaid.Token) :
    (Mermaid.lexer words).tokens Mermaid.ready
        (Mermaid.endLine (mermaidRow sha256 statement) ++ rest) =
      some (statement.mermaidTokens sha256 ++ others) ↔
      (∀ label ∈ statement.labels, mentionsDirection words label = false) ∧
        (Mermaid.lexer words).tokens Mermaid.ready rest = some others := by
  have cancel (front : List Mermaid.Token) (read : Option (List Mermaid.Token)) :
      read.map (front ++ ·) = some (front ++ others) ↔ read = some others := by
    cases read with
    | none => simp
    | some tokens => simp
  have labelled (label : String) (shown : label ≠ "") :
      (Mermaid.lexer words).tokens Mermaid.ready
          (Mermaid.endLine (mermaidRow sha256 (.package label)) ++ rest) =
        some (Statement.mermaidTokens sha256 (.package label) ++ others) ↔
        mentionsDirection words label = false ∧
          (Mermaid.lexer words).tokens Mermaid.ready rest = some others := by
    cases said : mentionsDirection words label with
    | false =>
        rw [tokens_labelledRow hex letters shown said follows, cancel]
        simp
    | true =>
        obtain ⟨other, left, found⟩ := tokens_saidRow hex letters said rest
        rw [found]
        cases (Mermaid.lexer words).tokens Mermaid.ready left with
        | none => simp
        | some tokens => simp [Statement.mermaidTokens]
  cases statement with
  | package label | target label =>
      have labels : (∀ other ∈ [label], mentionsDirection words other = false) ↔
          mentionsDirection words label = false := by simp
      exact (labelled label (shown label List.mem_cons_self)).trans
        (and_congr_left fun _ => labels.symm)
  | arrow source destination =>
      rw [tokens_arrowRow hex source destination follows, cancel]
      simp [Statement.labels]

include letters in
include hex in
theorem tokens_mermaidRows {list : List Statement}
    (shown : ∀ statement ∈ list, ∀ label ∈ statement.labels, label ≠ "") :
    (Mermaid.lexer words).tokens Mermaid.ready
        (list.flatMap fun statement => Mermaid.endLine (mermaidRow sha256 statement)) =
      some (list.flatMap (Statement.mermaidTokens sha256)) ↔
      ∀ statement ∈ list, ∀ label ∈ statement.labels, mentionsDirection words label = false := by
  induction list with
  | nil =>
      simp only [List.not_mem_nil, false_imp_iff, implies_true, iff_true]
      rfl
  | cons statement list inductionHypothesis =>
      rw [List.forall_mem_cons] at shown
      rw [List.flatMap_cons, List.flatMap_cons,
        tokens_mermaidRow hex letters shown.1 (follows_rows hex list),
        inductionHypothesis shown.2, List.forall_mem_cons]

def mermaidComments : List (List Char) := ["%%".toList ++ authorityNote, "%%".toList ++ interchangeNote]

def graphRow : List Char := ['g', 'r', 'a', 'p', 'h', ' ', 'L', 'R']

def mermaidPreamble : List Mermaid.Token := [.graph, .orientation ['L', 'R'], .newline]

theorem mermaidRendering_rows (display : PackageVersionIdentity → String)
    (document : DependencyGraphDocument) : mermaidRendering sha256 display document =
      (mermaidComments ++ graphRow :: (statements display document.graph).map
        (mermaidRow sha256)).flatMap Mermaid.endLine := by
  have heading : mermaidHeading.toList =
      (mermaidComments ++ [graphRow]).flatMap Mermaid.endLine := by decide +kernel
  have lines : (mermaidLines sha256 display document.graph).flatMap String.toList =
      ((statements display document.graph).map (mermaidRow sha256)).flatMap Mermaid.endLine := by
    rw [mermaidLines_eq, List.flatMap_map, List.flatMap_map]
    simp only [mermaidLine_toList]
  rw [mermaidRendering, List.flatMap_cons, lines, heading, ← List.flatMap_append,
    List.append_assoc, List.singleton_append]

include hex in
theorem nodeName_unmarked (text : String) :
    (nodeName sha256 text).all Mermaid.unmarked = true := by
  obtain ⟨name, isName, digits⟩ := nodeName_hex hex text
  rw [isName, List.all_eq_true]
  intro letter inside
  exact (inLine_framing (framing_cons rfl (framing_name digits) letter inside)).2

include hex in
theorem mermaidRow_plain (statement : Statement) :
    Mermaid.isComment (Mermaid.endLine (mermaidRow sha256 statement)) = false ∧
      (mermaidRow sha256 statement).all Mermaid.unmarked = true := by
  have noComment (rest : List Char) : Mermaid.isComment (' ' :: ' ' :: 'n' :: rest) = false := rfl
  cases statement with
  | package label | target label =>
      have plain : (mermaidSafeLabel label).toList.all Mermaid.unmarked = true :=
        List.all_eq_true.mpr fun letter inside => (inLine_plain (mermaidSafeLabel_plain inside)).2
      constructor
      · obtain ⟨name, isName, _⟩ := nodeName_hex hex label
        simp only [mermaidRow, isName, Mermaid.endLine, List.cons_append]
        exact noComment _
      · simp only [mermaidRow, List.all_cons, List.all_append, nodeName_unmarked hex, plain]
        rfl
  | arrow source destination =>
      constructor
      · obtain ⟨name, isName, _⟩ := nodeName_hex hex source
        simp only [mermaidRow, isName, Mermaid.endLine, List.cons_append]
        exact noComment _
      · simp only [mermaidRow, List.all_cons, List.all_append, nodeName_unmarked hex]
        rfl

include hex in
/-- The comment lines are the two of the heading, and the rest is read after it. -/
theorem read_mermaidRendering (display : PackageVersionIdentity → String)
    (document : DependencyGraphDocument) :
    Mermaid.read words (mermaidRendering sha256 display document) =
      ((Mermaid.lexer words).tokens Mermaid.ready
        ((statements display document.graph).flatMap fun statement =>
          Mermaid.endLine (mermaidRow sha256 statement))).map fun tokens =>
            ⟨mermaidComments.map Mermaid.endLine, mermaidPreamble ++ tokens⟩ := by
  have commented : ∀ row ∈ mermaidComments,
      Mermaid.isComment (Mermaid.endLine row) = true ∧ row.all Mermaid.unmarked = true := by
    decide +kernel
  have plain : ∀ row ∈ graphRow :: (statements display document.graph).map (mermaidRow sha256),
      Mermaid.isComment (Mermaid.endLine row) = false ∧ row.all Mermaid.unmarked = true := by
    rw [List.forall_mem_cons]
    refine ⟨by decide, ?_⟩
    intro row isRow
    obtain ⟨statement, _, rfl⟩ := List.mem_map.mp isRow
    exact mermaidRow_plain hex statement
  have noMatter : ¬['-', '-', '-'] <+: (mermaidComments ++ graphRow ::
      (statements display document.graph).map (mermaidRow sha256)).flatMap Mermaid.endLine := by
    intro matter
    cases (List.cons_prefix_cons.mp matter).1
  have follows := follows_rows hex (statements display document.graph)
  rw [mermaidRendering_rows, Mermaid.read_rows (fun row isRow => (commented row isRow).1)
    (fun row isRow => (plain row isRow).1)
    (List.forall_mem_append.mpr ⟨fun row isRow => (commented row isRow).2,
      fun row isRow => (plain row isRow).2⟩) noMatter, List.flatMap_cons, List.flatMap_map]
  have graph := @Mermaid.tokens_graph words _ follows.noLink follows.stops
  refine (congrArg _ graph).trans ?_
  rw [Option.map_map]
  rfl

end Mermaid

/-! ## What both drawings hold -/

theorem dependencyTarget_shown (dependency : DeclaredDependency) :
    dependencyTarget dependency ≠ "" := by
  intro same
  have none := congrArg String.toList same
  simp [dependencyTarget] at none

theorem labels_shown {display : PackageVersionIdentity → String}
    (shown : ∀ identity, display identity ≠ "") (graph : DependencyGraphData) :
    ∀ statement ∈ statements display graph, ∀ label ∈ statement.labels, label ≠ "" := by
  cases graph with
  | declared package dependencies =>
      rw [statements, List.forall_mem_cons]
      constructor
      · exact List.forall_mem_singleton.mpr (shown package)
      · intro statement isStatement
        obtain ⟨dependency, _, isLine⟩ := List.mem_flatMap.mp isStatement
        rcases List.mem_cons.mp isLine with rfl | isLine
        · exact List.forall_mem_singleton.mpr (dependencyTarget_shown dependency)
        · rw [List.mem_singleton.mp isLine]
          exact List.forall_mem_nil _
  | resolved _ _ nodes edges _ _ _ =>
      rw [statements, List.forall_mem_append]
      constructor
      · intro statement isStatement
        obtain ⟨node, _, rfl⟩ := List.mem_map.mp isStatement
        exact List.forall_mem_singleton.mpr (shown node.id)
      · intro statement isStatement
        obtain ⟨edge, _, rfl⟩ := List.mem_map.mp isStatement
        exact List.forall_mem_nil _

/-- The drawing in DOT always holds the metadata in its labels.  The drawing in Mermaid
does where no label says a direction: the lexer takes a line with one for a direction. -/
theorem drawings_exact_iff {I : Interfaces} {contract : GraphContract I}
    (bounded : contract.maxEncodedBytes < 2 ^ 64)
    (hex : ∀ bytes, isSha256Hex (I.sha256 bytes) = true)
    {display : PackageVersionIdentity → String} (shown : ∀ identity, display identity ≠ "")
    {words : List (List Char)} (letters : ∀ word ∈ words, word.all Char.isUpper = true)
    (document : DependencyGraphDocument) :
    (∀ text, renderDot contract display document = .ok (asBytes text) →
      Dot.tokens text.toList =
        some (dotPreamble ++ (statements display document.graph).flatMap
          (Statement.dotTokens I.sha256) ++ [.mark '\x7d'])) ∧
    ∀ text, renderMermaid contract display document = .ok (asBytes text) →
      (Mermaid.read words text.toList =
        some ⟨mermaidComments.map Mermaid.endLine, mermaidPreamble ++
          (statements display document.graph).flatMap (Statement.mermaidTokens I.sha256)⟩ ↔
        ∀ statement ∈ statements display document.graph, ∀ label ∈ statement.labels,
          mentionsDirection words label = false) := by
  constructor
  · intro text drawn
    rcases renderDot_writes bounded display document with written | ⟨_, refused⟩
    · rw [written, Except.ok.injEq] at drawn
      rw [← asBytes_injective drawn, String.toList_ofList]
      exact tokens_dotRendering hex display document
    · rw [refused] at drawn
      cases drawn
  · intro text drawn
    rcases renderMermaid_writes bounded display document with written | ⟨_, refused⟩
    · have labelled := labels_shown shown document.graph
      rw [written, Except.ok.injEq] at drawn
      rw [← asBytes_injective drawn, String.toList_ofList, read_mermaidRendering hex,
        ← tokens_mermaidRows hex letters labelled]
      cases (Mermaid.lexer words).tokens Mermaid.ready _ with
      | none => simp
      | some tokens => simp
    · rw [refused] at drawn
      cases drawn

/-! ## A requirement that is taken for a direction -/

namespace DiagramSample

def packageText : String := "registry:registry.zpkg.net::acme/http-kit@1.2.0"

def plainText : String := "registry:registry.zpkg.net::acme/tls ^2"

def hostileText : String := "registry:registry.zpkg.net::acme/tls direction LR"

/-- The hashes of the sample labels, and another for everything else. -/
def labelHash (bytes : Bytes) : String :=
  if bytes = asBytes packageText then
    "35de3df1885aec9a7eaa06022f15f354ec3c9d5c467c4e7a1a097fdf3799b42e"
  else if bytes = asBytes plainText then
    "04bb1d30ac89fa534ff12c945d7ac1647c7de2a11978550229a91946ae2ddb93"
  else if bytes = asBytes hostileText then
    "a46f5b9147d443ce4cd8914e7cf2317b7cc73e723bdc3ef17631fbf0c5311b14"
  else String.ofList (List.replicate 64 '0')

theorem labelHash_hex (bytes : Bytes) : isSha256Hex (labelHash bytes) = true := by
  unfold labelHash
  split
  · decide +kernel
  split
  · decide +kernel
  split
  · decide +kernel
  · decide +kernel

def interfaces : Interfaces := { Interfaces.sample [] [] with sha256 := labelHash }

def contract : GraphContract interfaces where
  schema := sampleContract.schema
  maxNodes := sampleContract.maxNodes
  maxEdges := sampleContract.maxEdges
  maxEncodedBytes := sampleContract.maxEncodedBytes
  digestHeader := sampleContract.digestHeader
  authoritativeHeader := sampleContract.authoritativeHeader
  validHeaderValue := sampleContract.validHeaderValue
  manifestFromValue _ := none
  dependencies _ := []
  buildDependencies _ := []
  validVersion := sampleContract.validVersion
  finalize := sampleContract.finalize
  verifyDigest := sampleContract.verifyDigest
  canonicalDocumentBytes := sampleContract.canonicalDocumentBytes

def display (identity : PackageVersionIdentity) : String :=
  identity.registryId ++ "::" ++ identity.org ++ "/" ++ identity.name ++ "@" ++ identity.version

theorem display_shown (identity : PackageVersionIdentity) : display identity ≠ "" := by
  intro same
  have none := congrArg String.toList same
  simp [display] at none

/-- One package that requires `acme/tls`. -/
def document (requirement : String) : DependencyGraphDocument where
  schema := contract.schema
  graph := .declared ⟨"registry:registry.zpkg.net", "acme", "http-kit", "1.2.0"⟩
    [⟨"registry:registry.zpkg.net", "acme", "tls", requirement, .runtime, false, true, [], none⟩]
  graphDigest := none

def dotText : String := String.ofList (dotRendering labelHash display (document "^2"))

def mermaidText (requirement : String) : String :=
  String.ofList (mermaidRendering labelHash display (document requirement))

theorem dot_drawn : renderDot contract display (document "^2") = .ok (asBytes dotText) := by
  apply (renderDot_writes (by decide) display _).resolve_right
  rintro ⟨tooLong, _⟩
  exact absurd tooLong (by decide +kernel)

theorem mermaid_drawn : renderMermaid contract display (document "^2") =
    .ok (asBytes (mermaidText "^2")) := by
  apply (renderMermaid_writes (by decide) display _).resolve_right
  rintro ⟨tooLong, _⟩
  exact absurd tooLong (by decide +kernel)

theorem hostile_drawn : renderMermaid contract display (document "direction LR") =
    .ok (asBytes (mermaidText "direction LR")) := by
  apply (renderMermaid_writes (by decide) display _).resolve_right
  rintro ⟨tooLong, _⟩
  exact absurd tooLong (by decide +kernel)

end DiagramSample

open DiagramSample in
theorem drawings_exact_sample :
    Dot.tokens dotText.toList =
      some (dotPreamble ++ (statements display (document "^2").graph).flatMap
        (Statement.dotTokens labelHash) ++ [.mark '\x7d']) ∧
    Mermaid.read Mermaid.directionWords (mermaidText "^2").toList =
      some ⟨mermaidComments.map Mermaid.endLine, mermaidPreamble ++
        (statements display (document "^2").graph).flatMap
          (Statement.mermaidTokens labelHash)⟩ := by
  have exact := @drawings_exact_iff interfaces contract (by decide) labelHash_hex display
    display_shown Mermaid.directionWords (by decide) (document "^2")
  exact ⟨exact.1 dotText dot_drawn,
    (exact.2 (mermaidText "^2") mermaid_drawn).mpr (by decide +kernel)⟩

open DiagramSample in
/-- The node of the requirement is missing, and the line is a direction instead. -/
theorem requirement_drawn_as_direction :
    renderMermaid contract display (document "direction LR") =
        .ok (asBytes (mermaidText "direction LR")) ∧
      Mermaid.read Mermaid.directionWords (mermaidText "direction LR").toList =
        some ⟨mermaidComments.map Mermaid.endLine, mermaidPreamble ++
          (Statement.package packageText).mermaidTokens labelHash ++
            .direction ['L', 'R'] :: .newline ::
              (Statement.arrow packageText hostileText).mermaidTokens labelHash⟩ ∧
      Mermaid.read Mermaid.directionWords (mermaidText "direction LR").toList ≠
        some ⟨mermaidComments.map Mermaid.endLine, mermaidPreamble ++
          (statements display (document "direction LR").graph).flatMap
            (Statement.mermaidTokens labelHash)⟩ := by
  have read : Mermaid.read Mermaid.directionWords (mermaidText "direction LR").toList =
      some ⟨mermaidComments.map Mermaid.endLine, mermaidPreamble ++
        (Statement.package packageText).mermaidTokens labelHash ++
          .direction ['L', 'R'] :: .newline ::
            (Statement.arrow packageText hostileText).mermaidTokens labelHash⟩ := by
    rw [mermaidText, String.toList_ofList]
    decide +kernel
  refine ⟨hostile_drawn, read, ?_⟩
  intro exact
  rw [read] at exact
  have lengths := congrArg (fun drawing => drawing.tokens.length) (Option.some.inj exact)
  exact absurd lengths (by decide)

end GraphDrawing

end ZedRegistry
