import Mathlib.Data.Char
import ZedRegistry.Lib.Delimiters
import ZedRegistry.Lib.Lexing

/-!
# The tokens of DOT

The lexical grammar of the DOT language: names, numerals, quoted and HTML strings, edge
operators and marks, with the comments of C, C++ and the shell between them.  In a quoted
string a backslash takes the character after it along, so only a quote that stands alone
closes it.
-/

set_option autoImplicit false

namespace Dot

open Delimiters Lexing

inductive Token where
  | comment (text : List Char)
  | name (text : List Char)
  | numeral (text : List Char)
  | quoted (spelling : List Char)
  | html (text : List Char)
  | directed
  | undirected
  | mark (character : Char)
  deriving DecidableEq

def blank (character : Char) : Bool := [' ', '\t', '\r', '\n'].contains character

def nameStart (character : Char) : Bool :=
  character.isAlpha || character = '_' || 0x80 ≤ character.toNat

def nameRest (character : Char) : Bool := nameStart character || character.isDigit

def inLine (character : Char) : Bool := character ≠ '\n'

def marks : List Char := ['\x7b', '\x7d', '[', ']', ';', ',', '=', ':', '+']

/-! ## What stands at the front -/

/-- Up to the quote that closes a string. -/
def quotedRest : List Char → Option (List Char × List Char)
  | [] => none
  | '"' :: rest => some ([], rest)
  | '\\' :: character :: rest =>
    (quotedRest rest).map fun read => ('\\' :: character :: read.1, read.2)
  | character :: rest => (quotedRest rest).map fun read => (character :: read.1, read.2)

/-- Up to the end of a comment. -/
def commentRest : List Char → Option (List Char × List Char)
  | [] => none
  | '*' :: '/' :: rest => some ([], rest)
  | character :: rest => (commentRest rest).map fun read => (character :: read.1, read.2)

/-- Up to the bracket that closes so many open ones. -/
def htmlRest : Nat → List Char → Option (List Char × List Char)
  | _, [] => none
  | depth, character :: rest =>
    if character = '>' ∧ depth ≤ 1 then some ([], rest)
    else
      (htmlRest (if character = '<' then depth + 1 else if character = '>' then depth - 1
        else depth) rest).map fun read => (character :: read.1, read.2)

/-- Digits, and perhaps a point and more digits. -/
def numeral (text : List Char) : List Char × List Char :=
  match text.dropWhile Char.isDigit with
  | '.' :: rest =>
    (text.takeWhile Char.isDigit ++ '.' :: rest.takeWhile Char.isDigit, rest.dropWhile Char.isDigit)
  | rest => (text.takeWhile Char.isDigit, rest)

def front : List Char → Option (List Token × List Char)
  | [] => none
  | '"' :: rest => (quotedRest rest).map fun read => ([.quoted read.1], read.2)
  | '<' :: rest => (htmlRest 1 rest).map fun read => ([.html read.1], read.2)
  | '#' :: rest => some ([.comment (rest.takeWhile inLine)], rest.dropWhile inLine)
  | '/' :: '/' :: rest => some ([.comment (rest.takeWhile inLine)], rest.dropWhile inLine)
  | '/' :: '*' :: rest => (commentRest rest).map fun read => ([.comment read.1], read.2)
  | '-' :: '>' :: rest => some ([.directed], rest)
  | '-' :: '-' :: rest => some ([.undirected], rest)
  | character :: rest =>
    if blank character then some ([], rest)
    else if nameStart character then
      some ([.name (character :: rest.takeWhile nameRest)], rest.dropWhile nameRest)
    else if marks.contains character then some ([.mark character], rest)
    else if character = '-' then
      if (numeral rest).1.any Char.isDigit then
        some ([.numeral ('-' :: (numeral rest).1)], (numeral rest).2)
      else none
    else if (numeral (character :: rest)).1.any Char.isDigit then
      some ([.numeral (numeral (character :: rest)).1], (numeral (character :: rest)).2)
    else none

/-! ## Every step takes something -/

theorem quotedRest_length {text : List Char} {read : List Char × List Char}
    (found : quotedRest text = some read) : read.2.length < text.length := by
  induction text using quotedRest.induct generalizing read with
  | case1 => cases found
  | case2 rest =>
      cases found
      exact Nat.lt_succ_self _
  | case3 character rest inductionHypothesis =>
      obtain ⟨inner, later, rfl⟩ := Option.map_eq_some_iff.mp found
      have shorter := inductionHypothesis later
      simp only [List.length_cons]
      omega
  | case4 character rest notQuote notPair inductionHypothesis =>
      rw [quotedRest.eq_4 character rest notQuote notPair] at found
      obtain ⟨inner, later, rfl⟩ := Option.map_eq_some_iff.mp found
      have shorter := inductionHypothesis later
      simp only [List.length_cons]
      omega

theorem commentRest_length {text : List Char} {read : List Char × List Char}
    (found : commentRest text = some read) : read.2.length < text.length := by
  induction text using commentRest.induct generalizing read with
  | case1 => cases found
  | case2 rest =>
      cases found
      simp only [List.length_cons]
      omega
  | case3 character rest notEnd inductionHypothesis =>
      rw [commentRest.eq_3 character rest notEnd] at found
      obtain ⟨inner, later, rfl⟩ := Option.map_eq_some_iff.mp found
      have shorter := inductionHypothesis later
      simp only [List.length_cons]
      omega

theorem htmlRest_length {depth : Nat} {text : List Char} {read : List Char × List Char}
    (found : htmlRest depth text = some read) : read.2.length < text.length := by
  induction text generalizing depth read with
  | nil => cases found
  | cons character rest inductionHypothesis =>
      rw [htmlRest] at found
      by_cases closes : character = '>' ∧ depth ≤ 1
      · rw [if_pos closes] at found
        cases found
        exact Nat.lt_succ_self _
      · rw [if_neg closes] at found
        obtain ⟨inner, later, rfl⟩ := Option.map_eq_some_iff.mp found
        have shorter := inductionHypothesis later
        simp only [List.length_cons]
        omega

theorem numeral_length (text : List Char) :
    (numeral text).1.length + (numeral text).2.length = text.length := by
  have cut := congrArg List.length (List.takeWhile_append_dropWhile (p := Char.isDigit) (l := text))
  rw [List.length_append] at cut
  unfold numeral
  split
  · rename_i rest after
    have inner := congrArg List.length
      (List.takeWhile_append_dropWhile (p := Char.isDigit) (l := rest))
    rw [after] at cut
    simp only [List.length_append, List.length_cons] at cut inner ⊢
    omega
  · exact cut

theorem any_length {text : List Char} {keep : Char → Bool} (some : text.any keep = true) :
    0 < text.length := by
  cases text with
  | nil => cases some
  | cons character text => exact Nat.succ_pos _

theorem front_length {text rest : List Char} {read : List Token}
    (found : front text = some (read, rest)) : rest.length < text.length := by
  unfold front at found
  split at found
  · cases found
  · obtain ⟨inner, later, same⟩ := Option.map_eq_some_iff.mp found
    cases same
    exact Nat.lt_succ_of_lt (quotedRest_length later)
  · obtain ⟨inner, later, same⟩ := Option.map_eq_some_iff.mp found
    cases same
    exact Nat.lt_succ_of_lt (htmlRest_length later)
  · cases found
    exact Nat.lt_succ_of_le (List.dropWhile_suffix inLine).length_le
  · cases found
    exact Nat.lt_succ_of_le (Nat.le_succ_of_le (List.dropWhile_suffix inLine).length_le)
  · obtain ⟨inner, later, same⟩ := Option.map_eq_some_iff.mp found
    cases same
    exact Nat.lt_succ_of_lt (Nat.lt_succ_of_lt (commentRest_length later))
  · cases found
    exact Nat.lt_succ_of_lt (Nat.lt_succ_self _)
  · cases found
    exact Nat.lt_succ_of_lt (Nat.lt_succ_self _)
  · rename_i character remaining _ _ _ _ _ _ _
    split at found
    · cases found
      exact Nat.lt_succ_self _
    split at found
    · cases found
      exact Nat.lt_succ_of_le (List.dropWhile_suffix nameRest).length_le
    split at found
    · cases found
      exact Nat.lt_succ_self _
    split at found
    · split at found
      · cases found
        have whole := numeral_length remaining
        simp only [List.length_cons]
        omega
      · cases found
    split at found
    · rename_i digits
      cases found
      have whole := numeral_length (character :: remaining)
      have taken := any_length digits
      omega
    · cases found

def lexer : Lexer Unit Token where
  next _ text := (front text).map fun step => (step.1, (), step.2)
  accepts _ := true
  shrinks := by
    intro state text read after rest found
    obtain ⟨step, later, same⟩ := Option.map_eq_some_iff.mp found
    cases same
    exact front_length later

def tokens (text : List Char) : Option (List Token) := lexer.tokens () text

/-! ## Reading piece by piece -/

/-- What may stand between the quotes of a string. -/
inductive Closed : List Char → Prop where
  | nil : Closed []
  | plain {character : Char} {rest : List Char} (notQuote : character ≠ '"')
      (notSlash : character ≠ '\\') (closed : Closed rest) : Closed (character :: rest)
  | pair (character : Char) {rest : List Char} (closed : Closed rest) :
      Closed ('\\' :: character :: rest)

theorem Closed.append {left right : List Char} (first : Closed left) (second : Closed right) :
    Closed (left ++ right) := by
  induction first with
  | nil => exact second
  | plain notQuote notSlash _ inductionHypothesis =>
      exact .plain notQuote notSlash inductionHypothesis
  | pair character _ inductionHypothesis => exact .pair character inductionHypothesis

theorem closed_flatMap {spell : Char → List Char} (each : ∀ character, Closed (spell character))
    (text : List Char) : Closed (text.flatMap spell) := by
  induction text with
  | nil => exact .nil
  | cons character text inductionHypothesis => exact (each character).append inductionHypothesis

theorem quotedRest_closed {spelling : List Char} (closed : Closed spelling) (rest : List Char) :
    quotedRest (spelling ++ '"' :: rest) = some (spelling, rest) := by
  induction closed with
  | nil => rfl
  | @plain character spelling notQuote notSlash _ inductionHypothesis =>
      rw [List.cons_append, quotedRest.eq_4 _ _ notQuote fun _ _ same _ => notSlash same,
        inductionHypothesis]
      rfl
  | pair character _ inductionHypothesis =>
      rw [List.cons_append, List.cons_append, quotedRest, inductionHypothesis]
      rfl

theorem tokens_front {text rest : List Char} {read : List Token}
    (found : front text = some (read, rest)) :
    tokens text = (tokens rest).map (read ++ ·) := by
  apply Lexer.tokens_next
  change (front text).map _ = _
  rw [found]
  rfl

theorem tokens_one {text rest : List Char} {token : Token}
    (found : front text = some ([token], rest)) :
    tokens text = (tokens rest).map (token :: ·) := tokens_front found

/-- Characters that begin something longer than themselves. -/
def openers : List Char := ['"', '<', '#', '/', '-']

theorem front_other {character : Char} (other : character ∉ openers) (rest : List Char) :
    front (character :: rest) =
      if blank character then some ([], rest)
      else if nameStart character then
        some ([.name (character :: rest.takeWhile nameRest)], rest.dropWhile nameRest)
      else if marks.contains character then some ([.mark character], rest)
      else if (numeral (character :: rest)).1.any Char.isDigit then
        some ([.numeral (numeral (character :: rest)).1], (numeral (character :: rest)).2)
      else none := by
  have apart : ∀ opener ∈ openers, character ≠ opener := by
    intro opener isOpener same
    exact other (same ▸ isOpener)
  rw [front.eq_9 _ _ (apart _ (by decide)) (apart _ (by decide)) (apart _ (by decide))
    (fun _ same _ => apart '/' (by decide) same) (fun _ same _ => apart '/' (by decide) same)
    (fun _ same _ => apart '-' (by decide) same) (fun _ same _ => apart '-' (by decide) same),
    if_neg (apart '-' (by decide))]

theorem tokens_nil : tokens [] = some [] := rfl

theorem tokens_blank {character : Char} (isBlank : blank character = true) (rest : List Char) :
    tokens (character :: rest) = tokens rest := by
  have other : character ∉ openers := by
    intro isOpener
    have none : openers.all (fun opener => !blank opener) = true := by decide
    have notBlank := List.all_eq_true.mp none character isOpener
    rw [isBlank] at notBlank
    cases notBlank
  rw [tokens_front ((front_other other rest).trans (if_pos isBlank))]
  simp

theorem tokens_mark {character : Char} (isMark : character ∈ marks) (rest : List Char) :
    tokens (character :: rest) = (tokens rest).map (.mark character :: ·) := by
  have all : marks.all (fun mark => !openers.contains mark && !blank mark && !nameStart mark) =
      true := by decide
  have facts := List.all_eq_true.mp all character isMark
  simp only [Bool.and_eq_true, Bool.not_eq_true', List.contains_eq_mem, decide_eq_false_iff_not]
    at facts
  obtain ⟨⟨other, notBlank⟩, notName⟩ := facts
  apply tokens_one
  simp [front_other other, notBlank, notName, isMark]

theorem not_opener_of_nameStart {character : Char} (start : nameStart character = true) :
    character ∉ openers ∧ blank character = false := by
  have all : (openers ++ [' ', '\t', '\r', '\n']).all (fun opener => !nameStart opener) = true := by
    decide
  rw [List.all_append, Bool.and_eq_true] at all
  constructor
  · intro isOpener
    have notStart := List.all_eq_true.mp all.1 character isOpener
    rw [start] at notStart
    cases notStart
  · rw [Bool.eq_false_iff]
    intro isBlank
    have notStart := List.all_eq_true.mp all.2 character (List.contains_iff_mem.mp isBlank)
    rw [start] at notStart
    cases notStart

def isName : List Char → Bool
  | [] => false
  | character :: rest => nameStart character && rest.all nameRest

theorem tokens_name {name : List Char} (named : isName name = true) {rest : List Char}
    (stops : Stops nameRest rest) :
    tokens (name ++ rest) = (tokens rest).map (.name name :: ·) := by
  cases name with
  | nil => cases named
  | cons character name =>
      obtain ⟨start, kept⟩ := Bool.and_eq_true_iff.mp named
      obtain ⟨other, notBlank⟩ := not_opener_of_nameStart start
      apply tokens_one
      rw [List.cons_append, front_other other, takeWhile_front (List.all_eq_true.mp kept) stops,
        dropWhile_front (List.all_eq_true.mp kept) stops, notBlank, if_neg Bool.false_ne_true,
        if_pos start]

theorem tokens_quoted {spelling : List Char} (closed : Closed spelling) (rest : List Char) :
    tokens ('"' :: (spelling ++ '"' :: rest)) =
      (tokens rest).map (.quoted spelling :: ·) := by
  apply tokens_one
  rw [front, quotedRest_closed closed]
  rfl

theorem tokens_comment {text : List Char} (line : '\n' ∉ text) (rest : List Char) :
    tokens ('/' :: '/' :: (text ++ '\n' :: rest)) =
      (tokens rest).map (.comment text :: ·) := by
  have kept : ∀ character ∈ text, inLine character = true := by
    intro character inside
    apply decide_eq_true
    intro same
    exact line (same ▸ inside)
  have stops : Stops inLine ('\n' :: rest) := stops_cons (by decide)
  have found : front ('/' :: '/' :: (text ++ '\n' :: rest)) =
      some ([.comment text], '\n' :: rest) := by
    rw [front, takeWhile_front kept stops, dropWhile_front kept stops]
  rw [tokens_front found, tokens_blank (by decide)]
  rfl

theorem tokens_directed (rest : List Char) :
    tokens ('-' :: '>' :: rest) = (tokens rest).map (.directed :: ·) :=
  tokens_one rfl

example : tokens "a -> \"b\\\\\" [x=1.5]; // \"c".toList =
    some [.name ['a'], .directed, .quoted "b\\\\".toList, .mark '[', .name ['x'], .mark '=',
      .numeral "1.5".toList, .mark ']', .mark ';', .comment " \"c".toList] := by decide

end Dot
