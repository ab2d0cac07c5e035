import Mathlib.Algebra.Order.Ring.Int
import Mathlib.Data.List.Basic

/-!
# Lexers

A lexer takes the front off a text, token by token, until nothing is left.  Its result
does not depend on how the steps are counted, so a text whose front is understood is read
by reading what is left.
-/

set_option autoImplicit false

namespace Lexing

/-- What stands at the front of a text, the state after it, and what is left. -/
structure Lexer (State Token : Type) where
  next : State → List Char → Option (List Token × State × List Char)
  accepts : State → Bool
  shrinks : ∀ {state text read after rest},
    next state text = some (read, after, rest) → rest.length < text.length

namespace Lexer

variable {State Token : Type} (lexer : Lexer State Token)

def lex : Nat → State → List Char → Option (List Token)
  | _, state, [] => if lexer.accepts state then some [] else none
  | 0, _, _ :: _ => none
  | fuel + 1, state, character :: text => do
    let (read, after, rest) ← lexer.next state (character :: text)
    let others ← lex fuel after rest
    pure (read ++ others)

def tokens (state : State) (text : List Char) : Option (List Token) :=
  lexer.lex text.length state text

variable {lexer}

theorem lex_enough {state : State} {text : List Char} {fuel other : Nat}
    (enough : text.length ≤ fuel) (otherEnough : text.length ≤ other) :
    lexer.lex fuel state text = lexer.lex other state text := by
  induction fuel generalizing state text other with
  | zero =>
      rw [List.length_eq_zero_iff.mp (Nat.le_zero.mp enough)]
      cases other <;> rfl
  | succ fuel inductionHypothesis =>
      cases text with
      | nil => cases other <;> rfl
      | cons character text =>
          cases other with
          | zero => simp at otherEnough
          | succ other =>
              simp only [List.length_cons] at enough otherEnough
              unfold lex
              cases found : lexer.next state (character :: text) with
              | none => rfl
              | some step =>
                  obtain ⟨read, after, rest⟩ := step
                  have shorter := lexer.shrinks found
                  simp only [List.length_cons] at shorter
                  have same : lexer.lex fuel after rest = lexer.lex other after rest :=
                    inductionHypothesis (by omega) (by omega)
                  simp only [Option.bind_eq_bind, Option.bind_some, same]

theorem tokens_nil (state : State) :
    lexer.tokens state [] = if lexer.accepts state then some [] else none := rfl

theorem tokens_next {state after : State} {text rest : List Char} {read : List Token}
    (found : lexer.next state text = some (read, after, rest)) :
    lexer.tokens state text = (lexer.tokens after rest).map (read ++ ·) := by
  have shorter := lexer.shrinks found
  cases text with
  | nil => simp at shorter
  | cons character text =>
      simp only [List.length_cons] at shorter
      have same : lexer.lex text.length after rest = lexer.lex rest.length after rest :=
        lex_enough (by omega) le_rfl
      rw [tokens, List.length_cons, lex, found]
      simp only [Option.bind_eq_bind, Option.bind_some, same]
      rw [Option.map_eq_bind]
      rfl

/-- A front that is read the same way whatever is left of the text. -/
theorem tokens_flatMap {Item : Type} {state : State} {text : Item → List Char}
    {read : Item → List Token}
    (each : ∀ item rest, lexer.tokens state (text item ++ rest) =
      (lexer.tokens state rest).map (read item ++ ·)) (items : List Item) (rest : List Char) :
    lexer.tokens state (items.flatMap text ++ rest) =
      (lexer.tokens state rest).map (items.flatMap read ++ ·) := by
  induction items with
  | nil => simp
  | cons item items inductionHypothesis =>
      rw [List.flatMap_cons, List.flatMap_cons, List.append_assoc, each, inductionHypothesis,
        Option.map_map]
      simp only [Function.comp_def, List.append_assoc]

end Lexer

end Lexing
