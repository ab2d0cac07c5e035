import Mathlib.Data.List.Infix
import Mathlib.Data.List.Forall2

/-!
# Patterns with two wildcards and an escape

The pattern language of `LIKE`: one letter stands for any run, one for any
single letter, and a letter after the escape for itself.  Which letters of the
text a letter of the pattern accepts is left to the operator.
-/

set_option autoImplicit false

namespace LikePattern

variable {Letter : Type}

inductive Token (Letter : Type) where
  | run
  | one
  | letter (accepted : Letter)

section Reading

variable [DecidableEq Letter] (escape many single : Letter)

/-- An escape at the end of a pattern is an error. -/
def tokens : List Letter → Option (List (Token Letter))
  | [] => some []
  | letter :: rest =>
    if letter = escape then
      match rest with
      | [] => none
      | escaped :: rest => (tokens rest).map (.letter escaped :: ·)
    else if letter = many then (tokens rest).map (.run :: ·)
    else if letter = single then (tokens rest).map (.one :: ·)
    else (tokens rest).map (.letter letter :: ·)

/-- The escape before each letter that would not stand for itself. -/
def escaped (query : List Letter) : List Letter :=
  query.flatMap fun letter =>
    if letter = escape ∨ letter = many ∨ letter = single then [escape, letter] else [letter]

theorem tokens_many (notEscape : many ≠ escape) (rest : List Letter) :
    tokens escape many single (many :: rest) =
      (tokens escape many single rest).map (.run :: ·) := by
  rw [tokens.eq_def]
  simp only [if_neg notEscape, if_true]

theorem tokens_plain {letter : Letter} (notEscape : letter ≠ escape) (notMany : letter ≠ many)
    (notSingle : letter ≠ single) (rest : List Letter) :
    tokens escape many single (letter :: rest) =
      (tokens escape many single rest).map (.letter letter :: ·) := by
  rw [tokens.eq_def]
  simp only [if_neg notEscape, if_neg notMany, if_neg notSingle]

theorem tokens_escaped_append (query rest : List Letter) :
    tokens escape many single (escaped escape many single query ++ rest) =
      (tokens escape many single rest).map (query.map Token.letter ++ ·) := by
  induction query with
  | nil => simp [escaped]
  | cons letter query ih =>
      have unfolded : escaped escape many single (letter :: query) ++ rest =
          (if letter = escape ∨ letter = many ∨ letter = single then [escape, letter]
            else [letter]) ++ (escaped escape many single query ++ rest) := by
        simp [escaped]
      rw [unfolded]
      by_cases special : letter = escape ∨ letter = many ∨ letter = single
      · simp [special, tokens, ih, Function.comp_def]
      · obtain ⟨notEscape, notMany, notSingle⟩ :
            letter ≠ escape ∧ letter ≠ many ∧ letter ≠ single := by simpa using special
        rw [if_neg special, List.singleton_append,
          tokens_plain escape many single notEscape notMany notSingle, ih, Option.map_map]
        rfl

end Reading

section Matching

variable (accepts : Letter → Letter → Prop)

def Matches : List (Token Letter) → List Letter → Prop
  | [], text => text = []
  | .run :: rest, text => ∃ remaining ∈ text.tails, Matches rest remaining
  | .one :: _, [] => False
  | .one :: rest, _ :: text => Matches rest text
  | .letter _ :: _, [] => False
  | .letter accepted :: rest, letter :: text => accepts accepted letter ∧ Matches rest text

instance decidableMatches [∀ accepted letter, Decidable (accepts accepted letter)] :
    (pattern : List (Token Letter)) → (text : List Letter) →
      Decidable (Matches accepts pattern text)
  | [], [] => isTrue rfl
  | [], _ :: _ => isFalse nofun
  | .run :: rest, text =>
      have := fun remaining => decidableMatches rest remaining
      inferInstanceAs (Decidable (∃ remaining ∈ text.tails, Matches accepts rest remaining))
  | .one :: _, [] => isFalse nofun
  | .one :: rest, _ :: text => decidableMatches rest text
  | .letter _ :: _, [] => isFalse nofun
  | .letter accepted :: rest, letter :: text =>
      have := decidableMatches rest text
      inferInstanceAs (Decidable (accepts accepted letter ∧ Matches accepts rest text))

/-- Somewhere in the text the query is accepted letter by letter. -/
def Contains (query text : List Letter) : Prop :=
  ∃ before found after, text = before ++ found ++ after ∧ List.Forall₂ accepts query found

theorem matches_letters_append (query : List Letter) (rest : List (Token Letter))
    (text : List Letter) :
    Matches accepts (query.map Token.letter ++ rest) text ↔
      ∃ found after, text = found ++ after ∧ List.Forall₂ accepts query found ∧
        Matches accepts rest after := by
  induction query generalizing text with
  | nil => simp
  | cons letter query ih =>
      cases text with
      | nil =>
          simp only [List.map_cons, List.cons_append, Matches, false_iff]
          rintro ⟨found, after, split, agree, _⟩
          obtain ⟨rfl, _⟩ := List.append_eq_nil_iff.mp split.symm
          cases agree
      | cons head text =>
          simp only [List.map_cons, List.cons_append, Matches, ih]
          constructor
          · rintro ⟨here, found, after, rfl, agree, tail⟩
            exact ⟨head :: found, after, rfl, List.Forall₂.cons here agree, tail⟩
          · rintro ⟨found, after, split, agree, tail⟩
            cases agree with
            | cons here agree =>
                obtain ⟨rfl, rfl⟩ := List.cons.inj split
                exact ⟨here, _, after, rfl, agree, tail⟩

theorem matches_run (rest : List (Token Letter)) (text : List Letter) :
    Matches accepts (.run :: rest) text ↔
      ∃ skipped remaining, text = skipped ++ remaining ∧ Matches accepts rest remaining := by
  simp only [Matches, List.mem_tails]
  constructor
  · rintro ⟨remaining, ⟨skipped, split⟩, tail⟩
    exact ⟨skipped, remaining, split.symm, tail⟩
  · rintro ⟨skipped, remaining, split, tail⟩
    exact ⟨remaining, ⟨skipped, split.symm⟩, tail⟩

/-- Letters between two runs match exactly the texts that contain them. -/
theorem matches_run_letters_run (query text : List Letter) :
    Matches accepts (.run :: (query.map Token.letter ++ [.run])) text ↔
      Contains accepts query text := by
  have anything : ∀ after : List Letter, Matches accepts [.run] after := by
    intro after
    exact (matches_run accepts [] after).mpr ⟨after, [], (List.append_nil after).symm, rfl⟩
  simp only [matches_run, matches_letters_append]
  constructor
  · rintro ⟨before, remaining, rfl, found, after, rfl, agree, _⟩
    exact ⟨before, found, after, (List.append_assoc _ _ _).symm, agree⟩
  · rintro ⟨before, found, after, rfl, agree⟩
    exact ⟨before, found ++ after, List.append_assoc _ _ _, found, after, rfl, agree,
      (matches_run accepts [] after).mp (anything after)⟩

end Matching

end LikePattern
