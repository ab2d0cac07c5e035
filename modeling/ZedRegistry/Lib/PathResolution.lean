import Mathlib.Algebra.Order.Ring.Int
import Mathlib.Data.List.DropRight
import Mathlib.Data.List.SplitBy

/-!
# Resolution of path components

A path is a sequence of parts.  `strict` refuses to leave the root, `clamped`
stays there; where `strict` gives a result, both agree.  The second half carries
splitting and trimming through an encoding that keeps the marked symbols apart.
-/

set_option autoImplicit false

namespace PathResolution

variable {α β : Type}

inductive PathPart (α : Type) where
  | skip
  | up
  | name (value : α)

def PathPart.map (convert : α → β) : PathPart α → PathPart β
  | .skip => .skip
  | .up => .up
  | .name value => .name (convert value)

/-- The last name comes first in `above`. -/
def strict (above : List α) : List (PathPart α) → Option (List α)
  | [] => some above.reverse
  | .skip :: rest => strict above rest
  | .name value :: rest => strict (value :: above) rest
  | .up :: rest =>
    match above with
    | [] => none
    | _ :: below => strict below rest

def clamped (above : List α) : List (PathPart α) → List α
  | [] => above.reverse
  | .skip :: rest => clamped above rest
  | .name value :: rest => clamped (value :: above) rest
  | .up :: rest => clamped above.tail rest

theorem clamped_of_strict {above names : List α} {parts : List (PathPart α)}
    (resolved : strict above parts = some names) : clamped above parts = names := by
  induction parts generalizing above with
  | nil => exact Option.some.inj resolved
  | cons part rest ih =>
      cases part with
      | skip => exact ih resolved
      | name value => exact ih resolved
      | up =>
          cases above with
          | nil => simp [strict] at resolved
          | cons last below => exact ih resolved

theorem clamped_map (convert : α → β) (above : List α) (parts : List (PathPart α)) :
    clamped (above.map convert) (parts.map (PathPart.map convert)) =
      (clamped above parts).map convert := by
  induction parts generalizing above with
  | nil => simp [clamped]
  | cons part rest ih =>
      cases part with
      | skip => exact ih above
      | name value => exact ih (value :: above)
      | up =>
          have tails : (above.map convert).tail = above.tail.map convert := by simp
          simp only [List.map_cons, PathPart.map, clamped, tails, ih]

/-! ## Through an encoding -/

section Encoding

variable {code : α → List β} {marked : α → Bool} {markedCode : β → Bool}

theorem splitOnP_append_unmarked {front : List β}
    (unmarked : ∀ unit ∈ front, markedCode unit = false) (back : List β) :
    (front ++ back).splitOnP markedCode = (back.splitOnP markedCode).modifyHead (front ++ ·) := by
  induction front with
  | nil =>
      rw [List.nil_append]
      cases back.splitOnP markedCode with
      | nil => rfl
      | cons head tail => rfl
  | cons unit rest ih =>
      have here := unmarked unit List.mem_cons_self
      have later := ih fun other member => unmarked other (List.mem_cons_of_mem _ member)
      rw [List.cons_append, List.splitOnP_cons_eq_if_modifyHead, here, if_neg Bool.false_ne_true,
        later, List.modifyHead_modifyHead]
      rfl

theorem splitOnP_flatMap (agree : ∀ symbol, ∀ unit ∈ code symbol, markedCode unit = marked symbol)
    (single : ∀ symbol, marked symbol = true → ∃ unit, code symbol = [unit]) (text : List α) :
    (text.flatMap code).splitOnP markedCode =
      (text.splitOnP marked).map fun part => part.flatMap code := by
  induction text with
  | nil => simp
  | cons symbol rest ih =>
      rw [List.flatMap_cons, List.splitOnP_cons_eq_if_modifyHead]
      by_cases marks : marked symbol = true
      · obtain ⟨unit, alone⟩ := single symbol marks
        have marksUnit : markedCode unit = true := by
          rw [agree symbol unit (alone ▸ List.mem_singleton_self unit), marks]
        rw [if_pos marks, alone, List.singleton_append, List.splitOnP_cons_eq_if_modifyHead,
          if_pos marksUnit, ih]
        rfl
      · have unmarked : ∀ unit ∈ code symbol, markedCode unit = false := by
          intro unit member
          rw [agree symbol unit member]
          exact Bool.eq_false_iff.mpr marks
        rw [if_neg marks, splitOnP_append_unmarked unmarked, ih]
        cases rest.splitOnP marked with
        | nil => rfl
        | cons head tail => simp

theorem dropWhile_flatMap (agree : ∀ symbol, ∀ unit ∈ code symbol, markedCode unit = marked symbol)
    (nonempty : ∀ symbol, code symbol ≠ []) (text : List α) :
    (text.flatMap code).dropWhile markedCode = (text.dropWhile marked).flatMap code := by
  induction text with
  | nil => rfl
  | cons symbol rest ih =>
      rw [List.flatMap_cons]
      by_cases marks : marked symbol = true
      · rw [List.dropWhile_cons_of_pos marks, ← ih, List.dropWhile_append_of_pos]
        intro unit member
        rw [agree symbol unit member, marks]
      · rw [List.dropWhile_cons_of_neg marks, List.flatMap_cons]
        obtain ⟨first, others, spelled⟩ := List.exists_cons_of_ne_nil (nonempty symbol)
        have stays : ¬ markedCode first = true := by
          rw [agree symbol first (spelled ▸ List.mem_cons_self)]
          exact marks
        rw [spelled, List.cons_append, List.dropWhile_cons_of_neg stays]

theorem rdropWhile_flatMap (agree : ∀ symbol, ∀ unit ∈ code symbol, markedCode unit = marked symbol)
    (nonempty : ∀ symbol, code symbol ≠ []) (text : List α) :
    (text.flatMap code).rdropWhile markedCode = (text.rdropWhile marked).flatMap code := by
  have backwards : ∀ symbol, ∀ unit ∈ (code symbol).reverse, markedCode unit = marked symbol := by
    intro symbol unit member
    exact agree symbol unit (List.mem_reverse.mp member)
  have filled : ∀ symbol, (code symbol).reverse ≠ [] := by
    intro symbol empty
    exact nonempty symbol (List.reverse_eq_nil_iff.mp empty)
  unfold List.rdropWhile
  rw [List.reverse_flatMap]
  have dropped := dropWhile_flatMap backwards filled text.reverse
  simp only [Function.comp_def] at dropped ⊢
  rw [dropped, List.reverse_flatMap]
  simp [Function.comp_def]

end Encoding

end PathResolution
