import Mathlib.Algebra.Order.Ring.Int
import Mathlib.Data.List.Basic

/-!
# Output under a limit

Writers that append to an output and give up when it would outgrow its limit.  A
writer that checks its length piece by piece either appends its whole text or fails,
and it fails only where the text does not fit.
-/

set_option autoImplicit false

namespace BoundedOutput

abbrev Writer (ε Item : Type) := StateT (List Item) (Except ε)

section Size

variable {Item : Type} (weight : Item → Nat)

def size (items : List Item) : Nat := (items.map weight).sum

theorem size_append (left right : List Item) :
    size weight (left ++ right) = size weight left + size weight right := by
  simp [size]

end Size

section Writers

variable {ε Item : Type} (weight : Item → Nat) (limit : Nat) (excess : ε)

/-- Either the whole text is appended, or it does not fit and the writer fails. -/
def Writes (write : Writer ε Item Unit) (text : List Item) : Prop :=
  ∀ output, write.run output = .ok ((), output ++ text) ∨
    limit < size weight (output ++ text) ∧ write.run output = .error excess

variable {weight limit excess}

theorem writes_congr {write : Writer ε Item Unit} {text other : List Item}
    (writes : Writes weight limit excess write text) (same : text = other) :
    Writes weight limit excess write other := same ▸ writes

theorem writes_nothing : Writes weight limit excess (pure ()) [] := by
  intro output
  left
  rw [List.append_nil]
  rfl

/-- The length is checked before the text is appended. -/
theorem writes_checked {write : Writer ε Item Unit} {text : List Item}
    (checked : ∀ output, write.run output =
      if size weight (output ++ text) ≤ limit then .ok ((), output ++ text)
      else .error excess) :
    Writes weight limit excess write text := by
  intro output
  rw [checked]
  by_cases fits : size weight (output ++ text) ≤ limit
  · exact .inl (if_pos fits)
  · exact .inr ⟨Nat.lt_of_not_le fits, if_neg fits⟩

theorem writes_bind {first second : Writer ε Item Unit} {left right : List Item}
    (writesFirst : Writes weight limit excess first left)
    (writesSecond : Writes weight limit excess second right) :
    Writes weight limit excess (first >>= fun _ => second) (left ++ right) := by
  intro output
  rw [← List.append_assoc, StateT.run_bind]
  rcases writesFirst output with written | ⟨tooLong, failed⟩
  · rw [written]
    exact writesSecond (output ++ left)
  · right
    rw [failed]
    refine ⟨?_, rfl⟩
    rw [size_append]
    omega

theorem writes_forM {α : Type} {write : α → Writer ε Item Unit} {text : α → List Item}
    (each : ∀ item, Writes weight limit excess (write item) (text item)) (items : List α) :
    Writes weight limit excess (items.forM write) (items.flatMap text) := by
  induction items with
  | nil => exact writes_nothing
  | cons item items inductionHypothesis => exact writes_bind (each item) inductionHypothesis

end Writers

end BoundedOutput
