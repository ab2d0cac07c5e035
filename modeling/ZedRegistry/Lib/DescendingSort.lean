import Mathlib.Algebra.Order.Ring.Int
import Mathlib.Data.List.Basic

/-!
# Sorting by a total order, greatest first

What a descending sort returns depends on the elements alone, not on the order they
came in; its head is the greatest of them.
-/

set_option autoImplicit false

namespace DescendingSort

variable {α : Type}

/-- `sort` sorts by the total order `le`, greatest first. -/
structure SortsDescending (le : α → α → Prop) (sort : List α → List α) : Prop where
  antisymm : ∀ left right, le left right → le right left → left = right
  trans : ∀ left middle right, le left middle → le middle right → le left right
  total : ∀ left right, le left right ∨ le right left
  perm : ∀ values, (sort values).Perm values
  sorted : ∀ values, (sort values).Pairwise fun left right => le right left

/-- The greatest member of a set, when there is a member. -/
def IsGreatest (le : α → α → Prop) (members : α → Prop) : Option α → Prop
  | some value => members value ∧ ∀ other, members other → le other value
  | none => ∀ value, ¬ members value

/-- The members of a set, each once, in descending order. -/
structure ListsDescending (le : α → α → Prop) (members : α → Prop) (values : List α) : Prop where
  mem_iff : ∀ value, value ∈ values ↔ members value
  descending : values.Pairwise fun left right => le right left ∧ left ≠ right

section Order

variable {le : α → α → Prop} {members : α → Prop}

theorem ListsDescending.nodup {values : List α} (lists : ListsDescending le members values) :
    values.Nodup := lists.descending.imp fun ordered => ordered.2

theorem ListsDescending.head_greatest (refl : ∀ value, le value value) {values : List α}
    (lists : ListsDescending le members values) : IsGreatest le members values.head? := by
  cases values with
  | nil =>
      intro value member
      exact absurd ((lists.mem_iff value).mpr member) List.not_mem_nil
  | cons value rest =>
      refine ⟨(lists.mem_iff value).mp List.mem_cons_self, fun other member => ?_⟩
      rcases List.mem_cons.mp ((lists.mem_iff other).mpr member) with rfl | later
      · exact refl other
      · exact ((List.pairwise_cons.mp lists.descending).1 other later).1

end Order

namespace SortsDescending

variable {le : α → α → Prop} {sort : List α → List α}

theorem refl (sorts : SortsDescending le sort) (value : α) : le value value :=
  (sorts.total value value).elim id id

theorem mem_sort (sorts : SortsDescending le sort) {values : List α} {value : α} :
    value ∈ sort values ↔ value ∈ values := (sorts.perm values).mem_iff

/-- The order the elements came in does not matter. -/
theorem sort_congr (sorts : SortsDescending le sort) {values others : List α}
    (same : values.Perm others) : sort values = sort others := by
  have perm := ((sorts.perm values).trans same).trans (sorts.perm others).symm
  refine perm.eq_of_pairwise ?_ (sorts.sorted values) (sorts.sorted others)
  intro left right _ _ above below
  exact sorts.antisymm left right below above

theorem lists (sorts : SortsDescending le sort) {values : List α} (nodup : values.Nodup)
    {members : α → Prop} (spelled : ∀ value, value ∈ values ↔ members value) :
    ListsDescending le members (sort values) where
  mem_iff value := sorts.mem_sort.trans (spelled value)
  descending := (sorts.sorted values).and ((sorts.perm values).nodup_iff.mpr nodup)

/-- A descending list of the same elements is the sorted one. -/
theorem eq_sort (sorts : SortsDescending le sort) {values others : List α}
    (perm : values.Perm others) (descending : values.Pairwise fun left right => le right left) :
    values = sort others := by
  refine (perm.trans (sorts.perm others).symm).eq_of_pairwise ?_ descending (sorts.sorted others)
  intro left right _ _ above below
  exact sorts.antisymm left right below above

end SortsDescending

theorem positions_apart {position : α → Nat} {ordered : List α}
    (places : ordered.Pairwise fun left right => position left < position right) {left right : α}
    (leftMember : left ∈ ordered) (rightMember : right ∈ ordered)
    (same : position left = position right) : left = right := by
  induction ordered with
  | nil => cases leftMember
  | cons head rest ih =>
      obtain ⟨first, places⟩ := List.pairwise_cons.mp places
      rcases List.mem_cons.mp leftMember with rfl | leftLater
      · rcases List.mem_cons.mp rightMember with rfl | rightLater
        · rfl
        · exact absurd same (Nat.ne_of_lt (first right rightLater))
      · rcases List.mem_cons.mp rightMember with rfl | rightLater
        · exact absurd same.symm (Nat.ne_of_lt (first left leftLater))
        · exact ih places leftLater rightLater

/-- A list that does not step back along the positions of another, and has its elements, is
the other. -/
theorem eq_of_positions {position : α → Nat} {values ordered : List α}
    (perm : values.Perm ordered)
    (places : ordered.Pairwise fun left right => position left < position right)
    (forward : values.Pairwise fun left right => position left ≤ position right) :
    values = ordered := by
  refine perm.eq_of_pairwise ?_ forward (places.imp Nat.le_of_lt)
  intro left right leftMember rightMember below above
  exact positions_apart places (perm.mem_iff.mp leftMember) rightMember
    (Nat.le_antisymm below above)

end DescendingSort
