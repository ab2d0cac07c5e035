import Mathlib.Algebra.Order.Ring.Int
import Mathlib.Logic.Function.Basic

/-!
# Row tables under read committed

A table with a unique key as concurrent transactions see it: the committed row
of each key, and at most one uncommitted version of it, held by the transaction
that wrote it.  The holder is the row lock: a write of another transaction is
not enabled until the holder commits or rolls back.  Rows are never deleted.
-/

set_option autoImplicit false

/-- `pending key` is the uncommitted version of a row and the transaction that
holds it. -/
structure RowTable (κ ν τ : Type) where
  committed : κ → Option ν
  pending : κ → Option (τ × ν)

namespace RowTable

variable {κ ν τ : Type}

def empty : RowTable κ ν τ := ⟨fun _ => none, fun _ => none⟩

section Owner

variable [DecidableEq τ]

/-- What `txn` reads: its own uncommitted version, else the committed row. -/
def view (table : RowTable κ ν τ) (txn : τ) (key : κ) : Option ν :=
  match table.pending key with
  | some (owner, row) => if owner = txn then some row else table.committed key
  | none => table.committed key

/-- Another transaction holds the row. -/
def blocked (table : RowTable κ ν τ) (txn : τ) (key : κ) : Bool :=
  match table.pending key with
  | some (owner, _) => owner ≠ txn
  | none => false

/-- Every uncommitted version of `txn` becomes the committed row. -/
def commit (table : RowTable κ ν τ) (txn : τ) : RowTable κ ν τ where
  committed := table.view txn
  pending key := (table.pending key).filter fun held => held.1 ≠ txn

def rollback (table : RowTable κ ν τ) (txn : τ) : RowTable κ ν τ :=
  { table with pending := fun key => (table.pending key).filter fun held => held.1 ≠ txn }

@[simp] theorem committed_commit (table : RowTable κ ν τ) (txn : τ) (key : κ) :
    (table.commit txn).committed key = table.view txn key := rfl

theorem pending_rollback_some (table : RowTable κ ν τ) (txn owner : τ) (key : κ) (row : ν) :
    (table.rollback txn).pending key = some (owner, row) ↔
      table.pending key = some (owner, row) ∧ owner ≠ txn := by
  simp [rollback, Option.filter_eq_some_iff]

theorem pending_commit_some (table : RowTable κ ν τ) (txn owner : τ) (key : κ) (row : ν) :
    (table.commit txn).pending key = some (owner, row) ↔
      table.pending key = some (owner, row) ∧ owner ≠ txn := by
  simp [commit, Option.filter_eq_some_iff]

theorem view_of_pending {table : RowTable κ ν τ} {txn : τ} {key : κ} {row : ν}
    (held : table.pending key = some (txn, row)) : table.view txn key = some row := by
  simp [view, held]

/-- A transaction that holds no version of a row reads the committed one. -/
theorem view_of_not_held {table : RowTable κ ν τ} {txn : τ} {key : κ}
    (free : ∀ row, table.pending key ≠ some (txn, row)) :
    table.view txn key = table.committed key := by
  unfold view
  cases held : table.pending key with
  | none => rfl
  | some version =>
      obtain ⟨owner, version⟩ := version
      have other : owner ≠ txn := by
        rintro rfl
        exact free version held
      simp [other]

theorem view_of_held_by_other {table : RowTable κ ν τ} {txn owner : τ} {key : κ} {row : ν}
    (held : table.pending key = some (owner, row)) (other : owner ≠ txn) :
    table.view txn key = table.committed key := by
  apply view_of_not_held
  intro version own
  rw [held] at own
  exact other (Prod.mk.inj (Option.some.inj own)).1

/-- What a transaction reads is its own version or the committed row. -/
theorem view_some {table : RowTable κ ν τ} {txn : τ} {key : κ} {row : ν}
    (seen : table.view txn key = some row) :
    table.pending key = some (txn, row) ∨
      (table.committed key = some row ∧ ∀ own, table.pending key ≠ some (txn, own)) := by
  by_cases held : ∃ own, table.pending key = some (txn, own)
  · obtain ⟨own, held⟩ := held
    rw [view_of_pending held] at seen
    rw [held, Option.some.inj seen]
    exact Or.inl rfl
  · have free : ∀ own, table.pending key ≠ some (txn, own) := by
      intro own same
      exact held ⟨own, same⟩
    rw [view_of_not_held free] at seen
    exact Or.inr ⟨seen, free⟩

/-- A committed row never looks absent to a transaction. -/
theorem view_of_committed {table : RowTable κ ν τ} (txn : τ) {key : κ} {row : ν}
    (found : table.committed key = some row) : ∃ seen, table.view txn key = some seen := by
  by_cases held : ∃ own, table.pending key = some (txn, own)
  · obtain ⟨own, held⟩ := held
    exact ⟨own, view_of_pending held⟩
  · have free : ∀ own, table.pending key ≠ some (txn, own) := by
      intro own same
      exact held ⟨own, same⟩
    exact ⟨row, (view_of_not_held free).trans found⟩

theorem not_blocked_iff {table : RowTable κ ν τ} {txn : τ} {key : κ} :
    table.blocked txn key = false ↔
      ∀ owner row, table.pending key = some (owner, row) → owner = txn := by
  unfold blocked
  cases held : table.pending key with
  | none => simp
  | some version =>
      obtain ⟨owner, version⟩ := version
      simp

end Owner

section Key

variable [DecidableEq κ]

def write (table : RowTable κ ν τ) (txn : τ) (key : κ) (row : ν) : RowTable κ ν τ :=
  { table with pending := Function.update table.pending key (some (txn, row)) }

/-- A statement outside any transaction: it takes effect and commits at once. -/
def autocommit (table : RowTable κ ν τ) (key : κ) (row : ν) : RowTable κ ν τ :=
  { table with committed := Function.update table.committed key (some row) }

@[simp] theorem committed_write (table : RowTable κ ν τ) (txn : τ) (key : κ) (row : ν) :
    (table.write txn key row).committed = table.committed := rfl

@[simp] theorem pending_autocommit (table : RowTable κ ν τ) (key : κ) (row : ν) :
    (table.autocommit key row).pending = table.pending := rfl

theorem pending_write (table : RowTable κ ν τ) (txn : τ) (key other : κ) (row : ν) :
    (table.write txn key row).pending other =
      if other = key then some (txn, row) else table.pending other := by
  simp only [write, Function.update_apply]

/-- After a write a version is held that is the one written, or that was held before. -/
theorem pending_write_cases {table : RowTable κ ν τ} {txn owner : τ} {key other : κ}
    {row version : ν} (held : (table.write txn key row).pending other = some (owner, version)) :
    (other = key ∧ owner = txn ∧ version = row) ∨
      other ≠ key ∧ table.pending other = some (owner, version) := by
  rw [pending_write] at held
  split at held
  · rename_i same
    obtain ⟨isOwner, isVersion⟩ := Prod.mk.inj (Option.some.inj held)
    exact .inl ⟨same, isOwner.symm, isVersion.symm⟩
  · rename_i differs
    exact .inr ⟨differs, held⟩

theorem pending_write_only {table : RowTable κ ν τ} {txn owner : τ} {key : κ} {row : ν}
    (only : ∀ other version, table.pending other = some (owner, version) → other = key) :
    ∀ other version, (table.write txn key row).pending other = some (owner, version) →
      other = key := by
  intro other version held
  rcases pending_write_cases held with ⟨same, _, _⟩ | ⟨_, before⟩
  · exact same
  · exact only other version before

theorem pending_write_self (table : RowTable κ ν τ) (txn : τ) (key : κ) (row : ν) :
    (table.write txn key row).pending key = some (txn, row) :=
  Function.update_self key _ _

theorem committed_autocommit (table : RowTable κ ν τ) (key other : κ) (row : ν) :
    (table.autocommit key row).committed other =
      if other = key then some row else table.committed other := by
  simp only [autocommit, Function.update_apply]

/-- A write to a row that nobody else holds leaves the rows of others as they are. -/
theorem pending_write_other {table : RowTable κ ν τ} {txn : τ} {key : κ}
    (free : ∀ owner held, table.pending key = some (owner, held) → owner = txn) {other : τ}
    (differs : other ≠ txn) (written : ν) (place : κ) (row : ν) :
    (table.write txn key written).pending place = some (other, row) ↔
      table.pending place = some (other, row) := by
  rw [pending_write]
  split
  · rename_i same
    subst same
    constructor
    · intro own
      exact absurd (Prod.mk.inj (Option.some.inj own)).1.symm differs
    · intro held
      exact absurd (free other row held) differs
  · exact Iff.rfl

variable [DecidableEq τ]

theorem view_write_self (table : RowTable κ ν τ) (txn : τ) (key : κ) (row : ν) :
    (table.write txn key row).view txn key = some row :=
  view_of_pending (pending_write_self table txn key row)

theorem view_write_other (table : RowTable κ ν τ) (txn : τ) {key other : κ}
    (differs : other ≠ key) (row : ν) :
    (table.write txn key row).view txn other = table.view txn other := by
  simp only [view, pending_write, if_neg differs, committed_write]

end Key

/-! ## What every row satisfies -/

/-- The committed rows and the uncommitted versions satisfy a property of their key. -/
structure Every (property : κ → ν → Prop) (table : RowTable κ ν τ) : Prop where
  committed : ∀ key row, table.committed key = some row → property key row
  pending : ∀ key txn row, table.pending key = some (txn, row) → property key row

section Every

variable {property : κ → ν → Prop} {table : RowTable κ ν τ}

theorem every_empty : Every property (empty : RowTable κ ν τ) where
  committed _ _ found := by contradiction
  pending _ _ _ held := by contradiction

theorem Every.autocommit [DecidableEq κ] (every : Every property table) {key : κ} {row : ν}
    (holds : property key row) : Every property (table.autocommit key row) where
  committed other found present := by
    rw [committed_autocommit] at present
    split at present
    · rename_i same
      cases present
      exact same ▸ holds
    · exact every.committed other found present
  pending := every.pending

theorem Every.write [DecidableEq κ] (every : Every property table) {txn : τ} {key : κ} {row : ν}
    (holds : property key row) : Every property (table.write txn key row) where
  committed := every.committed
  pending other owner held present := by
    rcases pending_write_cases present with ⟨rfl, rfl, rfl⟩ | ⟨_, before⟩
    · exact holds
    · exact every.pending other owner held before

variable [DecidableEq τ]

theorem Every.view (every : Every property table) {txn : τ} {key : κ} {row : ν}
    (seen : table.view txn key = some row) : property key row := by
  rcases view_some seen with own | ⟨found, -⟩
  · exact every.pending key txn row own
  · exact every.committed key row found

theorem Every.rollback (every : Every property table) (txn : τ) :
    Every property (table.rollback txn) where
  committed := every.committed
  pending key owner row held :=
    every.pending key owner row ((pending_rollback_some table txn owner key row).mp held).1

theorem Every.commit (every : Every property table) (txn : τ) :
    Every property (table.commit txn) where
  committed _ _ found := every.view found
  pending key owner row held :=
    every.pending key owner row ((pending_commit_some table txn owner key row).mp held).1

end Every

end RowTable
