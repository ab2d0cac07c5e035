import Mathlib.Algebra.BigOperators.Group.List.Basic
import Mathlib.Algebra.Order.Ring.Int
import Mathlib.Data.List.AList

/-!
# Finite tables

Association lists with distinct keys, at one value type: removing the entries
that fail a test, and the total of a weight over the entries.
-/

set_option autoImplicit false

abbrev AssocTable (κ ν : Type) := AList fun _ : κ => ν

namespace AssocTable

variable {κ ν : Type}

def retain (table : AssocTable κ ν) (keeps : ν → Bool) : AssocTable κ ν where
  entries := table.entries.filter fun entry => keeps entry.2
  nodupKeys := List.NodupKeys.sublist List.filter_sublist table.nodupKeys

def total (weight : ν → Nat) (table : AssocTable κ ν) : Nat :=
  (table.entries.map fun entry => weight entry.2).sum

def size (table : AssocTable κ ν) : Nat := table.entries.length

theorem size_retain_le (table : AssocTable κ ν) (keeps : ν → Bool) :
    size (retain table keeps) ≤ size table :=
  List.length_filter_le _ _

variable [DecidableEq κ]

theorem lookup_some_iff {table : AssocTable κ ν} {key : κ} {value : ν} :
    table.lookup key = some value ↔ (⟨key, value⟩ : Sigma fun _ : κ => ν) ∈ table.entries :=
  AList.mem_lookup_iff

theorem lookup_retain (table : AssocTable κ ν) (keeps : ν → Bool) (key : κ) :
    (retain table keeps).lookup key = (table.lookup key).filter keeps := by
  apply Option.ext
  intro value
  rw [lookup_some_iff, Option.filter_eq_some_iff, lookup_some_iff]
  simp [retain]

theorem total_insert_of_absent (weight : ν → Nat) {table : AssocTable κ ν} {key : κ}
    (absent : key ∉ table) (value : ν) :
    total weight (table.insert key value) = weight value + total weight table := by
  rw [total, AList.entries_insert_of_notMem absent, List.map_cons, List.sum_cons]
  rfl

theorem size_insert_of_absent {table : AssocTable κ ν} {key : κ} (absent : key ∉ table)
    (value : ν) : size (table.insert key value) = size table + 1 := by
  rw [size, AList.entries_insert_of_notMem absent, List.length_cons]
  rfl

/-- Writing to a key that is present replaces its entry. -/
theorem size_insert_of_present {table : AssocTable κ ν} {key : κ} (present : key ∈ table)
    (value : ν) : size (table.insert key value) = size table := by
  obtain ⟨held, before, after, _, split, erased⟩ := List.exists_of_kerase present
  rw [size, AList.entries_insert, List.length_cons, erased, size, split]
  simp only [List.length_append, List.length_cons]
  omega

end AssocTable
