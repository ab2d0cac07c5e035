import Mathlib.Data.List.Count
import Mathlib.Data.List.Nodup
import Mathlib.Data.Set.Function
import Mathlib.Order.Interval.Set.Defs

/-!
# Ranks by counting

The rank of a row is the number of rows at or before it.  Rows with distinct
keys are numbered from one without a gap and in the order of their keys.
-/

set_option autoImplicit false

namespace CountRank

variable {α κ : Type} [LinearOrder κ] (key : α → κ)

def rank (rows : List α) (row : α) : Nat := rows.countP fun other => key other ≤ key row

variable {key} {rows : List α} {row other : α}

theorem rank_pos (member : row ∈ rows) : 0 < rank key rows row :=
  List.countP_pos_iff.mpr ⟨row, member, by simp⟩

theorem rank_le_length (rows : List α) (row : α) : rank key rows row ≤ rows.length :=
  List.countP_le_length

theorem rank_mono (rows : List α) (ordered : key other ≤ key row) :
    rank key rows other ≤ rank key rows row := by
  apply List.countP_mono_left
  intro earlier _ below
  have below' : key earlier ≤ key other := by simpa using below
  simpa using below'.trans ordered

/-- The later row counts itself and all that the earlier one counts. -/
theorem rank_lt_rank (member : row ∈ rows) (ordered : key other < key row) :
    rank key rows other < rank key rows row := by
  obtain ⟨early, late, rfl⟩ := List.append_of_mem member
  have before := rank_mono early ordered.le
  have after := rank_mono late ordered.le
  have counted : rank key (row :: late) row = rank key late row + 1 :=
    List.countP_cons_of_pos (by simp)
  have passed : rank key (row :: late) other = rank key late other :=
    List.countP_cons_of_neg (by simpa using ordered)
  have split (reference : α) : rank key (early ++ row :: late) reference =
      rank key early reference + rank key (row :: late) reference :=
    List.countP_append
  rw [split other, split row, counted, passed]
  omega

theorem rank_lt_iff (member : row ∈ rows) :
    rank key rows other < rank key rows row ↔ key other < key row := by
  constructor
  · intro lower
    by_contra ordered
    have back := rank_mono rows (not_lt.mp ordered)
    omega
  · exact rank_lt_rank member

theorem rank_injOn (distinct : (rows.map key).Nodup) :
    Set.InjOn (rank key rows) {row | row ∈ rows} := by
  intro first firstMember second secondMember same
  have notBelow : ¬key first < key second := fun below =>
    absurd (rank_lt_rank secondMember below) (by omega)
  have notAbove : ¬key second < key first := fun above =>
    absurd (rank_lt_rank firstMember above) (by omega)
  exact List.inj_on_of_nodup_map distinct firstMember secondMember
    (le_antisymm (not_lt.mp notAbove) (not_lt.mp notBelow))

theorem ranks_perm (distinct : (rows.map key).Nodup) :
    (rows.map (rank key rows)).Perm (List.range' 1 rows.length) := by
  have unique : (rows.map (rank key rows)).Nodup :=
    distinct.of_map.map_on fun _ first _ second => rank_injOn distinct first second
  have within : rows.map (rank key rows) ⊆ List.range' 1 rows.length := by
    intro position member
    obtain ⟨row, own, rfl⟩ := List.mem_map.mp member
    have low : 0 < rank key rows row := rank_pos own
    have high : rank key rows row ≤ rows.length := rank_le_length rows row
    exact List.mem_range'_1.mpr ⟨low, by omega⟩
  apply (List.subperm_of_subset unique within).perm_of_length_le
  simp

theorem rank_bijOn (distinct : (rows.map key).Nodup) :
    Set.BijOn (rank key rows) {row | row ∈ rows} (Set.Icc 1 rows.length) := by
  refine ⟨?_, rank_injOn distinct, ?_⟩
  · intro row member
    exact ⟨rank_pos member, rank_le_length rows row⟩
  · intro position within
    have listed : position ∈ rows.map (rank key rows) := by
      rw [(ranks_perm distinct).mem_iff, List.mem_range'_1]
      exact ⟨within.1, by have := within.2; omega⟩
    exact List.mem_map.mp listed

end CountRank
