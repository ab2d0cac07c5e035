import ZedRegistry.AuditAppend

/-!
# The log of an org as rows are appended

How the sorted log, its chained rows and its newest row change when one row is
added to the table.
-/

set_option autoImplicit false

namespace ZedRegistry

open DigestChain

variable {rows : List AuditLog} {org : Uuid}

def ownRows (rows : List AuditLog) (org : Uuid) : List AuditLog :=
  rows.filter fun row => row.orgId = org

theorem mem_ownRows {row : AuditLog} : row ∈ ownRows rows org ↔ row ∈ rows ∧ row.orgId = org := by
  simp [ownRows]

theorem orgLog_perm (rows : List AuditLog) (org : Uuid) :
    (orgLog rows org).Perm (ownRows rows org) :=
  List.mergeSort_perm _ _

theorem orgLog_sorted (rows : List AuditLog) (org : Uuid) :
    (orgLog rows org).Pairwise fun early late => early.seq ≤ late.seq := by
  have sorted : (orgLog rows org).Pairwise fun early late => decide (early.seq ≤ late.seq) :=
    List.pairwise_mergeSort (fun _ _ _ => by simpa using Int.le_trans)
      (fun _ _ => by simpa using Int.le_total _ _) _
  exact sorted.imp fun ordered => by simpa using ordered

/-- Rows with distinct keys have one order by `seq`. -/
theorem chainedRows_orgLog_eq (distinct : (rows.map AuditLog.key).Nodup) {sorted : List AuditLog}
    (ordered : sorted.Pairwise fun early late => early.seq ≤ late.seq)
    (same : sorted.Perm ((ownRows rows org).filter AuditLog.isChained)) :
    chainedRows (orgLog rows org) = sorted := by
  have perm : (chainedRows (orgLog rows org)).Perm
      ((ownRows rows org).filter AuditLog.isChained) :=
    (orgLog_perm rows org).filter _
  apply List.Perm.eq_of_pairwise _ ((orgLog_sorted rows org).filter _) ordered
    (perm.trans same.symm)
  intro early late earlyMember lateMember below above
  have early' := mem_ownRows.mp (List.mem_filter.mp (perm.subset earlyMember)).1
  have late' := mem_ownRows.mp (List.mem_filter.mp (same.subset lateMember)).1
  apply List.inj_on_of_nodup_map distinct early'.1 late'.1
  exact Prod.ext (early'.2.trans late'.2.symm) (Int.le_antisymm below above)

/-! ## One more row -/

theorem ownRows_append (rows : List AuditLog) (org : Uuid) (row : AuditLog) :
    ownRows (rows ++ [row]) org =
      if row.orgId = org then ownRows rows org ++ [row] else ownRows rows org := by
  unfold ownRows
  rw [List.filter_append]
  by_cases own : row.orgId = org
  · simp [own]
  · simp [own]

/-- A row of another org, or one outside the chain, changes no chained row. -/
theorem chainedRows_orgLog_other {row : AuditLog}
    (distinct : ((rows ++ [row]).map AuditLog.key).Nodup)
    (other : row.orgId ≠ org ∨ row.isChained = false) :
    chainedRows (orgLog (rows ++ [row]) org) = chainedRows (orgLog rows org) := by
  have kept : (ownRows (rows ++ [row]) org).filter AuditLog.isChained =
      (ownRows rows org).filter AuditLog.isChained := by
    rw [ownRows_append]
    rcases other with foreign | unchained
    · rw [if_neg foreign]
    · split
      · simp [unchained]
      · rfl
  apply chainedRows_orgLog_eq distinct ((orgLog_sorted rows org).filter _)
  rw [kept]
  exact (orgLog_perm rows org).filter _

/-- A chained row above every row of its org becomes the last of its chain. -/
theorem chainedRows_orgLog_concat {row : AuditLog}
    (distinct : ((rows ++ [row]).map AuditLog.key).Nodup) (own : row.orgId = org)
    (chained : row.isChained = true) (newest : ∀ other ∈ ownRows rows org, other.seq ≤ row.seq) :
    chainedRows (orgLog (rows ++ [row]) org) = chainedRows (orgLog rows org) ++ [row] := by
  have perm : (chainedRows (orgLog rows org)).Perm
      ((ownRows rows org).filter AuditLog.isChained) :=
    (orgLog_perm rows org).filter _
  apply chainedRows_orgLog_eq distinct
  · rw [List.pairwise_append]
    refine ⟨(orgLog_sorted rows org).filter _, List.pairwise_singleton _ _, ?_⟩
    intro other member last lastMember
    rw [List.mem_singleton.mp lastMember]
    exact newest other (List.mem_filter.mp (perm.subset member)).1
  · rw [ownRows_append, if_pos own, List.filter_append]
    have itself : [row].filter AuditLog.isChained = [row] := by simp [chained]
    rw [itself]
    exact perm.append_right _

/-! ## The newest row -/

theorem tipOf_none : tipOf rows org = none ↔ ownRows rows org = [] :=
  List.argmax_eq_none

theorem tipOf_mem {tip : AuditLog} (found : tipOf rows org = some tip) :
    tip ∈ ownRows rows org :=
  List.argmax_mem found

/-- No row of the org is above its tip. -/
theorem le_tipSeq {row : AuditLog} (own : row ∈ ownRows rows org) :
    row.seq ≤ tipSeq (tipOf rows org) := by
  cases found : tipOf rows org with
  | none =>
      rw [tipOf_none.mp found] at own
      contradiction
  | some tip => exact List.le_of_mem_argmax own found

theorem tipOf_append (rows : List AuditLog) (org : Uuid) (row : AuditLog) :
    tipOf (rows ++ [row]) org =
      if row.orgId = org then
        match tipOf rows org with
        | none => some row
        | some tip => if tip.seq < row.seq then some row else some tip
      else tipOf rows org := by
  have own := ownRows_append rows org row
  unfold ownRows at own
  unfold tipOf
  rw [own]
  by_cases same : row.orgId = org
  · rw [if_pos same, if_pos same, List.argmax_concat]
    cases List.argmax AuditLog.seq (rows.filter fun other => other.orgId = org) with
    | none => rfl
    | some tip => rfl
  · rw [if_neg same, if_neg same]

theorem tipOf_append_other {row : AuditLog} (foreign : row.orgId ≠ org) :
    tipOf (rows ++ [row]) org = tipOf rows org := by
  rw [tipOf_append, if_neg foreign]

theorem tipOf_append_above {row : AuditLog}
    (above : tipSeq (tipOf rows row.orgId) < row.seq) :
    tipOf (rows ++ [row]) row.orgId = some row := by
  rw [tipOf_append, if_pos rfl]
  cases found : tipOf rows row.orgId with
  | none => rfl
  | some tip =>
      rw [found] at above
      exact if_pos above

/-- The tip is the last row of the log. -/
theorem tipOf_eq_getLast (distinct : (rows.map AuditLog.key).Nodup) :
    tipOf rows org = (orgLog rows org).getLast? := by
  have perm := orgLog_perm rows org
  rcases List.eq_nil_or_concat (orgLog rows org) with empty | ⟨early, last, split⟩
  · rw [empty] at perm ⊢
    exact tipOf_none.mpr perm.symm.eq_nil
  · rw [List.concat_eq_append] at split
    have lastOwn : last ∈ ownRows rows org := perm.subset (by simp [split])
    have sorted := orgLog_sorted rows org
    rw [split, List.pairwise_append] at sorted
    rw [split, List.getLast?_append, List.getLast?_singleton, Option.some_or]
    cases found : tipOf rows org with
    | none =>
        rw [tipOf_none.mp found] at lastOwn
        contradiction
    | some tip =>
        have tipOwn := tipOf_mem found
        have below : tip.seq ≤ last.seq := by
          have member : tip ∈ early ++ [last] := split ▸ perm.symm.subset tipOwn
          rcases List.mem_append.mp member with before | itself
          · exact sorted.2.2 tip before last (List.mem_singleton_self last)
          · rw [List.mem_singleton.mp itself]
        have above := le_tipSeq lastOwn
        rw [found] at above
        have tip' := mem_ownRows.mp tipOwn
        have last' := mem_ownRows.mp lastOwn
        have same : tip = last := by
          apply List.inj_on_of_nodup_map distinct tip'.1 last'.1
          exact Prod.ext (tip'.2.trans last'.2.symm) (Int.le_antisymm below above)
        rw [same]

end ZedRegistry
