import ZedRegistry.Lib.CountRank

/-!
# Pages cut by offset

Each page is cut from an order of the rows that one query chose: sorted by the
key, rows of one key in any order.  The pages hold every row once, whatever the
queries choose, exactly when no cut falls between two rows of one key.
-/

set_option autoImplicit false

namespace OffsetPages

open CountRank

variable {α κ : Type} [LinearOrder κ] (key : α → κ)

/-- An answer to a query that sorts by the key. -/
structure Orders (rows order : List α) : Prop where
  perm : order.Perm rows
  sorted : order.Pairwise fun early late => key early ≤ key late

def ahead (rows : List α) (row : α) : Nat := rows.countP fun other => key other < key row

/-- Rows of one key stand on both sides of the cut. -/
def Straddles (rows : List α) (cut : Nat) : Prop :=
  ∃ row ∈ rows, ahead key rows row < cut ∧ cut < rank key rows row

def page (order : List α) (size number : Nat) : List α := (order.drop (number * size)).take size

def pages (orders : Nat → List α) (size count : Nat) : List α :=
  (List.range count).flatMap fun number => page (orders number) size number

variable {key} {rows order : List α} {row : α} {cut size : Nat}

/-! ## One cut -/

theorem rank_perm (same : order.Perm rows) (row : α) : rank key order row = rank key rows row :=
  same.countP_eq _

theorem ahead_perm (same : order.Perm rows) (row : α) :
    ahead key order row = ahead key rows row :=
  same.countP_eq _

theorem straddles_perm (same : order.Perm rows) :
    Straddles key order cut ↔ Straddles key rows cut := by
  simp only [Straddles, rank_perm same, ahead_perm same, same.mem_iff]

theorem sorted_across (sorted : order.Pairwise fun early late => key early ≤ key late) :
    ∀ early ∈ order.take cut, ∀ late ∈ order.drop cut, key early ≤ key late := by
  rw [← List.take_append_drop cut order, List.pairwise_append] at sorted
  exact sorted.2.2

theorem ahead_lt_of_mem_take (sorted : order.Pairwise fun early late => key early ≤ key late)
    (member : row ∈ order.take cut) : ahead key order row < cut := by
  have later : (order.drop cut).countP (fun other => key other < key row) = 0 := by
    rw [List.countP_eq_zero]
    intro other after
    simpa using sorted_across sorted row member other after
  have earlier : (order.take cut).countP (fun other => key other < key row) <
      (order.take cut).length :=
    List.countP_lt_length_iff.mpr ⟨row, member, by simp⟩
  have short : (order.take cut).length ≤ cut := List.length_take_le _ _
  have split : ahead key order row =
      (order.take cut).countP (fun other => key other < key row) +
        (order.drop cut).countP (fun other => key other < key row) := by
    rw [← List.countP_append, List.take_append_drop]
    rfl
  omega

theorem lt_rank_of_mem_drop (sorted : order.Pairwise fun early late => key early ≤ key late)
    (member : row ∈ order.drop cut) : cut < rank key order row := by
  have earlier : rank key (order.take cut) row = (order.take cut).length := by
    apply List.countP_eq_length.mpr
    intro other before
    simpa using sorted_across sorted other before row member
  have itself : 0 < rank key (order.drop cut) row := rank_pos member
  have within : cut < order.length := by
    have nonempty := List.length_pos_of_mem member
    rw [List.length_drop] at nonempty
    omega
  have full : (order.take cut).length = cut := List.length_take_of_le within.le
  have split : rank key order row =
      rank key (order.take cut) row + rank key (order.drop cut) row := by
    unfold rank
    rw [← List.countP_append, List.take_append_drop]
  omega

/-- Before a clean cut stand the rows whose rank is within it. -/
theorem take_eq_filter (sorted : order.Pairwise fun early late => key early ≤ key late)
    (clean : ¬Straddles key order cut) :
    order.take cut = order.filter fun row => rank key order row ≤ cut := by
  have front : (order.take cut).filter (fun row => rank key order row ≤ cut) =
      order.take cut := by
    rw [List.filter_eq_self]
    intro row member
    rw [decide_eq_true_eq]
    by_contra beyond
    exact clean ⟨row, List.mem_of_mem_take member, ahead_lt_of_mem_take sorted member,
      not_le.mp beyond⟩
  have back : (order.drop cut).filter (fun row => rank key order row ≤ cut) = [] := by
    rw [List.filter_eq_nil_iff]
    intro row member
    have beyond := lt_rank_of_mem_drop sorted member
    simpa using beyond
  have split : order.filter (fun row => rank key order row ≤ cut) =
      (order.take cut).filter (fun row => rank key order row ≤ cut) ++
        (order.drop cut).filter (fun row => rank key order row ≤ cut) := by
    rw [← List.filter_append, List.take_append_drop]
  rw [split, front, back, List.append_nil]

/-! ## All pages -/

theorem pages_succ (orders : Nat → List α) (size count : Nat) :
    pages orders size (count + 1) =
      pages orders size count ++ page (orders count) size count := by
  simp [pages, List.range_succ]

theorem pages_perm_filter {orders : Nat → List α}
    (chosen : ∀ number, Orders key rows (orders number))
    (clean : ∀ number, ¬Straddles key rows (number * size)) (count : Nat) :
    (pages orders size count).Perm
      (rows.filter fun row => rank key rows row ≤ count * size) := by
  induction count with
  | zero =>
      have none : rows.filter (fun row => rank key rows row ≤ 0 * size) = [] := by
        rw [List.filter_eq_nil_iff]
        intro row member
        have positive : 0 < rank key rows row := rank_pos member
        simp
        omega
      rw [none]
      exact List.Perm.refl _
  | succ count ih =>
      have order := chosen count
      have prefixes (number : Nat) : (orders count).take (number * size) =
          (orders count).filter fun row => rank key rows row ≤ number * size := by
        have cut := take_eq_filter order.sorted
          (fun straddles => clean number ((straddles_perm order.perm).mp straddles))
        simpa only [rank_perm order.perm] using cut
      have grown : (orders count).take (count * size) ++ page (orders count) size count =
          (orders count).take ((count + 1) * size) := by
        rw [Nat.succ_mul, List.take_add]
        rfl
      rw [pages_succ]
      calc (pages orders size count ++ page (orders count) size count).Perm
            (rows.filter (fun row => rank key rows row ≤ count * size) ++
              page (orders count) size count) := ih.append_right _
        _ |>.Perm ((orders count).filter (fun row => rank key rows row ≤ count * size) ++
              page (orders count) size count) := ((order.perm.filter _).symm).append_right _
        _ = (orders count).filter fun row => rank key rows row ≤ (count + 1) * size := by
          rw [← prefixes, grown, prefixes]
        _ |>.Perm (rows.filter fun row => rank key rows row ≤ (count + 1) * size) :=
          order.perm.filter _

theorem pages_perm {orders : Nat → List α}
    (chosen : ∀ number, Orders key rows (orders number))
    (clean : ∀ number, ¬Straddles key rows (number * size)) {count : Nat}
    (enough : rows.length ≤ count * size) : (pages orders size count).Perm rows := by
  have all : rows.filter (fun row => rank key rows row ≤ count * size) = rows := by
    rw [List.filter_eq_self]
    intro row _
    have within : rank key rows row ≤ rows.length := rank_le_length rows row
    simpa using within.trans enough
  have filtered := pages_perm_filter chosen clean count
  rwa [all] at filtered

/-! ## A cut through a tie -/

theorem exists_orders (rows : List α) : ∃ order, Orders key rows order := by
  have sorted : (rows.mergeSort fun early late => decide (key early ≤ key late)).Pairwise
      fun early late => decide (key early ≤ key late) = true := by
    apply List.pairwise_mergeSort
    · intro early middle late first second
      rw [decide_eq_true_eq] at first second ⊢
      exact first.trans second
    · intro left right
      simpa using le_total (key left) (key right)
  exact ⟨_, List.mergeSort_perm _ _, sorted.imp of_decide_eq_true⟩

/-- The two rows at a cut through a tie have one key. -/
theorem exists_split (orders : Orders key rows order) (straddles : Straddles key rows cut) :
    ∃ early first second late, order = early ++ first :: second :: late ∧
      early.length + 1 = cut ∧ key first = key second := by
  obtain ⟨row, _, below, above⟩ := (straddles_perm orders.perm).mpr straddles
  have within : cut < order.length := above.trans_le (rank_le_length order row)
  have before : cut - 1 < order.length := by omega
  have tail : order.drop (cut - 1) = order[cut - 1] :: order[cut] :: order.drop (cut + 1) := by
    rw [List.drop_eq_getElem_cons before, Nat.sub_add_cancel (by omega),
      List.drop_eq_getElem_cons within]
  have split : order = order.take (cut - 1) ++
      order[cut - 1] :: order[cut] :: order.drop (cut + 1) := by
    rw [← tail, List.take_append_drop]
  have length : (order.take (cut - 1)).length = cut - 1 := List.length_take_of_le before.le
  generalize order.take (cut - 1) = early at split length
  generalize order[cut - 1] = first at split
  generalize order[cut] = second at split
  generalize order.drop (cut + 1) = late at split
  subst split
  have sorted := orders.sorted
  rw [List.pairwise_append, List.pairwise_cons, List.pairwise_cons] at sorted
  obtain ⟨_, ⟨firstBelow, secondBelow, _⟩, across⟩ := sorted
  have notBefore : ¬key first < key row := by
    intro less
    have counted : ahead key (early ++ first :: second :: late) row =
        (early ++ [first]).countP (fun other => key other < key row) +
          (second :: late).countP (fun other => key other < key row) := by
      rw [← List.countP_append, List.append_assoc]
      rfl
    have full : (early ++ [first]).countP (fun other => key other < key row) =
        (early ++ [first]).length := by
      apply List.countP_eq_length.mpr
      intro other member
      rw [decide_eq_true_eq]
      rcases List.mem_append.mp member with earlier | itself
      · exact (across other earlier first List.mem_cons_self).trans_lt less
      · rw [List.mem_singleton.mp itself]
        exact less
    rw [List.length_append, List.length_singleton] at full
    omega
  have notAfter : ¬key row < key second := by
    intro less
    have counted : rank key (early ++ first :: second :: late) row =
        rank key (early ++ [first]) row + rank key (second :: late) row := by
      unfold rank
      rw [← List.countP_append, List.append_assoc]
      rfl
    have none : rank key (second :: late) row = 0 := by
      apply List.countP_eq_zero.mpr
      intro other member
      rw [decide_eq_true_eq, not_le]
      rcases List.mem_cons.mp member with rfl | later
      · exact less
      · exact less.trans_le (secondBelow other later)
    have bounded : rank key (early ++ [first]) row ≤ (early ++ [first]).length :=
      rank_le_length _ _
    rw [List.length_append, List.length_singleton] at bounded
    omega
  refine ⟨early, first, second, late, rfl, by omega, ?_⟩
  exact le_antisymm (firstBelow second List.mem_cons_self)
    ((not_lt.mp notAfter).trans (not_lt.mp notBefore))

theorem Orders.swap {early late : List α} {first second : α}
    (orders : Orders key rows (early ++ first :: second :: late))
    (tied : key first = key second) : Orders key rows (early ++ second :: first :: late) where
  perm := ((List.Perm.swap first second late).append_left early).trans orders.perm
  sorted := by
    have keys : (early ++ second :: first :: late).map key =
        (early ++ first :: second :: late).map key := by
      simp [tied]
    have sorted := List.pairwise_map.mpr orders.sorted
    rw [← keys] at sorted
    exact List.pairwise_map.mp sorted

theorem mem_page {number position : Nat} (found : order[position]? = some row)
    (low : number * size ≤ position) (high : position < (number + 1) * size) :
    row ∈ page order size number := by
  rw [Nat.succ_mul] at high
  apply List.mem_of_getElem? (i := position - number * size)
  rw [page, List.getElem?_take_of_lt (by omega), List.getElem?_drop,
    Nat.add_sub_cancel' low, found]

theorem not_nodup_pages {orders : Nat → List α} {count early late : Nat} (earlier : early < late)
    (within : late < count) (onEarly : row ∈ page (orders early) size early)
    (onLate : row ∈ page (orders late) size late) : ¬(pages orders size count).Nodup := by
  intro nodup
  have disjoint := (List.nodup_flatMap.mp nodup).2
  rw [List.pairwise_iff_getElem] at disjoint
  have apart := disjoint early late (by simpa using earlier.trans within)
    (by simpa using within) earlier
  simp only [List.getElem_range, Function.onFun] at apart
  exact apart onEarly onLate

/-- A cut through a tie lets two queries put one row on both sides of it. -/
theorem exists_repeat {number count : Nat} (straddles : Straddles key rows (number * size))
    (within : number < count) :
    ∃ orders, (∀ number, Orders key rows (orders number)) ∧
      ¬(pages orders size count).Nodup := by
  obtain ⟨order, sorted⟩ : ∃ order, Orders key rows order := exists_orders rows
  obtain ⟨early, first, second, late, rfl, length, tied⟩ := exists_split sorted straddles
  have positive : 0 < number := by
    cases number with
    | zero => omega
    | succ number => omega
  have whole : (number - 1 + 1) * size = number * size := by rw [Nat.sub_add_cancel positive]
  have nonempty : 0 < size := by
    cases size with
    | zero => omega
    | succ size => omega
  refine ⟨fun query => if query < number then early ++ first :: second :: late
    else early ++ second :: first :: late, ?_, ?_⟩
  · intro query
    dsimp only
    split
    · exact sorted
    · exact sorted.swap tied
  · have previous : number - 1 < number := Nat.sub_lt positive Nat.one_pos
    have before : (early ++ first :: second :: late)[early.length]? = some first := by simp
    have after : (early ++ second :: first :: late)[early.length + 1]? = some first := by simp
    apply not_nodup_pages previous within
    · rw [if_pos previous]
      apply mem_page before
      · rw [Nat.succ_mul] at whole
        omega
      · rw [whole]
        omega
    · rw [if_neg (lt_irrefl number)]
      apply mem_page after
      · omega
      · rw [Nat.succ_mul]
        omega

end OffsetPages
