import Mathlib.Data.List.Basic

/-!
# Walking pages by key

A reader asks for the rows below a bound, greatest keys first, and takes the key
of the last row of a page as the next bound.  Rows may be added between any two
reads.
-/

set_option autoImplicit false

namespace KeysetPages

variable {Row : Type} (key : Row → Nat)

/-- A first page has no bound. -/
def Below (bound : Option Nat) (row : Row) : Prop := ∀ limit, bound = some limit → key row < limit

/-- The greatest rows below the bound, in descending order: all of them, or `size`. -/
structure IsPage (rows : List Row) (bound : Option Nat) (size : Nat) (page : List Row) : Prop where
  descending : page.Pairwise fun early late => key late < key early
  members : ∀ row ∈ page, row ∈ rows ∧ Below key bound row
  complete : ∀ row ∈ rows, Below key bound row →
    row ∈ page ∨ page.length = size ∧ ∀ other ∈ page, key row < key other

/-- The walk until an empty page; `none` where the fuel runs out. -/
def walk (read : Nat → Option Nat → List Row) : Nat → Nat → Option Nat → Option (List Row)
  | 0, _, _ => none
  | fuel + 1, step, bound =>
    match (read step bound).getLast? with
    | none => some []
    | some last => (walk read fuel (step + 1) (some (key last))).map (read step bound ++ ·)

/-- Every row below the bound is visited once, greatest key first. -/
structure Covers (rows : List Row) (bound : Option Nat) (visited : List Row) : Prop where
  descending : visited.Pairwise fun early late => key late < key early
  below : ∀ row ∈ visited, Below key bound row
  every : ∀ row ∈ rows, Below key bound row → row ∈ visited

variable {key}

theorem Covers.nodup {rows visited : List Row} {bound : Option Nat}
    (covers : Covers key rows bound visited) : visited.Nodup :=
  covers.descending.imp fun less same => absurd (same ▸ less) (Nat.lt_irrefl _)

/-- The last row of a page has the smallest key. -/
theorem last_least {page : List Row}
    (descending : page.Pairwise fun early late => key late < key early) {last : Row}
    (isLast : page.getLast? = some last) : ∀ row ∈ page, key last ≤ key row := by
  obtain ⟨front, rfl⟩ := List.getLast?_eq_some_iff.mp isLast
  intro row member
  rcases List.mem_append.mp member with earlier | same
  · exact Nat.le_of_lt ((List.pairwise_append.mp descending).2.2 row earlier last (by simp))
  · exact Nat.le_of_eq (congrArg key (List.mem_singleton.mp same)).symm

/-- More fuel changes no walk that has ended. -/
theorem walk_mono {read : Nat → Option Nat → List Row} {fuel more step : Nat}
    {bound : Option Nat} {visited : List Row} (enough : fuel ≤ more)
    (walked : walk key read fuel step bound = some visited) :
    walk key read more step bound = some visited := by
  induction fuel generalizing more step bound visited with
  | zero => contradiction
  | succ fuel ih =>
      obtain ⟨more, rfl⟩ := Nat.exists_eq_add_one_of_ne_zero (show more ≠ 0 by omega)
      unfold walk at walked ⊢
      cases isLast : (read step bound).getLast? with
      | none =>
          rw [isLast] at walked
          exact walked
      | some last =>
          rw [isLast] at walked
          obtain ⟨rest, later, rfl⟩ := Option.map_eq_some_iff.mp walked
          exact Option.map_eq_some_iff.mpr ⟨rest, ih (by omega) later, rfl⟩

section Walks

variable {rows : Nat → List Row} {read : Nat → Option Nat → List Row} {size : Nat}

/-- Each page ends strictly below its bound, so the bound counts the pages left. -/
theorem walk_ends_from
    (pages : ∀ step bound, IsPage key (rows step) bound size (read step bound))
    {fuel bound : Nat} (enough : bound < fuel) (step : Nat) :
    ∃ visited, walk key read fuel step (some bound) = some visited := by
  induction fuel generalizing bound step with
  | zero => omega
  | succ fuel ih =>
      unfold walk
      cases isLast : (read step (some bound)).getLast? with
      | none => exact ⟨[], rfl⟩
      | some last =>
          have member := List.mem_of_getLast? isLast
          have smaller := ((pages step (some bound)).members last member).2 bound rfl
          obtain ⟨visited, walked⟩ := ih (show key last < fuel by omega) (step + 1)
          exact ⟨_, congrArg (Option.map _) walked⟩

theorem walk_ends (pages : ∀ step bound, IsPage key (rows step) bound size (read step bound)) :
    ∃ fuel visited, walk key read fuel 0 none = some visited := by
  cases isLast : (read 0 none).getLast? with
  | none =>
      refine ⟨1, [], ?_⟩
      rw [walk, isLast]
  | some last =>
      obtain ⟨visited, walked⟩ := walk_ends_from pages (Nat.lt_succ_self (key last)) 1
      refine ⟨key last + 2, read 0 none ++ visited, ?_⟩
      rw [walk, isLast]
      exact congrArg (Option.map _) walked

/-- A page and the walk from its last row cover what the page was cut from. -/
theorem Covers.cons {current later : List Row} {bound : Option Nat} {page rest : List Row}
    {last : Row} (isPage : IsPage key current bound size page)
    (isLast : page.getLast? = some last) (kept : current ⊆ later)
    (covers : Covers key later (some (key last)) rest) :
    Covers key current bound (page ++ rest) := by
  have least := last_least isPage.descending isLast
  have lastMember := List.mem_of_getLast? isLast
  refine ⟨List.pairwise_append.mpr ⟨isPage.descending, covers.descending, ?_⟩, ?_, ?_⟩
  · intro early isEarly late isLate
    exact Nat.lt_of_lt_of_le (covers.below late isLate _ rfl) (least early isEarly)
  · intro row member
    rcases List.mem_append.mp member with onPage | later
    · exact (isPage.members row onPage).2
    · intro limit isBound
      exact Nat.lt_trans (covers.below row later _ rfl)
        ((isPage.members last lastMember).2 limit isBound)
  · intro row member below
    rcases isPage.complete row member below with onPage | ⟨_, smaller⟩
    · exact List.mem_append_left _ onPage
    · refine List.mem_append_right _ (covers.every row (kept member) ?_)
      intro limit isLimit
      rw [← Option.some.inj isLimit]
      exact smaller last lastMember

theorem walk_covers (positive : 0 < size) (grows : ∀ step, rows step ⊆ rows (step + 1))
    (pages : ∀ step bound, IsPage key (rows step) bound size (read step bound))
    {fuel step : Nat} {bound : Option Nat} {visited : List Row}
    (walked : walk key read fuel step bound = some visited) :
    Covers key (rows step) bound visited ∧ ∀ row ∈ visited, ∃ later, row ∈ rows later := by
  induction fuel generalizing step bound visited with
  | zero => contradiction
  | succ fuel ih =>
      unfold walk at walked
      have isPage := pages step bound
      cases isLast : (read step bound).getLast? with
      | none =>
          have empty := List.getLast?_eq_none_iff.mp isLast
          rw [isLast] at walked
          obtain rfl := Option.some.inj walked
          rw [empty] at isPage
          refine ⟨⟨List.Pairwise.nil, by simp, ?_⟩, by simp⟩
          intro row member below
          rcases isPage.complete row member below with onPage | ⟨full, _⟩
          · exact onPage
          · exact absurd full (Nat.ne_of_lt positive)
      | some last =>
          rw [isLast] at walked
          obtain ⟨rest, later, rfl⟩ := Option.map_eq_some_iff.mp walked
          obtain ⟨covers, stored⟩ := ih later
          refine ⟨Covers.cons isPage isLast (grows step) covers, ?_⟩
          intro row member
          rcases List.mem_append.mp member with onPage | further
          · exact ⟨step, (isPage.members row onPage).1⟩
          · exact stored row further

end Walks

end KeysetPages
