import Mathlib.Algebra.Order.Ring.Int
import Mathlib.Data.List.Basic

/-!
# Reading a stream under a limit

A loop takes the pieces of a stream one by one, counts what it took in a counter of
bounded capacity, and gives up at the piece that goes beyond a limit.  Whether it takes
the whole stream depends on the length of the stream alone.
-/

set_option autoImplicit false

namespace ChunkedReading

variable {Item : Type}

/-- A stream in pieces, none empty and none longer than the buffer. -/
structure Splits (buffer : Nat) (stream : List Item) (chunks : List (List Item)) : Prop where
  whole : chunks.flatten = stream
  nonempty : ∀ chunk ∈ chunks, chunk ≠ []
  fits : ∀ chunk ∈ chunks, chunk.length ≤ buffer

inductive Taken (Item : Type) where
  | whole (items : List Item)
  | excess (count : Nat)
  | overflow

/-- The loop, after the items it has taken. -/
def takeChunks (limit capacity : Nat) (taken : List Item) : List (List Item) → Taken Item
  | [] => .whole taken
  | chunk :: rest =>
    if capacity ≤ (taken ++ chunk).length then .overflow
    else if limit < (taken ++ chunk).length then .excess (taken ++ chunk).length
    else takeChunks limit capacity (taken ++ chunk) rest

/-- One piece leads from within the limit to beyond the capacity. -/
def Crosses (limit capacity : Nat) (chunks : List (List Item)) : Prop :=
  ∃ before chunk after, chunks = before ++ chunk :: after ∧ before.flatten.length ≤ limit ∧
    capacity ≤ (before.flatten ++ chunk).length

variable {limit capacity : Nat}

/-! ## Within the limit -/

theorem takeChunks_within (small : limit < capacity) {taken : List Item}
    {chunks : List (List Item)} (within : (taken ++ chunks.flatten).length ≤ limit) :
    takeChunks limit capacity taken chunks = .whole (taken ++ chunks.flatten) := by
  induction chunks generalizing taken with
  | nil => rw [takeChunks, List.flatten_nil, List.append_nil]
  | cons chunk rest inductionHypothesis =>
      rw [List.flatten_cons, ← List.append_assoc] at within ⊢
      have here : (taken ++ chunk).length ≤ limit := by
        rw [List.length_append] at within
        omega
      rw [takeChunks, if_neg (by omega), if_neg (by omega)]
      exact inductionHypothesis within

/-! ## Beyond the limit -/

/-- The loop never comes to the end of a stream that is too long. -/
theorem takeChunks_beyond {taken : List Item} {chunks : List (List Item)}
    (started : taken.length ≤ limit) (beyond : limit < (taken ++ chunks.flatten).length) :
    (∃ count, takeChunks limit capacity taken chunks = .excess count ∧ limit < count) ∨
      takeChunks limit capacity taken chunks = .overflow := by
  induction chunks generalizing taken with
  | nil =>
      rw [List.flatten_nil, List.append_nil] at beyond
      omega
  | cons chunk rest inductionHypothesis =>
      rw [List.flatten_cons, ← List.append_assoc] at beyond
      rw [takeChunks]
      by_cases full : capacity ≤ (taken ++ chunk).length
      · right
        rw [if_pos full]
      · rw [if_neg full]
        by_cases exceeds : limit < (taken ++ chunk).length
        · left
          rw [if_pos exceeds]
          exact ⟨_, rfl, exceeds⟩
        · rw [if_neg exceeds]
          exact inductionHypothesis (by omega) beyond

theorem takeChunks_overflow {taken : List Item} {chunks : List (List Item)}
    (started : taken.length ≤ limit) :
    takeChunks limit capacity taken chunks = .overflow ↔
      ∃ before chunk after, chunks = before ++ chunk :: after ∧
        (taken ++ before.flatten).length ≤ limit ∧
        capacity ≤ (taken ++ before.flatten ++ chunk).length := by
  induction chunks generalizing taken with
  | nil =>
      constructor
      · intro ends
        cases ends
      · rintro ⟨before, chunk, after, split, -, -⟩
        simp at split
  | cons first rest inductionHypothesis =>
      rw [takeChunks]
      by_cases full : capacity ≤ (taken ++ first).length
      · rw [if_pos full]
        have here : (taken ++ ([] : List (List Item)).flatten).length ≤ limit := by
          rw [List.flatten_nil, List.append_nil]
          exact started
        exact ⟨fun _ => ⟨[], first, rest, rfl, here, by rwa [List.flatten_nil, List.append_nil]⟩,
          fun _ => rfl⟩
      · rw [if_neg full]
        -- the crossing piece is not the first, so the count after the first is the next start
        have later : ∀ before chunk after, first :: rest = before ++ chunk :: after →
            (taken ++ before.flatten).length ≤ limit →
            capacity ≤ (taken ++ before.flatten ++ chunk).length →
            ∃ middle, before = first :: middle ∧ rest = middle ++ chunk :: after := by
          intro before chunk after split within crosses
          cases before with
          | nil =>
              obtain ⟨rfl, rfl⟩ := List.cons.inj split
              rw [List.flatten_nil, List.append_nil] at crosses
              exact absurd crosses full
          | cons head middle =>
              obtain ⟨rfl, tail⟩ := List.cons.inj split
              exact ⟨middle, rfl, tail⟩
        by_cases exceeds : limit < (taken ++ first).length
        · rw [if_pos exceeds]
          constructor
          · intro ends
            cases ends
          · rintro ⟨before, chunk, after, split, within, crosses⟩
            obtain ⟨middle, rfl, -⟩ := later before chunk after split within crosses
            rw [List.flatten_cons, ← List.append_assoc, List.length_append] at within
            omega
        · rw [if_neg exceeds, inductionHypothesis (by omega)]
          constructor
          · rintro ⟨before, chunk, after, rfl, within, crosses⟩
            rw [List.append_assoc taken first, ← List.flatten_cons] at within crosses
            exact ⟨first :: before, chunk, after, rfl, within, crosses⟩
          · rintro ⟨before, chunk, after, split, within, crosses⟩
            obtain ⟨middle, rfl, tail⟩ := later before chunk after split within crosses
            rw [List.flatten_cons, ← List.append_assoc] at within crosses
            exact ⟨middle, chunk, after, tail, within, crosses⟩

/-! ## From the start -/

section Start

variable {chunks : List (List Item)}

theorem takeChunks_whole (small : limit < capacity) (within : chunks.flatten.length ≤ limit) :
    takeChunks limit capacity [] chunks = .whole chunks.flatten :=
  takeChunks_within small within

/-- The counter overflows exactly where one piece leads beyond it from within the limit. -/
theorem takeChunks_crosses :
    takeChunks limit capacity [] chunks = .overflow ↔ Crosses limit capacity chunks :=
  takeChunks_overflow (Nat.zero_le limit)

theorem takeChunks_excess (beyond : limit < chunks.flatten.length)
    (counted : ¬ Crosses limit capacity chunks) :
    ∃ count, takeChunks limit capacity [] chunks = .excess count ∧ limit < count := by
  have longer : limit < ([] ++ chunks.flatten).length := beyond
  rcases takeChunks_beyond (Nat.zero_le limit) longer with excess | overflow
  · exact excess
  · exact absurd (takeChunks_crosses.mp overflow) counted

end Start

/-! ## Splits -/

theorem Splits.crosses_length {buffer : Nat} {stream : List Item} {chunks : List (List Item)}
    (splits : Splits buffer stream chunks) (crosses : Crosses limit capacity chunks) :
    capacity ≤ stream.length ∧ capacity ≤ limit + buffer := by
  obtain ⟨before, chunk, after, rfl, within, crossing⟩ := crosses
  have short := splits.fits chunk (List.mem_append_right before List.mem_cons_self)
  have whole := congrArg List.length splits.whole
  rw [List.flatten_append, List.flatten_cons, List.length_append, List.length_append] at whole
  rw [List.length_append] at crossing
  omega

theorem splits_replicate {buffer size : Nat} (positive : 0 < size) (fits : size ≤ buffer)
    (count : Nat) (item : Item) :
    Splits buffer (List.replicate (count * size) item)
      (List.replicate count (List.replicate size item)) where
  whole := List.flatten_replicate_replicate
  nonempty := by
    intro chunk member
    rw [List.eq_of_mem_replicate member]
    exact List.ne_nil_of_length_pos (by rwa [List.length_replicate])
  fits := by
    intro chunk member
    rw [List.eq_of_mem_replicate member, List.length_replicate]
    exact fits

theorem crosses_replicate (count size : Nat) (item : Item) (positive : 0 < count)
    (within : (count - 1) * size ≤ limit) (crossing : capacity ≤ count * size) :
    Crosses limit capacity (List.replicate count (List.replicate size item)) := by
  obtain ⟨previous, rfl⟩ := Nat.exists_eq_add_one.mpr positive
  have before : (List.replicate previous (List.replicate size item)).flatten.length =
      previous * size := by
    rw [List.flatten_replicate_replicate, List.length_replicate]
  refine ⟨_, _, [], List.replicate_succ', ?_, ?_⟩
  · rw [before]
    exact within
  · rw [List.length_append, before, List.length_replicate, ← Nat.succ_mul]
    exact crossing

end ChunkedReading
