import Mathlib.Algebra.Order.Ring.Int
import Mathlib.Data.List.Induction

/-!
# Digest chains

Each row carries a digest computed from the row and the digest of the row
before it.  When the digest function binds both and never produces the start
value, the last digest determines the content of the whole chain, including
its length: one chain cannot be a proper suffix of another.
-/

set_option autoImplicit false

namespace DigestChain

variable {Row Digest : Type} (digest : Row → Digest → Digest) (hash : Row → Digest)

/-- Every row's recorded digest is the one computed from its predecessor's. -/
def Linked : Digest → List Row → Prop
  | _, [] => True
  | previous, row :: rest => digest row previous = hash row ∧ Linked (hash row) rest

/-- The recorded digest of the last row, or the value before the first one. -/
def tip (previous : Digest) : List Row → Digest
  | [] => previous
  | row :: rest => tip (hash row) rest

theorem tip_append (previous : Digest) (early late : List Row) :
    tip hash previous (early ++ late) = tip hash (tip hash previous early) late := by
  induction early generalizing previous with
  | nil => rfl
  | cons row rest ih => exact ih (hash row)

theorem linked_append (previous : Digest) (early late : List Row) :
    Linked digest hash previous (early ++ late) ↔
      Linked digest hash previous early ∧
        Linked digest hash (tip hash previous early) late := by
  induction early generalizing previous with
  | nil => simp [Linked, tip]
  | cons row rest ih => simp [Linked, tip, ih, and_assoc]

theorem tip_concat (previous : Digest) (rows : List Row) (row : Row) :
    tip hash previous (rows ++ [row]) = hash row := by
  simp [tip_append, tip]

theorem linked_concat (previous : Digest) (rows : List Row) (row : Row) :
    Linked digest hash previous (rows ++ [row]) ↔
      Linked digest hash previous rows ∧
        digest row (tip hash previous rows) = hash row := by
  simp [linked_append, Linked]

theorem tip_ne_start {start : Digest} (fresh : ∀ row previous, digest row previous ≠ start)
    {rows : List Row} (linked : Linked digest hash start rows) (nonempty : rows ≠ []) :
    tip hash start rows ≠ start := by
  obtain ⟨early, row, rfl⟩ := List.eq_nil_or_concat rows |>.resolve_left nonempty
  rw [List.concat_eq_append] at linked ⊢
  rw [tip_concat, ← ((linked_concat digest hash start early row).mp linked).2]
  exact fresh row _

/-- Every row stands in `follows` to the row before it, the first one to `previous`. -/
def EachFollows (follows : Option Row → Row → Prop) : Option Row → List Row → Prop
  | _, [] => True
  | previous, row :: rest => follows previous row ∧ EachFollows follows (some row) rest

instance decidableEachFollows (follows : Option Row → Row → Prop)
    [decide : ∀ previous row, Decidable (follows previous row)] :
    (previous : Option Row) → (rows : List Row) → Decidable (EachFollows follows previous rows)
  | _, [] => isTrue trivial
  | previous, row :: rest =>
      have := decide previous row
      have := decidableEachFollows follows (some row) rest
      inferInstanceAs (Decidable (_ ∧ _))

theorem eachFollows_and (first second : Option Row → Row → Prop) (previous : Option Row)
    (rows : List Row) :
    EachFollows (fun before row => first before row ∧ second before row) previous rows ↔
      EachFollows first previous rows ∧ EachFollows second previous rows := by
  induction rows generalizing previous with
  | nil => simp [EachFollows]
  | cons row rest ih =>
      simp only [EachFollows, ih]
      constructor
      · rintro ⟨⟨firstHere, secondHere⟩, firstLater, secondLater⟩
        exact ⟨⟨firstHere, firstLater⟩, secondHere, secondLater⟩
      · rintro ⟨⟨firstHere, firstLater⟩, secondHere, secondLater⟩
        exact ⟨⟨firstHere, secondHere⟩, firstLater, secondLater⟩

theorem eachFollows_append (follows : Option Row → Row → Prop) (previous : Option Row)
    (early late : List Row) :
    EachFollows follows previous (early ++ late) ↔
      EachFollows follows previous early ∧
        EachFollows follows (early.getLast?.or previous) late := by
  induction early generalizing previous with
  | nil => simp [EachFollows]
  | cons row rest ih =>
      have last : ((row :: rest).getLast?).or previous = rest.getLast?.or (some row) := by
        cases rest with
        | nil => rfl
        | cons next rest => simp [List.getLast?_cons]
      simp only [List.cons_append, EachFollows, ih, last, and_assoc]

theorem eachFollows_concat (follows : Option Row → Row → Prop) (rows : List Row) (row : Row) :
    EachFollows follows none (rows ++ [row]) ↔
      EachFollows follows none rows ∧ follows rows.getLast? row := by
  simp [eachFollows_append, EachFollows]

theorem tip_eq_getLast (start : Digest) (rows : List Row) :
    tip hash start rows = rows.getLast?.elim start hash := by
  induction rows using List.reverseRecOn with
  | nil => rfl
  | append_singleton early row _ => simp [tip_concat]

theorem eachFollows_digest_iff_linked (start : Digest) (previous : Option Row)
    (rows : List Row) :
    EachFollows (fun before row => digest row (before.elim start hash) = hash row)
        previous rows ↔
      Linked digest hash (previous.elim start hash) rows := by
  induction rows generalizing previous with
  | nil => simp [EachFollows, Linked]
  | cons row rest ih =>
      simp only [EachFollows, Linked, ih (some row), Option.elim_some]

/-- The last digest binds the content and the digests of the whole chain. -/
theorem eq_of_tip_eq {Content : Type} (content : Row → Content) {start : Digest}
    (binds : ∀ row row' previous previous', digest row previous = digest row' previous' →
      content row = content row' ∧ previous = previous')
    (fresh : ∀ row previous, digest row previous ≠ start)
    {left right : List Row} (leftLinked : Linked digest hash start left)
    (rightLinked : Linked digest hash start right)
    (sameTip : tip hash start left = tip hash start right) :
    left.map content = right.map content ∧ left.map hash = right.map hash := by
  induction left using List.reverseRecOn generalizing right with
  | nil =>
      by_cases empty : right = []
      · simp [empty]
      · exact absurd sameTip.symm (tip_ne_start digest hash fresh rightLinked empty)
  | append_singleton early row ih =>
      rcases List.eq_nil_or_concat right with rfl | ⟨early', row', rfl⟩
      · exact absurd sameTip (tip_ne_start digest hash fresh leftLinked (by simp))
      · rw [List.concat_eq_append] at rightLinked sameTip ⊢
        obtain ⟨earlyLinked, rowDigest⟩ := (linked_concat digest hash _ _ _).mp leftLinked
        obtain ⟨earlyLinked', rowDigest'⟩ := (linked_concat digest hash _ _ _).mp rightLinked
        rw [tip_concat, tip_concat] at sameTip
        obtain ⟨sameContent, samePrevious⟩ := binds row row' _ _
          (rowDigest.trans (sameTip.trans rowDigest'.symm))
        obtain ⟨contents, hashes⟩ := ih earlyLinked earlyLinked' samePrevious
        simp [contents, hashes, sameContent, sameTip]

end DigestChain
