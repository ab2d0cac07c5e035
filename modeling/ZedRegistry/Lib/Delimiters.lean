import Mathlib.Data.List.TakeWhile

/-!
# Cutting a text at a delimiter

A text whose front satisfies a predicate and whose rest does not begin with it
is cut exactly between the two, from either end.
-/

set_option autoImplicit false

namespace Delimiters

variable {Letter : Type} {keep : Letter → Bool}

/-- The rest is empty or begins with a letter that is not kept. -/
def Stops (keep : Letter → Bool) (rest : List Letter) : Prop :=
  ∀ letter ∈ rest.head?, keep letter = false

theorem stops_nil : Stops keep [] := nofun

theorem stops_cons {letter : Letter} {rest : List Letter} (other : keep letter = false) :
    Stops keep (letter :: rest) := by
  intro head isHead
  rw [← Option.some.inj isHead]
  exact other

theorem takeWhile_front {front rest : List Letter} (kept : ∀ letter ∈ front, keep letter = true)
    (stops : Stops keep rest) : (front ++ rest).takeWhile keep = front := by
  rw [List.takeWhile_append_of_pos kept]
  cases rest with
  | nil => simp
  | cons letter rest =>
      rw [List.takeWhile_cons_of_neg (by simp [stops letter rfl]), List.append_nil]

theorem dropWhile_front {front rest : List Letter} (kept : ∀ letter ∈ front, keep letter = true)
    (stops : Stops keep rest) : (front ++ rest).dropWhile keep = rest := by
  rw [List.dropWhile_append_of_pos kept]
  cases rest with
  | nil => rfl
  | cons letter rest => rw [List.dropWhile_cons_of_neg (by simp [stops letter rfl])]

theorem dropWhile_stops {rest : List Letter} (stops : Stops keep rest) :
    rest.dropWhile keep = rest :=
  dropWhile_front (fun _ inside => absurd inside List.not_mem_nil) stops

/-- Dropping a front goes no further than the first letter that is not kept. -/
theorem dropWhile_stop {stop : Letter} (other : keep stop = false) (front rest : List Letter) :
    (front ++ stop :: rest).dropWhile keep = front.dropWhile keep ++ stop :: rest := by
  induction front with
  | nil => exact List.dropWhile_cons_of_neg (by simp [other])
  | cons letter front ih =>
      by_cases kept : keep letter = true
      · rw [List.cons_append, List.dropWhile_cons_of_pos kept, List.dropWhile_cons_of_pos kept, ih]
      · rw [List.cons_append, List.dropWhile_cons_of_neg kept, List.dropWhile_cons_of_neg kept,
          List.cons_append]

/-- A text without the delimiter is a prefix only of what stands before it. -/
theorem prefix_before_iff {text front rest : List Letter} {delimiter : Letter}
    (free : delimiter ∉ text) : text <+: front ++ delimiter :: rest ↔ text <+: front := by
  induction text generalizing front with
  | nil => simp
  | cons letter text ih =>
      obtain ⟨other, textFree⟩ := not_or.mp (mt List.mem_cons.mpr free)
      cases front with
      | nil =>
          rw [List.nil_append, List.cons_prefix_cons]
          constructor
          · rintro ⟨same, _⟩
            exact absurd same.symm other
          · intro hasPrefix
            exact absurd hasPrefix.length_le (by simp)
      | cons head front =>
          rw [List.cons_append, List.cons_prefix_cons, List.cons_prefix_cons, ih textFree]

/-! ## A mark among joined parts -/

/-- A text without the delimiter stands on one side of it. -/
theorem infix_around {mark front rest : List Letter} {delimiter : Letter}
    (free : delimiter ∉ mark) (nonempty : mark ≠ []) :
    mark <:+: front ++ delimiter :: rest ↔ mark <:+: front ∨ mark <:+: rest := by
  have notHere : ∀ text, ¬mark <+: delimiter :: text := by
    intro text here
    cases mark with
    | nil => exact nonempty rfl
    | cons letter mark => exact free ((List.cons_prefix_cons.mp here).1 ▸ List.mem_cons_self)
  induction front with
  | nil =>
      rw [List.nil_append, List.infix_cons_iff, List.infix_nil]
      constructor
      · intro stands
        exact Or.inr (stands.resolve_left (notHere rest))
      · intro stands
        exact Or.inr (stands.resolve_left nonempty)
  | cons letter front ih =>
      rw [List.cons_append, List.infix_cons_iff, List.infix_cons_iff, ← List.cons_append,
        prefix_before_iff free, or_assoc]
      exact or_congr Iff.rfl ih

theorem infix_intercalate {mark : List Letter} {delimiter : Letter} (free : delimiter ∉ mark)
    (nonempty : mark ≠ []) (parts : List (List Letter)) :
    mark <:+: [delimiter].intercalate parts ↔ ∃ part ∈ parts, mark <:+: part := by
  induction parts with
  | nil => simpa [List.intercalate] using nonempty
  | cons part parts ih =>
      cases parts with
      | nil => simp [List.intercalate]
      | cons next parts =>
          rw [List.intercalate_cons_cons, List.append_assoc, List.singleton_append,
            infix_around free nonempty, ih]
          simp only [List.mem_cons, exists_eq_or_imp]

theorem doubled_after {front rest : List Letter} {delimiter : Letter} (free : delimiter ∉ front)
    (doubled : [delimiter, delimiter] <:+: front ++ delimiter :: rest) :
    [delimiter, delimiter] <:+: delimiter :: rest := by
  induction front with
  | nil => exact doubled
  | cons letter front ih =>
      obtain ⟨other, later⟩ := not_or.mp (mt List.mem_cons.mpr free)
      rw [List.cons_append, List.infix_cons_iff] at doubled
      refine ih later (doubled.resolve_left ?_)
      intro here
      exact other (List.cons_prefix_cons.mp here).1

/-- Nonempty parts leave no two delimiters next to each other. -/
theorem not_doubled_intercalate {delimiter : Letter} {parts : List (List Letter)}
    (whole : ∀ part ∈ parts, part ≠ [] ∧ delimiter ∉ part) :
    ¬[delimiter, delimiter] <:+: delimiter :: [delimiter].intercalate parts := by
  have begins : ∀ part, part ≠ [] → delimiter ∉ part → ∀ rest,
      ¬[delimiter, delimiter] <+: delimiter :: (part ++ rest) := by
    intro part filled free rest here
    cases part with
    | nil => exact filled rfl
    | cons letter part =>
        have second := (List.cons_prefix_cons.mp (List.cons_prefix_cons.mp here).2).1
        exact free (second ▸ List.mem_cons_self)
  induction parts with
  | nil => simp [List.intercalate, List.infix_cons_iff]
  | cons part parts ih =>
      obtain ⟨filled, free⟩ := whole part List.mem_cons_self
      have others : ∀ other ∈ parts, other ≠ [] ∧ delimiter ∉ other := fun other member =>
        whole other (List.mem_cons_of_mem _ member)
      intro doubled
      rw [List.infix_cons_iff] at doubled
      cases parts with
      | nil =>
          rw [List.intercalate_singleton] at doubled
          rcases doubled with here | later
          · exact begins part filled free [] (by rwa [List.append_nil])
          · exact free (later.subset List.mem_cons_self)
      | cons next parts =>
          rw [List.intercalate_cons_cons, List.append_assoc, List.singleton_append] at doubled
          rcases doubled with here | later
          · exact begins part filled free _ here
          · exact ih others (doubled_after free later)

/-! ## A mark of several letters -/

section Mark

variable [DecidableEq Letter]

/-- What stands before and after the first place where the mark stands. -/
def splitAtMark (mark : List Letter) : List Letter → Option (List Letter × List Letter)
  | [] => if mark = [] then some ([], []) else none
  | letter :: text =>
    if mark <+: letter :: text then some ([], (letter :: text).drop mark.length)
    else (splitAtMark mark text).map fun parts => (letter :: parts.1, parts.2)

theorem splitAtMark_of_prefix {mark text : List Letter} :
    splitAtMark mark (mark ++ text) = some ([], text) := by
  cases joined : mark ++ text with
  | nil =>
      obtain ⟨rfl, rfl⟩ := List.append_eq_nil_iff.mp joined
      rfl
  | cons letter rest =>
      rw [splitAtMark, if_pos (joined ▸ List.prefix_append mark text), ← joined, List.drop_left]

/-- The text is cut at a mark whose first letter does not stand before it. -/
theorem splitAtMark_front {letter : Letter} {mark before after : List Letter}
    (free : letter ∉ before) :
    splitAtMark (letter :: mark) (before ++ (letter :: mark ++ after)) =
      some (before, after) := by
  induction before with
  | nil => exact splitAtMark_of_prefix
  | cons head before ih =>
      obtain ⟨other, rest⟩ := not_or.mp (mt List.mem_cons.mpr free)
      have notHere : ¬ letter :: mark <+: head :: (before ++ (letter :: mark ++ after)) :=
        fun here => other (List.cons_prefix_cons.mp here).1
      rw [List.cons_append, splitAtMark, if_neg notHere, ih rest]
      rfl

/-- What stands before the first place where the mark stands, or all of the text. -/
def beforeMark (mark text : List Letter) : List Letter :=
  ((splitAtMark mark text).map Prod.fst).getD text

theorem beforeMark_cons_here {mark text : List Letter} {letter : Letter}
    (here : mark <+: letter :: text) : beforeMark mark (letter :: text) = [] := by
  rw [beforeMark, splitAtMark, if_pos here]
  rfl

theorem beforeMark_cons_later {mark text : List Letter} {letter : Letter}
    (later : ¬ mark <+: letter :: text) :
    beforeMark mark (letter :: text) = letter :: beforeMark mark text := by
  rw [beforeMark, beforeMark, splitAtMark, if_neg later]
  cases splitAtMark mark text <;> rfl

theorem beforeMark_isPrefix (mark text : List Letter) : beforeMark mark text <+: text := by
  induction text with
  | nil =>
      rw [beforeMark, splitAtMark]
      split <;> exact List.prefix_refl _
  | cons letter text ih =>
      by_cases here : mark <+: letter :: text
      · rw [beforeMark_cons_here here]
        exact List.nil_prefix
      · rw [beforeMark_cons_later here]
        exact List.cons_prefix_cons.mpr ⟨rfl, ih⟩

/-- The mark does not stand in what is before it. -/
theorem not_infix_beforeMark {mark : List Letter} (nonempty : mark ≠ []) (text : List Letter) :
    ¬ mark <:+: beforeMark mark text := by
  induction text with
  | nil =>
      rw [beforeMark, splitAtMark, if_neg nonempty]
      exact mt List.infix_nil.mp nonempty
  | cons letter text ih =>
      by_cases here : mark <+: letter :: text
      · rw [beforeMark_cons_here here]
        exact mt List.infix_nil.mp nonempty
      · rw [beforeMark_cons_later here, List.infix_cons_iff]
        intro stands
        rcases stands with inFront | later
        · have kept : letter :: beforeMark mark text <+: letter :: text :=
            List.cons_prefix_cons.mpr ⟨rfl, beforeMark_isPrefix mark text⟩
          exact here (inFront.trans kept)
        · exact ih later

/-- A front without the mark is kept when a letter that the mark does not have ends it. -/
theorem beforeMark_stop {mark front : List Letter} {stop : Letter} (free : stop ∉ mark)
    (absent : ¬ mark <:+: front) (nonempty : mark ≠ []) (rest : List Letter) :
    beforeMark mark (front ++ stop :: rest) = front ++ stop :: beforeMark mark rest := by
  induction front with
  | nil =>
      have later : ¬ mark <+: stop :: rest := by
        intro here
        cases mark with
        | nil => exact nonempty rfl
        | cons head mark => exact free ((List.cons_prefix_cons.mp here).1 ▸ List.mem_cons_self)
      exact beforeMark_cons_later later
  | cons letter front ih =>
      obtain ⟨notHere, notLater⟩ := not_or.mp (mt List.infix_cons_iff.mpr absent)
      have later : ¬ mark <+: letter :: (front ++ stop :: rest) := by
        rw [← List.cons_append, prefix_before_iff free]
        exact notHere
      rw [List.cons_append, beforeMark_cons_later later, ih notLater, List.cons_append]

/-- A mark in the front alone decides. -/
theorem beforeMark_append {mark front : List Letter} (stands : mark <:+: front)
    (rest : List Letter) : beforeMark mark (front ++ rest) = beforeMark mark front := by
  induction front with
  | nil =>
      obtain rfl := List.infix_nil.mp stands
      have empty (text : List Letter) : beforeMark [] text = [] := by
        cases text with
        | nil => rfl
        | cons letter text => exact beforeMark_cons_here List.nil_prefix
      rw [empty, empty]
  | cons letter front ih =>
      by_cases here : mark <+: letter :: front
      · rw [beforeMark_cons_here here]
        exact beforeMark_cons_here (here.trans (List.prefix_append (letter :: front) rest))
      · have inFront := (List.infix_cons_iff.mp stands).resolve_left here
        have later : ¬ mark <+: letter :: (front ++ rest) := by
          intro overlaps
          exact here (List.prefix_of_prefix_length_le overlaps
            (List.prefix_append (letter :: front) rest)
            (Nat.le_succ_of_le inFront.length_le))
        rw [beforeMark_cons_later here, List.cons_append, beforeMark_cons_later later, ih inFront]

end Mark

/-! ## The pieces of a content between two ends -/

section Pieces

variable [DecidableEq Letter] {delimiter : Letter}

/-- What a piece of `before ++ content ++ after` is, when the delimiter stands in the
content alone. -/
inductive Piece (delimiter : Letter) (before content after : List Letter) :
    List Letter → Prop where
  | whole (free : delimiter ∉ content) : Piece delimiter before content after
      (before ++ content ++ after)
  | first (front rest : List Letter) (split : content = front ++ delimiter :: rest) :
      Piece delimiter before content after (before ++ front)
  | last (rest back : List Letter) (split : content = rest ++ delimiter :: back) :
      Piece delimiter before content after (back ++ after)
  | middle (early piece late : List Letter)
      (split : content = early ++ delimiter :: (piece ++ delimiter :: late)) :
      Piece delimiter before content after piece

theorem piece_of_mem_splitOn {before content after piece : List Letter}
    (beforeFree : delimiter ∉ before) (afterFree : delimiter ∉ after)
    (member : piece ∈ (before ++ content ++ after).splitOn delimiter) :
    Piece delimiter before content after piece := by
  induction content generalizing before with
  | nil =>
      have free : delimiter ∉ before ++ [] ++ after := by simp [beforeFree, afterFree]
      rw [List.splitOn_eq_singleton free, List.mem_singleton] at member
      rw [member]
      exact .whole List.not_mem_nil
  | cons letter content ih =>
      by_cases same : letter = delimiter
      · subst same
        rw [List.append_assoc, List.cons_append, List.splitOn_append_cons_self,
          List.splitOn_eq_singleton beforeFree, List.singleton_append, List.mem_cons] at member
        rcases member with front | later
        · have here : Piece letter before (letter :: content) after (before ++ []) :=
            .first [] content rfl
          rw [front]
          rwa [List.append_nil] at here
        · cases @ih [] List.not_mem_nil later with
          | whole free => exact .last [] content rfl
          | first front rest split => exact .middle [] front rest (by simp [split])
          | last rest back split => exact .last (letter :: rest) back (by simp [split])
          | middle early _ late split => exact .middle (letter :: early) piece late (by simp [split])
      · have moved : before ++ letter :: content ++ after =
            before ++ [letter] ++ content ++ after := by simp
        have free : delimiter ∉ before ++ [letter] := by simp [beforeFree, Ne.symm same]
        rw [moved] at member
        cases ih free member with
        | whole contentFree =>
            rw [← moved]
            exact .whole (by simp [contentFree, Ne.symm same])
        | first front rest split =>
            rw [List.append_assoc before]
            exact .first (letter :: front) rest (by simp [split])
        | last rest back split => exact .last (letter :: rest) back (by simp [split])
        | middle early _ late split => exact .middle (letter :: early) piece late (by simp [split])

theorem mem_splitOn_middle (front piece rest : List Letter) (free : delimiter ∉ piece) :
    piece ∈ (front ++ delimiter :: (piece ++ delimiter :: rest)).splitOn delimiter := by
  rw [List.splitOn_append_cons_self, List.splitOn_append_cons_self,
    List.splitOn_eq_singleton free]
  exact List.mem_append_right _ (List.mem_append_left _ (List.mem_singleton_self piece))

end Pieces

end Delimiters
