import Mathlib.Data.List.MinMax
import ZedRegistry.GraphNegotiation

/-!
# What `Accept` decides

The media ranges of a request as a set: which of them decides for a representation,
which representation the canonical route picks, and where the export route comes to
another answer.
-/

set_option autoImplicit false

namespace ZedRegistry

/-! ## Media ranges -/

/-- The members of the field lines that are not blank. -/
def mediaRanges (lines : List String) : List (List Char) :=
  (lines.flatMap fun line => line.toList.splitOn ',').filter fun entry => trimText entry ≠ []

theorem mediaRanges_joined (before after : List String) (left right : String) :
    mediaRanges (before ++ (left ++ "," ++ right) :: after) =
      mediaRanges (before ++ left :: right :: after) := by
  have split : (left ++ "," ++ right).toList.splitOn ',' =
      left.toList.splitOn ',' ++ right.toList.splitOn ',' := by
    rw [String.toList_append, String.toList_append, List.append_assoc]
    exact List.splitOn_append_cons_self _ _
  simp only [mediaRanges, List.flatMap_append, List.flatMap_cons, split, List.append_assoc]

/-! ## The range that decides -/

/-- A match of this specificity and quality is as good as any other. -/
def Outranks (best other : Nat × Nat) : Prop :=
  other.1 < best.1 ∨ other.1 = best.1 ∧ other.2 ≤ best.2

/-- The most specific matching range, and of those the one of the highest quality. -/
def Decides (registered : String) (ranges : List (List Char)) (best : Nat × Nat) : Prop :=
  (∃ range ∈ ranges, acceptMatch range registered = some best) ∧
    ∀ range ∈ ranges, ∀ other, acceptMatch range registered = some other → Outranks best other

theorem Decides.unique {registered : String} {ranges : List (List Char)} {best other : Nat × Nat}
    (decides : Decides registered ranges best) (also : Decides registered ranges other) :
    best = other := by
  obtain ⟨⟨range, member, same⟩, highest⟩ := decides
  obtain ⟨⟨range', member', same'⟩, highest'⟩ := also
  have above := highest range' member' other same'
  have below := highest' range member best same
  unfold Outranks at above below
  apply Prod.ext <;> omega

/-- What a loop over the ranges has selected. -/
def Selects (registered : String) (ranges : List (List Char)) : Option (Nat × Nat) → Prop
  | none => ∀ range ∈ ranges, acceptMatch range registered = none
  | some best => Decides registered ranges best

theorem Outranks.refl (best : Nat × Nat) : Outranks best best := .inr ⟨rfl, Nat.le_refl _⟩

theorem decides_append {registered : String} {ranges : List (List Char)} {range : List Char}
    {best : Nat × Nat}
    (winner : ∃ other ∈ ranges ++ [range], acceptMatch other registered = some best)
    (earlier : ∀ other ∈ ranges, ∀ value, acceptMatch other registered = some value →
      Outranks best value)
    (last : ∀ value, acceptMatch range registered = some value → Outranks best value) :
    Decides registered (ranges ++ [range]) best := by
  refine ⟨winner, ?_⟩
  intro other member value matched
  rcases List.mem_append.mp member with before | final
  · exact earlier other before value matched
  · rw [List.mem_singleton] at final
    subst final
    exact last value matched

theorem Selects.step {registered : String} {ranges : List (List Char)}
    {selected : Option (Nat × Nat)} (selects : Selects registered ranges selected)
    (range : List Char) :
    Selects registered (ranges ++ [range]) (preferMatch registered selected range) := by
  unfold preferMatch
  cases found : acceptMatch range registered with
  | none =>
      cases selected with
      | none =>
          intro other member
          rcases List.mem_append.mp member with earlier | final
          · exact selects other earlier
          · rw [List.mem_singleton.mp final]
            exact found
      | some best =>
          obtain ⟨⟨winner, member, same⟩, highest⟩ := selects
          apply decides_append ⟨winner, List.mem_append_left _ member, same⟩ highest
          intro value matched
          rw [found] at matched
          cases matched
  | some candidate =>
      have only : ∀ value, acceptMatch range registered = some value → value = candidate := by
        intro value matched
        rw [found] at matched
        exact (Option.some.inj matched).symm
      have last : range ∈ ranges ++ [range] := List.mem_append_right _ (List.mem_singleton_self _)
      cases selected with
      | none =>
          apply decides_append ⟨range, last, found⟩
          · intro other earlier value matched
            rw [selects other earlier] at matched
            cases matched
          · intro value matched
            rw [only value matched]
            exact .refl candidate
      | some current =>
          obtain ⟨⟨winner, member, same⟩, highest⟩ := selects
          by_cases better : current.1 < candidate.1 ∨
              candidate.1 = current.1 ∧ current.2 < candidate.2
          · simp only [Option.all_some, better, decide_true, if_true]
            apply decides_append ⟨range, last, found⟩
            · intro other earlier value matched
              have below := highest other earlier value matched
              unfold Outranks at below ⊢
              omega
            · intro value matched
              rw [only value matched]
              exact .refl candidate
          · simp only [Option.all_some, better, decide_false, Bool.false_eq_true, if_false]
            apply decides_append ⟨winner, List.mem_append_left _ member, same⟩ highest
            intro value matched
            rw [only value matched]
            unfold Outranks
            omega

theorem selects_foldl (registered : String) (ranges : List (List Char)) :
    Selects registered ranges (ranges.foldl (preferMatch registered) none) := by
  induction ranges using List.reverseRecOn with
  | nil => exact fun range member => absurd member List.not_mem_nil
  | append_singleton ranges range inductionHypothesis =>
      rw [List.foldl_append]
      exact inductionHypothesis.step range

theorem selected_iff {registered : String} {ranges : List (List Char)} {best : Nat × Nat} :
    ranges.foldl (preferMatch registered) none = some best ↔ Decides registered ranges best := by
  have selects := selects_foldl registered ranges
  constructor
  · intro selected
    rwa [selected] at selects
  · intro decides
    cases selected : ranges.foldl (preferMatch registered) none with
    | none =>
        rw [selected] at selects
        obtain ⟨⟨range, member, same⟩, _⟩ := decides
        rw [selects range member] at same
        cases same
    | some other =>
        rw [selected] at selects
        rw [decides.unique selects]

/-- The decision sees a set: order and repetition of the ranges do not matter. -/
theorem selected_congr {registered : String} {ranges other : List (List Char)}
    (same : ∀ range, range ∈ ranges ↔ range ∈ other) :
    ranges.foldl (preferMatch registered) none = other.foldl (preferMatch registered) none := by
  ext best
  rw [selected_iff, selected_iff]
  simp only [Decides, same]

/-! ## Qualities -/

def thousandths (digits : List Char) : Nat :=
  Nat.ofDigitChars 10 digits 0 * 10 ^ (3 - digits.length)

/-- The `qvalue` of RFC 9110 and what it is worth. -/
inductive QValue : List Char → Nat → Prop where
  | zero : QValue ['0'] 0
  | fraction (digits : List Char) (short : digits.length ≤ 3)
      (all : digits.all Char.isDigit = true) : QValue ('0' :: '.' :: digits) (thousandths digits)
  | one : QValue ['1'] 1000
  | whole (zeros : List Char) (short : zeros.length ≤ 3) (all : ∀ digit ∈ zeros, digit = '0') :
      QValue ('1' :: '.' :: zeros) 1000

theorem padded_thousandths (digits : List Char) :
    Nat.ofDigitChars 10 (digits ++ List.replicate (3 - digits.length) '0') 0 =
      thousandths digits := by
  rw [Nat.ofDigitChars_append, Nat.ofDigitChars_replicate_zero, thousandths, Nat.mul_comm]

theorem digit_eq_zero {digit : Char} (isDigit : digit.isDigit = true)
    (worthless : digit.toNat - '0'.toNat = 0) : digit = '0' := by
  rw [Char.isDigit_iff_toNat] at isDigit
  apply Char.toNat_inj.mp
  have zero : '0'.toNat = 48 := rfl
  have nine : '9'.toNat = 57 := rfl
  omega

theorem ofDigitChars_eq_zero {digits : List Char} (all : digits.all Char.isDigit = true) :
    Nat.ofDigitChars 10 digits 0 = 0 ↔ ∀ digit ∈ digits, digit = '0' := by
  induction digits with
  | nil => simp
  | cons digit digits inductionHypothesis =>
      rw [List.all_cons, Bool.and_eq_true] at all
      have positive : 0 < 10 ^ digits.length := Nat.pow_pos (by omega)
      rw [Nat.ofDigitChars_cons, Nat.ofDigitChars_eq_ofDigitChars_zero, Nat.add_eq_zero_iff,
        inductionHypothesis all.2, List.forall_mem_cons, Nat.mul_eq_zero, Nat.mul_zero,
        Nat.zero_add]
      apply and_congr_left
      intro _
      constructor
      · rintro (impossible | worthless)
        · omega
        · exact digit_eq_zero all.1 worthless
      · rintro rfl
        exact .inr rfl

theorem thousandths_eq_zero {digits : List Char} (all : digits.all Char.isDigit = true) :
    thousandths digits = 0 ↔ ∀ digit ∈ digits, digit = '0' := by
  have positive : 10 ^ (3 - digits.length) ≠ 0 := Nat.ne_of_gt (Nat.pow_pos (by omega))
  rw [thousandths, Nat.mul_eq_zero, ofDigitChars_eq_zero all]
  exact or_iff_left positive

/-- What stands before and after the point. -/
theorem parseQuality_parts {value whole fraction : List Char} {quality : Nat}
    (parts : (splitOnce '.' value).getD (value, []) = (whole, fraction)) :
    parseQuality value = some quality ↔
      fraction.length ≤ 3 ∧ fraction.all Char.isDigit = true ∧
        (whole = ['0'] ∧ quality = thousandths fraction ∨
          whole = ['1'] ∧ (∀ digit ∈ fraction, digit = '0') ∧ quality = 1000) := by
  unfold parseQuality
  rw [parts]
  simp only [padded_thousandths]
  by_cases long : 3 < fraction.length
  · simp [long]
  · by_cases digits : fraction.all Char.isDigit = true
    · simp only [long, digits, Bool.true_eq_false, or_false, if_false, Nat.le_of_not_lt long,
        true_and, ← thousandths_eq_zero digits]
      by_cases zero : whole = ['0']
      · subst zero
        simp [eq_comm]
      · by_cases one : whole = ['1']
        · subst one
          by_cases worthless : thousandths fraction = 0 <;> simp [worthless, eq_comm]
        · simp [zero, one]
    · simp [digits]

theorem parseQuality_iff {value : List Char} {quality : Nat} :
    parseQuality value = some quality ↔ QValue value quality := by
  have pointed (whole fraction : List Char) (absent : '.' ∉ whole) :
      parseQuality (whole ++ '.' :: fraction) = some quality ↔ _ :=
    parseQuality_parts (by rw [splitOnce_append absent, Option.getD_some])
  have plain (whole : List Char) (absent : '.' ∉ whole) :
      parseQuality whole = some quality ↔ _ :=
    parseQuality_parts (by rw [splitOnce_absent absent, Option.getD_none])
  constructor
  · intro parsed
    by_cases point : '.' ∈ value
    · obtain ⟨whole, fraction, rfl, absent⟩ := List.eq_append_cons_of_mem point
      obtain ⟨short, digits, ⟨rfl, rfl⟩ | ⟨rfl, zeros, rfl⟩⟩ :=
        (pointed whole fraction absent).mp parsed
      · exact .fraction fraction short digits
      · exact .whole fraction short zeros
    · obtain ⟨_, _, ⟨rfl, rfl⟩ | ⟨rfl, _, rfl⟩⟩ := (plain value point).mp parsed
      · exact .zero
      · exact .one
  · intro derived
    cases derived with
    | zero => exact (plain ['0'] (by decide)).mpr ⟨by decide, rfl, .inl ⟨rfl, rfl⟩⟩
    | one => exact (plain ['1'] (by decide)).mpr ⟨by decide, rfl, .inr ⟨rfl, by simp, rfl⟩⟩
    | fraction digits short all =>
        exact (pointed ['0'] digits (by decide)).mpr ⟨short, all, .inl ⟨rfl, rfl⟩⟩
    | whole zeros short all =>
        have digits : zeros.all Char.isDigit = true := by
          rw [List.all_eq_true]
          intro digit member
          rw [all digit member]
          rfl
        exact (pointed ['1'] zeros (by decide)).mpr ⟨short, digits, .inr ⟨rfl, all, rfl⟩⟩

/-! ## The canonical route -/

section Canonical

variable (formats : GraphFormats)

/-- The quality that the ranges give a representation. -/
def DecidingQuality (lines : List String) (format : DependencyGraphFormat) (quality : Nat) : Prop :=
  ∃ specificity, Decides (formats.canonical format).mediaType (mediaRanges lines)
    (specificity, quality)

def selectedQuality (lines : List String) (format : DependencyGraphFormat) : Option Nat :=
  ((mediaRanges lines).foldl (preferMatch (formats.canonical format).mediaType) none).map Prod.snd

variable {formats}

theorem selectedQuality_iff {lines : List String} {format : DependencyGraphFormat}
    {quality : Nat} :
    selectedQuality formats lines format = some quality ↔
      DecidingQuality formats lines format quality := by
  rw [selectedQuality, Option.map_eq_some_iff]
  simp only [selected_iff, Prod.exists, DecidingQuality]
  constructor
  · rintro ⟨specificity, quality', decides, rfl⟩
    exact ⟨specificity, decides⟩
  · rintro ⟨specificity, decides⟩
    exact ⟨specificity, quality, decides, rfl⟩

/-- The representations that are acceptable, in the fixed order. -/
def accepted (formats : GraphFormats) (lines : List String) :
    List (DependencyGraphFormat × Nat) :=
  DependencyGraphFormat.all.filterMap fun format =>
    ((selectedQuality formats lines format).filter fun quality => decide (0 < quality)).map
      fun quality => (format, quality)

theorem fieldLines_text (refusal : ApiErr) (lines : List String) :
    fieldLines refusal (lines.map some) = .ok (lines.map String.toList) := by
  unfold fieldLines
  induction lines with
  | nil => rfl
  | cons line lines inductionHypothesis =>
      rw [List.map_cons, List.mapM_cons, inductionHypothesis]
      rfl

theorem parseAccept_text (lines : List String) :
    parseAccept formats (lines.map some) =
      .ok (if mediaRanges lines = [] then none else some (accepted formats lines)) := by
  have ranges : ((lines.map String.toList).flatMap fun line => line.splitOn ',').filter
      (fun entry => trimText entry ≠ []) = mediaRanges lines := by
    rw [mediaRanges, List.flatMap_map]
  have same (format : DependencyGraphFormat) :
      (((mediaRanges lines).foldl (preferMatch (formats.canonical format).mediaType) none).filter
          fun selected => decide (0 < selected.2)).map (fun selected => (format, selected.2)) =
        ((selectedQuality formats lines format).filter fun quality =>
          decide (0 < quality)).map fun quality => (format, quality) := by
    unfold selectedQuality
    cases (mediaRanges lines).foldl (preferMatch (formats.canonical format).mediaType) none with
    | none => rfl
    | some best =>
        by_cases positive : 0 < best.2 <;> simp [Option.filter, positive]
  unfold parseAccept accepted
  simp only [fieldLines_text, bind, Except.bind, ranges, same]
  split <;> rfl

theorem mem_accepted {lines : List String} {format : DependencyGraphFormat} {quality : Nat} :
    (format, quality) ∈ accepted formats lines ↔
      0 < quality ∧ DecidingQuality formats lines format quality := by
  have listed : format ∈ DependencyGraphFormat.all := by cases format <;> decide
  rw [accepted, List.mem_filterMap]
  simp only [Option.map_eq_some_iff, Option.filter_eq_some_iff, selectedQuality_iff,
    decide_eq_true_eq, Prod.mk.injEq]
  constructor
  · rintro ⟨_, _, _, ⟨decides, positive⟩, rfl, rfl⟩
    exact ⟨positive, decides⟩
  · rintro ⟨positive, decides⟩
    exact ⟨format, listed, quality, ⟨decides, positive⟩, rfl, rfl⟩

def rank (format : DependencyGraphFormat) : Nat := DependencyGraphFormat.all.idxOf format

/-- Acceptable, of the highest quality, and the first of those in the fixed order. -/
def Chosen (formats : GraphFormats) (lines : List String) (format : DependencyGraphFormat) :
    Prop :=
  ∃ quality, 0 < quality ∧ DecidingQuality formats lines format quality ∧
    ∀ other quality', DecidingQuality formats lines other quality' →
      quality' < quality ∨ quality' = quality ∧ rank format ≤ rank other

theorem Chosen.unique {lines : List String} {format other : DependencyGraphFormat}
    (chosen : Chosen formats lines format) (also : Chosen formats lines other) :
    format = other := by
  obtain ⟨quality, _, decides, best⟩ := chosen
  obtain ⟨quality', _, decides', best'⟩ := also
  have first := best other quality' decides'
  have second := best' format quality decides
  have same : rank format = rank other := by omega
  have listed : format ∈ DependencyGraphFormat.all := by cases format <;> decide
  exact (List.idxOf_inj listed).mp same

theorem foldl_betterQuality (candidates : List (DependencyGraphFormat × Nat)) :
    candidates.foldl betterQuality none = candidates.argmax Prod.snd := by
  unfold List.argmax
  congr 1
  funext selected candidate
  cases selected with
  | none => rfl
  | some current =>
      unfold betterQuality List.argAux
      by_cases better : current.2 < candidate.2
      · simp [better]
      · simp [better, Nat.le_of_not_lt better]

theorem accepted_ordered (lines : List String) :
    (accepted formats lines).Pairwise fun earlier later => rank earlier.1 < rank later.1 := by
  have ordered : DependencyGraphFormat.all.Pairwise fun earlier later =>
      rank earlier < rank later := by decide
  apply ordered.filterMap
  intro earlier later before first fromFirst second fromSecond
  obtain ⟨_, _, rfl⟩ := Option.map_eq_some_iff.mp fromFirst
  obtain ⟨_, _, rfl⟩ := Option.map_eq_some_iff.mp fromSecond
  exact before

theorem key_le_of_idxOf_le {α : Type} [DecidableEq α] {key : α → Nat} {items : List α}
    (ordered : items.Pairwise fun earlier later => key earlier < key later) {first second : α}
    (member : first ∈ items) (also : second ∈ items)
    (before : items.idxOf first ≤ items.idxOf second) : key first ≤ key second := by
  rcases Nat.lt_or_eq_of_le before with earlier | same
  · have positions := List.pairwise_iff_getElem.mp ordered _ _ (List.idxOf_lt_length_of_mem member)
      (List.idxOf_lt_length_of_mem also) earlier
    rw [List.getElem_idxOf, List.getElem_idxOf] at positions
    exact Nat.le_of_lt positions
  · rw [(List.idxOf_inj member).mp same]

theorem picked_iff {lines : List String} {format : DependencyGraphFormat} :
    (((accepted formats lines).foldl betterQuality none).map Prod.fst) = some format ↔
      Chosen formats lines format := by
  have picked {best : DependencyGraphFormat × Nat}
      (found : (accepted formats lines).argmax Prod.snd = some best) :
      Chosen formats lines best.1 := by
    obtain ⟨member, highest, first⟩ := List.argmax_eq_some_iff.mp found
    obtain ⟨positive, decides⟩ := mem_accepted.mp member
    refine ⟨best.2, positive, decides, ?_⟩
    intro other quality decided
    by_cases zero : quality = 0
    · left
      omega
    · have among : (other, quality) ∈ accepted formats lines :=
        mem_accepted.mpr ⟨Nat.pos_of_ne_zero zero, decided⟩
      rcases Nat.lt_or_eq_of_le (highest _ among) with below | same
      · exact .inl below
      · exact .inr ⟨same, key_le_of_idxOf_le (accepted_ordered lines) member among
          (first _ among (Nat.le_of_eq same.symm))⟩
  rw [foldl_betterQuality, Option.map_eq_some_iff]
  constructor
  · rintro ⟨best, found, rfl⟩
    exact picked found
  · intro chosen
    cases found : (accepted formats lines).argmax Prod.snd with
    | none =>
        obtain ⟨quality, positive, decides, _⟩ := chosen
        have among := mem_accepted.mpr ⟨positive, decides⟩
        rw [List.argmax_eq_none.mp found] at among
        cases among
    | some best => exact ⟨best, rfl, (picked found).unique chosen⟩

theorem parseAccept_congr {lines other : List String}
    (same : ∀ range, range ∈ mediaRanges lines ↔ range ∈ mediaRanges other) :
    parseAccept formats (lines.map some) = parseAccept formats (other.map some) := by
  have empty : mediaRanges lines = [] ↔ mediaRanges other = [] := by
    rw [List.eq_nil_iff_forall_not_mem, List.eq_nil_iff_forall_not_mem]
    simp only [same]
  have entries : accepted formats lines = accepted formats other := by
    unfold accepted selectedQuality
    simp only [selected_congr same]
  rw [parseAccept_text, parseAccept_text, entries]
  simp only [empty]

theorem resolveFormat_congr {lines other : List String}
    (same : ∀ range, range ∈ mediaRanges lines ↔ range ∈ mediaRanges other)
    (query : Option String) :
    resolveFormat formats (lines.map some) query =
      resolveFormat formats (other.map some) query := by
  unfold resolveFormat
  rw [parseAccept_congr same]

theorem resolveFormat_open {lines : List String} (noRange : mediaRanges lines = []) :
    resolveFormat formats (lines.map some) none = .ok .json := by
  unfold resolveFormat
  rw [parseAccept_text, if_pos noRange]
  rfl

theorem resolveFormat_ranges {lines : List String} (ranges : mediaRanges lines ≠ []) :
    resolveFormat formats (lines.map some) none =
      okOrElse (((accepted formats lines).foldl betterQuality none).map Prod.fst)
        (unsupportedFormat "no acceptable dependency graph representation") := by
  unfold resolveFormat
  rw [parseAccept_text, if_neg ranges]
  rfl

/-- A format that the query may name: `Accept` leaves it open or finds it acceptable. -/
def Acceptable (formats : GraphFormats) (lines : List String) (format : DependencyGraphFormat) :
    Prop :=
  mediaRanges lines = [] ∨
    ∃ quality, 0 < quality ∧ DecidingQuality formats lines format quality

theorem accepted_any {lines : List String} {format : DependencyGraphFormat} :
    ((accepted formats lines).any fun entry => decide (entry.1 = format)) = true ↔
      ∃ quality, 0 < quality ∧ DecidingQuality formats lines format quality := by
  rw [List.any_eq_true]
  constructor
  · rintro ⟨⟨other, quality⟩, member, same⟩
    obtain rfl := decide_eq_true_eq.mp same
    exact ⟨quality, mem_accepted.mp member⟩
  · rintro ⟨quality, decides⟩
    exact ⟨(format, quality), mem_accepted.mpr decides, decide_eq_true rfl⟩

theorem resolveFormat_query {lines : List String} {value : String}
    {format : DependencyGraphFormat} (recognized : parseFormatName value = some format) :
    (Acceptable formats lines format →
      resolveFormat formats (lines.map some) (some value) = .ok format) ∧
    (¬Acceptable formats lines format →
      ∃ refusal, resolveFormat formats (lines.map some) (some value) = .error refusal ∧
        refusal.status = 406) := by
  have resolved : resolveFormat formats (lines.map some) (some value) =
      if mediaRanges lines = [] then .ok format
      else if ((accepted formats lines).any fun entry => decide (entry.1 = format)) = true
        then .ok format
        else .error ⟨406, "format_conflict", "requested graph representations conflict"⟩ := by
    unfold resolveFormat
    rw [parseAccept_text, Option.mapM_some, recognized]
    by_cases noRange : mediaRanges lines = []
    · rw [if_pos noRange, if_pos noRange]
      rfl
    · rw [if_neg noRange, if_neg noRange]
      rfl
  rw [resolved]
  unfold Acceptable
  rw [← accepted_any]
  by_cases noRange : mediaRanges lines = []
  · simp [noRange]
  · by_cases acceptable : ((accepted formats lines).any fun entry =>
        decide (entry.1 = format)) = true
    · simp only [noRange, acceptable, if_true, if_false, or_true, not_true, true_imp_iff,
        false_imp_iff, and_self]
    · simp only [noRange, acceptable, if_false, or_self, Bool.false_eq_true, false_imp_iff,
        true_and, not_false_eq_true, true_imp_iff]
      exact ⟨_, rfl, rfl⟩

end Canonical

theorem accept_negotiation_by_set (formats : GraphFormats) :
    (∀ lines other query, (∀ range, range ∈ mediaRanges lines ↔ range ∈ mediaRanges other) →
      resolveFormat formats (lines.map some) query =
        resolveFormat formats (other.map some) query) ∧
    (∀ before after left right query,
      resolveFormat formats ((before ++ (left ++ "," ++ right) :: after).map some) query =
        resolveFormat formats ((before ++ left :: right :: after).map some) query) ∧
    (∀ lines, mediaRanges lines = [] →
      resolveFormat formats (lines.map some) none = .ok .json) ∧
    (∀ lines, mediaRanges lines ≠ [] →
      (∀ format, resolveFormat formats (lines.map some) none = .ok format ↔
        Chosen formats lines format) ∧
      ((∀ format, ¬Chosen formats lines format) →
        ∃ refusal, resolveFormat formats (lines.map some) none = .error refusal ∧
          refusal.status = 406)) ∧
    (∀ lines value format, parseFormatName value = some format →
      (Acceptable formats lines format →
        resolveFormat formats (lines.map some) (some value) = .ok format) ∧
      (¬Acceptable formats lines format →
        ∃ refusal, resolveFormat formats (lines.map some) (some value) = .error refusal ∧
          refusal.status = 406)) ∧
    ∀ value quality, parseQuality value = some quality ↔ QValue value quality := by
  refine ⟨?_, ?_, ?_, ?_, ?_, ?_⟩
  · intro lines other query same
    exact resolveFormat_congr same query
  · intro before after left right query
    apply resolveFormat_congr
    intro range
    rw [mediaRanges_joined]
  · intro lines noRange
    exact resolveFormat_open noRange
  · intro lines ranges
    rw [resolveFormat_ranges ranges]
    constructor
    · intro format
      rw [okOrElse_ok, picked_iff]
    · intro none
      cases picked : ((accepted formats lines).foldl betterQuality Option.none).map Prod.fst with
      | none => exact ⟨_, rfl, rfl⟩
      | some format => exact absurd (picked_iff.mp picked) (none format)
  · intro lines value format recognized
    exact resolveFormat_query recognized
  · intro value quality
    exact parseQuality_iff

/-! ## The export route -/

theorem trimText_eq_nil {text : List Char} (blank : trimText text = []) :
    ∀ char ∈ text, char.isWhitespace = true := by
  have trimmed : text.dropWhile Char.isWhitespace = [] := by
    unfold trimText at blank
    rw [List.reverse_eq_nil_iff, List.dropWhile_eq_nil_iff] at blank
    cases rest : text.dropWhile Char.isWhitespace with
    | nil => rfl
    | cons head tail =>
        have first := List.head?_dropWhile_not Char.isWhitespace text
        rw [rest] at first blank
        have space := blank head (by simp)
        have visible : head.isWhitespace = false := first
        rw [space] at visible
        cases visible
  exact List.dropWhile_eq_nil_iff.mp trimmed

theorem splitOn_blank {text : List Char} (blank : trimText text = []) {mark : Char}
    (visible : mark.isWhitespace = false) : text.splitOn mark = [text] := by
  apply List.splitOn_eq_singleton
  intro member
  rw [trimText_eq_nil blank mark member] at visible
  cases visible

theorem acceptMatch_blank {entry : List Char} (blank : trimText entry = []) (registered : String) :
    acceptMatch entry registered = none := by
  have noMedia : splitOnce '/' ((trimText [entry].headI).map Char.toLower) = none := by
    rw [List.headI_cons, blank]
    rfl
  unfold acceptMatch
  rw [splitOn_blank blank (by decide)]
  simp only [noMedia]
  rfl

theorem foldl_preferMatch_filter (registered : String) (entries : List (List Char)) :
    (entries.filter fun entry => trimText entry ≠ []).foldl (preferMatch registered) none =
      entries.foldl (preferMatch registered) none := by
  generalize (none : Option (Nat × Nat)) = selected
  induction entries generalizing selected with
  | nil => rfl
  | cons entry entries inductionHypothesis =>
      by_cases blank : trimText entry = []
      · have skipped : preferMatch registered selected entry = selected := by
          rw [preferMatch, acceptMatch_blank blank]
        rw [List.filter_cons_of_neg (by simp [blank]), List.foldl_cons, skipped,
          inductionHypothesis]
      · rw [List.filter_cons_of_pos (by simp [blank]), List.foldl_cons, List.foldl_cons,
          inductionHypothesis]

/-- Blank lines add nothing but blank members. -/
theorem nonempty_ranges (lines : List String) :
    (((lines.map String.toList).filter fun line => trimText line ≠ []).flatMap
        fun line => line.splitOn ',').filter (fun entry => trimText entry ≠ []) =
      mediaRanges lines := by
  unfold mediaRanges
  induction lines with
  | nil => rfl
  | cons line lines inductionHypothesis =>
      rw [List.map_cons, List.flatMap_cons, List.filter_append]
      by_cases blank : trimText line.toList = []
      · rw [List.filter_cons_of_neg (by simp [blank]), inductionHypothesis,
          splitOn_blank blank (by decide), List.filter_cons_of_neg (by simp [blank])]
        rfl
      · rw [List.filter_cons_of_pos (by simp [blank]), List.flatMap_cons, List.filter_append,
          inductionHypothesis]

theorem ensureAcceptable_text {registered : String} {lines : List String} :
    ensureAcceptable registered (lines.map some) = .ok () ↔
      (∀ line ∈ lines, trimText line.toList = []) ∨
        ∃ best, Decides registered (mediaRanges lines) best ∧ 0 < best.2 := by
  unfold ensureAcceptable
  simp only [fieldLines_text, bind, Except.bind]
  rw [ensure_ok, ← foldl_preferMatch_filter, nonempty_ranges]
  simp [← selected_iff, List.filter_eq_nil_iff]

theorem fieldLines_none {accept : List (Option String)} (unreadable : none ∈ accept)
    (refusal : ApiErr) : fieldLines refusal accept = .error refusal := by
  unfold fieldLines
  induction accept with
  | nil => cases unreadable
  | cons line accept inductionHypothesis =>
      rw [List.mapM_cons]
      cases line with
      | none => rfl
      | some line =>
          have later : none ∈ accept := (List.mem_cons.mp unreadable).resolve_left (by simp)
          rw [inductionHypothesis later]
          rfl

theorem text_or_unreadable (accept : List (Option String)) :
    (∃ lines : List String, accept = lines.map some) ∨ none ∈ accept := by
  induction accept with
  | nil => exact .inl ⟨[], rfl⟩
  | cons line accept inductionHypothesis =>
      cases line with
      | none => exact .inr List.mem_cons_self
      | some line =>
          rcases inductionHypothesis with ⟨lines, rfl⟩ | unreadable
          · exact .inl ⟨line :: lines, rfl⟩
          · exact .inr (List.mem_cons_of_mem _ unreadable)

/-- The canonical route takes `Accept` as absent or finds the representation acceptable. -/
def ParsedAcceptable (formats : GraphFormats) (format : DependencyGraphFormat)
    (accept : List (Option String)) : Prop :=
  ∃ parsed, parseAccept formats accept = .ok parsed ∧
    ∀ entries ∈ parsed, ∃ quality, (format, quality) ∈ entries

/-- Some line is not blank, but every comma-separated member of it is. -/
def BlankMembersOnly (accept : List (Option String)) : Prop :=
  ∃ lines : List String, accept = lines.map some ∧ mediaRanges lines = [] ∧
    ∃ line ∈ lines, trimText line.toList ≠ []

theorem parsedAcceptable_text {formats : GraphFormats} {format : DependencyGraphFormat}
    {lines : List String} :
    ParsedAcceptable formats format (lines.map some) ↔ Acceptable formats lines format := by
  unfold ParsedAcceptable Acceptable
  rw [parseAccept_text]
  by_cases noRange : mediaRanges lines = []
  · simp [noRange]
  · simp [noRange, mem_accepted]

theorem blankMembersOnly_text {lines : List String} :
    BlankMembersOnly (lines.map some) ↔
      mediaRanges lines = [] ∧ ¬∀ line ∈ lines, trimText line.toList = [] := by
  have injective : Function.Injective (List.map (some : String → Option String)) :=
    List.map_injective_iff.mpr (Option.some_injective String)
  unfold BlankMembersOnly
  constructor
  · rintro ⟨other, same, noRange, line, member, visible⟩
    obtain rfl := injective same
    exact ⟨noRange, fun blank => visible (blank line member)⟩
  · rintro ⟨noRange, visible⟩
    simp only [not_forall] at visible
    obtain ⟨line, member, visible⟩ := visible
    exact ⟨lines, rfl, noRange, line, member, visible⟩

theorem mediaRanges_blank {lines : List String}
    (blank : ∀ line ∈ lines, trimText line.toList = []) : mediaRanges lines = [] := by
  have none : (lines.map String.toList).filter (fun line => trimText line ≠ []) = [] := by
    simpa [List.filter_eq_nil_iff] using blank
  rw [← nonempty_ranges, none]
  rfl

theorem negotiators_agree_iff (formats : GraphFormats) (format : DependencyGraphFormat)
    (accept : List (Option String)) :
    (ensureAcceptable (formats.canonical format).mediaType accept = .ok () ↔
      ParsedAcceptable formats format accept) ↔ ¬BlankMembersOnly accept := by
  rcases text_or_unreadable accept with ⟨lines, rfl⟩ | unreadable
  · have decided : (∃ best, Decides (formats.canonical format).mediaType (mediaRanges lines) best ∧
        0 < best.2) ↔ ∃ quality, 0 < quality ∧ DecidingQuality formats lines format quality := by
      constructor
      · rintro ⟨⟨specificity, quality⟩, decides, positive⟩
        exact ⟨quality, positive, specificity, decides⟩
      · rintro ⟨quality, positive, specificity, decides⟩
        exact ⟨(specificity, quality), decides, positive⟩
    have nothing : mediaRanges lines = [] →
        ¬∃ quality, 0 < quality ∧ DecidingQuality formats lines format quality := by
      rintro noRange ⟨_, _, _, ⟨range, member, _⟩, _⟩
      rw [noRange] at member
      cases member
    have blank := @mediaRanges_blank lines
    rw [ensureAcceptable_text, parsedAcceptable_text, blankMembersOnly_text, decided, Acceptable]
    by_cases allBlank : ∀ line ∈ lines, trimText line.toList = []
    · have unfailing : ¬(mediaRanges lines = [] ∧
          ¬∀ line ∈ lines, trimText line.toList = []) := fun both => both.2 allBlank
      exact iff_of_true (iff_of_true (.inl allBlank) (.inl (blank allBlank))) unfailing
    · by_cases noRange : mediaRanges lines = []
      · have undecided := nothing noRange
        simp only [allBlank, noRange, undecided, or_false, not_false_eq_true, and_self,
          not_true_eq_false, iff_true]
      · simp only [allBlank, noRange, false_or, false_and, not_false_eq_true]
  · have refused : ¬ensureAcceptable (formats.canonical format).mediaType accept = .ok () := by
      unfold ensureAcceptable
      simp only [fieldLines_none unreadable]
      intro passed
      cases passed
    have unparsed : ¬ParsedAcceptable formats format accept := by
      rintro ⟨parsed, read, _⟩
      unfold parseAccept at read
      rw [fieldLines_none unreadable] at read
      cases read
    have readable : ¬BlankMembersOnly accept := by
      rintro ⟨lines, rfl, _⟩
      simp at unreadable
    exact iff_of_true (iff_of_false refused unparsed) readable

def xmlFormats : GraphFormats where
  canonical _ := ⟨"application/xml", "xml", true⟩
  extended _ := ⟨"application/xml", "xml", true⟩
  parseExportName _ := none

/-- A field that is one comma has no range, so the canonical route leaves the format
open; the export route refuses it. -/
theorem lone_comma_disagrees :
    ¬(ensureAcceptable (xmlFormats.canonical .json).mediaType [some ","] = .ok () ↔
      ParsedAcceptable xmlFormats .json [some ","]) := by
  have absent : parseAccept xmlFormats [some ","] = .ok none := by decide
  have refused : ensureAcceptable (xmlFormats.canonical .json).mediaType [some ","] =
      .error ⟨406, "unsupported_format", "requested export format is not acceptable"⟩ := by
    decide
  rw [refused]
  intro agree
  have passed := agree.mpr ⟨none, absent, fun entries member => by cases member⟩
  cases passed

end ZedRegistry
