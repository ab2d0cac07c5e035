import Mathlib.Logic.Relation
import ZedRegistry.StorageEndpoints

/-!
# Errors of a storage backend

`redact_backend_error` keeps the front of the first line up to a query that opens with
a signature.  A signature behind another parameter of a query stays in the text.
-/

set_option autoImplicit false

namespace ZedRegistry.StorageReport

open Delimiters
open CsvExport (isWhitespace trimStart)

/-- `lines().next().unwrap_or_default()`. -/
def firstLine (error : List Char) : List Char :=
  match splitOnce '\n' error with
  | none => error
  | some (line, _) => if line.getLast? = some '\r' then line.dropLast else line

def signedQuery : List Char := "?X-Amz-".toList

def maxShown : Nat := 200

def truncatedError (error : List Char) : List Char :=
  (beforeMark signedQuery (trim (firstLine error))).take maxShown

def unspecifiedError : String := "storage backend reported an unspecified error"

def redactBackendError (error : String) : String :=
  let truncated := truncatedError error.toList
  if truncated = [] then unspecifiedError else String.ofList truncated

/-! ## Signed parameters in a text -/

/-- The characters that a URL is written in. -/
def urlChar (char : Char) : Bool :=
  char.isAlphanum || "-._~:/?#[]@!$&'()*+,;=%".toList.contains char

structure IsScheme (scheme : List Char) : Prop where
  opens : ∃ letter ∈ scheme.head?, letter.isAlpha = true
  letters : ∀ char ∈ scheme, char.isAlphanum = true ∨ char ∈ ['+', '-', '.']

/-- A text after which a parameter of a URL's query stands. -/
inductive StartsParameter : List Char → Prop where
  | first {lead scheme path : List Char} (isScheme : IsScheme scheme)
      (isPath : ∀ char ∈ path, urlChar char = true ∧ char ≠ '?' ∧ char ≠ '#') :
      StartsParameter (lead ++ (scheme ++ ("://".toList ++ (path ++ ['?']))))
  | next {front earlier : List Char} (starts : StartsParameter front)
      (isQuery : ∀ char ∈ earlier, urlChar char = true ∧ char ≠ '#') :
      StartsParameter (front ++ (earlier ++ ['&']))

/-- `X-Amz-...` as the name of a parameter. -/
structure SignedParameter (front name : List Char) : Prop where
  starts : StartsParameter front
  signed : "X-Amz-".toList <+: name
  isName : ∀ char ∈ name, urlChar char = true ∧ char ∉ ['&', '#', '=']

def Shows (text : List Char) : Prop :=
  ∃ front name rest, SignedParameter front name ∧ text = front ++ (name ++ '=' :: rest)

def IsValue (value : List Char) : Prop :=
  ∀ char ∈ value, urlChar char = true ∧ char ≠ '&' ∧ char ≠ '#'

/-- Two texts that differ in the value of one signed parameter. -/
inductive Altered : List Char → List Char → Prop where
  | value {front name value other rest : List Char} (parameter : SignedParameter front name)
      (isValue : IsValue value) (isOther : IsValue other) :
      Altered (front ++ (name ++ '=' :: (value ++ rest)))
        (front ++ (name ++ '=' :: (other ++ rest)))

/-! ## The line that is kept -/

theorem rdropWhile_stop {stop : Char} (visible : isWhitespace stop = false)
    (front rest : List Char) :
    (front ++ stop :: rest).rdropWhile isWhitespace =
      front ++ stop :: rest.rdropWhile isWhitespace := by
  have turned : (front ++ stop :: rest).reverse = rest.reverse ++ stop :: front.reverse := by simp
  rw [List.rdropWhile, List.rdropWhile, turned, dropWhile_stop visible]
  simp

theorem trim_concat {white : Char} (isWhite : isWhitespace white = true) (text : List Char) :
    trim (text ++ [white]) = trim text := by
  have front : trimStart (text ++ [white]) = trimStart text ++ [white] ∨
      trimStart (text ++ [white]) = trimStart text := by
    unfold trimStart
    rw [List.dropWhile_append]
    split
    · rename_i empty
      right
      rw [List.dropWhile_cons_of_pos isWhite, List.isEmpty_iff.mp empty]
      rfl
    · exact Or.inl rfl
  unfold trim
  rcases front with more | same
  · rw [more, List.rdropWhile_concat_pos _ _ _ isWhite]
  · rw [same]

/-- A carriage return before the line break is trimmed in any case. -/
theorem trim_firstLine (text : List Char) :
    trim (firstLine text) = trim (text.takeWhile fun char => char ≠ '\n') := by
  by_cases broken : '\n' ∈ text
  · obtain ⟨line, rest, rfl, absent⟩ := List.eq_append_cons_of_mem broken
    have others : ∀ char ∈ line, decide (char ≠ '\n') = true := by
      intro char member
      exact decide_eq_true fun same => absent (same ▸ member)
    rw [takeWhile_front others (stops_cons (by decide)), firstLine, splitOnce_append absent]
    dsimp only
    split_ifs with returned
    · obtain ⟨start, rfl⟩ := List.getLast?_eq_some_iff.mp returned
      rw [List.dropLast_concat, trim_concat (by decide)]
    · rfl
  · have others : ∀ char ∈ text, decide (char ≠ '\n') = true := by
      intro char member
      exact decide_eq_true fun same => broken (same ▸ member)
    rw [firstLine, splitOnce_absent broken, List.takeWhile_eq_self_iff.mpr others]

theorem startsParameter_last {front : List Char} (starts : StartsParameter front) :
    ∃ init, front = init ++ ['?'] ∨ front = init ++ ['&'] := by
  cases starts with
  | @first lead scheme path isScheme isPath =>
      exact ⟨lead ++ (scheme ++ ("://".toList ++ path)), Or.inl (by simp only [List.append_assoc])⟩
  | next starts isQuery => exact ⟨_, Or.inr (List.append_assoc _ _ _).symm⟩

theorem not_isWhitespace_of_isAlpha {char : Char} (isAlpha : char.isAlpha = true) :
    isWhitespace char = false := by
  have codes : 65 ≤ char.toNat ∧ char.toNat ≤ 90 ∨ 97 ≤ char.toNat ∧ char.toNat ≤ 122 := by
    have cases : char.isUpper = true ∨ char.isLower = true := Bool.or_eq_true_iff.mp isAlpha
    rcases cases with upper | lower
    · obtain ⟨above, below⟩ := of_decide_eq_true upper
      exact Or.inl ⟨UInt32.le_iff_toNat_le.mp above, UInt32.le_iff_toNat_le.mp below⟩
    · obtain ⟨above, below⟩ := Bool.and_eq_true_iff.mp lower
      exact Or.inr ⟨UInt32.le_iff_toNat_le.mp (of_decide_eq_true above),
        UInt32.le_iff_toNat_le.mp (of_decide_eq_true below)⟩
  simp only [CsvExport.isWhitespace, Bool.or_eq_false_iff, Bool.and_eq_false_iff,
    decide_eq_false_iff_not]
  omega

theorem IsScheme.visible {scheme : List Char} (isScheme : IsScheme scheme) :
    ∃ head tail, scheme = head :: tail ∧ isWhitespace head = false := by
  obtain ⟨head, isHead, isAlpha⟩ := isScheme.opens
  cases scheme with
  | nil => contradiction
  | cons letter tail =>
      obtain rfl := Option.some.inj isHead
      exact ⟨letter, tail, rfl, not_isWhitespace_of_isAlpha isAlpha⟩

/-- Trimming takes nothing off a URL. -/
theorem StartsParameter.trim {front : List Char} (starts : StartsParameter front) :
    ∃ kept, StartsParameter kept ∧ ∀ rest, trimStart (front ++ rest) = kept ++ rest := by
  induction starts with
  | @first lead scheme path isScheme isPath =>
      refine ⟨trimStart lead ++ (scheme ++ ("://".toList ++ (path ++ ['?']))),
        .first isScheme isPath, ?_⟩
      intro rest
      obtain ⟨head, tail, rfl, visible⟩ := isScheme.visible
      have cut := dropWhile_stop visible lead
        (tail ++ ("://".toList ++ (path ++ ['?'])) ++ rest)
      simpa only [trimStart, List.append_assoc, List.cons_append] using cut
  | @next front earlier starts isQuery ih =>
      obtain ⟨kept, keptStarts, cut⟩ := ih
      refine ⟨kept ++ (earlier ++ ['&']), .next keptStarts isQuery, ?_⟩
      intro rest
      rw [List.append_assoc, cut, ← List.append_assoc]

/-- What stands in the kept line before a signed parameter does not depend on what follows it. -/
theorem SignedParameter.line {front name : List Char} (parameter : SignedParameter front name) :
    (∀ rest other, StorageReport.trim (firstLine (front ++ (name ++ '=' :: rest))) =
      StorageReport.trim (firstLine (front ++ (name ++ '=' :: other)))) ∨
    ∃ kept, SignedParameter kept name ∧ ∀ rest, ∃ end_,
      StorageReport.trim (firstLine (front ++ (name ++ '=' :: rest))) =
        kept ++ (name ++ '=' :: end_) := by
  simp only [trim_firstLine, ← List.append_assoc front name]
  by_cases broken : '\n' ∈ front ++ name
  · left
    intro rest other
    obtain ⟨line, after, split, absent⟩ := List.eq_append_cons_of_mem broken
    have others : ∀ char ∈ line, decide (char ≠ '\n') = true := by
      intro char member
      exact decide_eq_true fun same => absent (same ▸ member)
    have same (tail : List Char) :
        (front ++ name ++ tail).takeWhile (fun char => char ≠ '\n') = line := by
      rw [split, List.append_assoc, List.cons_append]
      exact takeWhile_front others (stops_cons (by decide))
    rw [same, same]
  · right
    have others : ∀ char ∈ front ++ name, decide (char ≠ '\n') = true := by
      intro char member
      exact decide_eq_true fun same => broken (same ▸ member)
    obtain ⟨kept, keptStarts, cut⟩ := parameter.starts.trim
    refine ⟨kept, ⟨keptStarts, parameter.signed, parameter.isName⟩, ?_⟩
    intro rest
    refine ⟨(rest.takeWhile fun char => char ≠ '\n').rdropWhile isWhitespace, ?_⟩
    rw [List.takeWhile_append_of_pos others, List.takeWhile_cons_of_pos (by decide),
      StorageReport.trim, List.append_assoc, cut, ← List.append_assoc,
      rdropWhile_stop (by decide), List.append_assoc]

/-! ## What is shown -/

theorem signedQuery_free : '=' ∉ signedQuery := by decide

theorem take_beyond {front tail : List Char} {stop : Char} {count : Nat}
    (beyond : front.length < count) :
    (front ++ stop :: tail).take count =
      front ++ stop :: tail.take (count - (front.length + 1)) := by
  have left : count - front.length = count - (front.length + 1) + 1 := by omega
  rw [List.take_append, List.take_of_length_le (Nat.le_of_lt beyond), left, List.take_succ_cons]

/-- What follows a signed parameter that is not shown does not matter. -/
theorem truncatedError_altered {front name : List Char} (parameter : SignedParameter front name)
    {rest other : List Char}
    (hidden : ¬ Shows (truncatedError (front ++ (name ++ '=' :: rest)))) :
    truncatedError (front ++ (name ++ '=' :: other)) =
      truncatedError (front ++ (name ++ '=' :: rest)) := by
  unfold truncatedError at hidden ⊢
  rcases parameter.line with same | ⟨kept, keptParameter, lines⟩
  · rw [same other rest]
  · obtain ⟨tail, line⟩ := lines rest
    obtain ⟨otherTail, otherLine⟩ := lines other
    rw [line, ← List.append_assoc] at hidden
    rw [line, otherLine, ← List.append_assoc, ← List.append_assoc]
    by_cases cutBefore : signedQuery <:+: kept ++ name
    · rw [beforeMark_append cutBefore, beforeMark_append cutBefore]
    · rw [beforeMark_stop signedQuery_free cutBefore (by decide)] at hidden
      rw [beforeMark_stop signedQuery_free cutBefore (by decide),
        beforeMark_stop signedQuery_free cutBefore (by decide)]
      by_cases long : maxShown ≤ (kept ++ name).length
      · rw [List.take_append_of_le_length long, List.take_append_of_le_length long]
      · rw [take_beyond (Nat.lt_of_not_le long), List.append_assoc] at hidden
        exact absurd ⟨kept, name, _, keptParameter, rfl⟩ hidden

theorem truncatedError_reaches {text other : List Char}
    (altered : Relation.ReflTransGen Altered text other) (hidden : ¬ Shows (truncatedError text)) :
    truncatedError other = truncatedError text := by
  induction altered with
  | refl => rfl
  | tail _ step ih =>
      cases step with
      | value parameter isValue isOther =>
          rw [← ih] at hidden
          rw [truncatedError_altered parameter hidden, ih]

/-- A signed parameter that is not the first of its query, whose name is within what is
shown of the line and stands before any query that opens with a signature. -/
def LaterSigned (error : List Char) : Prop :=
  ∃ front name rest, SignedParameter front name ∧
    trim (firstLine error) = front ++ (name ++ '=' :: rest) ∧ front.getLast? = some '&' ∧
    (front ++ name).length < maxShown ∧ ¬ signedQuery <:+: front ++ name

theorem shows_iff (error : List Char) : Shows (truncatedError error) ↔ LaterSigned error := by
  have nonempty : signedQuery ≠ [] := by decide
  constructor
  · rintro ⟨front, name, rest, parameter, shown⟩
    have inBefore : front ++ name <+: beforeMark signedQuery (trim (firstLine error)) := by
      have inShown : front ++ name <+: truncatedError error := by
        rw [shown, ← List.append_assoc]
        exact List.prefix_append _ _
      exact inShown.trans (List.take_prefix _ _)
    have unsigned : ¬ signedQuery <:+: front ++ name := by
      intro stands
      exact not_infix_beforeMark nonempty _ (stands.trans inBefore.isInfix)
    obtain ⟨tail, line⟩ : truncatedError error <+: trim (firstLine error) :=
      (List.take_prefix _ _).trans (beforeMark_isPrefix _ _)
    refine ⟨front, name, rest ++ tail, parameter, ?_, ?_, ?_, unsigned⟩
    · rw [← line, shown]
      simp only [List.append_assoc, List.cons_append]
    · obtain ⟨init, rfl | rfl⟩ := startsParameter_last parameter.starts
      · obtain ⟨ending, rfl⟩ := parameter.signed
        have split : signedQuery = ['?'] ++ "X-Amz-".toList := rfl
        exact absurd ⟨init, ending, by simp only [split, List.append_assoc]⟩ unsigned
      · exact List.getLast?_concat
    · have lengths := congrArg List.length shown
      have short : (truncatedError error).length ≤ maxShown := List.length_take_le _ _
      simp only [List.length_append, List.length_cons] at lengths ⊢
      omega
  · rintro ⟨front, name, rest, parameter, line, _, short, unsigned⟩
    rw [truncatedError, line, ← List.append_assoc,
      beforeMark_stop signedQuery_free unsigned nonempty, take_beyond short, List.append_assoc]
    exact ⟨front, name, _, parameter, rfl⟩

/-! ## The result as a whole -/

theorem redactBackendError_toList (error : String) :
    (redactBackendError error).toList = unspecifiedError.toList ∧ truncatedError error.toList = [] ∨
      (redactBackendError error).toList = truncatedError error.toList ∧
        truncatedError error.toList ≠ [] := by
  unfold redactBackendError
  by_cases nothing : truncatedError error.toList = []
  · left
    exact ⟨by rw [if_pos nothing], nothing⟩
  · right
    exact ⟨by rw [if_neg nothing, String.toList_ofList], nothing⟩

theorem not_shows_of_free {text : List Char} (free : '=' ∉ text) : ¬ Shows text := by
  rintro ⟨front, name, rest, _, rfl⟩
  exact free (by simp)

theorem redact_shows_iff (error : String) :
    Shows (redactBackendError error).toList ↔ LaterSigned error.toList := by
  rw [← shows_iff]
  rcases redactBackendError_toList error with ⟨unspecified, nothing⟩ | ⟨shown, _⟩
  · have hidden : ¬ Shows unspecifiedError.toList := not_shows_of_free (by decide)
    have none : ¬ Shows [] := not_shows_of_free List.not_mem_nil
    rw [unspecified, nothing]
    exact ⟨fun shows => absurd shows hidden, fun shows => absurd shows none⟩
  · rw [shown]

theorem firstLine_unbroken (error : List Char) : '\n' ∉ trim (firstLine error) := by
  intro member
  rw [trim_firstLine] at member
  have inLine := List.dropWhile_subset _ (List.rdropWhile_prefix _ _ |>.subset member)
  simpa using List.mem_takeWhile_imp inLine

/-- What an operator is shown of an error. -/
structure Redacted (error : String) : Prop where
  nonempty : redactBackendError error ≠ ""
  oneLine : '\n' ∉ (redactBackendError error).toList
  short : (redactBackendError error).length ≤ maxShown
  unsigned : ¬ Shows (redactBackendError error).toList
  /-- The values of signed parameters do not show. -/
  alike : ∀ other : String, Relation.ReflTransGen Altered error.toList other.toList →
    redactBackendError other = redactBackendError error

/-- No credential of a signed URL is shown exactly where none stands behind another
parameter within reach. -/
theorem redact_backend_error (error : String) : Redacted error ↔ ¬ LaterSigned error.toList := by
  constructor
  · intro redacted later
    exact redacted.unsigned ((redact_shows_iff error).mpr later)
  · intro later
    have hidden := mt (shows_iff error.toList).mp later
    have shown := redactBackendError_toList error
    refine ⟨?_, ?_, ?_, mt (redact_shows_iff error).mp later, ?_⟩
    · intro empty
      rw [empty] at shown
      rcases shown with ⟨unspecified, _⟩ | ⟨nothing, some⟩
      · exact absurd unspecified (by decide)
      · exact some nothing.symm
    · rcases shown with ⟨unspecified, _⟩ | ⟨kept, _⟩
      · rw [unspecified]
        decide
      · rw [kept]
        intro member
        exact firstLine_unbroken _
          ((beforeMark_isPrefix _ _).subset ((List.take_prefix _ _).subset member))
    · rw [← String.length_toList]
      rcases shown with ⟨unspecified, _⟩ | ⟨kept, _⟩
      · rw [unspecified]
        decide
      · rw [kept]
        exact List.length_take_le _ _
    · intro other altered
      unfold redactBackendError
      rw [truncatedError_reaches altered hidden]

/-! ## A presigned download in an error -/

theorem isScheme_https : IsScheme "https".toList where
  opens := ⟨'h', rfl, rfl⟩
  letters := by
    have letters : "https".toList.all Char.isAlphanum = true := by decide
    exact fun char member => Or.inl (List.all_eq_true.mp letters char member)

/-- The parameters of a download URL, the overridden response header first. -/
theorem startsParameter_download :
    StartsParameter ("GET ".toList ++ ("https".toList ++ ("://".toList ++
      ("b.example/k".toList ++ ['?']))) ++ ("response-cache-control=public".toList ++ ['&'])) := by
  have path : "b.example/k".toList.all
      (fun char => urlChar char && char ≠ '?' && char ≠ '#') = true := by decide
  have query : "response-cache-control=public".toList.all
      (fun char => urlChar char && char ≠ '#') = true := by decide
  refine .next (.first isScheme_https ?_) ?_
  · intro char member
    simpa [and_assoc] using List.all_eq_true.mp path char member
  · intro char member
    simpa using List.all_eq_true.mp query char member

theorem signedParameter_download :
    SignedParameter ("GET ".toList ++ ("https".toList ++ ("://".toList ++
      ("b.example/k".toList ++ ['?']))) ++ ("response-cache-control=public".toList ++ ['&']))
      "X-Amz-Signature".toList where
  starts := startsParameter_download
  signed := by decide
  isName := by
    have name : "X-Amz-Signature".toList.all
        (fun char => urlChar char && !List.contains ['&', '#', '='] char) = true := by decide
    intro char member
    simpa using List.all_eq_true.mp name char member

def downloadError : String :=
  "GET https://b.example/k?response-cache-control=public&X-Amz-Signature=deadbeef"

/-- The error is shown as it is, signature and all. -/
theorem download_signature_shown :
    redactBackendError downloadError = downloadError ∧ ¬ Redacted downloadError := by
  have unchanged : redactBackendError downloadError = downloadError := by decide +kernel
  refine ⟨unchanged, ?_⟩
  intro redacted
  apply redacted.unsigned
  rw [unchanged]
  exact ⟨_, _, "deadbeef".toList, signedParameter_download, by decide⟩

end ZedRegistry.StorageReport
