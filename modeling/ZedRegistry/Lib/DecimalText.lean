import Mathlib.Algebra.Order.Ring.Int
import Mathlib.Data.List.Basic

/-!
# Decimal text

Zero-padded numbers and netstrings over `List Char`: what is written can be
read back from the front of a text, whatever follows.  A sequence of netstrings
determines the sequence of its fields.
-/

set_option autoImplicit false

namespace DecimalText

def pad (width value : Nat) : List Char :=
  List.replicate (width - (Nat.toDigits 10 value).length) '0' ++ Nat.toDigits 10 value

/-- Exactly `width` digits. -/
def number (width : Nat) (text : List Char) : Option (Nat × List Char) :=
  if (text.take width).length = width ∧ (text.take width).all Char.isDigit then
    some (Nat.ofDigitChars 10 (text.take width) 0, text.drop width)
  else none

theorem ofDigitChars_pad (width value : Nat) :
    Nat.ofDigitChars 10 (pad width value) 0 = value := by
  rw [pad, Nat.ofDigitChars_append, Nat.ofDigitChars_replicate_zero]
  simp

theorem length_pad (width value : Nat) (positive : 0 < width)
    (fits : value < 10 ^ width) : (pad width value).length = width := by
  have digits : (Nat.toDigits 10 value).length ≤ width :=
    (Nat.length_toDigits_le_iff (by decide) positive).mpr fits
  simp only [pad, List.length_append, List.length_replicate]
  omega

theorem isDigit_of_mem_pad {width value : Nat} {char : Char}
    (member : char ∈ pad width value) : char.isDigit = true := by
  rcases List.mem_append.mp member with zero | digit
  · rw [List.eq_of_mem_replicate zero]
    decide
  · exact Nat.isDigit_of_mem_toDigits (by decide) (by decide) digit

theorem number_pad (width value : Nat) (positive : 0 < width)
    (fits : value < 10 ^ width) (rest : List Char) :
    number width (pad width value ++ rest) = some (value, rest) := by
  have length := length_pad width value positive fits
  have front : (pad width value ++ rest).take width = pad width value :=
    List.take_left' length
  have back : (pad width value ++ rest).drop width = rest := List.drop_left' length
  rw [number, front, back, ofDigitChars_pad, if_pos]
  exact ⟨length, List.all_eq_true.mpr fun _ member => isDigit_of_mem_pad member⟩

/-- The digits at the front of a text end where the first other character stands. -/
theorem span_digits {digits : List Char} (all : ∀ char ∈ digits, char.isDigit = true)
    (stop : Char) (notDigit : stop.isDigit = false) (rest : List Char) :
    (digits ++ stop :: rest).takeWhile Char.isDigit = digits ∧
      (digits ++ stop :: rest).dropWhile Char.isDigit = stop :: rest := by
  constructor
  · rw [List.takeWhile_append_of_pos all, List.takeWhile_cons_of_neg (by simp [notDigit])]
    simp
  · rw [List.dropWhile_append_of_pos all, List.dropWhile_cons_of_neg (by simp [notDigit])]

theorem span_pad (width value : Nat) (stop : Char) (notDigit : stop.isDigit = false)
    (rest : List Char) :
    (pad width value ++ stop :: rest).takeWhile Char.isDigit = pad width value ∧
      (pad width value ++ stop :: rest).dropWhile Char.isDigit = stop :: rest :=
  span_digits (fun _ member => isDigit_of_mem_pad member) stop notDigit rest

/-! ## Netstrings -/

def netstring (field : List Char) : List Char :=
  Nat.toDigits 10 field.length ++ ':' :: field

def netstrings (fields : List (List Char)) : List Char := fields.flatMap netstring

theorem netstring_append_inj {left right leftRest rightRest : List Char}
    (same : netstring left ++ leftRest = netstring right ++ rightRest) :
    left = right ∧ leftRest = rightRest := by
  have split : ∀ field rest : List Char,
      (netstring field ++ rest).takeWhile Char.isDigit = Nat.toDigits 10 field.length ∧
        (netstring field ++ rest).dropWhile Char.isDigit = ':' :: (field ++ rest) := by
    intro field rest
    have digits : ∀ char ∈ Nat.toDigits 10 field.length, char.isDigit = true :=
      fun _ member => Nat.isDigit_of_mem_toDigits (by decide) (by decide) member
    have spanned := span_digits digits ':' (by decide) (field ++ rest)
    simpa [netstring] using spanned
  obtain ⟨leftDigits, leftBack⟩ := split left leftRest
  obtain ⟨rightDigits, rightBack⟩ := split right rightRest
  rw [same, rightDigits] at leftDigits
  rw [same, rightBack] at leftBack
  have lengths := congrArg (fun digits => Nat.ofDigitChars 10 digits 0) leftDigits
  simp only [Nat.ofDigitChars_ten_toDigits] at lengths
  obtain ⟨fields, rests⟩ := List.append_inj (List.cons.inj leftBack).2 lengths
  exact ⟨fields.symm, rests.symm⟩

theorem netstring_ne_nil (field rest : List Char) : netstring field ++ rest ≠ [] := by
  simp [netstring]

theorem netstrings_injective : Function.Injective netstrings := by
  intro left
  induction left with
  | nil =>
      intro right same
      cases right with
      | nil => rfl
      | cons field rest => exact absurd same.symm (netstring_ne_nil field _)
  | cons field rest ih =>
      intro right same
      cases right with
      | nil => exact absurd same (netstring_ne_nil field _)
      | cons field' rest' =>
          obtain ⟨fields, rests⟩ := netstring_append_inj same
          rw [fields, ih rests]

/-- A field that may be absent; the mark keeps absence apart from the empty text. -/
def optional : Option String → List Char
  | none => ['-']
  | some text => '+' :: text.toList

theorem optional_injective : Function.Injective optional := by
  intro left right same
  cases left with
  | none =>
      cases right with
      | none => rfl
      | some text => simp [optional] at same
  | some text =>
      cases right with
      | none => simp [optional] at same
      | some text' =>
          have chars : text.toList = text'.toList := (List.cons.inj same).2
          rw [String.toList_inj.mp chars]

end DecimalText
