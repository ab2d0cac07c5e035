import Mathlib.Algebra.Order.Ring.Int
import Mathlib.Data.List.Basic
import Mathlib.Tactic.SplitIfs
import ZedRegistry.Lib.DecimalText

/-!
# Timestamps

`DateTimeUtc` is the value of chrono's `DateTime<Utc>`.  Parsing, rendering and
the precision the database keeps belong to chrono and Postgres, so they are
fields of `Timestamps`, and what the registry relies on is `Timestamps.Lawful`.

`civil` is one lawful instance: RFC 3339 as chrono documents it, with the
fraction printed in 0, 3, 6 or 9 digits and the UTC offset as `+00:00`.
-/

set_option autoImplicit false

namespace ZedRegistry

def isLeapYear (year : Int) : Bool :=
  year % 4 == 0 && (year % 100 != 0 || year % 400 == 0)

def daysInMonth (year : Int) (month : Nat) : Nat :=
  if month = 2 then (if isLeapYear year then 29 else 28)
  else if month = 4 ∨ month = 6 ∨ month = 9 ∨ month = 11 then 30 else 31

structure NaiveDate where
  year : Int
  month : Nat
  day : Nat
  valid : (1 ≤ month ∧ month ≤ 12) ∧ 1 ≤ day ∧ day ≤ daysInMonth year month
  deriving DecidableEq

/-- `nano` from 10^9 on is chrono's form of a leap second, after second 59. -/
structure DateTimeUtc where
  date : NaiveDate
  minuteOfDay : Nat
  second : Nat
  nano : Nat
  valid : minuteOfDay < 1440 ∧ second < 60 ∧
    (nano < 1000000000 ∨ second = 59 ∧ nano < 2000000000)
  deriving DecidableEq

/-- Chronological position, in units finer than any two stored instants. -/
def DateTimeUtc.ordinal (time : DateTimeUtc) : Int :=
  ((((time.date.year * 12 + time.date.month) * 31 + time.date.day) * 1440 +
    time.minuteOfDay) * 60 + time.second) * 2000000000 + time.nano

/-- No leap second and no digit below the microsecond. -/
def DateTimeUtc.WholeMicros (time : DateTimeUtc) : Prop :=
  time.nano < 1000000000 ∧ time.nano % 1000 = 0

instance (time : DateTimeUtc) : Decidable time.WholeMicros :=
  inferInstanceAs (Decidable (_ ∧ _))

structure Timestamps where
  parseFromRfc3339 : String → Option DateTimeUtc
  toRfc3339 : DateTimeUtc → String
  /-- What a `timestamptz` column returns for a value written to it. -/
  stored : DateTimeUtc → DateTimeUtc

/-- Rendering is faithful, and the database keeps microseconds. -/
structure Timestamps.Lawful (timestamps : Timestamps) : Prop where
  parse_toRfc3339 : ∀ time parsed,
    timestamps.parseFromRfc3339 (timestamps.toRfc3339 time) = some parsed → parsed = time
  toRfc3339_injective : Function.Injective timestamps.toRfc3339
  stored_wholeMicros : ∀ time, (timestamps.stored time).WholeMicros
  stored_of_wholeMicros : ∀ time : DateTimeUtc, time.WholeMicros → timestamps.stored time = time

/-! ## RFC 3339 on the calendar -/

namespace Civil

open DecimalText

def nextDay (date : NaiveDate) : NaiveDate :=
  if inMonth : date.day < daysInMonth date.year date.month then
    ⟨date.year, date.month, date.day + 1, date.valid.1, by omega, inMonth⟩
  else if inYear : date.month < 12 then
    ⟨date.year, date.month + 1, 1, by omega, Nat.le_refl 1, by
      unfold daysInMonth; split_ifs <;> omega⟩
  else ⟨date.year + 1, 1, 1, by omega, Nat.le_refl 1, by simp [daysInMonth]⟩

def previousDay (date : NaiveDate) : NaiveDate :=
  if inMonth : 1 < date.day then
    ⟨date.year, date.month, date.day - 1, date.valid.1, by omega,
      by have := date.valid; omega⟩
  else if inYear : 1 < date.month then
    ⟨date.year, date.month - 1, daysInMonth date.year (date.month - 1),
      by have := date.valid; omega, by unfold daysInMonth; split_ifs <;> omega, Nat.le_refl _⟩
  else ⟨date.year - 1, 12, 31, by omega, by omega, by simp [daysInMonth]⟩

/-- Years outside 0 to 9999 carry a sign. -/
def renderYear (year : Int) : List Char :=
  if 0 ≤ year ∧ year ≤ 9999 then pad 4 year.toNat
  else (if year < 0 then '-' else '+') :: pad 4 year.natAbs

def renderFraction (nano : Nat) : List Char :=
  if nano = 0 then []
  else if nano % 1000000 = 0 then '.' :: pad 3 (nano / 1000000)
  else if nano % 1000 = 0 then '.' :: pad 6 (nano / 1000)
  else '.' :: pad 9 nano

/-- Everything after the year; a leap second prints as second 60. -/
def renderTail (time : DateTimeUtc) : List Char :=
  let leap := time.nano / 1000000000
  '-' :: (pad 2 time.date.month ++ '-' :: (pad 2 time.date.day ++
    'T' :: (pad 2 (time.minuteOfDay / 60) ++ ':' :: (pad 2 (time.minuteOfDay % 60) ++
    ':' :: (pad 2 (time.second + leap) ++
    (renderFraction (time.nano % 1000000000) ++ "+00:00".toList))))))

def render (time : DateTimeUtc) : List Char :=
  renderYear time.date.year ++ renderTail time

def expect (allowed : List Char) : List Char → Option (List Char)
  | char :: rest => if char ∈ allowed then some rest else none
  | [] => none

/-- Nanoseconds; digits after the ninth are skipped. -/
def fraction : List Char → Option (Nat × List Char)
  | '.' :: rest =>
      let digits := rest.takeWhile Char.isDigit
      if digits = [] then none
      else some (Nat.ofDigitChars 10 (digits.take 9) 0 * 10 ^ (9 - digits.length),
        rest.dropWhile Char.isDigit)
  | rest => some (0, rest)

/-- Minutes east of UTC; the offset ends the text. -/
def offset : List Char → Option Int
  | ['Z'] => some 0
  | ['z'] => some 0
  | sign :: rest => do
      let (hours, rest) ← number 2 rest
      let rest ← expect [':'] rest
      let (minutes, rest) ← number 2 rest
      if rest = [] ∧ hours ≤ 23 ∧ minutes ≤ 59 then
        if sign = '+' then some (hours * 60 + minutes)
        else if sign = '-' ∨ sign = '−' then some (-(hours * 60 + minutes)) else none
      else none
  | [] => none

/-- The UTC instant of local fields at an offset; at most one day is carried. -/
def ofLocal (year : Int) (month day hour minute second nano : Nat) (east : Int) :
    Option DateTimeUtc :=
  if dateValid : (1 ≤ month ∧ month ≤ 12) ∧ 1 ≤ day ∧ day ≤ daysInMonth year month then
    if clockValid : hour < 24 ∧ minute < 60 ∧ second ≤ 60 ∧ nano < 1000000000 then
      let date : NaiveDate := ⟨year, month, day, dateValid⟩
      let shifted : Int := hour * 60 + minute - east
      let moved := if shifted < 0 then previousDay date
        else if shifted < 1440 then date else nextDay date
      if leap : second = 60 then
        some ⟨moved, (shifted % 1440).toNat, 59, nano + 1000000000, by omega⟩
      else some ⟨moved, (shifted % 1440).toNat, second, nano, by omega⟩
    else none
  else none

def parseTail (year : Int) (text : List Char) : Option DateTimeUtc := do
  let text ← expect ['-'] text
  let (month, text) ← number 2 text
  let text ← expect ['-'] text
  let (day, text) ← number 2 text
  let text ← expect ['T', 't', ' '] text
  let (hour, text) ← number 2 text
  let text ← expect [':'] text
  let (minute, text) ← number 2 text
  let text ← expect [':'] text
  let (second, text) ← number 2 text
  let (nano, text) ← fraction text
  let east ← offset text
  ofLocal year month day hour minute second nano east

def parse (text : List Char) : Option DateTimeUtc := do
  let (year, text) ← number 4 text
  parseTail year text

/-! ## Reading back what is rendered -/

theorem fraction_pad {width value : Nat} (positive : 0 < width) (short : width ≤ 9)
    (fits : value < 10 ^ width) {stop : Char} (notDigit : stop.isDigit = false)
    (rest : List Char) :
    fraction ('.' :: (pad width value ++ stop :: rest)) =
      some (value * 10 ^ (9 - width), stop :: rest) := by
  have length := length_pad width value positive fits
  have nonempty : pad width value ≠ [] := by
    intro empty
    rw [empty] at length
    simp at length
    omega
  obtain ⟨front, back⟩ := span_pad width value stop notDigit rest
  simp only [fraction, front, back, if_neg nonempty]
  rw [List.take_of_length_le (by omega), ofDigitChars_pad, length]

theorem fraction_renderFraction (nano : Nat) (bound : nano < 1000000000) (rest : List Char) :
    fraction (renderFraction nano ++ '+' :: rest) = some (nano, '+' :: rest) := by
  unfold renderFraction
  split_ifs with none millis micros
  · simp [fraction, none]
  · rw [List.cons_append, fraction_pad (by decide) (by decide) (by omega) (by decide)]
    simp only [Option.some.injEq, Prod.mk.injEq, and_true]
    omega
  · rw [List.cons_append, fraction_pad (by decide) (by decide) (by omega) (by decide)]
    simp only [Option.some.injEq, Prod.mk.injEq, and_true]
    omega
  · rw [List.cons_append, fraction_pad (by decide) (by decide) (by omega) (by decide)]
    simp

theorem expect_cons {allowed : List Char} {char : Char} (member : char ∈ allowed)
    (rest : List Char) : expect allowed (char :: rest) = some rest := by
  simp [expect, member]

/-- Local fields at offset zero are the UTC fields. -/
theorem ofLocal_utc (time : DateTimeUtc) :
    ofLocal time.date.year time.date.month time.date.day (time.minuteOfDay / 60)
      (time.minuteOfDay % 60) (time.second + time.nano / 1000000000)
      (time.nano % 1000000000) 0 = some time := by
  obtain ⟨minuteBound, secondBound, nanoBound⟩ := time.valid
  have clock : time.minuteOfDay / 60 < 24 ∧ time.minuteOfDay % 60 < 60 ∧
      time.second + time.nano / 1000000000 ≤ 60 ∧ time.nano % 1000000000 < 1000000000 := by
    omega
  have whole : ((time.minuteOfDay / 60 : Nat) : Int) * 60 + (time.minuteOfDay % 60 : Nat) - 0 =
      (time.minuteOfDay : Int) := by omega
  unfold ofLocal
  rw [dif_pos time.date.valid, dif_pos clock]
  simp only [whole]
  rw [if_neg (by omega), if_pos (by omega)]
  have minute : ((time.minuteOfDay : Int) % 1440).toNat = time.minuteOfDay := by omega
  by_cases leap : time.second + time.nano / 1000000000 = 60
  · have second : time.second = 59 := by omega
    have nano : time.nano % 1000000000 + 1000000000 = time.nano := by omega
    rw [dif_pos leap]
    simp only [minute, nano, ← second]
  · have second : time.second + time.nano / 1000000000 = time.second := by omega
    have nano : time.nano % 1000000000 = time.nano := by omega
    rw [dif_neg leap]
    simp only [minute, nano, second]

theorem parseTail_renderTail (time : DateTimeUtc) :
    parseTail time.date.year (renderTail time) = some time := by
  have date := time.date.valid
  have clock := time.valid
  have days : daysInMonth time.date.year time.date.month ≤ 31 := by
    unfold daysInMonth
    split_ifs <;> omega
  have month := number_pad 2 (time.date.month) (by decide) (by omega)
  have day := number_pad 2 (time.date.day) (by decide) (by omega)
  have hour := number_pad 2 (time.minuteOfDay / 60) (by decide) (by omega)
  have minute := number_pad 2 (time.minuteOfDay % 60)
    (by decide) (by omega)
  have second := number_pad 2 (time.second + time.nano / 1000000000)
    (by decide) (by omega)
  have nano := fraction_renderFraction (time.nano % 1000000000) (by omega)
  have utc : offset ['+', '0', '0', ':', '0', '0'] = some 0 := by decide
  have text : "+00:00".toList = ['+', '0', '0', ':', '0', '0'] := by decide
  simp [parseTail, renderTail, expect_cons, month, day, hour, minute, second, nano, text, utc,
    ofLocal_utc]

theorem parse_render {time : DateTimeUtc} (early : 0 ≤ time.date.year)
    (late : time.date.year ≤ 9999) : parse (render time) = some time := by
  have year := number_pad 4 (time.date.year.toNat) (by decide) (by omega)
  have same : (time.date.year.toNat : Int) = time.date.year := by omega
  simp [parse, render, renderYear, early, late, year, same, parseTail_renderTail]

theorem parse_render_signed {time : DateTimeUtc}
    (outside : ¬(0 ≤ time.date.year ∧ time.date.year ≤ 9999)) :
    parse (render time) = none := by
  have sign : (if time.date.year < 0 then '-' else '+').isDigit = false := by
    split <;> decide
  simp [parse, render, renderYear, outside, number, sign]

/-- The year with or without a sign, as far as the rendering goes. -/
def splitYear : List Char → Int × List Char
  | '-' :: rest => (-(Nat.ofDigitChars 10 (rest.takeWhile Char.isDigit) 0 : Nat),
      rest.dropWhile Char.isDigit)
  | '+' :: rest => (Nat.ofDigitChars 10 (rest.takeWhile Char.isDigit) 0,
      rest.dropWhile Char.isDigit)
  | rest => (Nat.ofDigitChars 10 (rest.takeWhile Char.isDigit) 0,
      rest.dropWhile Char.isDigit)

theorem splitYear_digits {text : List Char} (start : ∀ char ∈ text.head?, char.isDigit = true) :
    splitYear text = (((Nat.ofDigitChars 10 (text.takeWhile Char.isDigit) 0 : Nat) : Int),
      text.dropWhile Char.isDigit) := by
  unfold splitYear
  split
  · exact absurd (start '-' rfl) (by decide)
  · exact absurd (start '+' rfl) (by decide)
  · rfl

theorem splitYear_renderYear (year : Int) (rest : List Char) :
    splitYear (renderYear year ++ '-' :: rest) = (year, '-' :: rest) := by
  unfold renderYear
  split
  · rename_i inside
    obtain ⟨front, back⟩ := span_pad 4 year.toNat '-' (by decide) rest
    rw [splitYear_digits, front, back, ofDigitChars_pad]
    · simp only [Prod.mk.injEq, and_true]
      omega
    · intro char head
      have member : char ∈ pad 4 year.toNat := by
        cases digits : pad 4 year.toNat with
        | nil =>
            have length := length_pad 4 year.toNat (by decide) (by omega)
            rw [digits] at length
            simp at length
        | cons first others =>
            rw [digits] at head
            simp at head
            simp [head]
      exact isDigit_of_mem_pad member
  · obtain ⟨front, back⟩ := span_pad 4 year.natAbs '-' (by decide) rest
    split
    · rw [List.cons_append, splitYear, front, back, ofDigitChars_pad]
      simp only [Prod.mk.injEq, and_true]
      omega
    · rw [List.cons_append, splitYear, front, back, ofDigitChars_pad]
      simp only [Prod.mk.injEq, and_true]
      omega

theorem render_injective : Function.Injective render := by
  intro left right same
  have readBack : ∀ time : DateTimeUtc,
      (splitYear (render time)).1 = time.date.year ∧
        (splitYear (render time)).2 = renderTail time := by
    intro time
    have split := splitYear_renderYear time.date.year
    unfold render
    rw [renderTail, split]
    exact ⟨rfl, rfl⟩
  obtain ⟨leftYear, leftTail⟩ := readBack left
  obtain ⟨rightYear, rightTail⟩ := readBack right
  rw [same] at leftYear leftTail
  have years : left.date.year = right.date.year := leftYear.symm.trans rightYear
  have tails : renderTail left = renderTail right := leftTail.symm.trans rightTail
  have parsed := parseTail_renderTail left
  rw [years, tails, parseTail_renderTail] at parsed
  exact (Option.some.inj parsed).symm

end Civil

/-- chrono's RFC 3339 functions; the database drops what is below a microsecond. -/
def civil : Timestamps where
  parseFromRfc3339 text := Civil.parse text.toList
  toRfc3339 time := String.ofList (Civil.render time)
  stored time := ⟨time.date, time.minuteOfDay, time.second,
    time.nano % 1000000000 / 1000 * 1000, by have := time.valid; omega⟩

theorem civil_lawful : civil.Lawful where
  parse_toRfc3339 time parsed success := by
    simp only [civil, String.toList_ofList] at success
    by_cases inside : 0 ≤ time.date.year ∧ time.date.year ≤ 9999
    · rw [Civil.parse_render inside.1 inside.2] at success
      exact (Option.some.inj success).symm
    · rw [Civil.parse_render_signed inside] at success
      contradiction
  toRfc3339_injective left right same :=
    Civil.render_injective (String.ofList_injective same)
  stored_wholeMicros time := by
    constructor
    · simp only [civil]
      omega
    · simp only [civil]
      omega
  stored_of_wholeMicros time whole := by
    have nano : time.nano % 1000000000 / 1000 * 1000 = time.nano := by
      have := whole.1
      have := whole.2
      omega
    simp only [civil, nano]

def sampleTime : DateTimeUtc where
  date := ⟨2026, 7, 26, by decide⟩
  minuteOfDay := 750
  second := 15
  nano := 250000000
  valid := by decide

end ZedRegistry
