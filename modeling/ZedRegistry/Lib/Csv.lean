import Mathlib.Algebra.Order.Ring.Int
import Mathlib.Data.List.Basic

/-!
# Comma-separated values

The format of RFC 4180: records that end in CR LF, fields between commas, and quoted
fields in which a quote is doubled.  The `TEXTDATA` of a bare field is any character
that is not one of the four the format itself uses.
-/

set_option autoImplicit false

namespace Csv

def textdata (char : Char) : Bool := char ≠ ',' && char ≠ '"' && char ≠ '\r' && char ≠ '\n'

/-! ## Reading -/

/-- Where in a record the reader is; `closed` is after a quote inside a quoted field,
`returned` after a carriage return outside one. -/
inductive Place where
  | opening
  | bare
  | quoted
  | closed
  | returned
  deriving DecidableEq

/-- What is still to come of the field, of its record and of the file. -/
structure Remaining where
  field : List Char
  fields : List (List Char)
  records : List (List (List Char))
  deriving DecidableEq

namespace Remaining

def nothing : Remaining := ⟨[], [], []⟩

def within (char : Char) (remaining : Remaining) : Remaining :=
  { remaining with field := char :: remaining.field }

def record (remaining : Remaining) : List (List Char) := remaining.field :: remaining.fields

def nextField (remaining : Remaining) : Remaining := ⟨[], remaining.record, remaining.records⟩

def nextRecord (remaining : Remaining) : Remaining :=
  ⟨[], [], remaining.record :: remaining.records⟩

end Remaining

open Remaining

def scan : Place → List Char → Option Remaining
  | place, [] => if place = .quoted ∨ place = .returned then none else some nothing
  | place, char :: rest =>
    if place = .returned then
      if char ≠ '\n' then none
      else if rest.isEmpty then some nothing
      else (scan .opening rest).map nextRecord
    else if char = '"' then
      match place with
      | .opening => scan .quoted rest
      | .closed => (scan .quoted rest).map (within '"')
      | .quoted => scan .closed rest
      | .bare | .returned => none
    else if place = .quoted then (scan .quoted rest).map (within char)
    else if char = ',' then (scan .opening rest).map nextField
    else if char = '\r' then scan .returned rest
    else if char = '\n' ∨ place = .closed then none
    else (scan .bare rest).map (within char)

def parse (text : List Char) : Option (List (List (List Char))) :=
  if text.isEmpty then some []
  else (scan .opening text).map fun remaining => remaining.record :: remaining.records

/-! ## Spelling -/

def double (char : Char) : List Char := if char = '"' then ['"', '"'] else [char]

def quote (cell : List Char) : List Char := '"' :: (cell.flatMap double ++ ['"'])

/-- The two ways to write a field. -/
inductive Spells : List Char → List Char → Prop where
  | bare (cell : List Char) (plain : cell.all textdata = true) : Spells cell cell
  | quoted (cell : List Char) : Spells (quote cell) cell

def spellRecord (fields : List (List Char)) : List Char :=
  [','].intercalate fields ++ ['\r', '\n']

/-! ## What is spelled is read -/

/-- The text after a field: more fields, the end of the record, or nothing. -/
def Follows (rest : List Char) : Prop :=
  rest = [] ∨ (∃ more, rest = ',' :: more) ∨ ∃ more, rest = '\r' :: '\n' :: more

def prepend (cell : List Char) (remaining : Remaining) : Remaining :=
  { remaining with field := cell ++ remaining.field }

theorem within_prepend (char : Char) (cell : List Char) :
    within char ∘ prepend cell = prepend (char :: cell) := rfl

/-- Outside a quoted field the places differ only in what a text character does. -/
theorem scan_follows {rest : List Char} (follows : Follows rest) {place : Place}
    (outside : place = .opening ∨ place = .bare) : scan place rest = scan .closed rest := by
  rcases outside with rfl | rfl <;> rcases follows with rfl | ⟨more, rfl⟩ | ⟨more, rfl⟩ <;>
    simp [scan]

theorem scan_textdata {char : Char} (plain : textdata char = true) {place : Place}
    (before : place = .opening ∨ place = .bare) (rest : List Char) :
    scan place (char :: rest) = (scan .bare rest).map (within char) := by
  simp only [textdata, Bool.and_eq_true, decide_eq_true_eq, ne_eq] at plain
  obtain ⟨⟨⟨comma, mark⟩, carriage⟩, line⟩ := plain
  rcases before with rfl | rfl <;> simp [scan, comma, mark, carriage, line]

theorem scan_bare {cell rest : List Char} (plain : cell.all textdata = true)
    (follows : Follows rest) {place : Place} (before : place = .opening ∨ place = .bare) :
    scan place (cell ++ rest) = (scan .closed rest).map (prepend cell) := by
  induction cell generalizing place with
  | nil =>
      rw [List.nil_append, scan_follows follows before]
      cases scan .closed rest <;> rfl
  | cons char cell inductionHypothesis =>
      rw [List.all_cons, Bool.and_eq_true] at plain
      rw [List.cons_append, scan_textdata plain.1 before, inductionHypothesis plain.2 (.inr rfl),
        Option.map_map, within_prepend]

theorem scan_quoted (cell rest : List Char) :
    scan .quoted (cell.flatMap double ++ '"' :: rest) =
      (scan .closed rest).map (prepend cell) := by
  induction cell with
  | nil =>
      have closes : scan .quoted ('"' :: rest) = scan .closed rest := by simp [scan]
      rw [List.flatMap_nil, List.nil_append, closes]
      cases scan .closed rest <;> rfl
  | cons char cell inductionHypothesis =>
      have step (text : List Char) :
          scan .quoted (double char ++ text) = (scan .quoted text).map (within char) := by
        unfold double
        split
        · rename_i mark
          subst mark
          simp [scan]
        · rename_i other
          simp [scan, other]
      rw [List.flatMap_cons, List.append_assoc, step, inductionHypothesis, Option.map_map,
        within_prepend]

theorem scan_spelled {field cell rest : List Char} (spells : Spells field cell)
    (follows : Follows rest) :
    scan .opening (field ++ rest) = (scan .closed rest).map (prepend cell) := by
  cases spells with
  | bare _ plain => exact scan_bare plain follows (.inl rfl)
  | quoted =>
      have opens (text : List Char) : scan .opening ('"' :: text) = scan .quoted text := by
        simp [scan]
      rw [quote, List.cons_append, opens, List.append_assoc, List.singleton_append,
        scan_quoted]

theorem scan_lineEnd (rest : List Char) :
    scan .closed ('\r' :: '\n' :: rest) =
      (parse rest).map fun records => ⟨[], [], records⟩ := by
  unfold parse
  by_cases last : rest.isEmpty = true
  · simp [scan, last, nothing]
  · simp [scan, last, Function.comp_def]
    rfl

/-- The fields of one record, and the records after it. -/
theorem scan_record {fields cells : List (List Char)} {field cell : List Char}
    (first : Spells field cell) (spelled : List.Forall₂ Spells fields cells) (rest : List Char) :
    scan .opening (spellRecord (field :: fields) ++ rest) =
      (parse rest).map fun records => ⟨cell, cells, records⟩ := by
  induction spelled generalizing field cell with
  | nil =>
      have layout : spellRecord [field] ++ rest = field ++ '\r' :: '\n' :: rest := by
        simp [spellRecord, List.intercalate]
      rw [layout, scan_spelled first (.inr (.inr ⟨rest, rfl⟩)), scan_lineEnd, Option.map_map]
      congr 1
      funext records
      simp [prepend]
  | @cons next nextCell fields cells second spelled inductionHypothesis =>
      have layout : spellRecord (field :: next :: fields) ++ rest =
          field ++ ',' :: (spellRecord (next :: fields) ++ rest) := by
        simp [spellRecord, List.intercalate]
      have comma (text : List Char) :
          scan .closed (',' :: text) = (scan .opening text).map nextField := by
        simp [scan]
      rw [layout, scan_spelled first (.inr (.inl ⟨_, rfl⟩)), comma, inductionHypothesis second,
        Option.map_map, Option.map_map]
      congr 1
      funext records
      simp [prepend, nextField, record]

theorem parse_record {fields cells : List (List Char)} (nonempty : fields ≠ [])
    (spelled : List.Forall₂ Spells fields cells) (rest : List Char) :
    parse (spellRecord fields ++ rest) = (parse rest).map (cells :: ·) := by
  cases spelled with
  | nil => exact absurd rfl nonempty
  | @cons field cell fields cells first spelled =>
      have some : (spellRecord (field :: fields) ++ rest).isEmpty = false := by
        simp [spellRecord]
      rw [parse, if_neg (by rw [some]; exact Bool.false_ne_true), scan_record first spelled,
        Option.map_map]
      rfl

/-- A file of spelled records is read back record by record. -/
theorem parse_file {α : Type} (fields cells : α → List (List Char)) (items : List α)
    (nonempty : ∀ item ∈ items, fields item ≠ [])
    (spelled : ∀ item ∈ items, List.Forall₂ Spells (fields item) (cells item)) :
    parse (items.flatMap fun item => spellRecord (fields item)) = some (items.map cells) := by
  induction items with
  | nil => rfl
  | cons item items inductionHypothesis =>
      rw [List.forall_mem_cons] at nonempty spelled
      rw [List.flatMap_cons, parse_record nonempty.1 spelled.1,
        inductionHypothesis nonempty.2 spelled.2]
      rfl

example : parse "a,\"b\"\"\r\n,\"\r\n,\r\n".toList =
    some [["a".toList, "b\"\r\n,".toList], [[], []]] := by decide

example : parse "a\"b\r\n".toList = none := by decide

end Csv
