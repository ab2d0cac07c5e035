import ZedRegistry.TomlExport

/-!
# Reading the TOML rendering back

Inline values, lines and sections of the text of `write_toml`: each is read as what it was
written from, unless a string in it is no basic string.
-/

set_option autoImplicit false

namespace ZedRegistry

open JsonText GraphText Toml

namespace TomlExport

/-! ## Inline values -/

section Inline

variable (floatText : UInt64 → List Char)

/-- A value is read up to its end unless a literal in it is no basic string. -/
def InlineRead (value : JsonValue) : Prop :=
  ∀ (fuel : Nat) (after : List Char), Delimited after →
    (tomlInline floatText value).length ≤ fuel →
    readValue fuel (tomlInline floatText value ++ after) =
      if (texts value).all legal then some (value, after) else none

def pairText (member : String × JsonValue) : List Char :=
  quote member.1 ++ (" = ".toList ++ tomlInline floatText member.2)

theorem tomlInlineItems_eq (items : List JsonValue) :
    tomlInlineItems floatText items = items.map (tomlInline floatText) := by
  induction items with
  | nil => simp [tomlInlineItems]
  | cons item items inductionHypothesis =>
      rw [tomlInlineItems, inductionHypothesis, List.map_cons]

theorem tomlInlineMembers_eq (members : List (String × JsonValue)) :
    tomlInlineMembers floatText members = members.map (pairText floatText) := by
  induction members with
  | nil => simp [tomlInlineMembers]
  | cons member members inductionHypothesis =>
      obtain ⟨key, child⟩ := member
      rw [tomlInlineMembers, inductionHypothesis, List.map_cons]
      rfl

def opens (character : Char) : Bool :=
  character == '"' || character == '[' || character == '\x7b' || bare character

/-- A value never begins with a space or a closing bracket. -/
theorem tomlInline_opens {value : JsonValue} (canonical : Canonical value) :
    ∃ first rest, tomlInline floatText value = first :: rest ∧ opens first = true := by
  cases canonical with
  | bool flag => cases flag <;> exact ⟨_, _, by rw [tomlInline]; rfl, by decide⟩
  | number number value isInt fits =>
      have some_int : number.toInt?.isSome = true := by rw [isInt]; rfl
      rw [tomlInline]
      cases written : numberText floatText number with
      | nil => exact absurd written (numberText_nonempty floatText some_int)
      | cons first rest =>
          have digit := numberText_digits floatText some_int first
            (by rw [written]; exact List.mem_cons_self)
          exact ⟨first, rest, rfl, by rw [opens, bare_of_digit digit, Bool.or_true]⟩
  | string text => exact ⟨_, _, by rw [tomlInline]; rfl, by decide⟩
  | array items flat all => exact ⟨_, _, by rw [tomlInline], by decide⟩
  | object members distinct short all => exact ⟨_, _, by rw [tomlInline]; rfl, by decide⟩

theorem skipSpace_of_opens {first : Char} (opening : opens first = true) (rest : List Char) :
    skipSpace (first :: rest) = first :: rest := by
  apply skipSpace_cons
  · rintro rfl
    exact absurd opening (by decide)
  · rintro rfl
    exact absurd opening (by decide)

variable {floatText}

theorem delimited_cons {character : Char} (other : bare character = false) (rest : List Char) :
    Delimited (character :: rest) := by
  intro first head
  obtain rfl := Option.some.inj head
  exact other

/-- The items or pairs of a value, separated as the writer separates them. -/
abbrev joined (parts : List (List Char)) : List Char := List.intercalate ", ".toList parts

theorem joined_cons (first second : List Char) (rest : List (List Char)) (after : List Char) :
    joined (first :: second :: rest) ++ after =
      first ++ (',' :: ' ' :: (joined (second :: rest) ++ after)) := by
  rw [joined, List.intercalate_cons_cons]
  simp only [List.append_assoc]
  rfl

theorem joined_length (first second : List Char) (rest : List (List Char)) :
    (joined (first :: second :: rest)).length =
      first.length + (2 + (joined (second :: rest)).length) := by
  rw [joined, List.intercalate_cons_cons, List.append_assoc, List.length_append,
    List.length_append]
  rfl

theorem joined_head {first : List Char} {character : Char} (rest : List (List Char))
    (after : List Char) (head : ∃ more, first = character :: more) :
    ∃ more, joined (first :: rest) ++ after = character :: more := by
  obtain ⟨more, rfl⟩ := head
  cases rest with
  | nil => exact ⟨_, by rw [joined, List.intercalate_singleton, List.cons_append]⟩
  | cons second rest => exact ⟨_, by rw [joined_cons, List.cons_append]⟩

theorem readItems_text {item : JsonValue} {items : List JsonValue}
    (canonical : ∀ other ∈ item :: items, Canonical other)
    (each : ∀ other ∈ item :: items, InlineRead floatText other) {fuel : Nat} (after : List Char)
    (enough : (joined ((item :: items).map (tomlInline floatText))).length < fuel) :
    readItems fuel (joined ((item :: items).map (tomlInline floatText)) ++ ']' :: after) =
      if (itemTexts (item :: items)).all legal then some (item :: items, after) else none := by
  induction items generalizing item fuel with
  | nil =>
      have first := each item List.mem_cons_self
      cases fuel with
      | zero => omega
      | succ fuel =>
          rw [List.map_cons, List.map_nil, joined, List.intercalate_singleton] at enough ⊢
          rw [readItems, first fuel _ (delimited_cons (by decide) _) (by omega), itemTexts,
            itemTexts, List.append_nil]
          cases (texts item).all legal <;> rfl
  | cons next items inductionHypothesis =>
      have first := each item List.mem_cons_self
      have later := @inductionHypothesis next
        (fun other inside => canonical other (List.mem_cons_of_mem _ inside))
        (fun other inside => each other (List.mem_cons_of_mem _ inside))
      obtain ⟨character, more, head, opening⟩ :=
        tomlInline_opens floatText (canonical next (List.mem_cons_of_mem _ List.mem_cons_self))
      obtain ⟨_, shape⟩ := joined_head (items.map (tomlInline floatText)) (']' :: after)
        ⟨more, head⟩
      cases fuel with
      | zero => omega
      | succ fuel =>
          simp only [List.map_cons] at enough later ⊢
          rw [joined_length] at enough
          have rest := @later fuel (by omega)
          rw [joined_cons, readItems, first fuel _ (delimited_cons (by decide) _) (by omega),
            itemTexts, List.all_append]
          cases (texts item).all legal with
          | false => rfl
          | true =>
              change (readItems fuel (skipSpace (joined (tomlInline floatText next ::
                items.map (tomlInline floatText)) ++ ']' :: after))).bind _ = _
              rw [shape, skipSpace_of_opens opening, ← shape, rest]
              cases (itemTexts (next :: items)).all legal <;> rfl

theorem pairText_append (member : String × JsonValue) (rest : List Char) :
    pairText floatText member ++ rest =
      quote member.1 ++ (' ' :: '=' :: ' ' :: (tomlInline floatText member.2 ++ rest)) := by
  rw [pairText, List.append_assoc]
  rfl

theorem pairText_length (member : String × JsonValue) :
    (tomlInline floatText member.2).length < (pairText floatText member).length := by
  simp only [pairText, quote, List.length_append, List.length_cons]
  omega

/-- The texts of a member are all basic strings. -/
def legalMember (member : String × JsonValue) : Bool :=
  legal member.1 && (texts member.2).all legal

theorem memberTexts_legal (members : List (String × JsonValue)) :
    (memberTexts members).all legal = members.all legalMember := by
  induction members with
  | nil => rfl
  | cons member members inductionHypothesis =>
      obtain ⟨key, child⟩ := member
      rw [memberTexts, List.all_cons, List.all_append, inductionHypothesis, List.all_cons,
        legalMember, Bool.and_assoc]

/-- The value of a pair behind the space of its equals sign. -/
theorem readValue_skipSpace {value : JsonValue} (canonical : Canonical value)
    (read : InlineRead floatText value) {fuel : Nat} {after : List Char}
    (delimited : Delimited after) (enough : (tomlInline floatText value).length ≤ fuel) :
    readValue fuel (skipSpace (' ' :: (tomlInline floatText value ++ after))) =
      if (texts value).all legal then some (value, after) else none := by
  obtain ⟨character, more, head, opening⟩ := tomlInline_opens floatText canonical
  rw [skipSpace_space, ← read fuel after delimited enough, head, List.cons_append,
    skipSpace_of_opens opening]

theorem readPairs_pair {member : String × JsonValue} (canonical : Canonical member.2)
    (read : InlineRead floatText member.2) {fuel : Nat} {after : List Char}
    (delimited : Delimited after) (enough : (pairText floatText member).length ≤ fuel + 1) :
    readPairs (fuel + 1) (pairText floatText member ++ after) =
      if legalMember member then
        match skipSpace after with
        | ',' :: rest => do
          let (others, rest) ← readPairs fuel (skipSpace rest)
          if (others.map Prod.fst).contains member.1 then none else pure (member :: others, rest)
        | '\x7d' :: rest => some ([member], rest)
        | _ => none
      else none := by
  have shorter := @pairText_length floatText member
  have value := readValue_skipSpace canonical read delimited
    (show (tomlInline floatText member.2).length ≤ fuel by omega)
  rw [pairText_append, readPairs, readString_quote, legalMember]
  cases legal member.1 with
  | false => rfl
  | true =>
      change (readValue fuel (skipSpace (' ' :: (tomlInline floatText member.2 ++ after)))).bind _ =
        _
      rw [value]
      cases (texts member.2).all legal with
      | false => rfl
      | true => rfl

theorem readPairs_text {member : String × JsonValue} {members : List (String × JsonValue)}
    (canonical : ∀ other ∈ member :: members, Canonical other.2)
    (each : ∀ other ∈ member :: members, InlineRead floatText other.2)
    (distinct : ((member :: members).map Prod.fst).Nodup) {fuel : Nat} (after : List Char)
    (enough : (joined ((member :: members).map (pairText floatText))).length < fuel) :
    readPairs fuel (joined ((member :: members).map (pairText floatText)) ++
        ' ' :: '\x7d' :: after) =
      if (member :: members).all legalMember then some (member :: members, after) else none := by
  induction members generalizing member fuel with
  | nil =>
      have plain := canonical member List.mem_cons_self
      have first := each member List.mem_cons_self
      cases fuel with
      | zero => omega
      | succ fuel =>
          rw [List.map_cons, List.map_nil, joined, List.intercalate_singleton] at enough ⊢
          rw [readPairs_pair plain first (delimited_cons (by decide) _) (by omega), List.all_cons,
            List.all_nil, Bool.and_true]
          rfl
  | cons next members inductionHypothesis =>
      have plain := canonical member List.mem_cons_self
      have first := each member List.mem_cons_self
      rw [List.map_cons, List.nodup_cons] at distinct
      have later := @inductionHypothesis next
        (fun other inside => canonical other (List.mem_cons_of_mem _ inside))
        (fun other inside => each other (List.mem_cons_of_mem _ inside)) distinct.2
      have quoted : ∃ more, pairText floatText next = '"' :: more := ⟨_, rfl⟩
      obtain ⟨_, shape⟩ := joined_head (members.map (pairText floatText))
        (' ' :: '\x7d' :: after) quoted
      cases fuel with
      | zero => omega
      | succ fuel =>
          simp only [List.map_cons] at enough later ⊢
          rw [joined_length] at enough
          have rest := @later fuel (by omega)
          rw [joined_cons, readPairs_pair plain first (delimited_cons (by decide) _) (by omega),
            List.all_cons]
          cases legalMember member with
          | false => rfl
          | true =>
              change (readPairs fuel (skipSpace (joined (pairText floatText next ::
                members.map (pairText floatText)) ++ ' ' :: '\x7d' :: after))).bind _ = _
              rw [shape, skipSpace_of_opens (by decide), ← shape, rest]
              cases (next :: members).all legalMember with
              | false => rfl
              | true =>
                  have unseen := contains_eq_false distinct.1
                  simp only [if_true, Option.bind_some, unseen, Bool.false_eq_true, if_false]
                  rfl

theorem readValue_array (fuel : Nat) {first : Char} (opening : opens first = true)
    (rest : List Char) :
    readValue (fuel + 1) ('[' :: first :: rest) =
      (readItems fuel (first :: rest)).map fun read => (.array read.1, read.2) := by
  rw [readValue, skipSpace_of_opens opening]
  split
  · rename_i same
    rw [(List.cons.inj same).1] at opening
    exact absurd opening (by decide)
  · rw [Option.map_eq_bind]
    rfl

theorem readValue_object (fuel : Nat) (rest : List Char) :
    readValue (fuel + 1) ('\x7b' :: ' ' :: '"' :: rest) =
      (readPairs fuel ('"' :: rest)).map fun read => (.object read.1, read.2) := by
  rw [Option.map_eq_bind]
  rfl

theorem inlineRead_array {items : List JsonValue} (canonical : ∀ item ∈ items, Canonical item)
    (each : ∀ item ∈ items, InlineRead floatText item) : InlineRead floatText (.array items) := by
  intro fuel after delimited enough
  rw [tomlInline, tomlInlineItems_eq, texts] at *
  cases fuel with
  | zero => simp at enough
  | succ fuel =>
      cases items with
      | nil => rfl
      | cons item items =>
          obtain ⟨character, more, head, opening⟩ :=
            tomlInline_opens floatText (canonical item List.mem_cons_self)
          obtain ⟨_, shape⟩ := joined_head (items.map (tomlInline floatText)) (']' :: after)
            ⟨more, head⟩
          have shorter : (joined ((item :: items).map (tomlInline floatText))).length < fuel := by
            simp only [List.length_cons, List.length_append, List.length_nil] at enough
            rw [joined]
            omega
          have read := readItems_text canonical each after shorter
          rw [List.cons_append, List.append_assoc, List.singleton_append]
          rw [List.map_cons] at read ⊢
          rw [shape, readValue_array _ opening, ← shape, read]
          cases (itemTexts (item :: items)).all legal <;> rfl

theorem inlineRead_object {members : List (String × JsonValue)}
    (canonical : ∀ member ∈ members, Canonical member.2)
    (each : ∀ member ∈ members, InlineRead floatText member.2)
    (distinct : (members.map Prod.fst).Nodup) : InlineRead floatText (.object members) := by
  intro fuel after delimited enough
  rw [tomlInline, tomlInlineMembers_eq, texts, memberTexts_legal] at *
  cases fuel with
  | zero => simp at enough
  | succ fuel =>
      cases members with
      | nil => rfl
      | cons member members =>
          have shorter : (joined ((member :: members).map (pairText floatText))).length < fuel := by
            have open_length : "\x7b ".toList.length = 2 := by decide
            rw [List.length_append, open_length, List.length_append] at enough
            rw [joined]
            omega
          have read := readPairs_text canonical each distinct after shorter
          have quoted : ∃ more, pairText floatText member = '"' :: more := ⟨_, rfl⟩
          obtain ⟨_, shape⟩ := joined_head (members.map (pairText floatText))
            (' ' :: '\x7d' :: after) quoted
          have text : "\x7b ".toList ++ (joined ((member :: members).map (pairText floatText)) ++
              " \x7d".toList) ++ after = '\x7b' :: ' ' :: (joined ((member :: members).map
                (pairText floatText)) ++ ' ' :: '\x7d' :: after) := by
            simp only [List.append_assoc]
            rfl
          rw [text]
          rw [List.map_cons] at read ⊢
          rw [shape, readValue_object, ← shape, read]
          cases (member :: members).all legalMember <;> rfl

theorem inlineRead_string (text : String) : InlineRead floatText (.string text) := by
  intro fuel after delimited enough
  rw [tomlInline] at *
  cases fuel with
  | zero => simp [jsonString, quote] at enough
  | succ fuel =>
      rw [jsonString, readValue_quote, texts, List.all_cons, List.all_nil, Bool.and_true]

/-- A value without strings, written as one bare token. -/
theorem inlineRead_bare {value : JsonValue} {token : List Char}
    (written : tomlInline floatText value = token) (nonempty : token ≠ [])
    (inside : ∀ character ∈ token, bare character = true) (known : readBare token = some value)
    (noTexts : texts value = []) : InlineRead floatText value := by
  intro fuel after delimited enough
  rw [written] at enough ⊢
  cases fuel with
  | zero =>
      rw [Nat.le_zero, List.length_eq_zero_iff] at enough
      exact absurd enough nonempty
  | succ fuel =>
      rw [readValue_bare fuel nonempty inside delimited, known, noTexts]
      rfl

theorem inlineRead_bool (flag : Bool) : InlineRead floatText (.bool flag) := by
  cases flag with
  | false =>
      have inside : "false".toList.all bare = true := by decide
      exact inlineRead_bare (by rw [tomlInline]; rfl) (by decide) (List.all_eq_true.mp inside) rfl
        rfl
  | true =>
      have inside : "true".toList.all bare = true := by decide
      exact inlineRead_bare (by rw [tomlInline]; rfl) (by decide) (List.all_eq_true.mp inside) rfl
        rfl

theorem inlineRead_number {number : JsonNumber} (canonical : Canonical (.number number)) :
    InlineRead floatText (.number number) := by
  have inside : ∀ character ∈ numberText floatText number, bare character = true :=
    fun character member => bare_of_digit (numberText_digits floatText canonical.isInt character
      member)
  have nonempty := numberText_nonempty floatText canonical.isInt
  cases canonical with
  | number _ value isInt fits =>
      exact inlineRead_bare (by rw [tomlInline]) nonempty inside
        (readBare_number floatText isInt fits) rfl

theorem inlineRead_of_canonical {value : JsonValue} (canonical : Canonical value) :
    InlineRead floatText value := by
  induction value using JsonValue.induct with
  | null => cases canonical
  | bool flag => exact inlineRead_bool flag
  | number number => exact inlineRead_number canonical
  | string text => exact inlineRead_string text
  | array items inductionHypothesis =>
      exact inlineRead_array canonical.item fun item inside =>
        inductionHypothesis item inside (canonical.item item inside)
  | object members inductionHypothesis =>
      exact inlineRead_object canonical.child (fun member inside =>
        inductionHypothesis member inside (canonical.child member inside)) canonical.distinct

/-! ## Lines -/

theorem readPair_line {member : String × JsonValue} (canonical : Canonical member.2)
    (rest : List Char) :
    readPair (tomlLine floatText member ++ rest) =
      if legalMember member then some (member, rest) else none := by
  have shape : tomlLine floatText member ++ rest = quote member.1 ++ (' ' :: '=' :: ' ' ::
      (tomlInline floatText member.2 ++ '\n' :: rest)) := by
    rw [tomlLine, jsonString]
    simp only [List.append_assoc]
    rfl
  have value := @readValue_skipSpace floatText _ canonical (inlineRead_of_canonical canonical)
    (tomlInline floatText member.2 ++ '\n' :: rest).length.succ ('\n' :: rest)
    (delimited_cons (by decide) _) (by simp only [List.length_append]; omega)
  rw [shape, readPair, readString_quote, legalMember]
  cases legal member.1 with
  | false => rfl
  | true =>
      change (readValue (tomlInline floatText member.2 ++ '\n' :: rest).length.succ (skipSpace
        (' ' :: (tomlInline floatText member.2 ++ '\n' :: rest)))).bind _ = _
      rw [value]
      cases (texts member.2).all legal <;> rfl

/-- Where the lines of a table end: at the end of the text, or at the blank line before
the next header. -/
inductive LinesEnd : List Char → List Char → Prop where
  | nil : LinesEnd [] []
  | blank (rest : List Char) : LinesEnd ('\n' :: '[' :: rest) ('[' :: rest)

theorem tomlLine_length (member : String × JsonValue) :
    1 < (tomlLine floatText member).length := by
  simp only [tomlLine, jsonString, quote, List.length_append, List.length_cons]
  omega

theorem readLines_text {members : List (String × JsonValue)}
    (canonical : ∀ member ∈ members, Canonical member.2)
    (distinct : (members.map Prod.fst).Nodup) {text rest : List Char} (ends : LinesEnd text rest)
    {fuel : Nat} (enough : (members.flatMap (tomlLine floatText)).length + 1 < fuel) :
    readLines fuel (members.flatMap (tomlLine floatText) ++ text) =
      if members.all legalMember then some (members, rest) else none := by
  induction members generalizing fuel with
  | nil =>
      obtain ⟨fuel, rfl⟩ : ∃ more, fuel = more + 2 := ⟨fuel - 2, by simp at enough; omega⟩
      cases ends with
      | nil => rfl
      | blank rest => rfl
  | cons member members inductionHypothesis =>
      have plain := canonical member List.mem_cons_self
      have long := @tomlLine_length floatText member
      rw [List.map_cons, List.nodup_cons] at distinct
      rw [List.flatMap_cons, List.length_append] at enough
      cases fuel with
      | zero => omega
      | succ fuel =>
          have later := @inductionHypothesis
            (fun other inside => canonical other (List.mem_cons_of_mem _ inside)) distinct.2 fuel
            (by omega)
          have line := @readPair_line floatText _ plain
            (members.flatMap (tomlLine floatText) ++ text)
          rw [List.flatMap_cons, List.append_assoc, List.all_cons]
          have step : readLines (fuel + 1) (tomlLine floatText member ++
              (members.flatMap (tomlLine floatText) ++ text)) =
              (readPair (tomlLine floatText member ++
                (members.flatMap (tomlLine floatText) ++ text))).bind fun pair =>
                (readLines fuel pair.2).bind fun others =>
                  if (others.1.map Prod.fst).contains pair.1.1 then none
                  else some (pair.1 :: others.1, others.2) := rfl
          rw [step, line]
          cases legalMember member with
          | false => rfl
          | true =>
              simp only [if_true, Option.bind_some, later, Bool.true_and]
              cases members.all legalMember with
              | false => rfl
              | true =>
                  have unseen := contains_eq_false distinct.1
                  simp only [if_true, Option.bind_some, unseen, Bool.false_eq_true, if_false]

/-! ## Sections -/

def headerText : Header → List Char
  | .table key => '[' :: (quote key ++ [']', '\n'])
  | .element key => '[' :: '[' :: (quote key ++ [']', ']', '\n'])

def headerKey : Header → String
  | .table key | .element key => key

variable (floatText) in
def sectionText (part : Section) : List Char :=
  '\n' :: (headerText part.header ++ part.members.flatMap (tomlLine floatText))

variable (floatText) in
/-- Sections without the blank line before the first. -/
def sectionsText : List Section → List Char
  | [] => []
  | part :: rest => headerText part.header ++
    (part.members.flatMap (tomlLine floatText) ++ rest.flatMap (sectionText floatText))

def legalSection (part : Section) : Bool :=
  legal (headerKey part.header) && part.members.all legalMember

/-- The members of a section are those of an object of the document. -/
structure Written (part : Section) : Prop where
  canonical : ∀ member ∈ part.members, Canonical member.2
  distinct : (part.members.map Prod.fst).Nodup

theorem headerText_head (header : Header) (rest : List Char) :
    ∃ more, headerText header ++ rest = '[' :: more := by
  cases header <;> exact ⟨_, rfl⟩

theorem linesEnd_sections (sections : List Section) :
    LinesEnd (sections.flatMap (sectionText floatText)) (sectionsText floatText sections) := by
  cases sections with
  | nil => exact .nil
  | cons part sections =>
      rw [List.flatMap_cons, sectionText, sectionsText, List.cons_append, List.append_assoc]
      obtain ⟨more, head⟩ := headerText_head part.header
        (part.members.flatMap (tomlLine floatText) ++ sections.flatMap (sectionText floatText))
      rw [head]
      exact .blank more

theorem readHeader_text (header : Header) (rest : List Char) :
    readHeader (headerText header ++ rest) =
      if legal (headerKey header) then some (header, rest) else none := by
  cases header with
  | table key =>
      have shape : headerText (.table key) ++ rest = '[' :: (quote key ++ ']' :: '\n' :: rest) := by
        rw [headerText, List.cons_append, List.append_assoc]
        rfl
      have step : readHeader ('[' :: (quote key ++ ']' :: '\n' :: rest)) =
          (readString (quote key ++ ']' :: '\n' :: rest)).bind fun read =>
            tableEnd read.1 read.2 := rfl
      rw [shape, step, readString_quote, headerKey]
      cases legal key <;> rfl
  | element key =>
      have shape : headerText (.element key) ++ rest =
          '[' :: '[' :: (quote key ++ ']' :: ']' :: '\n' :: rest) := by
        rw [headerText, List.cons_append, List.cons_append, List.append_assoc]
        rfl
      have step : readHeader ('[' :: '[' :: (quote key ++ ']' :: ']' :: '\n' :: rest)) =
          (readString (quote key ++ ']' :: ']' :: '\n' :: rest)).bind fun read =>
            elementEnd read.1 read.2 := rfl
      rw [shape, step, readString_quote, headerKey]
      cases legal key <;> rfl

theorem headerText_length (header : Header) : 5 ≤ (headerText header).length := by
  cases header <;> simp only [headerText, quote, List.length_cons, List.length_append,
    List.length_nil] <;> omega

theorem readSections_text {sections : List Section} (written : ∀ part ∈ sections, Written part)
    {fuel : Nat} (enough : (sectionsText floatText sections).length ≤ fuel) :
    readSections fuel (sectionsText floatText sections) =
      if sections.all legalSection then some sections else none := by
  induction sections generalizing fuel with
  | nil => cases fuel <;> rfl
  | cons part sections inductionHypothesis =>
      have here := written part List.mem_cons_self
      have long := headerText_length part.header
      obtain ⟨more, head⟩ := headerText_head part.header (part.members.flatMap
        (tomlLine floatText) ++ sections.flatMap (sectionText floatText))
      have shorter : (sectionsText floatText sections).length ≤
          (sections.flatMap (sectionText floatText)).length := by
        cases sections with
        | nil => exact le_rfl
        | cons next sections =>
            simp only [sectionsText, List.flatMap_cons, sectionText, List.length_append,
              List.length_cons]
            omega
      simp only [sectionsText, List.length_append] at enough
      cases fuel with
      | zero => omega
      | succ fuel =>
          have lines := @readLines_text floatText part.members here.canonical here.distinct _ _
            (@linesEnd_sections floatText sections) fuel (by omega)
          have later := @inductionHypothesis
            (fun other inside => written other (List.mem_cons_of_mem _ inside)) fuel (by omega)
          have step : readSections (fuel + 1) (sectionsText floatText (part :: sections)) =
              (readHeader (headerText part.header ++ (part.members.flatMap (tomlLine floatText) ++
                sections.flatMap (sectionText floatText)))).bind fun header =>
                (readLines fuel header.2).bind fun members =>
                  (readSections fuel members.2).bind fun others =>
                    some (⟨header.1, members.1⟩ :: others) := by
            rw [sectionsText, head]
            rfl
          rw [step, readHeader_text, List.all_cons, legalSection]
          cases legal (headerKey part.header) with
          | false => rfl
          | true =>
              simp only [if_true, Option.bind_some, lines, Bool.true_and]
              cases part.members.all legalMember with
              | false => rfl
              | true =>
                  simp only [if_true, Option.bind_some, later, Bool.true_and]
                  cases sections.all legalSection <;> rfl

end Inline

end TomlExport

end ZedRegistry
