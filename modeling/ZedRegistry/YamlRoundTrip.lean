import ZedRegistry.YamlExport

/-!
# Reading the YAML rendering back

What the reader makes of the text of `write_yaml`, version by version: the same value
but for the strings that a version breaks into lines.
-/

set_option autoImplicit false

namespace ZedRegistry

open JsonText GraphText Yaml

namespace YamlExport

/-! ## The value that is read -/

mutual

/-- A value whose parent stands at `indent`, as the reader understands its text. -/
def reread (version : Yaml.Version) : JsonValue → Nat → Option JsonValue
  | .string text, indent =>
    (fold version (2 * indent + 1) (text.toList.map atom)).map fun content =>
      .string (String.ofList content)
  | .array items, indent => (rereadItems version items (indent + 1)).map .array
  | .object members, indent => (rereadMembers version members (indent + 1)).map .object
  | .number number, _ => some (.number number)
  | .bool flag, _ => some (.bool flag)
  | .null, _ => some (.string "")

def rereadItems (version : Yaml.Version) : List JsonValue → Nat → Option (List JsonValue)
  | [], _ => some []
  | item :: rest, indent => do
    let first ← reread version item indent
    let others ← rereadItems version rest indent
    pure (first :: others)

def rereadMembers (version : Yaml.Version) :
    List (String × JsonValue) → Nat → Option (List (String × JsonValue))
  | [], _ => some []
  | (key, child) :: rest, indent =>
    if single version key then do
      let first ← reread version child indent
      let others ← rereadMembers version rest indent
      pure ((key, first) :: others)
    else none

end

theorem rereadMembers_keys {version : Yaml.Version} {members read : List (String × JsonValue)}
    {indent : Nat} (same : rereadMembers version members indent = some read) :
    read.map Prod.fst = members.map Prod.fst := by
  induction members generalizing read with
  | nil =>
      obtain rfl := Option.some.inj same
      rfl
  | cons member members inductionHypothesis =>
      obtain ⟨key, child⟩ := member
      rw [rereadMembers] at same
      split at same
      · simp only [Option.bind_eq_bind, Option.bind_eq_some_iff, Option.pure_def,
          Option.some.injEq] at same
        obtain ⟨first, _, others, later, rfl⟩ := same
        simp only [List.map_cons, inductionHypothesis later]
      · contradiction

theorem reread_string_iff (version : Yaml.Version) (text : String) (indent : Nat) :
    reread version (.string text) indent = some (.string text) ↔ single version text = true := by
  have positive : 0 < 2 * indent + 1 := by omega
  have kept := @fold_eq_some_iff version _ positive (text.toList.map atom)
  rw [map_atom_character] at kept
  rw [single, Bool.not_eq_true', ← kept, reread, Option.map_eq_some_iff]
  constructor
  · rintro ⟨content, folded, same⟩
    rw [folded, ← String.toList_ofList (l := content), JsonValue.string.inj same]
  · intro folded
    exact ⟨_, folded, by rw [String.ofList_toList]⟩

/-- `value` is read back as it is exactly when each of its literals is on one line. -/
def Kept (version : Yaml.Version) (value : JsonValue) : Prop :=
  ∀ indent, reread version value indent = some value ↔
    (texts value).all (single version) = true

theorem rereadItems_eq_self_iff {version : Yaml.Version} {items : List JsonValue}
    (each : ∀ item ∈ items, Kept version item) (indent : Nat) :
    rereadItems version items indent = some items ↔
      (itemTexts items).all (single version) = true := by
  induction items with
  | nil => simp [rereadItems, itemTexts]
  | cons item items inductionHypothesis =>
      have here := each item List.mem_cons_self indent
      have later := inductionHypothesis fun other inside =>
        each other (List.mem_cons_of_mem _ inside)
      rw [itemTexts, List.all_append, Bool.and_eq_true, ← here, ← later]
      simp [rereadItems, Option.bind_eq_some_iff]

theorem rereadMembers_eq_self_iff {version : Yaml.Version} {members : List (String × JsonValue)}
    (each : ∀ member ∈ members, Kept version member.2) (indent : Nat) :
    rereadMembers version members indent = some members ↔
      (memberTexts members).all (single version) = true := by
  induction members with
  | nil => simp [rereadMembers, memberTexts]
  | cons member members inductionHypothesis =>
      obtain ⟨key, child⟩ := member
      have here := each (key, child) List.mem_cons_self indent
      have later := inductionHypothesis fun other inside =>
        each other (List.mem_cons_of_mem _ inside)
      rw [memberTexts, List.all_cons, List.all_append, Bool.and_eq_true, Bool.and_eq_true,
        ← here, ← later]
      simp [rereadMembers, Option.bind_eq_some_iff]

theorem kept_of_canonical (version : Yaml.Version) {value : JsonValue}
    (canonical : Canonical value) : Kept version value := by
  induction value using JsonValue.induct with
  | null => cases canonical
  | bool flag => simp [Kept, reread, texts]
  | number number => simp [Kept, reread, texts]
  | string text =>
      intro indent
      simpa only [texts, List.all_cons, List.all_nil, Bool.and_true] using
        reread_string_iff version text indent
  | array items inductionHypothesis =>
      intro indent
      have each := @rereadItems_eq_self_iff version items fun item inside =>
        inductionHypothesis item inside (canonical.item item inside)
      simpa [reread, texts] using each (indent + 1)
  | object members inductionHypothesis =>
      intro indent
      have each := @rereadMembers_eq_self_iff version members fun member inside =>
        inductionHypothesis member inside (canonical.child member inside)
      simpa [reread, texts] using each (indent + 1)

/-! ## The shape of the text -/

section Text

variable (floatText : UInt64 → List Char)

/-- What follows the colon of a key whose mapping stands at `indent`. -/
def valueText (indent : Nat) (child : JsonValue) : List Char :=
  (if nonemptyObject child || nonemptyArray child then '\n' else ' ') ::
    writeYaml floatText child (indent + 1)

def memberText (indent : Nat) (member : String × JsonValue) : List Char :=
  quote member.1 ++ ':' :: valueText floatText indent member.2

/-- What follows the dash and its space. -/
def itemBody (indent : Nat) (item : JsonValue) : List Char :=
  if nonemptyObject item then (writeYaml floatText item (indent + 1)).dropWhile (· == ' ')
  else writeYaml floatText item (indent + 1)

def itemText (indent : Nat) (item : JsonValue) : List Char :=
  '-' :: ' ' :: itemBody floatText indent item

theorem writeYamlMembers_eq (members : List (String × JsonValue)) (index indent : Nat) :
    writeYamlMembers floatText members index indent =
      members.flatMap fun member => pad indent ++ memberText floatText indent member := by
  induction members generalizing index with
  | nil => simp [writeYamlMembers]
  | cons member members inductionHypothesis =>
      obtain ⟨key, child⟩ := member
      have padded : (if 0 < index ∨ 0 < indent then pad indent else []) = pad indent := by
        split
        · rfl
        · obtain rfl : indent = 0 := by omega
          rfl
      rw [writeYamlMembers, inductionHypothesis, padded, List.flatMap_cons]
      rfl

theorem writeYamlItems_eq (items : List JsonValue) (indent : Nat) :
    writeYamlItems floatText items indent =
      items.flatMap fun item => pad indent ++ itemText floatText indent item := by
  induction items with
  | nil => simp [writeYamlItems]
  | cons item items inductionHypothesis =>
      rw [writeYamlItems, inductionHypothesis, List.flatMap_cons]
      rfl

theorem dropWhile_pad (indent : Nat) {text : List Char} (starts : text.head? ≠ some ' ') :
    (pad indent ++ text).dropWhile (· == ' ') = text := by
  rw [pad, List.dropWhile_append_of_pos]
  · cases text with
    | nil => rfl
    | cons character text =>
        have other : (character == ' ') = false := by simpa using starts
        rw [List.dropWhile_cons, other, if_neg Bool.false_ne_true]
  · intro character inside
    rw [List.eq_of_mem_replicate inside]
    rfl

/-- The first entry of a mapping without its indentation, and the others with theirs. -/
def membersText (indent : Nat) (member : String × JsonValue)
    (members : List (String × JsonValue)) : List Char :=
  memberText floatText indent member ++
    members.flatMap fun member => pad indent ++ memberText floatText indent member

def itemsText (indent : Nat) (item : JsonValue) (items : List JsonValue) : List Char :=
  itemText floatText indent item ++
    items.flatMap fun item => pad indent ++ itemText floatText indent item

theorem writeYaml_object (indent : Nat) (member : String × JsonValue)
    (members : List (String × JsonValue)) :
    writeYaml floatText (.object (member :: members)) indent =
      pad indent ++ membersText floatText indent member members := by
  rw [writeYaml, writeYamlMembers_eq, List.flatMap_cons, List.append_assoc, membersText]

theorem writeYaml_array (indent : Nat) (item : JsonValue) (items : List JsonValue) :
    writeYaml floatText (.array (item :: items)) indent =
      pad indent ++ itemsText floatText indent item items := by
  rw [writeYaml, writeYamlItems_eq, List.flatMap_cons, List.append_assoc, itemsText]

theorem membersText_head (indent : Nat) (member : String × JsonValue)
    (members : List (String × JsonValue)) (after : List Char) :
    (membersText floatText indent member members ++ after).head? = some '"' := by
  simp [membersText, memberText, quote]

theorem itemsText_head (indent : Nat) (item : JsonValue) (items : List JsonValue)
    (after : List Char) : (itemsText floatText indent item items ++ after).head? = some '-' := by
  simp [itemsText, itemText]

/-- The text after the first entry is the next one behind its indentation. -/
theorem membersText_cons (indent : Nat) (member next : String × JsonValue)
    (members : List (String × JsonValue)) (after : List Char) :
    membersText floatText indent member (next :: members) ++ after =
      memberText floatText indent member ++
        (pad indent ++ (membersText floatText indent next members ++ after)) := by
  simp only [membersText, List.flatMap_cons, List.append_assoc]

theorem itemsText_cons (indent : Nat) (item next : JsonValue) (items : List JsonValue)
    (after : List Char) :
    itemsText floatText indent item (next :: items) ++ after =
      itemText floatText indent item ++
        (pad indent ++ (itemsText floatText indent next items ++ after)) := by
  simp only [itemsText, List.flatMap_cons, List.append_assoc]

/-- An entry behind its indentation goes on with its collection and closes a deeper one. -/
theorem pad_entry (indent : Nat) {text : List Char} {character : Char}
    (head : text.head? = some character) (notSpace : character ≠ ' ') :
    nextEntry (2 * indent) (pad indent ++ text) = some text ∧
      Closed (2 * indent + 2) (pad indent ++ text) ∧
      indentation (pad indent ++ text) = 2 * indent := by
  have starts : text.head? ≠ some ' ' := by
    rw [head]
    exact fun same => notSpace (Option.some.inj same)
  have nonempty : text ≠ [] := by
    rintro rfl
    contradiction
  exact ⟨nextEntry_replicate _ nonempty starts, closed_replicate (by omega) starts,
    indentation_replicate _ starts⟩

theorem itemBody_object (indent : Nat) (member : String × JsonValue)
    (members : List (String × JsonValue)) :
    itemBody floatText indent (.object (member :: members)) =
      membersText floatText (indent + 1) member members := by
  have starts : (membersText floatText (indent + 1) member members).head? ≠ some ' ' := by
    have head := membersText_head floatText (indent + 1) member members []
    rw [List.append_nil] at head
    simp [head]
  have object : nonemptyObject (.object (member :: members)) = true := rfl
  rw [itemBody, if_pos object, writeYaml_object, dropWhile_pad _ starts]

end Text

/-! ## Reading it -/

section Reading

variable (floatText : UInt64 → List Char) (version : Yaml.Version)

/-- The reader makes of the text after a key what `reread` says. -/
def ValueRead (child : JsonValue) : Prop :=
  ∀ (indent fuel : Nat) (after : List Char), Closed (2 * indent + 2) after →
    (valueText floatText indent child).length ≤ fuel →
    readValue version fuel (2 * indent) (valueText floatText indent child ++ after) =
      (reread version child indent).map fun read => (read, after)

def ItemRead (item : JsonValue) : Prop :=
  ∀ (indent fuel : Nat) (after : List Char), Closed (2 * indent + 2) after →
    (itemBody floatText indent item).length < fuel →
    readItem version fuel (2 * indent) (itemBody floatText indent item ++ after) =
      (reread version item indent).map fun read => (read, after)

theorem quote_length (text : String) : (quote text).length ≤ 6 * text.length + 2 := by
  have each : ∀ characters : List Char,
      (characters.flatMap escape).length ≤ 6 * characters.length := by
    intro characters
    induction characters with
    | nil => exact le_rfl
    | cons character characters inductionHypothesis =>
        have one : (escape character).length ≤ 6 := by
          unfold escape
          split
          · simp
          · split <;> simp
        simp only [List.flatMap_cons, List.length_append, List.length_cons]
        omega
  have total := each text.toList
  rw [String.length_toList] at total
  simp only [quote, List.length_cons, List.length_append, List.length_nil]
  omega

theorem key_fits {key : String} (short : key.length ≤ 100) :
    (quote key).length ≤ maxKeyLength := by
  have long := quote_length key
  rw [maxKeyLength]
  omega

variable {floatText version}

theorem readMembers_entry {member : String × JsonValue}
    (valueRead : ValueRead floatText version member.2) (short : member.1.length ≤ 100)
    {indent fuel : Nat} {more : List Char} (closed : Closed (2 * indent + 2) more)
    (enough : (memberText floatText indent member).length ≤ fuel + 1) :
    readMembers version (fuel + 1) (2 * indent) (memberText floatText indent member ++ more) =
      if single version member.1 then do
        let value ← reread version member.2 indent
        match nextEntry (2 * indent) more with
        | none => pure ([(member.1, value)], more)
        | some entry => do
          let (others, rest) ← readMembers version fuel (2 * indent) entry
          if (others.map Prod.fst).contains member.1 then none
          else pure ((member.1, value) :: others, rest)
      else none := by
  have shorter : (valueText floatText indent member.2).length ≤ fuel := by
    simp only [memberText, quote, List.length_append, List.length_cons] at enough
    omega
  rw [memberText, List.append_assoc, List.cons_append, readMembers,
    readKey_quote (key_fits short)]
  cases single version member.1 with
  | false => rfl
  | true =>
      simp only [if_true, Option.bind_eq_bind, Option.bind_some, valueRead _ _ _ closed shorter]
      cases reread version member.2 indent with
      | none => rfl
      | some value => rfl

theorem readMembers_text {member : String × JsonValue} {members : List (String × JsonValue)}
    (each : ∀ other ∈ member :: members, ValueRead floatText version other.2)
    (short : ∀ other ∈ member :: members, other.1.length ≤ 100)
    (distinct : ((member :: members).map Prod.fst).Nodup) {indent fuel : Nat}
    {after : List Char} (closed : Closed (2 * indent) after)
    (enough : (membersText floatText indent member members).length ≤ fuel) :
    readMembers version fuel (2 * indent) (membersText floatText indent member members ++ after) =
      (rereadMembers version (member :: members) indent).map fun read => (read, after) := by
  induction members generalizing member fuel with
  | nil =>
      have first := each member List.mem_cons_self
      have named := short member List.mem_cons_self
      have inner := closed_mono closed (show 2 * indent ≤ 2 * indent + 2 by omega)
      cases fuel with
      | zero => simp [membersText, memberText, quote] at enough
      | succ fuel =>
          simp only [membersText, List.flatMap_nil, List.append_nil] at enough ⊢
          rw [readMembers_entry first named inner enough, nextEntry_of_closed closed,
            rereadMembers]
          cases single version member.1 with
          | false => rfl
          | true => cases reread version member.2 indent <;> rfl
  | cons next members inductionHypothesis =>
      have first := each member List.mem_cons_self
      have named := short member List.mem_cons_self
      rw [List.map_cons, List.nodup_cons] at distinct
      cases fuel with
      | zero => simp [membersText, memberText, quote] at enough
      | succ fuel =>
          obtain ⟨entry, inner, _⟩ := pad_entry indent
            (membersText_head floatText indent next members after) (by decide)
          have lengths := congrArg List.length (membersText_cons floatText indent member next
            members [])
          simp only [List.append_nil, List.length_append] at lengths
          have one : 1 ≤ (memberText floatText indent member).length := by
            simp [memberText, quote]
          have later := inductionHypothesis
            (fun other inside => each other (List.mem_cons_of_mem _ inside))
            (fun other inside => short other (List.mem_cons_of_mem _ inside)) distinct.2
            (show (membersText floatText indent next members).length ≤ fuel by omega)
          rw [membersText_cons, readMembers_entry first named inner (by omega), entry,
            rereadMembers]
          cases single version member.1 with
          | false => rfl
          | true =>
              cases reread version member.2 indent with
              | none => rfl
              | some value =>
                  simp only [if_true, Option.bind_eq_bind, Option.bind_some, later]
                  cases read : rereadMembers version (next :: members) indent with
                  | none => rfl
                  | some others =>
                      have unseen : (others.map Prod.fst).contains member.1 = false := by
                        rw [rereadMembers_keys read]
                        exact contains_eq_false distinct.1
                      simp only [Option.map_some, Option.bind_some, unseen,
                        Bool.false_eq_true, if_false]
                      rfl

theorem readItems_entry {item : JsonValue} (itemRead : ItemRead floatText version item)
    {indent fuel : Nat} {more : List Char} (closed : Closed (2 * indent + 2) more)
    (enough : (itemText floatText indent item).length ≤ fuel + 1) :
    readItems version (fuel + 1) (2 * indent) (itemText floatText indent item ++ more) =
      (do
        let read ← reread version item indent
        match nextEntry (2 * indent) more with
        | none => pure ([read], more)
        | some entry => do
          let (others, rest) ← readItems version fuel (2 * indent) entry
          pure (read :: others, rest)) := by
  have shorter : (itemBody floatText indent item).length < fuel := by
    simp only [itemText, List.length_cons] at enough
    omega
  rw [itemText, List.cons_append, List.cons_append, readItems, itemRead _ _ _ closed shorter]
  cases reread version item indent with
  | none => rfl
  | some value => rfl

theorem readItems_text {item : JsonValue} {items : List JsonValue}
    (each : ∀ other ∈ item :: items, ItemRead floatText version other) {indent fuel : Nat}
    {after : List Char} (closed : Closed (2 * indent) after)
    (enough : (itemsText floatText indent item items).length ≤ fuel) :
    readItems version fuel (2 * indent) (itemsText floatText indent item items ++ after) =
      (rereadItems version (item :: items) indent).map fun read => (read, after) := by
  induction items generalizing item fuel with
  | nil =>
      have first := each item List.mem_cons_self
      have inner := closed_mono closed (show 2 * indent ≤ 2 * indent + 2 by omega)
      cases fuel with
      | zero => simp [itemsText, itemText] at enough
      | succ fuel =>
          simp only [itemsText, List.flatMap_nil, List.append_nil] at enough ⊢
          rw [readItems_entry first inner enough, nextEntry_of_closed closed, rereadItems]
          cases reread version item indent <;> rfl
  | cons next items inductionHypothesis =>
      have first := each item List.mem_cons_self
      cases fuel with
      | zero => simp [itemsText, itemText] at enough
      | succ fuel =>
          obtain ⟨entry, inner, _⟩ := pad_entry indent
            (itemsText_head floatText indent next items after) (by decide)
          have lengths := congrArg List.length (itemsText_cons floatText indent item next items [])
          simp only [List.append_nil, List.length_append] at lengths
          have one : 1 ≤ (itemText floatText indent item).length := by
            simp [itemText]
          have later := inductionHypothesis
            (fun other inside => each other (List.mem_cons_of_mem _ inside))
            (show (itemsText floatText indent next items).length ≤ fuel by omega)
          rw [itemsText_cons, readItems_entry first inner (by omega), rereadItems, entry]
          cases reread version item indent with
          | none => rfl
          | some value =>
              simp only [Option.bind_eq_bind, Option.bind_some, later]
              cases rereadItems version (next :: items) indent <;> rfl

/-! ### Scalars and empty collections -/

/-- The text is a flow node on a line of its own, and no key. -/
structure FlowRead (value : JsonValue) : Prop where
  scalar : nonemptyObject value = false ∧ nonemptyArray value = false
  flow : ∀ (indent : Nat) (after : List Char),
    readFlow version (2 * indent + 1) (writeYaml floatText value (indent + 1) ++ after) =
      (reread version value indent).map fun read => (read, after)
  notKey : ∀ (indent : Nat) (after : List Char),
    readKey version (writeYaml floatText value indent ++ after) = none

theorem FlowRead.value {value : JsonValue} (read : @FlowRead floatText version value) :
    ValueRead floatText version value := by
  intro indent fuel after closed enough
  cases fuel with
  | zero => simp [valueText] at enough
  | succ fuel =>
      rw [valueText, read.scalar.1, read.scalar.2, Bool.or_self, if_neg Bool.false_ne_true,
        List.cons_append, readValue]
      exact read.flow indent after

theorem FlowRead.item {value : JsonValue} (read : @FlowRead floatText version value) :
    ItemRead floatText version value := by
  intro indent fuel after closed enough
  cases fuel with
  | zero => omega
  | succ fuel =>
      rw [itemBody, read.scalar.1, if_neg Bool.false_ne_true, readItem, read.notKey,
        if_neg (by simp)]
      exact read.flow indent after

theorem flowRead_string (text : String) : @FlowRead floatText version (.string text) where
  scalar := ⟨rfl, rfl⟩
  flow indent after := by
    rw [writeYaml, jsonString, List.append_assoc, List.singleton_append, readFlow_quote, reread,
      Option.map_map]
    rfl
  notKey indent after := by
    rw [writeYaml, jsonString, List.append_assoc, List.singleton_append, readKey_quote_line]

theorem flowRead_plain {value : JsonValue} {token : List Char}
    (scalar : nonemptyObject value = false ∧ nonemptyArray value = false)
    (known : plain token = some value) (unquoted : token.head? ≠ some '"') (line : '\n' ∉ token)
    (written : ∀ indent, writeYaml floatText value indent = token ++ ['\n'])
    (kept : ∀ indent, reread version value indent = some value) :
    @FlowRead floatText version value where
  scalar := scalar
  flow indent after := by
    rw [written, List.append_assoc, List.singleton_append, readFlow_plain _ _ known unquoted line,
      kept]
    rfl
  notKey indent after := by
    have starts : (token ++ '\n' :: after).head? ≠ some '"' := by
      cases token with
      | nil => simp
      | cons character token => simpa using unquoted
    rw [written, List.append_assoc, List.singleton_append, readKey_unquoted _ starts]

theorem plain_number {number : JsonNumber} (isInt : number.toInt?.isSome = true) :
    plain (numberText floatText number) = some (.number number) := by
  have ne := @numberText_ne floatText number isInt
  rw [plain, if_neg (ne rfl (by decide) (by decide) : _ ≠ "true".toList),
    if_neg (ne rfl (by decide) (by decide) : _ ≠ "false".toList),
    if_neg (ne rfl (by decide) (by decide) : _ ≠ "\x7b\x7d".toList),
    if_neg (ne rfl (by decide) (by decide) : _ ≠ "[]".toList),
    readInteger_numberText floatText isInt]
  rfl

theorem flowRead_number {number : JsonNumber} (isInt : number.toInt?.isSome = true) :
    @FlowRead floatText version (.number number) := by
  have absent := @not_mem_numberText floatText number isInt
  have unquoted : (numberText floatText number).head? ≠ some '"' := by
    intro head
    exact absent (by decide) (by decide) (List.mem_of_mem_head? head)
  have line : '\n' ∉ numberText floatText number := absent (by decide) (by decide)
  apply flowRead_plain ⟨rfl, rfl⟩ (plain_number isInt) unquoted line
  · intro indent
    rw [writeYaml]
  · intro indent
    rw [reread]

theorem flowRead_bool (flag : Bool) : @FlowRead floatText version (.bool flag) := by
  cases flag with
  | false =>
      exact flowRead_plain ⟨rfl, rfl⟩ (show plain "false".toList = _ from rfl) (by decide)
        (by decide) (fun _ => by rw [writeYaml]; rfl) fun _ => by rw [reread]
  | true =>
      exact flowRead_plain ⟨rfl, rfl⟩ (show plain "true".toList = _ from rfl) (by decide)
        (by decide) (fun _ => by rw [writeYaml]; rfl) fun _ => by rw [reread]

theorem flowRead_empty_array : @FlowRead floatText version (.array []) :=
  flowRead_plain ⟨rfl, rfl⟩ (show plain "[]".toList = _ from rfl) (by decide) (by decide)
    (fun _ => by rw [writeYaml]; rfl) fun _ => by simp [reread, rereadItems]

theorem flowRead_empty_object : @FlowRead floatText version (.object []) :=
  flowRead_plain ⟨rfl, rfl⟩ (show plain "\x7b\x7d".toList = _ from rfl) (by decide) (by decide)
    (fun _ => by rw [writeYaml]; rfl) fun _ => by simp [reread, rereadMembers]

/-! ### Collections -/

theorem valueText_object (indent : Nat) (member : String × JsonValue)
    (members : List (String × JsonValue)) :
    valueText floatText indent (.object (member :: members)) =
      '\n' :: (pad (indent + 1) ++ membersText floatText (indent + 1) member members) := by
  rw [valueText, writeYaml_object]
  rfl

theorem valueText_array (indent : Nat) (item : JsonValue) (items : List JsonValue) :
    valueText floatText indent (.array (item :: items)) =
      '\n' :: (pad (indent + 1) ++ itemsText floatText (indent + 1) item items) := by
  rw [valueText, writeYaml_array]
  rfl

theorem value_object {member : String × JsonValue} {members : List (String × JsonValue)}
    (each : ∀ other ∈ member :: members, ValueRead floatText version other.2)
    (short : ∀ other ∈ member :: members, other.1.length ≤ 100)
    (distinct : ((member :: members).map Prod.fst).Nodup) :
    ValueRead floatText version (.object (member :: members)) := by
  intro indent fuel after closed enough
  rw [valueText_object] at enough ⊢
  cases fuel with
  | zero => simp at enough
  | succ fuel =>
      have head := membersText_head floatText (indent + 1) member members after
      obtain ⟨_, _, deeper⟩ := pad_entry (indent + 1) head (by decide)
      have shorter : (membersText floatText (indent + 1) member members).length ≤ fuel := by
        simp only [List.length_cons, List.length_append] at enough
        omega
      have read := readMembers_text each short distinct closed shorter
      rw [List.cons_append, List.append_assoc, readValue, deeper, if_pos (by omega), pad,
        List.drop_left' (List.length_replicate ..)]
      simp only [head, Option.some.injEq, Char.reduceEq, if_false, read, reread]
      cases rereadMembers version (member :: members) (indent + 1) <;> rfl

theorem value_array {item : JsonValue} {items : List JsonValue}
    (each : ∀ other ∈ item :: items, ItemRead floatText version other) :
    ValueRead floatText version (.array (item :: items)) := by
  intro indent fuel after closed enough
  rw [valueText_array] at enough ⊢
  cases fuel with
  | zero => simp at enough
  | succ fuel =>
      have head := itemsText_head floatText (indent + 1) item items after
      obtain ⟨_, _, deeper⟩ := pad_entry (indent + 1) head (by decide)
      have shorter : (itemsText floatText (indent + 1) item items).length ≤ fuel := by
        simp only [List.length_cons, List.length_append] at enough
        omega
      have read := readItems_text each closed shorter
      rw [List.cons_append, List.append_assoc, readValue, deeper, if_pos (by omega), pad,
        List.drop_left' (List.length_replicate ..)]
      simp only [if_pos head, read, reread]
      cases rereadItems version (item :: items) (indent + 1) <;> rfl

theorem item_object {member : String × JsonValue} {members : List (String × JsonValue)}
    (each : ∀ other ∈ member :: members, ValueRead floatText version other.2)
    (short : ∀ other ∈ member :: members, other.1.length ≤ 100)
    (distinct : ((member :: members).map Prod.fst).Nodup) :
    ItemRead floatText version (.object (member :: members)) := by
  intro indent fuel after closed enough
  rw [itemBody_object] at enough ⊢
  cases fuel with
  | zero => omega
  | succ fuel =>
      have read := readMembers_text each short distinct closed
        (show (membersText floatText (indent + 1) member members).length ≤ fuel by omega)
      have named := key_fits (short member List.mem_cons_self)
      obtain ⟨more, shape⟩ : ∃ more, membersText floatText (indent + 1) member members ++ after =
          quote member.1 ++ ':' :: more := by
        exact ⟨_, by simp only [membersText, memberText, List.append_assoc, List.cons_append]; rfl⟩
      have key := @readKey_quote version member.1 named more
      rw [readItem]
      cases line : single version member.1 with
      | true =>
          rw [line, if_pos rfl] at key
          rw [shape, key, Option.isSome_some, if_pos rfl, ← shape]
          change (readMembers version fuel (2 * (indent + 1)) _).bind _ = _
          rw [read, reread]
          cases rereadMembers version (member :: members) (indent + 1) <;> rfl
      | false =>
          rw [line, if_neg Bool.false_ne_true] at key
          rw [shape, key, if_neg (by simp), readFlow_quote_key, reread, rereadMembers, line]
          rfl

theorem reads_of_canonical {value : JsonValue} (canonical : Canonical value) :
    ValueRead floatText version value ∧
      ((∀ inner, value ≠ .array inner) → ItemRead floatText version value) := by
  induction value using JsonValue.induct with
  | null => cases canonical
  | bool flag => exact ⟨(flowRead_bool flag).value, fun _ => (flowRead_bool flag).item⟩
  | number number =>
      have read := @flowRead_number floatText version number canonical.isInt
      exact ⟨read.value, fun _ => read.item⟩
  | string text => exact ⟨(flowRead_string text).value, fun _ => (flowRead_string text).item⟩
  | array items inductionHypothesis =>
      constructor
      · cases items with
        | nil => exact flowRead_empty_array.value
        | cons item items =>
            apply value_array
            intro other inside
            apply (inductionHypothesis other inside (canonical.item other inside)).2
            intro inner same
            exact canonical.flat inner (same ▸ inside)
      · intro notArray
        exact absurd rfl (notArray items)
  | object members inductionHypothesis =>
      have each : ∀ other ∈ members, ValueRead floatText version other.2 := fun other inside =>
        (inductionHypothesis other inside (canonical.child other inside)).1
      cases members with
      | nil => exact ⟨flowRead_empty_object.value, fun _ => flowRead_empty_object.item⟩
      | cons member members =>
          exact ⟨value_object each canonical.short canonical.distinct,
            fun _ => item_object each canonical.short canonical.distinct⟩

theorem parse_writeYaml {members : List (String × JsonValue)} (nonempty : members ≠ [])
    (canonical : Canonical (.object members)) :
    Yaml.parse version (writeYaml floatText (.object members) 0) =
      (rereadMembers version members 0).map .object := by
  cases members with
  | nil => contradiction
  | cons member members =>
      have each : ∀ other ∈ member :: members, ValueRead floatText version other.2 :=
        fun other inside => (reads_of_canonical (canonical.child other inside)).1
      have read := @readMembers_text floatText version member members each canonical.short
        canonical.distinct 0 _ [] (.inl rfl) le_rfl
      rw [List.append_nil, Nat.mul_zero] at read
      rw [writeYaml_object, pad, Nat.mul_zero, List.replicate_zero, List.nil_append, Yaml.parse,
        read]
      cases rereadMembers version (member :: members) 0 <;> rfl

end Reading

end YamlExport

end ZedRegistry
