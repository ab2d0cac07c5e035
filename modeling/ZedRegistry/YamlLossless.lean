import ZedRegistry.YamlRoundTrip

/-!
# When the YAML rendering is lossless

The rendering keeps the document in both versions of YAML exactly when no string of it
holds a character that YAML does not print or that YAML 1.1 takes for a line break.
-/

set_option autoImplicit false

namespace ZedRegistry

open JsonText GraphText Yaml

namespace YamlExport

/-! ## Characters of the text -/

/-- A character that a literal holds as printable text. -/
def shown (character : Char) : Bool := character.toNat < 0x20 || printable character

theorem printable_ascii {character : Char} (low : 0x20 ≤ character.toNat)
    (high : character.toNat ≤ 0x7e) : printable character = true := by
  simp [printable, low, high]

theorem printable_digitChar {value : Nat} (small : value < 16) :
    printable (Nat.digitChar value) = true := by
  have all : ∀ value : Fin 16, printable (Nat.digitChar value) = true := by decide
  exact all ⟨value, small⟩

theorem escape_printable (character : Char) :
    (escape character).all printable = shown character := by
  have shorts : ∀ pair ∈ shortEscapes, (printable pair.2 && shown pair.1) = true := by decide
  unfold escape
  split
  · rename_i letter short
    obtain ⟨before, after, split, _⟩ := List.lookup_eq_some_iff.mp short
    have both := shorts (character, letter) (by rw [split]; simp)
    rw [Bool.and_eq_true] at both
    have backslash : printable '\\' = true := by decide
    simp only [List.all_cons, List.all_nil, both.1, both.2, backslash, Bool.and_self]
  · by_cases control : character.toNat < 0x20
    · have high := printable_digitChar (show character.toNat / 16 < 16 by omega)
      have low := printable_digitChar (show character.toNat % 16 < 16 by omega)
      have backslash : printable '\\' = true := by decide
      have unicode : printable 'u' = true := by decide
      have zero : printable '0' = true := by decide
      simp [control, high, low, shown, backslash, unicode, zero]
    · simp [control, shown]

theorem quote_printable (text : String) :
    (quote text).all printable = text.toList.all shown := by
  have quotation : printable '"' = true := by decide
  simp only [quote, List.all_cons, List.all_append, List.all_flatMap, escape_printable, quotation,
    List.all_nil, Bool.and_true, Bool.true_and]

theorem pad_printable (indent : Nat) : (pad indent).all printable = true := by
  rw [List.all_eq_true]
  intro character inside
  rw [List.eq_of_mem_replicate inside]
  rfl

theorem numberText_printable (floatText : UInt64 → List Char) {number : JsonNumber}
    (isInt : number.toInt?.isSome = true) :
    (numberText floatText number).all printable = true := by
  rw [List.all_eq_true]
  intro character inside
  obtain rfl | digit := numberText_digits floatText isInt character inside
  · rfl
  · rw [Char.isDigit, Bool.and_eq_true, decide_eq_true_iff, decide_eq_true_iff] at digit
    have low : (48 : UInt32).toNat ≤ character.toNat := digit.1
    have high : character.toNat ≤ (57 : UInt32).toNat := digit.2
    apply printable_ascii
    · exact le_trans (by decide) low
    · exact le_trans high (by decide)

section Printable

variable (floatText : UInt64 → List Char)

/-- Only what the literals hold as themselves may be outside the printable set. -/
def Shows (value : JsonValue) : Prop :=
  ∀ indent, (writeYaml floatText value indent).all printable =
    (texts value).all fun text => text.toList.all shown

variable {floatText}

theorem shows_members {members : List (String × JsonValue)}
    (each : ∀ member ∈ members, Shows floatText member.2) (indent : Nat) :
    (members.flatMap fun member => pad indent ++ memberText floatText indent member).all
        printable = (memberTexts members).all fun text => text.toList.all shown := by
  induction members with
  | nil => rfl
  | cons member members inductionHypothesis =>
      obtain ⟨key, child⟩ := member
      have here := each (key, child) List.mem_cons_self (indent + 1)
      have later := inductionHypothesis fun other inside =>
        each other (List.mem_cons_of_mem _ inside)
      have colon : printable ':' = true := by decide
      have separator : printable
          (if nonemptyObject child || nonemptyArray child then '\n' else ' ') = true := by
        split <;> decide
      rw [List.flatMap_cons, List.all_append, later, memberTexts, List.all_cons, List.all_append,
        List.all_append, pad_printable, memberText, List.all_append, quote_printable,
        List.all_cons, colon, valueText, List.all_cons, separator, here]
      simp only [Bool.true_and, Bool.and_assoc]

theorem dropWhile_space_printable (text : List Char) :
    (text.dropWhile (· == ' ')).all printable = text.all printable := by
  have spaces : (text.takeWhile (· == ' ')).all printable = true := by
    rw [List.all_eq_true]
    intro character inside
    have space := List.all_eq_true.mp List.all_takeWhile character inside
    rw [eq_of_beq space]
    rfl
  have whole := congrArg (fun text => text.all printable)
    (@List.takeWhile_append_dropWhile _ (· == ' ') text)
  simpa only [List.all_append, spaces, Bool.true_and] using whole

theorem shows_items {items : List JsonValue} (each : ∀ item ∈ items, Shows floatText item)
    (indent : Nat) :
    (items.flatMap fun item => pad indent ++ itemText floatText indent item).all printable =
      (itemTexts items).all fun text => text.toList.all shown := by
  induction items with
  | nil => rfl
  | cons item items inductionHypothesis =>
      have here := each item List.mem_cons_self (indent + 1)
      have later := inductionHypothesis fun other inside =>
        each other (List.mem_cons_of_mem _ inside)
      have dash : printable '-' = true := by decide
      have space : printable ' ' = true := by decide
      have body : (itemBody floatText indent item).all printable =
          (writeYaml floatText item (indent + 1)).all printable := by
        unfold itemBody
        split
        · exact dropWhile_space_printable _
        · rfl
      rw [List.flatMap_cons, List.all_append, later, itemTexts, List.all_append, List.all_append,
        pad_printable, itemText, List.all_cons, List.all_cons, dash, space, body, here]
      simp only [Bool.true_and]

theorem shows_of_canonical {value : JsonValue} (canonical : Canonical value) :
    Shows floatText value := by
  have lineFeed : ['\n'].all printable = true := by decide
  induction value using JsonValue.induct with
  | null => cases canonical
  | bool flag =>
      intro indent
      cases flag <;> rfl
  | number number =>
      intro indent
      rw [writeYaml, List.all_append, numberText_printable floatText canonical.isInt, lineFeed]
      rfl
  | string text =>
      intro indent
      rw [writeYaml, List.all_append, jsonString, quote_printable, lineFeed, texts]
      simp
  | array items inductionHypothesis =>
      intro indent
      have each := @shows_items floatText items fun item inside =>
        inductionHypothesis item inside (canonical.item item inside)
      cases items with
      | nil => rfl
      | cons item items => rw [writeYaml, writeYamlItems_eq, each, texts]
  | object members inductionHypothesis =>
      intro indent
      have each := @shows_members floatText members fun member inside =>
        inductionHypothesis member inside (canonical.child member inside)
      cases members with
      | nil => rfl
      | cons member members => rw [writeYaml, writeYamlMembers_eq, each, texts]

end Printable

/-! ## When the text is lossless -/

/-- Neither a control or noncharacter, which YAML does not print, nor a line break of
YAML 1.1. -/
def yamlSafe (character : Char) : Bool :=
  let code := character.toNat
  !((0x7f ≤ code && code ≤ 0x9f) || code == 0x2028 || code == 0x2029 || code == 0xfffe ||
    code == 0xffff)

theorem rawBreak_atom (version : Yaml.Version) (character : Char) :
    rawBreak version (atom character) = true ↔ version = .v11 ∧
      (character.toNat = 0x85 ∨ character.toNat = 0x2028 ∨ character.toNat = 0x2029) := by
  cases written : escaped character with
  | true =>
      have ascii : character.toNat < 0x80 := by
        obtain control | rfl | rfl := (escaped_iff character).mp written
        · omega
        · decide
        · decide
      rw [atom, if_pos written]
      simp only [rawBreak, Bool.false_eq_true, false_iff, not_and]
      omega
  | false =>
      have notFeed : character ≠ '\n' := by
        rintro rfl
        exact absurd written (by decide)
      have notReturn : character ≠ '\r' := by
        rintro rfl
        exact absurd written (by decide)
      rw [atom, written, if_neg Bool.false_ne_true]
      cases version with
      | v11 =>
          simp [rawBreak, isBreak, isSpecific, notFeed, notReturn]
          omega
      | v12 => simp [rawBreak, isBreak, isSpecific, notFeed, notReturn]

theorem yamlSafe_iff (character : Char) :
    yamlSafe character = true ↔ shown character = true ∧
      ∀ version, rawBreak version (atom character) = false := by
  have valid : character.toNat.isValidChar := character.valid
  have breaks : (∀ version, rawBreak version (atom character) = false) ↔
      ¬(character.toNat = 0x85 ∨ character.toNat = 0x2028 ∨ character.toNat = 0x2029) := by
    simp only [← Bool.not_eq_true, rawBreak_atom]
    simp
  rw [breaks]
  unfold Nat.isValidChar at valid
  simp only [yamlSafe, shown, printable, Bool.not_eq_true', Bool.or_eq_false_iff,
    Bool.and_eq_false_iff, Bool.or_eq_true, Bool.and_eq_true, decide_eq_true_iff,
    decide_eq_false_iff_not, beq_iff_eq, beq_eq_false_iff_ne]
  omega

theorem single_iff (version : Yaml.Version) (text : String) :
    single version text = true ↔
      ∀ character ∈ text.toList, rawBreak version (atom character) = false := by
  simp only [single, Bool.not_eq_true', List.any_eq_false, List.mem_map, forall_exists_index,
    and_imp, forall_apply_eq_imp_iff₂, Bool.not_eq_true]

/-- The bytes are text in YAML's printable set, and both versions read it as the value. -/
def Lossless (output : Bytes) (value : JsonValue) : Prop :=
  ∃ text : String, decodeUtf8 output = some text ∧ text.toList.all printable = true ∧
    ∀ version, Yaml.parse version text.toList = some value

theorem lossless_asBytes_iff (text : List Char) (value : JsonValue) :
    Lossless (asBytes (String.ofList text)) value ↔
      text.all printable = true ∧ ∀ version, Yaml.parse version text = some value := by
  simp only [Lossless, decodeUtf8_asBytes, Option.some.injEq, exists_eq_left',
    String.toList_ofList]

theorem parse_writeYaml_iff {floatText : UInt64 → List Char} (version : Yaml.Version)
    {members : List (String × JsonValue)} (nonempty : members ≠ [])
    (canonical : Canonical (.object members)) :
    Yaml.parse version (writeYaml floatText (.object members) 0) = some (.object members) ↔
      ∀ text ∈ texts (.object members), single version text = true := by
  have kept := @rereadMembers_eq_self_iff version members (fun member inside =>
    kept_of_canonical version (canonical.child member inside)) 0
  rw [parse_writeYaml nonempty canonical, texts, ← List.all_eq_true, ← kept]
  simp

/-- A control or noncharacter makes the text unprintable; a break of YAML 1.1 takes away
the indentation of the line after it. -/
theorem yaml_lossless_iff (floatText : UInt64 → List Char)
    {parse : Bytes → Except String JsonValue} {canonicalBytes : Bytes}
    {members : List (String × JsonValue)} (parsed : parse canonicalBytes = .ok (.object members))
    (nonempty : members ≠ []) (canonical : Canonical (.object members)) :
    ∃ output, encodeYaml floatText parse canonicalBytes = .ok output ∧
      (Lossless output (.object members) ↔
        ∀ text ∈ texts (.object members), ∀ character ∈ text.toList,
          yamlSafe character = true) := by
  refine ⟨asBytes (String.ofList (writeYaml floatText (.object members) 0)), ?_, ?_⟩
  · exact encodeText_of_parsed parsed rfl
  · have shows := @shows_of_canonical floatText _ canonical 0
    rw [lossless_asBytes_iff, shows]
    simp only [parse_writeYaml_iff _ nonempty canonical, List.all_eq_true, single_iff,
      yamlSafe_iff]
    constructor
    · intro lossless text inside character member
      exact ⟨lossless.1 text inside character member,
        fun version => lossless.2 version text inside character member⟩
    · intro safe
      exact ⟨fun text inside character member => (safe text inside character member).1,
        fun version text inside character member => (safe text inside character member).2 version⟩

theorem yaml_lossless_sample :
    ∃ output, encodeYaml (fun _ => []) (sampleParse "\"\\t\u00e9\"" "\t\u00e9")
        (sampleCanonical "\"\\t\u00e9\"") = .ok output ∧
      (Lossless output (.object (sampleMembers "\t\u00e9")) ↔
        ∀ text ∈ texts (.object (sampleMembers "\t\u00e9")), ∀ character ∈ text.toList,
          yamlSafe character = true) :=
  yaml_lossless_iff (fun _ => []) (if_pos rfl) (List.cons_ne_nil _ _)
    (sampleMembers_canonical _)

theorem parse_next_line :
    Yaml.parse .v11 (writeYaml (fun _ => []) (.object (sampleMembers "a\u0085     b")) 0) =
      some (.object (sampleMembers "a b")) := by
  have schema : fold .v11 1 ("zpkg/dependency-graph/v1".toList.map atom) =
      some "zpkg/dependency-graph/v1".toList := by decide +kernel
  have names : ["graph", "features", "max_depth", "schema"].all (single .v11) = true := by
    decide +kernel
  simp only [List.all_cons, List.all_nil, Bool.and_true, Bool.and_eq_true] at names
  have nonempty : sampleMembers "a\u0085     b" ≠ [] := List.cons_ne_nil _ _
  rw [parse_writeYaml nonempty (sampleMembers_canonical _)]
  simp only [sampleMembers, rereadMembers, rereadItems, reread, names, schema, if_true,
    Option.map_some, String.ofList_toList]
  rfl

/-- U+0085 is a line break of YAML 1.1: the text is well formed, and two readers of it
disagree. -/
theorem yaml_loses_next_line :
    ∃ text : String,
      encodeYaml (fun _ => []) (sampleParse "\"a\u0085     b\"" "a\u0085     b")
        (sampleCanonical "\"a\u0085     b\"") = .ok (asBytes text) ∧
      Yaml.parse .v11 text.toList = some (.object (sampleMembers "a b")) ∧
      ¬Lossless (asBytes text) (.object (sampleMembers "a\u0085     b")) := by
  refine ⟨String.ofList (writeYaml (fun _ => []) (.object (sampleMembers "a\u0085     b")) 0),
    ?_, ?_, ?_⟩
  · exact encodeText_of_parsed (if_pos rfl) rfl
  · rw [String.toList_ofList]
    exact parse_next_line
  · rw [lossless_asBytes_iff]
    intro lossless
    have both := parse_next_line.symm.trans (lossless.2 .v11)
    simp [sampleMembers] at both

end YamlExport

end ZedRegistry
