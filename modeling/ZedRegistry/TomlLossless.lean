import ZedRegistry.TomlRoundTrip

/-!
# When the TOML rendering is lossless

The rendering is a TOML document of the same value exactly when no string of it holds
U+007F: its members behind one another as the three passes write them, and everything
inside them as it was.
-/

set_option autoImplicit false

namespace ZedRegistry

open JsonText GraphText Toml

namespace TomlExport

/-! ## The sections of a document -/

def isTable (member : String × JsonValue) : Bool := isTomlTable member.2

def isArrayOfTables (member : String × JsonValue) : Bool := isTomlArrayOfTables member.2

def isLine (member : String × JsonValue) : Bool := !(isTable member || isArrayOfTables member)

def membersOf : JsonValue → List (String × JsonValue)
  | .object members => members
  | _ => []

def itemsOf : JsonValue → List JsonValue
  | .array items => items
  | _ => []

def tableSection (member : String × JsonValue) : Section :=
  ⟨.table member.1, membersOf member.2⟩

def elementSection (key : String) (item : JsonValue) : Section := ⟨.element key, membersOf item⟩

def elementSections (member : String × JsonValue) : List Section :=
  (itemsOf member.2).map (elementSection member.1)

def documentSections (root : List (String × JsonValue)) : List Section :=
  (root.filter isTable).map tableSection ++ (root.filter isArrayOfTables).flatMap elementSections

theorem flatMap_if {α β : Type} (keep : α → Bool) (write : α → List β) (items : List α) :
    (items.flatMap fun item => if keep item then write item else []) =
      (items.filter keep).flatMap write := by
  induction items with
  | nil => rfl
  | cons item items inductionHypothesis =>
      rw [List.flatMap_cons, inductionHypothesis, List.filter_cons]
      cases keep item <;> rfl

theorem object_membersOf {value : JsonValue} (object : isObject value = true) :
    .object (membersOf value) = value := by
  cases value with
  | object members => rfl
  | _ => contradiction

theorem isObject_of_isTable {member : String × JsonValue} (table : isTable member = true) :
    isObject member.2 = true := by
  obtain ⟨key, value⟩ := member
  cases value with
  | object members => rfl
  | _ => contradiction

theorem array_of_tables {member : String × JsonValue} (array : isArrayOfTables member = true) :
    .array (itemsOf member.2) = member.2 ∧ itemsOf member.2 ≠ [] ∧
      ∀ item ∈ itemsOf member.2, isObject item = true := by
  obtain ⟨key, value⟩ := member
  cases value with
  | array items =>
      simp only [isArrayOfTables, isTomlArrayOfTables, Bool.and_eq_true, List.all_eq_true] at array
      refine ⟨rfl, ?_, array.2⟩
      rintro same
      rw [show items = [] from same] at array
      exact absurd array.1 (by decide)
  | _ => contradiction

section Text

variable (floatText : UInt64 → List Char)

theorem tomlTable_eq (member : String × JsonValue) :
    tomlTable floatText member =
      if isTable member then sectionText floatText (tableSection member) else [] := by
  obtain ⟨key, value⟩ := member
  cases value with
  | object members =>
      cases members with
      | nil => rfl
      | cons first members =>
          simp only [tomlTable, isTable, isTomlTable, sectionText, tableSection, headerText,
            membersOf, jsonString, List.append_assoc, List.cons_append]
          rfl
  | _ => rfl

theorem tomlArrayOfTables_eq (member : String × JsonValue) :
    tomlArrayOfTables floatText member =
      if isArrayOfTables member then (elementSections member).flatMap (sectionText floatText)
      else [] := by
  obtain ⟨key, value⟩ := member
  cases value with
  | array items =>
      simp only [tomlArrayOfTables, isArrayOfTables, elementSections, itemsOf, List.flatMap_map]
      congr 2
      funext item
      cases item <;>
        simp only [sectionText, elementSection, headerText, membersOf, jsonString,
          List.append_assoc, List.cons_append, List.flatMap_nil] <;> rfl
  | _ => rfl

/-- What the three passes write: the lines of the root table, and then its sections. -/
def documentText (root : List (String × JsonValue)) : List Char :=
  (root.filter isLine).flatMap (tomlLine floatText) ++
    (documentSections root).flatMap (sectionText floatText)

theorem writeToml_eq (root : List (String × JsonValue)) :
    writeToml floatText (.object root) = .ok (documentText floatText root) := by
  have lines : (root.flatMap fun member =>
      if isTomlTable member.2 || isTomlArrayOfTables member.2 then []
      else tomlLine floatText member) = (root.filter isLine).flatMap (tomlLine floatText) := by
    rw [← flatMap_if]
    congr 1
    funext member
    unfold isLine isTable isArrayOfTables
    cases isTomlTable member.2 || isTomlArrayOfTables member.2 <;> rfl
  have tables := flatMap_if isTable (fun member => sectionText floatText (tableSection member)) root
  have arrays := flatMap_if isArrayOfTables
    (fun member => (elementSections member).flatMap (sectionText floatText)) root
  rw [writeToml, lines, documentText, documentSections, List.flatMap_append, List.flatMap_map,
    List.flatMap_assoc, ← tables, ← arrays, funext (tomlTable_eq floatText),
    funext (tomlArrayOfTables_eq floatText)]

end Text

/-! ## The document that is read -/

theorem legalSection_table {member : String × JsonValue} (table : isTable member = true) :
    legalSection (tableSection member) = legalMember member := by
  have object := object_membersOf (isObject_of_isTable table)
  rw [legalMember, ← object, texts, memberTexts_legal]
  rfl

theorem legalSection_elements (key : String) {items : List JsonValue}
    (objects : ∀ item ∈ items, isObject item = true) (nonempty : items ≠ []) :
    (items.map (elementSection key)).all legalSection =
      (legal key && (itemTexts items).all legal) := by
  have one : ∀ item, isObject item = true →
      legalSection (elementSection key item) = (legal key && (texts item).all legal) := by
    intro item object
    rw [← object_membersOf object, texts, memberTexts_legal]
    rfl
  induction items with
  | nil => contradiction
  | cons item items inductionHypothesis =>
      rw [List.map_cons, List.all_cons, one item (objects item List.mem_cons_self), itemTexts,
        List.all_append]
      cases items with
      | nil =>
          simp only [List.map_nil, List.all_nil, Bool.and_true, itemTexts]
      | cons next items =>
          rw [inductionHypothesis (fun other inside => objects other
            (List.mem_cons_of_mem _ inside)) (List.cons_ne_nil _ _)]
          cases legal key <;> simp

theorem legalSection_document (root : List (String × JsonValue)) :
    (documentSections root).all legalSection =
      ((root.filter isTable).all legalMember && (root.filter isArrayOfTables).all legalMember) := by
  have tables : ((root.filter isTable).map tableSection).all legalSection =
      (root.filter isTable).all legalMember := by
    rw [List.all_map, Bool.eq_iff_iff, List.all_eq_true, List.all_eq_true]
    apply forall₂_congr
    intro member inside
    rw [Function.comp_apply, legalSection_table (List.mem_filter.mp inside).2]
  have arrays : ((root.filter isArrayOfTables).flatMap elementSections).all legalSection =
      (root.filter isArrayOfTables).all legalMember := by
    rw [List.all_flatMap, Bool.eq_iff_iff, List.all_eq_true, List.all_eq_true]
    apply forall₂_congr
    intro member inside
    obtain ⟨array, nonempty, objects⟩ := array_of_tables (List.mem_filter.mp inside).2
    rw [elementSections, legalSection_elements _ objects nonempty, legalMember, ← array]
    rfl
  rw [documentSections, List.all_append, tables, arrays]

/-- The members of a document behind one another as the three passes write them. -/
def reordered (root : List (String × JsonValue)) : List (String × JsonValue) :=
  root.filter isLine ++ (root.filter isTable ++ root.filter isArrayOfTables)

theorem not_array_of_table {member : String × JsonValue} (table : isTable member = true) :
    isArrayOfTables member = false := by
  obtain ⟨key, value⟩ := member
  cases value with
  | object members => rfl
  | _ => contradiction

theorem reordered_perm (root : List (String × JsonValue)) : (reordered root).Perm root := by
  have tables : root.filter isTable =
      (root.filter fun member => !isLine member).filter isTable := by
    rw [List.filter_filter]
    congr 1
    funext member
    unfold isLine
    cases isTable member <;> simp
  have arrays : root.filter isArrayOfTables =
      (root.filter fun member => !isLine member).filter fun member => !isTable member := by
    rw [List.filter_filter]
    congr 1
    funext member
    unfold isLine
    cases table : isTable member with
    | true => simp [not_array_of_table table]
    | false => simp
  rw [reordered, tables, arrays]
  have inner := List.filter_append_perm isTable (root.filter fun member => !isLine member)
  exact (List.Perm.append_left _ inner).trans (List.filter_append_perm isLine root)

theorem legal_reordered (root : List (String × JsonValue)) :
    ((root.filter isLine).all legalMember && (documentSections root).all legalSection) =
      (memberTexts root).all legal := by
  rw [legalSection_document, ← List.all_append, ← List.all_append, memberTexts_legal]
  exact (reordered_perm root).all_eq

/-! ## Assembling it -/

theorem addElement_new {root : List (String × Binding)} {key : String}
    (absent : key ∉ root.map Prod.fst) (item : JsonValue) :
    addElement key item root = some (root ++ [(key, .tables [item])]) := by
  induction root with
  | nil => rfl
  | cons member root inductionHypothesis =>
      obtain ⟨name, binding⟩ := member
      simp only [List.map_cons, List.mem_cons, not_or] at absent
      rw [addElement, if_neg (Ne.symm absent.1), inductionHypothesis absent.2]
      rfl

theorem addElement_more {root : List (String × Binding)} {key : String}
    (absent : key ∉ root.map Prod.fst) (items : List JsonValue) (item : JsonValue) :
    addElement key item (root ++ [(key, .tables items)]) =
      some (root ++ [(key, .tables (items ++ [item]))]) := by
  induction root with
  | nil =>
      rw [List.nil_append, addElement, if_pos rfl]
      rfl
  | cons member root inductionHypothesis =>
      obtain ⟨name, binding⟩ := member
      simp only [List.map_cons, List.mem_cons, not_or] at absent
      rw [List.cons_append, addElement, if_neg (Ne.symm absent.1), inductionHypothesis absent.2]
      rfl

theorem addSection_elements {root : List (String × Binding)} {key : String}
    (absent : key ∉ root.map Prod.fst) {items : List JsonValue}
    (objects : ∀ item ∈ items, isObject item = true) (before : List JsonValue) :
    (items.map (elementSection key)).foldlM addSection (root ++ [(key, .tables before)]) =
      some (root ++ [(key, .tables (before ++ items))]) := by
  induction items generalizing before with
  | nil =>
      rw [List.append_nil]
      rfl
  | cons item items inductionHypothesis =>
      have later := inductionHypothesis (fun other inside => objects other
        (List.mem_cons_of_mem _ inside)) (before ++ [item])
      have step : addSection (root ++ [(key, .tables before)]) (elementSection key item) =
          some (root ++ [(key, .tables (before ++ [item]))]) := by
        rw [elementSection, addSection, object_membersOf (objects item List.mem_cons_self)]
        exact addElement_more absent before item
      rw [List.map_cons, List.foldlM_cons, step, Option.bind_eq_bind, Option.bind_some, later,
        List.append_assoc]
      rfl

theorem addSection_array {root : List (String × Binding)} {member : String × JsonValue}
    (array : isArrayOfTables member = true) (absent : member.1 ∉ root.map Prod.fst) :
    (elementSections member).foldlM addSection root =
      some (root ++ [(member.1, .tables (itemsOf member.2))]) := by
  obtain ⟨_, nonempty, objects⟩ := array_of_tables array
  rw [elementSections]
  cases items : itemsOf member.2 with
  | nil => exact absurd items nonempty
  | cons item rest =>
      rw [items] at objects
      have step : addSection root (elementSection member.1 item) =
          some (root ++ [(member.1, .tables [item])]) := by
        rw [elementSection, addSection, object_membersOf (objects item List.mem_cons_self)]
        exact addElement_new absent item
      rw [List.map_cons, List.foldlM_cons, step, Option.bind_eq_bind, Option.bind_some]
      exact addSection_elements absent (fun other inside => objects other
        (List.mem_cons_of_mem _ inside)) [item]

theorem addSection_arrays {members : List (String × JsonValue)} {root : List (String × Binding)}
    (arrays : ∀ member ∈ members, isArrayOfTables member = true)
    (distinct : (root.map Prod.fst ++ members.map Prod.fst).Nodup) :
    (members.flatMap elementSections).foldlM addSection root =
      some (root ++ members.map fun member => (member.1, .tables (itemsOf member.2))) := by
  induction members generalizing root with
  | nil =>
      rw [List.map_nil, List.append_nil]
      rfl
  | cons member members inductionHypothesis =>
      have absent : member.1 ∉ root.map Prod.fst := by
        intro inside
        exact (List.nodup_append.mp distinct).2.2 _ inside _ List.mem_cons_self rfl
      have later := @inductionHypothesis (root ++ [(member.1, .tables (itemsOf member.2))])
        (fun other inside => arrays other (List.mem_cons_of_mem _ inside))
        (by simpa using distinct)
      rw [List.flatMap_cons, List.foldlM_append,
        addSection_array (arrays member List.mem_cons_self) absent, Option.bind_eq_bind,
        Option.bind_some, later, List.append_assoc]
      rfl

theorem addSection_tables {members : List (String × JsonValue)} {root : List (String × Binding)}
    (tables : ∀ member ∈ members, isTable member = true)
    (distinct : (root.map Prod.fst ++ members.map Prod.fst).Nodup) :
    (members.map tableSection).foldlM addSection root =
      some (root ++ members.map fun member => (member.1, .closed member.2)) := by
  induction members generalizing root with
  | nil =>
      rw [List.map_nil, List.map_nil, List.append_nil]
      rfl
  | cons member members inductionHypothesis =>
      have absent : (root.map Prod.fst).contains member.1 = false := by
        apply contains_eq_false
        intro inside
        exact (List.nodup_append.mp distinct).2.2 _ inside _ List.mem_cons_self rfl
      have later := @inductionHypothesis (root ++ [(member.1, .closed member.2)])
        (fun other inside => tables other (List.mem_cons_of_mem _ inside))
        (by simpa using distinct)
      have step : addSection root (tableSection member) =
          some (root ++ [(member.1, .closed member.2)]) := by
        rw [tableSection, addSection, absent, if_neg Bool.false_ne_true,
          object_membersOf (isObject_of_isTable (tables member List.mem_cons_self))]
      rw [List.map_cons, List.foldlM_cons, step, Option.bind_eq_bind, Option.bind_some, later,
        List.append_assoc]
      rfl

theorem assemble_document {root : List (String × JsonValue)}
    (distinct : (root.map Prod.fst).Nodup) :
    assemble (root.filter isLine) (documentSections root) = some (reordered root) := by
  have keys : ((reordered root).map Prod.fst).Nodup :=
    ((reordered_perm root).map Prod.fst).nodup_iff.mpr distinct
  rw [reordered, List.map_append, List.map_append] at keys
  let lines : List (String × Binding) := (root.filter isLine).map fun member =>
    (member.1, .closed member.2)
  have lineKeys : lines.map Prod.fst = (root.filter isLine).map Prod.fst := by
    simp only [lines, List.map_map, Function.comp_def]
  have tables := @addSection_tables (root.filter isTable) lines
    (fun member inside => (List.mem_filter.mp inside).2) (by
      rw [lineKeys]
      rw [← List.append_assoc] at keys
      exact (List.nodup_append.mp keys).1)
  have arrays := @addSection_arrays (root.filter isArrayOfTables)
    (lines ++ (root.filter isTable).map fun member => (member.1, .closed member.2))
    (fun member inside => (List.mem_filter.mp inside).2) (by
      rw [List.map_append, lineKeys, List.append_assoc]
      simpa only [List.map_map, Function.comp_def] using keys)
  have values : ∀ member ∈ root.filter isArrayOfTables,
      (member.1, JsonValue.array (itemsOf member.2)) = member := by
    intro member inside
    rw [(array_of_tables (List.mem_filter.mp inside).2).1]
  have arrayValues : ((root.filter isArrayOfTables).map fun member =>
      (member.1, JsonValue.array (itemsOf member.2))) = root.filter isArrayOfTables :=
    (List.map_congr_left values).trans (List.map_id' _)
  rw [assemble, documentSections, List.foldlM_append]
  change (((List.foldlM addSection lines _).bind _).map _) = _
  rw [tables, Option.bind_some, arrays, Option.map_some, reordered]
  simp only [lines, List.map_append, List.map_map, Function.comp_def, Binding.value, arrayValues,
    Prod.mk.eta, List.map_id', List.append_assoc]

theorem written_of_object {value : JsonValue} (canonical : Canonical value)
    (object : isObject value = true) (header : Header) : Written ⟨header, membersOf value⟩ := by
  rw [← object_membersOf object] at canonical
  exact ⟨canonical.child, canonical.distinct⟩

theorem written_document {root : List (String × JsonValue)}
    (canonical : Canonical (.object root)) :
    ∀ part ∈ documentSections root, Written part := by
  intro part inside
  obtain table | element := List.mem_append.mp inside
  · obtain ⟨member, filtered, rfl⟩ := List.mem_map.mp table
    obtain ⟨member_root, isTable⟩ := List.mem_filter.mp filtered
    exact written_of_object (canonical.child member member_root) (isObject_of_isTable isTable) _
  · obtain ⟨member, filtered, member_part⟩ := List.mem_flatMap.mp element
    obtain ⟨member_root, isArray⟩ := List.mem_filter.mp filtered
    obtain ⟨array, _, objects⟩ := array_of_tables isArray
    obtain ⟨item, item_inside, rfl⟩ := List.mem_map.mp member_part
    have plain := canonical.child member member_root
    rw [← array] at plain
    exact written_of_object (plain.item item item_inside) (objects item item_inside) _

/-- No line or header is taken into a table before it: the parse is the document. -/
theorem parse_documentText (floatText : UInt64 → List Char) {root : List (String × JsonValue)}
    (canonical : Canonical (.object root)) :
    Toml.parse (documentText floatText root) =
      if (memberTexts root).all legal then some (.object (reordered root)) else none := by
  have distinct : ((root.filter isLine).map Prod.fst).Nodup :=
    canonical.distinct.sublist (List.filter_sublist.map Prod.fst)
  have lines := @readLines_text floatText (root.filter isLine)
    (fun member inside => canonical.child member (List.mem_filter.mp inside).1) distinct _ _
    (@linesEnd_sections floatText (documentSections root))
    ((documentText floatText root).length + 2)
    (by simp only [documentText, List.length_append]; omega)
  have sections := @readSections_text floatText (documentSections root)
    (written_document canonical) _ le_rfl
  rw [← documentText] at lines
  rw [Toml.parse, lines, ← legal_reordered]
  cases (root.filter isLine).all legalMember with
  | false => rfl
  | true =>
      simp only [if_true, Option.bind_eq_bind, Option.bind_some, sections, Bool.true_and]
      cases (documentSections root).all legalSection with
      | false => rfl
      | true =>
          simp only [if_true, Option.bind_some, assemble_document canonical.distinct]
          rfl

/-! ## When the text is lossless -/

/-- A TOML basic string holds every character that JSON leaves as it is but this one. -/
def tomlSafe (character : Char) : Bool := character.toNat != 0x7f

theorem allows_eq (character : Char) : basicString.allows character = tomlSafe character := by
  by_cases control : character.toNat < 0x20
  · have other : character.toNat ≠ 0x7f := by omega
    simp [QuotedStyle.allows, (escaped_iff character).mpr (.inl control), tomlSafe, other]
  · by_cases delete : character.toNat = 0x7f
    · have unescaped : escaped character = false := by
        rw [← Bool.not_eq_true, escaped_iff]
        rintro (low | rfl | rfl)
        · exact control low
        · exact absurd delete (by decide)
        · exact absurd delete (by decide)
      have notTab : character ≠ '\t' := by
        rintro rfl
        exact absurd delete (by decide)
      simp [QuotedStyle.allows, unescaped, basicString, tomlSafe, delete, notTab]
    · have other : (character.toNat != 0x7f) = true := by simpa using delete
      simp [QuotedStyle.allows, basicString, tomlSafe, other, Nat.not_lt.mp control]

theorem legal_iff (text : String) :
    legal text = true ↔ ∀ character ∈ text.toList, tomlSafe character = true := by
  simp only [legal, List.all_eq_true, allows_eq]

/-- The bytes are a TOML document, and its value is the object of these members in some
order. -/
def Lossless (output : Bytes) (members : List (String × JsonValue)) : Prop :=
  ∃ text : String, decodeUtf8 output = some text ∧
    ∃ read, Toml.parse text.toList = some (.object read) ∧ read.Perm members

theorem lossless_documentText_iff (floatText : UInt64 → List Char)
    {members : List (String × JsonValue)} (canonical : Canonical (.object members)) :
    Lossless (asBytes (String.ofList (documentText floatText members))) members ↔
      (memberTexts members).all legal = true := by
  have parsed := parse_documentText floatText canonical
  simp only [Lossless, decodeUtf8_asBytes, Option.some.injEq, exists_eq_left',
    String.toList_ofList, parsed]
  cases (memberTexts members).all legal with
  | false => simp
  | true =>
      simp only [if_true, Option.some.injEq, JsonValue.object.injEq, exists_eq_left', iff_true]
      exact reordered_perm members

/-- A TOML reader refuses a string with U+007F; without one, every member of the document
is read under its own key and nothing is lost. -/
theorem toml_lossless_iff (floatText : UInt64 → List Char)
    {parse : Bytes → Except String JsonValue} {canonicalBytes : Bytes}
    {members : List (String × JsonValue)} (parsed : parse canonicalBytes = .ok (.object members))
    (canonical : Canonical (.object members)) :
    ∃ output, encodeToml floatText parse canonicalBytes = .ok output ∧
      (Lossless output members ↔
        ∀ text ∈ texts (.object members), ∀ character ∈ text.toList,
          tomlSafe character = true) := by
  refine ⟨asBytes (String.ofList (documentText floatText members)), ?_, ?_⟩
  · exact encodeText_of_parsed parsed (writeToml_eq floatText members)
  · rw [lossless_documentText_iff floatText canonical, texts, List.all_eq_true]
    simp only [legal_iff]

theorem toml_lossless_sample :
    ∃ output, encodeToml (fun _ => []) (sampleParse "\"\\t\u00e9\"" "\t\u00e9")
        (sampleCanonical "\"\\t\u00e9\"") = .ok output ∧
      (Lossless output (sampleMembers "\t\u00e9") ↔
        ∀ text ∈ texts (.object (sampleMembers "\t\u00e9")), ∀ character ∈ text.toList,
          tomlSafe character = true) :=
  toml_lossless_iff (fun _ => []) (if_pos rfl) (sampleMembers_canonical _)

/-- JSON leaves U+007F in a string as it is, and TOML has no raw U+007F. -/
theorem toml_refuses_delete :
    ∃ text : String,
      encodeToml (fun _ => []) (sampleParse "\"a\x7fb\"" "a\x7fb")
        (sampleCanonical "\"a\x7fb\"") = .ok (asBytes text) ∧
      Toml.parse text.toList = none ∧ ¬Lossless (asBytes text) (sampleMembers "a\x7fb") := by
  have canonical := sampleMembers_canonical "a\x7fb"
  have illegal : (memberTexts (sampleMembers "a\x7fb")).all legal = false := by decide +kernel
  refine ⟨String.ofList (documentText (fun _ => []) (sampleMembers "a\x7fb")), ?_, ?_, ?_⟩
  · exact encodeText_of_parsed (if_pos rfl) (writeToml_eq _ _)
  · rw [String.toList_ofList, parse_documentText _ canonical, illegal]
    rfl
  · rw [lossless_documentText_iff _ canonical, illegal]
    exact Bool.false_ne_true

end TomlExport

end ZedRegistry
