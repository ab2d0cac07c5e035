import ZedRegistry.CsvExport
import ZedRegistry.XmlElements

/-!
# The CSV rendering read back

What a reader of RFC 4180 finds in the output of `csv.rs`, and what a spreadsheet
makes of the cells.
-/

set_option autoImplicit false

namespace ZedRegistry

open BoundedOutput

namespace CsvExport

open XmlExport (utf8Length utf8Length_append writeIf)

/-! ## Cells -/

/-- What a field is after it was read back. -/
def cell (value : String) : List Char :=
  if spreadsheetUnsafe value.toList then '\'' :: value.toList else value.toList

theorem fieldText_eq (value : String) :
    fieldText value = if needsQuotes value then Csv.quote (cell value) else value.toList := by
  unfold fieldText cell
  cases spreadsheetUnsafe value.toList <;> rfl

theorem textdata_eq_false {character : Char} (structural : Csv.textdata character = false) :
    character ∈ [',', '"', '\r', '\n'] := by
  by_contra outside
  simp_all [Csv.textdata]

/-- A field goes without quotes where it is harmless and has no mark of the format. -/
theorem needsQuotes_eq_false {value : String} (bare : needsQuotes value = false) :
    spreadsheetUnsafe value.toList = false ∧ value.toList.all Csv.textdata = true := by
  rw [needsQuotes, Bool.or_eq_false_iff, List.any_eq_false] at bare
  refine ⟨bare.1, List.all_eq_true.mpr ?_⟩
  intro character inside
  by_contra structural
  have mark := textdata_eq_false (Bool.eq_false_iff.mpr structural)
  have ascii : character.toNat < 128 := by
    simp only [List.mem_cons, List.not_mem_nil, or_false] at mark
    rcases mark with rfl | rfl | rfl | rfl <;> decide
  apply bare.2 character.toUInt8 ((mem_mark ascii value).mpr inside)
  simp only [List.mem_cons, List.not_mem_nil, or_false] at mark
  rcases mark with rfl | rfl | rfl | rfl <;> decide

theorem fieldText_spells (value : String) : Csv.Spells (fieldText value) (cell value) := by
  rw [fieldText_eq]
  cases quoted : needsQuotes value with
  | true => exact .quoted (cell value)
  | false =>
      obtain ⟨harmless, plain⟩ := needsQuotes_eq_false quoted
      rw [cell, harmless]
      exact .bare value.toList plain

/-! ## The length of a field -/

theorem utf8Length_cons (character : Char) (value : List Char) :
    utf8Length (character :: value) = character.utf8Size + utf8Length value := rfl

theorem utf8Length_quote (value : List Char) :
    utf8Length (Csv.quote value) = utf8Length value + value.count '"' + 2 := by
  have doubled : utf8Length (value.flatMap Csv.double) =
      utf8Length value + value.count '"' := by
    induction value with
    | nil => rfl
    | cons character value inductionHypothesis =>
        rw [List.flatMap_cons, utf8Length_append, inductionHypothesis, utf8Length_cons,
          List.count_cons]
        by_cases mark : character = '"'
        · subst mark
          have quotes : utf8Length (Csv.double '"') = 2 := by decide
          have one : Char.utf8Size '"' = 1 := by decide
          simp only [quotes, one, beq_self_eq_true, if_true]
          omega
        · have same : utf8Length (Csv.double character) = character.utf8Size := by
            simp [Csv.double, mark, utf8Length]
          simp only [same, beq_eq_false_iff_ne.mpr mark, Bool.false_eq_true, if_false]
          omega
  have mark : utf8Length ['"'] = 1 := by decide
  have one : Char.utf8Size '"' = 1 := by decide
  rw [Csv.quote, utf8Length_cons, utf8Length_append, doubled, mark, one]
  omega

theorem utf8Length_cell (value : List Char) (condition : Bool) :
    utf8Length (if condition then '\'' :: value else value) =
      utf8Length value + if condition then 1 else 0 := by
  cases condition with
  | false => rfl
  | true =>
      have one : Char.utf8Size '\'' = 1 := by decide
      simp only [if_true, utf8Length_cons, one]
      omega

theorem count_cell (value : List Char) (condition : Bool) :
    (if condition then '\'' :: value else value).count '"' = value.count '"' := by
  cases condition with
  | false => rfl
  | true => exact List.count_cons_of_ne (by decide)

theorem checkedAdd_next (first second third : Nat) :
    (checkedAdd first second >>= fun sum => checkedAdd sum third) =
      checkedAdd (first + second) third := by
  unfold checkedAdd
  by_cases small : first + second < 2 ^ 64
  · rw [if_pos small]
    rfl
  · rw [if_neg small, if_neg (by omega)]
    rfl

/-- The prediction is the length of what is pushed, unless it overflows. -/
theorem encodedLen_eq (value : String) :
    encodedLen value =
      if utf8Length (fieldText value) < 2 ^ 64 then some (utf8Length (fieldText value))
      else none := by
  have pushed : utf8Length (fieldText value) =
      utf8Length value.toList + value.toList.count '"' +
        (if spreadsheetUnsafe value.toList then 1 else 0) +
        (if needsQuotes value then 2 else 0) := by
    rw [fieldText_eq]
    cases quoted : needsQuotes value with
    | true =>
        rw [if_pos rfl, utf8Length_quote, cell, utf8Length_cell, count_cell]
        simp only [if_true]
        omega
    | false =>
        obtain ⟨harmless, plain⟩ := needsQuotes_eq_false quoted
        have unmarked : value.toList.count '"' = 0 := by
          rw [List.count_eq_zero]
          intro mark
          exact absurd (List.all_eq_true.mp plain _ mark) (by decide)
        simp [harmless, unmarked]
  have chain := checkedAdd_next (utf8Length value.toList) (value.toList.count '"')
    (if spreadsheetUnsafe value.toList then 1 else 0)
  rw [pushed, encodedLen, quoteExpansion, count_mark (by decide), asBytes_length, ← bind_assoc]
  unfold utf8Length at chain ⊢
  rw [chain, checkedAdd_next]
  rfl

/-! ## What the writers write -/

section Writers

variable {limit : UInt64}

/-- Lengths are those of UTF-8. -/
abbrev WritesCsv (limit : UInt64) (write : CsvWriter) (text : List Char) : Prop :=
  Writes Char.utf8Size limit.toNat representationTooLarge write text

theorem ensureRoom_eq (current additional : Nat) :
    ensureRoom limit current additional =
      if current + additional ≤ limit.toNat then .ok () else .error representationTooLarge := by
  have bounded := limit.toNat_lt
  unfold ensureRoom checkedAdd
  by_cases small : current + additional < 2 ^ 64
  · rw [if_pos small]
    rfl
  · rw [if_neg small, if_neg (by omega)]
    rfl

theorem writes_pushBounded (value : String) :
    WritesCsv limit (pushBounded limit value) value.toList := by
  apply writes_checked
  intro output
  simp only [StateT.run, pushBounded, ensureRoom_eq, ← utf8Length_append]
  change _ = if utf8Length (output ++ value.toList) ≤ limit.toNat then _ else _
  split <;> rfl

theorem writes_csvField (value : String) :
    WritesCsv limit (csvField limit value) (fieldText value) := by
  have bounded := limit.toNat_lt
  apply writes_checked
  intro output
  change _ = if utf8Length (output ++ fieldText value) ≤ limit.toNat then _ else _
  simp only [StateT.run, csvField, ensureRoom_eq, encodedLen_eq, utf8Length_append]
  by_cases small : utf8Length (fieldText value) < 2 ^ 64
  · simp only [if_pos small, okOrElse, Option.elim_some, bind, Except.bind]
    by_cases fits : utf8Length output + utf8Length (fieldText value) ≤ limit.toNat
    · simp only [if_pos fits]
      rfl
    · simp only [if_neg fits]
  · rw [if_neg small, if_neg (by omega)]
    rfl

def recordText (fields : List String) : List Char := Csv.spellRecord (fields.map fieldText)

/-- Every field but the first comes after a comma. -/
theorem fields_text (fields : List String) (start : Nat) :
    ((fields.zipIdx start).flatMap fun entry =>
        (if 0 < entry.2 then [','] else []) ++ fieldText entry.1) =
      (if 0 < start ∧ fields ≠ [] then [','] else []) ++
        [','].intercalate (fields.map fieldText) := by
  induction fields generalizing start with
  | nil => simp [List.intercalate]
  | cons field fields inductionHypothesis =>
      rw [List.zipIdx_cons, List.flatMap_cons, inductionHypothesis]
      cases fields with
      | nil => simp [List.intercalate]
      | cons next fields => simp [List.intercalate]

theorem writes_csvRecord {size : Nat} (fields : Vector String size) :
    WritesCsv limit (csvRecord limit fields) (recordText fields.toList) := by
  have each (entry : String × Nat) :
      WritesCsv limit (do writeIf (0 < entry.2) (pushBounded limit ","); csvField limit entry.1)
        ((if 0 < entry.2 then [','] else []) ++ fieldText entry.1) := by
    apply writes_bind _ (writes_csvField entry.1)
    by_cases later : 0 < entry.2
    · simp only [later, writeIf, decide_true, if_true]
      exact writes_pushBounded ","
    · simp only [later, writeIf, decide_false, if_false, Bool.false_eq_true]
      exact writes_nothing
  refine writes_congr (writes_bind (writes_forM each fields.toList.zipIdx)
    (writes_pushBounded "\r\n")) ?_
  rw [fields_text]
  simp [recordText, Csv.spellRecord]

/-! ## The records of a document -/

/-- A record for each node, edge and root. -/
def graphRows (digest schema : String) : DependencyGraphData → List (Vector String 20)
  | .declared package dependencies =>
    [package].map (packageRow digest schema) ++
      dependencies.map (dependencyRow digest schema package)
  | .resolved completeness roots nodes edges _ _ _ =>
    roots.map (rootRow digest schema completeness) ++
      nodes.map (nodeRow digest schema completeness) ++
      edges.map (edgeRow digest schema completeness)

section Rows

variable (document : DependencyGraphDocument)

def dataRows : List (Vector String 20) :=
  graphRows (document.graphDigest.getD "") document.schema document.graph

/-- The text of a document, whatever its size. -/
def rendering : List Char :=
  (csvHeader :: dataRows document).flatMap fun row => recordText row.toList

theorem writes_csvDocument : WritesCsv limit (csvDocument limit document) (rendering document) := by
  have list {α : Type} (row : α → Vector String 20) (items : List α) :
      WritesCsv limit (items.forM fun item => csvRecord limit (row item))
        ((items.map row).flatMap fun row => recordText row.toList) := by
    rw [List.flatMap_map]
    exact writes_forM (fun item => writes_csvRecord (row item)) items
  have graph : WritesCsv limit
      (csvGraph limit (document.graphDigest.getD "") document.schema document.graph)
      ((dataRows document).flatMap fun row => recordText row.toList) := by
    unfold dataRows
    cases document.graph with
    | declared package dependencies =>
        rw [graphRows, List.flatMap_append]
        exact writes_bind (writes_congr (writes_csvRecord _) (by simp)) (list _ dependencies)
    | resolved completeness roots nodes edges _ _ _ =>
        refine writes_congr (writes_bind (list _ roots) (writes_bind (list _ nodes)
          (list _ edges))) ?_
        rw [graphRows, List.flatMap_append, List.flatMap_append, List.append_assoc]
  exact writes_bind (writes_csvRecord csvHeader) graph

end Rows

/-- The output is the whole text, or it would be too large. -/
theorem encode_writes (document : DependencyGraphDocument) :
    encode limit document = .ok (asBytes (String.ofList (rendering document))) ∨
      limit.toNat < utf8Length (rendering document) ∧
        encode limit document = .error representationTooLarge := by
  unfold encode
  rcases @writes_csvDocument limit document [] with written | ⟨tooLong, failed⟩
  · left
    rw [written]
    rfl
  · right
    rw [failed]
    exact ⟨tooLong, rfl⟩

end Writers

/-! ## Formulas -/

/-- What a spreadsheet runs as a formula or breaks a line at. -/
def FormulaLike (text : List Char) : Prop :=
  (∃ first ∈ text.head?, first ∈ ['\t', '\r', '\n']) ∨
    ∃ spaces sign rest, text = spaces ++ sign :: rest ∧ spaces.all isWhitespace = true ∧
      sign ∈ ['=', '+', '-', '@']

/-- A cell holds the field, or an apostrophe and the field. -/
def Neutralizes (value : String) (parsed : List Char) : Prop :=
  FormulaLike value.toList ∧ parsed = '\'' :: value.toList ∨
    ¬FormulaLike value.toList ∧ parsed = value.toList

theorem sign_not_whitespace {sign : Char} (opens : sign ∈ ['=', '+', '-', '@']) :
    isWhitespace sign = false := by
  simp only [List.mem_cons, List.not_mem_nil, or_false] at opens
  rcases opens with rfl | rfl | rfl | rfl <;> rfl

theorem trimStart_sign {text : List Char} {sign : Char} (opens : sign ∈ ['=', '+', '-', '@']) :
    sign ∈ (trimStart text).head? ↔
      ∃ spaces rest, text = spaces ++ sign :: rest ∧ spaces.all isWhitespace = true := by
  unfold trimStart
  constructor
  · intro first
    refine ⟨text.takeWhile isWhitespace, (text.dropWhile isWhitespace).tail, ?_, ?_⟩
    · rw [← List.eq_cons_of_mem_head? first, List.takeWhile_append_dropWhile]
    · exact List.all_takeWhile
  · rintro ⟨spaces, rest, rfl, blank⟩
    rw [List.dropWhile_append_of_pos (List.all_eq_true.mp blank),
      List.dropWhile_cons_of_neg (by rw [sign_not_whitespace opens]; exact Bool.false_ne_true)]
    rfl

theorem spreadsheetUnsafe_iff (text : List Char) :
    spreadsheetUnsafe text = true ↔ FormulaLike text := by
  have lines (first : Char) : opensLine first = true ↔ first ∈ ['\t', '\r', '\n'] := by
    simp [opensLine, or_assoc]
  have signs (sign : Char) : opensFormula sign = true ↔ sign ∈ ['=', '+', '-', '@'] := by
    simp [opensFormula, or_assoc]
  rw [spreadsheetUnsafe, Bool.or_eq_true, Option.any_eq_true, Option.any_eq_true]
  apply or_congr
  · simp only [lines]
    rfl
  · simp only [signs]
    constructor
    · rintro ⟨sign, first, opens⟩
      obtain ⟨spaces, rest, split, blank⟩ := (trimStart_sign opens).mp first
      exact ⟨spaces, sign, rest, split, blank, opens⟩
    · rintro ⟨spaces, sign, rest, split, blank, opens⟩
      exact ⟨sign, (trimStart_sign opens).mpr ⟨spaces, rest, split, blank⟩, opens⟩

theorem cell_neutralizes (value : String) : Neutralizes value (cell value) := by
  unfold Neutralizes cell
  rw [← spreadsheetUnsafe_iff]
  cases spreadsheetUnsafe value.toList with
  | true => exact .inl ⟨rfl, rfl⟩
  | false => exact .inr ⟨Bool.false_ne_true, rfl⟩

theorem apostrophe_harmless (text : List Char) : ¬FormulaLike ('\'' :: text) := by
  rw [← spreadsheetUnsafe_iff]
  exact Bool.false_ne_true

theorem neutralized_harmless {value : String} {parsed : List Char}
    (neutralizes : Neutralizes value parsed) : ¬FormulaLike parsed := by
  rcases neutralizes with ⟨_, rfl⟩ | ⟨harmless, rfl⟩
  · exact apostrophe_harmless value.toList
  · exact harmless

/-! ## The records of a document -/

def nodeCount : DependencyGraphData → Nat
  | .declared _ _ => 1
  | .resolved _ _ nodes _ _ _ _ => nodes.length

def edgeCount : DependencyGraphData → Nat
  | .declared _ dependencies => dependencies.length
  | .resolved _ _ _ edges _ _ _ => edges.length

def rootCount : DependencyGraphData → Nat
  | .declared _ _ => 0
  | .resolved _ roots _ _ _ _ _ => roots.length

/-- The records of one type. -/
def recordsOf (recordType : String) (records : List (List (List Char))) : Nat :=
  records.countP fun record => record.head? = some recordType.toList

def cells (row : Vector String 20) : List (List Char) := row.toList.map cell

theorem recordsOf_append (recordType : String) (left right : List (List (List Char))) :
    recordsOf recordType (left ++ right) =
      recordsOf recordType left + recordsOf recordType right := List.countP_append

/-- All rows of a list are of the one type. -/
theorem recordsOf_map {α : Type} (row : α → Vector String 20) {own : String}
    (typed : ∀ item, (cells (row item)).head? = some own.toList) (recordType : String)
    (items : List α) :
    recordsOf recordType ((items.map row).map cells) =
      if recordType = own then items.length else 0 := by
  unfold recordsOf
  rw [List.countP_map, List.countP_map]
  by_cases same : recordType = own
  · subst same
    rw [if_pos rfl, List.countP_eq_length]
    intro item _
    simp [typed]
  · rw [if_neg same, List.countP_eq_zero]
    intro item _
    simp [typed, String.toList_inj, Ne.symm same]

theorem recordsOf_dataRows (document : DependencyGraphDocument) (recordType : String) :
    recordsOf recordType ((dataRows document).map cells) =
      (if recordType = "root" then rootCount document.graph else 0) +
      (if recordType = "node" then nodeCount document.graph else 0) +
      (if recordType = "edge" then edgeCount document.graph else 0) := by
  have root : cell "root" = "root".toList := by decide
  have node : cell "node" = "node".toList := by decide
  have edge : cell "edge" = "edge".toList := by decide
  unfold dataRows
  generalize document.graphDigest.getD "" = digest
  generalize document.schema = schema
  cases document.graph with
  | declared package dependencies =>
      rw [graphRows, List.map_append, recordsOf_append,
        recordsOf_map (packageRow digest schema) (fun _ => congrArg some node),
        recordsOf_map (dependencyRow digest schema package) fun _ => congrArg some edge]
      simp [nodeCount, edgeCount, rootCount]
  | resolved completeness roots nodes edges _ _ _ =>
      rw [graphRows, List.map_append, List.map_append, recordsOf_append, recordsOf_append,
        recordsOf_map (rootRow digest schema completeness) (fun _ => congrArg some root),
        recordsOf_map (nodeRow digest schema completeness) (fun _ => congrArg some node),
        recordsOf_map (edgeRow digest schema completeness) fun _ => congrArg some edge]
      rfl

theorem length_dataRows (document : DependencyGraphDocument) :
    (dataRows document).length =
      nodeCount document.graph + edgeCount document.graph + rootCount document.graph := by
  unfold dataRows
  cases document.graph with
  | declared package dependencies =>
      simp [graphRows, nodeCount, edgeCount, rootCount, Nat.add_comm]
  | resolved completeness roots nodes edges _ _ _ =>
      simp [graphRows, nodeCount, edgeCount, rootCount]
      omega

theorem parse_rendering (document : DependencyGraphDocument) :
    Csv.parse (rendering document) = some ((csvHeader :: dataRows document).map cells) := by
  apply Csv.parse_file fun row : Vector String 20 => row.toList.map fieldText
  · intro row _ empty
    have length := congrArg List.length empty
    simp at length
  · intro row _
    rw [cells, List.forall₂_map_left_iff, List.forall₂_map_right_iff, List.forall₂_same]
    exact fun value _ => fieldText_spells value

theorem csv_export_well_formed {limit : UInt64} {document : DependencyGraphDocument}
    (small : utf8Length (rendering document) ≤ limit.toNat) :
    ∃ text records, encode limit document = .ok (asBytes text) ∧
      Csv.parse text.toList = some records ∧
      List.Forall₂ (fun row record => List.Forall₂ Neutralizes row.toList record)
        (csvHeader :: dataRows document) records ∧
      (∀ record ∈ records, record.length = csvHeader.toList.length) ∧
      records.length = 1 + nodeCount document.graph + edgeCount document.graph +
        rootCount document.graph ∧
      recordsOf "node" records = nodeCount document.graph ∧
      recordsOf "edge" records = edgeCount document.graph ∧
      recordsOf "root" records = rootCount document.graph ∧
      ∀ record ∈ records, ∀ parsed ∈ record, ¬FormulaLike parsed := by
  have header (recordType : String) (other : cell "record_type" ≠ recordType.toList) :
      recordsOf recordType ((csvHeader :: dataRows document).map cells) =
        recordsOf recordType ((dataRows document).map cells) := by
    apply List.countP_cons_of_neg
    rw [decide_eq_true_eq]
    exact fun same => other (Option.some.inj same)
  have written : encode limit document = .ok (asBytes (String.ofList (rendering document))) := by
    rcases encode_writes document with written | ⟨tooLong, _⟩
    · exact written
    · omega
  refine ⟨String.ofList (rendering document), (csvHeader :: dataRows document).map cells, written,
    ?_, ?_, ?_, ?_, ?_, ?_, ?_, ?_⟩
  · rw [String.toList_ofList]
    exact parse_rendering document
  · rw [List.forall₂_map_right_iff, List.forall₂_same]
    intro row _
    rw [cells, List.forall₂_map_right_iff, List.forall₂_same]
    exact fun value _ => cell_neutralizes value
  · rw [List.forall_mem_map]
    intro row _
    simp [cells]
  · rw [List.length_map, List.length_cons, length_dataRows]
    omega
  · rw [header "node" (by decide), recordsOf_dataRows]
    simp
  · rw [header "edge" (by decide), recordsOf_dataRows]
    simp
  · rw [header "root" (by decide), recordsOf_dataRows]
    simp
  · rw [List.forall_mem_map]
    intro row _
    rw [cells, List.forall_mem_map]
    exact fun value _ => neutralized_harmless (cell_neutralizes value)

def sampleDocument : DependencyGraphDocument where
  schema := "zpkg/dependency-graph/v1"
  graph := .declared ⟨"zpkg", "acme", "app", "1.0.0"⟩
    [⟨"zpkg", "acme", " =cmd\"", "^2, >=2.1\nnext", .runtime, true, false, ["tls"], none⟩]
  graphDigest := none

theorem csv_export_well_formed_sample :
    ∃ text records, encode 33554432 sampleDocument = .ok (asBytes text) ∧
      Csv.parse text.toList = some records ∧ records.length = 3 := by
  obtain ⟨text, records, written, parsed, _, _, counted, _⟩ :=
    @csv_export_well_formed 33554432 sampleDocument (by decide +kernel)
  exact ⟨text, records, written, parsed, counted⟩

end CsvExport

end ZedRegistry
