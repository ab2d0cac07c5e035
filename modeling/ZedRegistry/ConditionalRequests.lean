import ZedRegistry.ArtifactStore
import ZedRegistry.GraphDisclosure
import ZedRegistry.Lib.Delimiters

/-!
# Conditional requests

The `If-None-Match` fields of RFC 9110, and when the comma split of
`if_none_match_matches` agrees with them: a quoted tag may hold commas, and a line with
a byte past ASCII is not read at all.
-/

set_option autoImplicit false

namespace ZedRegistry

/-! ## The field -/

/-- `etagc`: any visible byte but the double quote, and the bytes past ASCII. -/
def isEtagc (byte : UInt8) : Bool :=
  byte = 0x21 || (0x23 ≤ byte && byte ≤ 0x7E) || 0x80 ≤ byte

structure EntityTag where
  weak : Bool
  content : Bytes
  valid : content.all isEtagc = true

/-- Optional white space. -/
abbrev Blanks := { bytes : Bytes // bytes.all fun byte => byte = 0x20 || byte = 0x09 }

/-- A member of the list; a recipient accepts empty ones. -/
structure ListMember where
  before : Blanks
  tag : Option EntityTag
  after : Blanks

structure FieldLine where
  first : ListMember
  more : List ListMember

/-- A well-formed `If-None-Match`: a lone `*`, or tags over any number of lines. -/
inductive IfNoneMatchField where
  | any (before after : Blanks)
  | listed (lines : List FieldLine)

def EntityTag.weakness (tag : EntityTag) : Bytes := if tag.weak then [0x57, 0x2F] else []

def EntityTag.bytes (tag : EntityTag) : Bytes :=
  tag.weakness ++ 0x22 :: (tag.content ++ [0x22])

def ListMember.bytes (member : ListMember) : Bytes :=
  member.before.val ++ member.tag.elim [] EntityTag.bytes ++ member.after.val

namespace FieldLine

def members (line : FieldLine) : List ListMember := line.first :: line.more

def bytes (line : FieldLine) : Bytes :=
  line.first.bytes ++ line.more.flatMap fun member => 0x2C :: member.bytes

end FieldLine

def IfNoneMatchField.lines : IfNoneMatchField → List Bytes
  | .any before after => [before.val ++ 0x2A :: after.val]
  | .listed lines => lines.map FieldLine.bytes

/-! ## What the field names -/

def latin (bytes : Bytes) : List Char := bytes.map fun byte => Char.ofNat byte.toNat

/-- Weak comparison: the quoted parts are the same. -/
def FieldLine.Names (line : FieldLine) (digest : String) : Prop :=
  ∃ member ∈ line.members, ∃ tag ∈ member.tag, latin tag.content = digest.toList

def IfNoneMatchField.Names (digest : String) : IfNoneMatchField → Prop
  | .any _ _ => True
  | .listed lines => ∃ line ∈ lines, line.Names digest

/-! ## What the split sees -/

/-- `*` stands between two commas of the quoted part. -/
def EntityTag.HoldsStar (tag : EntityTag) : Prop :=
  ∃ early late, tag.content = early ++ 0x2C :: ([0x2A] ++ 0x2C :: late)

def FieldLine.HoldsStar (line : FieldLine) : Prop :=
  ∃ member ∈ line.members, ∃ tag ∈ member.tag, tag.HoldsStar

def isVisibleAscii (byte : UInt8) : Bool := (0x20 ≤ byte && byte < 0x7F) || byte = 0x09

def FieldLine.Readable (line : FieldLine) : Prop := line.bytes.all isVisibleAscii = true

/-- A named tag stands on a line that is read, or such a line holds a star; and where no
tag is named, no such line holds one. -/
def IfNoneMatchField.ReadExactly (digest : String) : IfNoneMatchField → Prop
  | .any _ _ => True
  | .listed lines =>
      ((∃ line ∈ lines, line.Names digest) →
        ∃ line ∈ lines, line.Readable ∧ (line.Names digest ∨ line.HoldsStar)) ∧
      ((∀ line ∈ lines, ¬line.Names digest) →
        ∀ line ∈ lines, line.Readable → ¬line.HoldsStar)

/-- `HeaderValue::to_str`. -/
structure ReadsVisibleAscii (toStr : Bytes → Option String) : Prop where
  visible : ∀ bytes, bytes.all isVisibleAscii = true →
    toStr bytes = some (String.ofList (latin bytes))
  other : ∀ bytes, bytes.all isVisibleAscii = false → toStr bytes = none

/-! ## Characters -/

theorem toNat_latin (byte : UInt8) : (Char.ofNat byte.toNat).toNat = byte.toNat := by
  have small := byte.toNat_lt
  have valid : byte.toNat.isValidChar := Or.inl (by omega)
  rw [Char.ofNat, dif_pos valid]
  rfl

theorem latin_append (early late : Bytes) : latin (early ++ late) = latin early ++ latin late :=
  List.map_append

theorem mem_latin {bytes : Bytes} {char : Char} (member : char ∈ latin bytes) :
    ∃ byte ∈ bytes, char.toNat = byte.toNat := by
  obtain ⟨byte, inBytes, rfl⟩ := List.mem_map.mp member
  exact ⟨byte, inBytes, toNat_latin byte⟩

/-- No character of a tag is a quote, and none is white space. -/
theorem etagc_char {content : Bytes} (valid : content.all isEtagc = true) {char : Char}
    (member : char ∈ latin content) : char ≠ '"' ∧ char.isWhitespace = false := by
  obtain ⟨byte, inContent, code⟩ := mem_latin member
  have allowed := List.all_eq_true.mp valid byte inContent
  simp only [isEtagc, Bool.or_eq_true, Bool.and_eq_true, decide_eq_true_eq, UInt8.le_iff_toNat_le,
    ← UInt8.toNat_inj] at allowed
  have bounds : byte.toNat = 33 ∨ 35 ≤ byte.toNat ∧ byte.toNat ≤ 126 ∨ 128 ≤ byte.toNat := by
    rcases allowed with (low | visible) | high
    · exact Or.inl low
    · exact Or.inr (Or.inl visible)
    · exact Or.inr (Or.inr high)
  constructor
  · intro quote
    rw [quote] at code
    have value : ('"').toNat = 34 := rfl
    omega
  · rw [Bool.eq_false_iff]
    intro white
    simp only [Char.isWhitespace, Bool.or_eq_true, decide_eq_true_eq] at white
    rcases white with ((space | tab) | carriage) | newline
    · rw [space] at code
      have value : (' ').toNat = 32 := rfl
      omega
    · rw [tab] at code
      have value : ('\t').toNat = 9 := rfl
      omega
    · rw [carriage] at code
      have value : ('\r').toNat = 13 := rfl
      omega
    · rw [newline] at code
      have value : ('\n').toNat = 10 := rfl
      omega

theorem blanks_char (blanks : Blanks) {char : Char} (member : char ∈ latin blanks.val) :
    char.isWhitespace = true := by
  obtain ⟨byte, inBlanks, rfl⟩ := List.mem_map.mp member
  have allowed := List.all_eq_true.mp blanks.property byte inBlanks
  simp only [Bool.or_eq_true, decide_eq_true_eq] at allowed
  rcases allowed with rfl | rfl
  · rfl
  · rfl

theorem trimText_between {before text after : List Char}
    (leading : ∀ char ∈ before, char.isWhitespace = true)
    (trailing : ∀ char ∈ after, char.isWhitespace = true)
    (first : Delimiters.Stops Char.isWhitespace text)
    (last : Delimiters.Stops Char.isWhitespace text.reverse) (nonempty : text ≠ []) :
    trimText (before ++ text ++ after) = text := by
  have start : Delimiters.Stops Char.isWhitespace (text ++ after) := by
    cases text with
    | nil => exact absurd rfl nonempty
    | cons head tail => exact first
  have trailing' : ∀ char ∈ after.reverse, char.isWhitespace = true := by
    intro char member
    exact trailing char (List.mem_reverse.mp member)
  unfold trimText
  rw [List.append_assoc, Delimiters.dropWhile_front leading start, List.reverse_append,
    Delimiters.dropWhile_front trailing' last, List.reverse_reverse]

theorem dropWhile_count (text : List Char) {char : Char} (visible : char.isWhitespace = false) :
    (text.dropWhile Char.isWhitespace).count char = text.count char := by
  have none : (text.takeWhile Char.isWhitespace).count char = 0 := by
    rw [List.count_eq_zero]
    intro member
    have white := List.mem_takeWhile_imp member
    rw [visible] at white
    cases white
  have split : text.count char = (text.takeWhile Char.isWhitespace).count char +
      (text.dropWhile Char.isWhitespace).count char := by
    rw [← List.count_append, List.takeWhile_append_dropWhile]
  omega

/-- Trimming keeps every visible character. -/
theorem count_trimText (text : List Char) {char : Char} (visible : char.isWhitespace = false) :
    (trimText text).count char = text.count char := by
  unfold trimText
  rw [List.count_reverse, dropWhile_count _ visible, List.count_reverse, dropWhile_count _ visible]

/-! ## One piece of the split -/

/-- The test of `if_none_match_matches` on one piece. -/
def PieceMatches (etag piece : List Char) : Prop :=
  trimText piece = ['*'] ∨ ((trimText piece).dropPrefix? "W/".toList).getD (trimText piece) = etag

theorem ifNoneMatchMatches_iff (lines : List (Option String)) (etag : String) :
    ifNoneMatchMatches lines etag = true ↔
      ∃ text, some text ∈ lines ∧ ∃ piece ∈ text.toList.splitOn ',',
        PieceMatches etag.toList piece := by
  unfold ifNoneMatchMatches PieceMatches
  rw [List.any_eq_true]
  simp only [List.mem_flatMap, List.mem_filterMap, id_eq, Bool.or_eq_true, decide_eq_true_eq]
  constructor
  · rintro ⟨piece, ⟨text, ⟨line, inLines, rfl⟩, inText⟩, passes⟩
    exact ⟨text, inLines, piece, inText, passes⟩
  · rintro ⟨text, inLines, piece, inText, passes⟩
    exact ⟨piece, ⟨text, ⟨some text, inLines, rfl⟩, inText⟩, passes⟩

/-- A quoted text without and with the mark of weakness. -/
def quoted (weakness digest : List Char) : List Char := weakness ++ '"' :: (digest ++ ['"'])

theorem stripped_quoted {weak : Bool} (digest : List Char) :
    ((quoted (if weak then ['W', '/'] else []) digest).dropPrefix? "W/".toList).getD
      (quoted (if weak then ['W', '/'] else []) digest) = quoted [] digest := by
  cases weak with
  | true => rfl
  | false => rfl

theorem PieceMatches.cases {digest piece : List Char}
    (matched : PieceMatches (quoted [] digest) piece) :
    trimText piece = ['*'] ∨ ∃ weak : Bool,
      trimText piece = quoted (if weak then ['W', '/'] else []) digest := by
  rcases matched with star | same
  · exact Or.inl star
  · right
    cases stripped : (trimText piece).dropPrefix? "W/".toList with
    | none =>
        rw [stripped] at same
        exact ⟨false, same⟩
    | some rest =>
        rw [stripped] at same
        obtain ⟨mark, split, marked⟩ := List.dropPrefix?_eq_some_iff.mp stripped
        refine ⟨true, ?_⟩
        rw [split, eq_of_beq marked, show rest = quoted [] digest from same]
        rfl

theorem quote_visible : ('"').isWhitespace = false := by decide

theorem count_quoted {weak : Bool} {digest : List Char} (plain : '"' ∉ digest) :
    (quoted (if weak then ['W', '/'] else []) digest).count '"' = 2 := by
  have none : digest.count '"' = 0 := List.count_eq_zero.mpr plain
  cases weak with
  | true => simp [quoted, none]
  | false => simp [quoted, none]

/-- What matches is a star without quotes or a text with two of them. -/
theorem PieceMatches.count {digest piece : List Char} (plain : '"' ∉ digest)
    (matched : PieceMatches (quoted [] digest) piece) :
    trimText piece = ['*'] ∧ piece.count '"' = 0 ∨ piece.count '"' = 2 := by
  rw [← count_trimText piece quote_visible]
  rcases matched.cases with star | ⟨weak, same⟩
  · rw [star]
    exact Or.inl ⟨rfl, rfl⟩
  · rw [same]
    exact Or.inr (count_quoted plain)

/-! ## One member of the list -/

section Member

variable {digest : String}

def EntityTag.mark (tag : EntityTag) : List Char := if tag.weak then ['W', '/'] else []

theorem latin_bytes (tag : EntityTag) : latin tag.bytes = quoted tag.mark (latin tag.content) := by
  have content : latin (0x22 :: (tag.content ++ [0x22])) = '"' :: (latin tag.content ++ ['"']) :=
    congrArg (List.cons '"') (latin_append tag.content [0x22])
  unfold EntityTag.bytes EntityTag.weakness EntityTag.mark quoted
  rw [latin_append, content]
  cases tag.weak with
  | true => rfl
  | false => rfl

theorem mark_stops (tag : EntityTag) :
    Delimiters.Stops Char.isWhitespace (latin tag.bytes) := by
  rw [latin_bytes, EntityTag.mark, quoted]
  cases tag.weak with
  | true => exact Delimiters.stops_cons (by decide)
  | false => exact Delimiters.stops_cons (by decide)

theorem end_stops (tag : EntityTag) :
    Delimiters.Stops Char.isWhitespace (latin tag.bytes).reverse := by
  rw [latin_bytes, quoted, ← List.cons_append, ← List.append_assoc, List.reverse_concat']
  exact Delimiters.stops_cons (by decide)

theorem trimText_member {member : ListMember} {tag : EntityTag} (tagged : member.tag = some tag) :
    trimText (latin member.bytes) = latin tag.bytes := by
  have nonempty : latin tag.bytes ≠ [] := by
    rw [latin_bytes, quoted]
    simp
  rw [ListMember.bytes, latin_append, latin_append, tagged]
  exact trimText_between (fun _ => blanks_char member.before) (fun _ => blanks_char member.after)
    (mark_stops tag) (end_stops tag) nonempty

theorem byte_of_latin {byte : UInt8} {char : Char} (same : Char.ofNat byte.toNat = char)
    (code : UInt8) (known : Char.ofNat code.toNat = char) : byte = code :=
  byteChar_injective (same.trans known.symm)

theorem holdsStar_iff {tag : EntityTag} :
    tag.HoldsStar ↔
      ∃ early late, latin tag.content = early ++ ',' :: (['*'] ++ ',' :: late) := by
  constructor
  · rintro ⟨early, late, content⟩
    refine ⟨latin early, latin late, ?_⟩
    rw [content, latin_append]
    rfl
  · rintro ⟨early, late, content⟩
    obtain ⟨front, rest, split, rfl, tail⟩ := List.map_eq_append_iff.mp content
    obtain ⟨comma, rest, rfl, isComma, tail⟩ := List.map_eq_cons_iff.mp tail
    obtain ⟨star, rest, rfl, isStar, tail⟩ := List.map_eq_cons_iff.mp tail
    obtain ⟨second, back, rfl, isSecond, _⟩ := List.map_eq_cons_iff.mp tail
    obtain rfl := byte_of_latin isComma 0x2C rfl
    obtain rfl := byte_of_latin isStar 0x2A rfl
    obtain rfl := byte_of_latin isSecond 0x2C rfl
    exact ⟨front, back, split⟩

theorem blanks_absent (blanks : Blanks) {char : Char} (visible : char.isWhitespace = false) :
    char ∉ latin blanks.val := by
  intro member
  have white := blanks_char blanks member
  rw [visible] at white
  cases white

theorem comma_visible : (',').isWhitespace = false := by decide

/-- The text of a member around the quoted part. -/
theorem latin_member {member : ListMember} {tag : EntityTag} (tagged : member.tag = some tag) :
    latin member.bytes = (latin member.before.val ++ (tag.mark ++ ['"'])) ++ latin tag.content ++
      ('"' :: latin member.after.val) := by
  have tagBytes := latin_bytes tag
  rw [ListMember.bytes, latin_append, latin_append, tagged, Option.elim_some, tagBytes, quoted]
  simp

theorem front_plain (member : ListMember) (tag : EntityTag) :
    ',' ∉ latin member.before.val ++ (tag.mark ++ ['"']) ∧
      (latin member.before.val ++ (tag.mark ++ ['"'])).count '"' = 1 := by
  have noComma := blanks_absent member.before comma_visible
  have noQuote := List.count_eq_zero.mpr (blanks_absent member.before quote_visible)
  unfold EntityTag.mark
  cases tag.weak with
  | true => simp [noComma, noQuote]
  | false => simp [noComma, noQuote]

theorem back_plain (member : ListMember) :
    ',' ∉ '"' :: latin member.after.val ∧ ('"' :: latin member.after.val).count '"' = 1 := by
  have noComma := blanks_absent member.after comma_visible
  have noQuote := List.count_eq_zero.mpr (blanks_absent member.after quote_visible)
  simp [noComma, noQuote]

theorem content_plain (tag : EntityTag) : '"' ∉ latin tag.content :=
  fun member => (etagc_char tag.valid member).1 rfl

theorem trimText_visible {text : List Char} (visible : ∀ char ∈ text, char.isWhitespace = false)
    (nonempty : text ≠ []) : trimText text = text := by
  have stops : ∀ other : List Char, (∀ char ∈ other, char.isWhitespace = false) →
      Delimiters.Stops Char.isWhitespace other :=
    fun other plain char first => plain char (List.mem_of_mem_head? first)
  have trimmed := @trimText_between [] text [] (List.forall_mem_nil _)
    (List.forall_mem_nil _) (stops text visible)
    (stops text.reverse fun char member => visible char (List.mem_reverse.mp member)) nonempty
  simpa using trimmed

/-- A star seen by the split is a star between two commas. -/
theorem holdsStar_of_piece {tag : EntityTag} {early piece late : List Char}
    (split : latin tag.content = early ++ ',' :: (piece ++ ',' :: late))
    (star : trimText piece = ['*']) : tag.HoldsStar := by
  have visible : ∀ char ∈ piece, char.isWhitespace = false := by
    intro char member
    apply (etagc_char tag.valid _).2
    rw [split]
    exact List.mem_append_right _ (List.mem_cons_of_mem _ (List.mem_append_left _ member))
  have nonempty : piece ≠ [] := by
    rintro rfl
    cases star
  rw [trimText_visible visible nonempty] at star
  rw [star] at split
  exact holdsStar_iff.mpr ⟨early, late, split⟩

theorem quoted_injective {left right : Bool} {first second : List Char}
    (same : quoted (if left then ['W', '/'] else []) first =
      quoted (if right then ['W', '/'] else []) second) : first = second := by
  unfold quoted at same
  cases left with
  | true =>
      cases right with
      | true => simpa using same
      | false => simp at same
  | false =>
      cases right with
      | true => simp at same
      | false => simpa using same

/-- A digest is neither quoted nor listed. -/
def Unquoted (digest : String) : Prop := '"' ∉ digest.toList ∧ ',' ∉ digest.toList

theorem unquoted_of_hex (hex : isSha256Hex digest = true) : Unquoted digest := by
  unfold isSha256Hex at hex
  have allowed := List.all_eq_true.mp (Bool.and_eq_true_iff.mp hex).2
  constructor
  · intro member
    have refused := allowed _ member
    revert refused
    decide
  · intro member
    have refused := allowed _ member
    revert refused
    decide

theorem tag_matches (plain : Unquoted digest) {member : ListMember} {tag : EntityTag} (tagged : member.tag = some tag)
    {piece : List Char} (found : piece ∈ (latin member.bytes).splitOn ',')
    (matched : PieceMatches (quoted [] digest.toList) piece) :
    latin tag.content = digest.toList ∨ tag.HoldsStar := by
  have front := front_plain member tag
  have back := back_plain member
  have noQuote : (latin tag.content).count '"' = 0 :=
    List.count_eq_zero.mpr (content_plain tag)
  have counted := matched.count plain.1
  have whole := latin_member tagged
  rw [whole] at found
  cases Delimiters.piece_of_mem_splitOn front.1 back.1 found with
  | whole free =>
      left
      rw [← whole] at matched counted
      rcases matched.cases with star | ⟨weak, same⟩
      · rw [whole, List.count_append, List.count_append, front.2, back.2, noQuote] at counted
        rw [trimText_member tagged, latin_bytes] at star
        have length := congrArg List.length star
        simp [quoted] at length
        omega
      · rw [trimText_member tagged, latin_bytes] at same
        exact quoted_injective same
  | first start rest split =>
      have none : start.count '"' = 0 := by
        rw [split, List.count_append] at noQuote
        omega
      rw [List.count_append, front.2, none] at counted
      omega
  | last rest finish split =>
      have none : finish.count '"' = 0 := by
        rw [split, List.count_append, List.count_cons] at noQuote
        omega
      rw [List.count_append, back.2, none] at counted
      omega
  | middle early _ late split =>
      have none : piece.count '"' = 0 := by
        rw [split, List.count_append, List.count_cons, List.count_append] at noQuote
        omega
      rcases counted with ⟨star, _⟩ | two
      · exact Or.inr (holdsStar_of_piece split star)
      · omega

/-- A named tag is one piece, and a star between two commas is another. -/
theorem tag_found (plain : Unquoted digest) {member : ListMember} {tag : EntityTag}
    (tagged : member.tag = some tag)
    (named : latin tag.content = digest.toList ∨ tag.HoldsStar) :
    ∃ piece ∈ (latin member.bytes).splitOn ',', PieceMatches (quoted [] digest.toList) piece := by
  rcases named with same | star
  · have free : ',' ∉ latin member.bytes := by
      rw [latin_member tagged, List.mem_append, List.mem_append, not_or, not_or, same]
      exact ⟨⟨(front_plain member tag).1, plain.2⟩, (back_plain member).1⟩
    refine ⟨latin member.bytes, ?_, Or.inr ?_⟩
    · rw [List.splitOn_eq_singleton free]
      exact List.mem_singleton_self _
    · rw [trimText_member tagged, latin_bytes, same]
      exact stripped_quoted digest.toList
  · obtain ⟨early, late, content⟩ := holdsStar_iff.mp star
    refine ⟨['*'], ?_, Or.inl rfl⟩
    have whole : latin member.bytes =
        (latin member.before.val ++ (tag.mark ++ ['"']) ++ early) ++
          ',' :: (['*'] ++ ',' :: (late ++ '"' :: latin member.after.val)) := by
      rw [latin_member tagged, content]
      simp
    rw [whole]
    exact Delimiters.mem_splitOn_middle _ _ _ (by decide)

theorem blank_matches {member : ListMember} (untagged : member.tag = none) {piece : List Char}
    (plain : Unquoted digest) (found : piece ∈ (latin member.bytes).splitOn ',')
    (matched : PieceMatches (quoted [] digest.toList) piece) : False := by
  have bytes : latin member.bytes = latin member.before.val ++ latin member.after.val := by
    rw [ListMember.bytes, untagged, Option.elim_none, List.append_nil, latin_append]
  have absent : ∀ char : Char, char.isWhitespace = false → char ∉ latin member.bytes := by
    intro char visible
    rw [bytes, List.mem_append, not_or]
    exact ⟨blanks_absent member.before visible, blanks_absent member.after visible⟩
  rw [List.splitOn_eq_singleton (absent _ comma_visible), List.mem_singleton] at found
  subst found
  have noQuote := List.count_eq_zero.mpr (absent _ quote_visible)
  rcases matched.count plain.1 with ⟨star, _⟩ | two
  · have stars := count_trimText (latin member.bytes) (show ('*').isWhitespace = false by decide)
    rw [star, List.count_eq_zero.mpr (absent _ (by decide))] at stars
    exact absurd stars (by decide)
  · omega

theorem member_matches_iff (plain : Unquoted digest) (member : ListMember) :
    (∃ piece ∈ (latin member.bytes).splitOn ',', PieceMatches (quoted [] digest.toList) piece) ↔
      ∃ tag ∈ member.tag, latin tag.content = digest.toList ∨ tag.HoldsStar := by
  constructor
  · rintro ⟨piece, found, matched⟩
    cases tagged : member.tag with
    | none => exact (blank_matches tagged plain found matched).elim
    | some tag => exact ⟨tag, rfl, tag_matches plain tagged found matched⟩
  · rintro ⟨tag, tagged, named⟩
    exact tag_found plain tagged named

end Member

/-! ## A line and a field -/

section Field

variable {digest : String}

theorem splitOn_line (first : ListMember) (more : List ListMember) :
    (latin (FieldLine.mk first more).bytes).splitOn ',' =
      (first :: more).flatMap fun member => (latin member.bytes).splitOn ',' := by
  induction more generalizing first with
  | nil => simp [FieldLine.bytes]
  | cons second more ih =>
      have joined : latin (FieldLine.mk first (second :: more)).bytes =
          latin first.bytes ++ ',' :: latin (FieldLine.mk second more).bytes := by
        unfold FieldLine.bytes
        rw [List.flatMap_cons, latin_append]
        rfl
      rw [joined, List.splitOn_append_cons_self, ih]
      rfl

theorem line_matches_iff (plain : Unquoted digest) (line : FieldLine) :
    (∃ piece ∈ (latin line.bytes).splitOn ',', PieceMatches (quoted [] digest.toList) piece) ↔
      line.Names digest ∨ line.HoldsStar := by
  rw [splitOn_line line.first line.more]
  have members : (∃ piece ∈ line.members.flatMap fun member => (latin member.bytes).splitOn ',',
        PieceMatches (quoted [] digest.toList) piece) ↔
      ∃ member ∈ line.members, ∃ tag ∈ member.tag,
        latin tag.content = digest.toList ∨ tag.HoldsStar := by
    simp only [List.mem_flatMap, ← member_matches_iff plain]
    constructor
    · rintro ⟨piece, ⟨member, listed, found⟩, matched⟩
      exact ⟨member, listed, piece, found, matched⟩
    · rintro ⟨member, listed, piece, found, matched⟩
      exact ⟨piece, ⟨member, listed, found⟩, matched⟩
  refine members.trans ?_
  unfold FieldLine.Names FieldLine.HoldsStar
  constructor
  · rintro ⟨member, listed, tag, tagged, named | star⟩
    · exact Or.inl ⟨member, listed, tag, tagged, named⟩
    · exact Or.inr ⟨member, listed, tag, tagged, star⟩
  · rintro (⟨member, listed, tag, tagged, named⟩ | ⟨member, listed, tag, tagged, star⟩)
    · exact ⟨member, listed, tag, tagged, Or.inl named⟩
    · exact ⟨member, listed, tag, tagged, Or.inr star⟩

variable {toStr : Bytes → Option String}

theorem ReadsVisibleAscii.eq_some (reads : ReadsVisibleAscii toStr) {bytes : Bytes}
    {text : String} : toStr bytes = some text ↔
      bytes.all isVisibleAscii = true ∧ text.toList = latin bytes := by
  cases visible : bytes.all isVisibleAscii with
  | true =>
      rw [reads.visible bytes visible, Option.some.injEq]
      constructor
      · rintro rfl
        exact ⟨rfl, String.toList_ofList⟩
      · intro same
        rw [← same.2, String.ofList_toList]
  | false =>
      rw [reads.other bytes visible]
      simp

/-- The code answers a list by the lines it reads: a named tag or a star. -/
theorem listed_matches_iff (reads : ReadsVisibleAscii toStr) (plain : Unquoted digest)
    (lines : List FieldLine) :
    ifNoneMatchMatches ((IfNoneMatchField.listed lines).lines.map toStr)
        ("\"" ++ digest ++ "\"") = true ↔
      ∃ line ∈ lines, line.Readable ∧ (line.Names digest ∨ line.HoldsStar) := by
  have etag : ("\"" ++ digest ++ "\"").toList = quoted [] digest.toList := by
    rw [String.toList_append, String.toList_append]
    rfl
  rw [ifNoneMatchMatches_iff, etag]
  constructor
  · rintro ⟨text, inLines, matched⟩
    obtain ⟨bytes, listed, read⟩ := List.mem_map.mp inLines
    obtain ⟨line, inField, rfl⟩ := List.mem_map.mp listed
    obtain ⟨readable, same⟩ := reads.eq_some.mp read
    rw [same] at matched
    exact ⟨line, inField, readable, (line_matches_iff plain line).mp matched⟩
  · rintro ⟨line, inField, readable, named⟩
    have read := reads.visible line.bytes readable
    refine ⟨_, List.mem_map.mpr ⟨line.bytes, List.mem_map_of_mem inField, read⟩, ?_⟩
    rw [String.toList_ofList]
    exact (line_matches_iff plain line).mpr named

theorem any_matches (reads : ReadsVisibleAscii toStr) (before after : Blanks) (etag : String) :
    ifNoneMatchMatches ((IfNoneMatchField.any before after).lines.map toStr) etag = true := by
  have blank : ∀ blanks : Blanks, blanks.val.all isVisibleAscii = true := by
    intro blanks
    apply List.all_eq_true.mpr
    intro byte member
    have allowed := List.all_eq_true.mp blanks.property byte member
    simp only [Bool.or_eq_true, decide_eq_true_eq] at allowed
    rcases allowed with rfl | rfl
    · rfl
    · rfl
  have readable : (before.val ++ 0x2A :: after.val).all isVisibleAscii = true := by
    rw [List.all_append, List.all_cons, blank before, blank after]
    rfl
  have text : latin (before.val ++ 0x2A :: after.val) =
      latin before.val ++ ['*'] ++ latin after.val := by
    rw [latin_append, List.append_assoc]
    rfl
  have free : ',' ∉ latin before.val ++ ['*'] ++ latin after.val := by
    simp [blanks_absent before comma_visible, blanks_absent after comma_visible]
  rw [ifNoneMatchMatches_iff]
  refine ⟨_, List.mem_map.mpr ⟨_, List.mem_singleton_self _, reads.visible _ readable⟩, ?_⟩
  rw [String.toList_ofList, text, List.splitOn_eq_singleton free]
  refine ⟨_, List.mem_singleton_self _, Or.inl ?_⟩
  exact trimText_between (fun _ => blanks_char before) (fun _ => blanks_char after)
    (Delimiters.stops_cons (by decide)) (Delimiters.stops_cons (by decide)) (by decide)

/-- When the code's answer is the field's. -/
theorem matches_exact_iff (reads : ReadsVisibleAscii toStr) (plain : Unquoted digest)
    (field : IfNoneMatchField) :
    (ifNoneMatchMatches (field.lines.map toStr) ("\"" ++ digest ++ "\"") = true ↔
        field.Names digest) ↔ field.ReadExactly digest := by
  cases field with
  | any before after =>
      have passes := any_matches reads before after ("\"" ++ digest ++ "\"")
      rw [passes]
      exact ⟨fun _ => trivial, fun _ => ⟨fun _ => trivial, fun _ => rfl⟩⟩
  | listed lines =>
      rw [listed_matches_iff reads plain]
      unfold IfNoneMatchField.Names IfNoneMatchField.ReadExactly
      constructor
      · intro exact
        refine ⟨exact.mpr, ?_⟩
        intro unnamed line inField readable star
        obtain ⟨other, otherField, named⟩ := exact.mp ⟨line, inField, readable, Or.inr star⟩
        exact unnamed other otherField named
      · rintro ⟨found, starless⟩
        refine ⟨?_, found⟩
        rintro ⟨line, inField, readable, named | star⟩
        · exact ⟨line, inField, named⟩
        · by_contra unnamed
          push Not at unnamed
          exact starless unnamed line inField readable star

end Field

/-! ## The routes -/

section Routes

variable {I : Interfaces}

def quotedEtag (digest : String) : String := "\"" ++ digest ++ "\""

/-- The answer names the ETag of the selected representation, and agrees with the field
exactly when the code reads the field as it is meant. -/
def AnswersExactly (field : IfNoneMatchField) (response : Response) : Prop :=
  ∃ digest, response.headers.lookup "etag" = some (quotedEtag digest) ∧
    ((response.status = 304 ↔ field.Names digest) ↔ field.ReadExactly digest)

theorem respond_answers {contract : GraphContract I} {headers : GraphHeaders}
    {representation : Representation} {document : DependencyGraphDocument} {body : Bytes}
    {stem : String} {access : DeclaredGraphAccess} {response : Response}
    (answered : respond contract headers representation document body stem access =
      .ok response) :
    response.headers.lookup "etag" = some (quotedEtag (I.sha256 body)) ∧
      (response.status = 304 ↔
        ifNoneMatchMatches headers.ifNoneMatch (quotedEtag (I.sha256 body)) = true) := by
  unfold respond at answered
  obtain ⟨_, _, answered⟩ := bind_ok.mp answered
  obtain ⟨graphDigest, _, answered⟩ := bind_ok.mp answered
  obtain ⟨metadata, written, answered⟩ := bind_ok.mp answered
  rw [List.mapM_cons] at written
  obtain ⟨first, checked, written⟩ := bind_ok.mp written
  obtain ⟨others, _, written⟩ := bind_ok.mp written
  obtain ⟨_, _, named⟩ := bind_ok.mp checked
  obtain rfl := Except.ok.inj named
  obtain rfl := Except.ok.inj written
  dsimp only at answered
  by_cases matched : ifNoneMatchMatches headers.ifNoneMatch (quotedEtag (I.sha256 body)) = true
  · have taken := matched
    unfold quotedEtag at taken
    rw [if_pos taken] at answered
    obtain rfl := Except.ok.inj answered
    exact ⟨rfl, fun _ => matched, fun _ => rfl⟩
  · have taken := matched
    unfold quotedEtag at taken
    rw [if_neg taken] at answered
    obtain ⟨contentType, _, answered⟩ := bind_ok.mp answered
    obtain rfl := Except.ok.inj answered
    refine ⟨rfl, ?_, fun passes => absurd passes matched⟩
    intro status
    cases status

theorem respond_exact (hex : ∀ bytes, isSha256Hex (I.sha256 bytes) = true)
    {toStr : Bytes → Option String} (reads : ReadsVisibleAscii toStr) {field : IfNoneMatchField}
    {contract : GraphContract I} {headers : GraphHeaders}
    (sent : headers.ifNoneMatch = field.lines.map toStr) {representation : Representation}
    {document : DependencyGraphDocument} {body : Bytes} {stem : String}
    {access : DeclaredGraphAccess} {response : Response}
    (answered : respond contract headers representation document body stem access =
      .ok response) : AnswersExactly field response := by
  obtain ⟨etag, status⟩ := respond_answers answered
  have exact := matches_exact_iff reads (unquoted_of_hex (hex body)) field
  rw [sent] at status
  exact ⟨I.sha256 body, etag, (iff_congr status Iff.rfl).trans exact⟩

end Routes

/-- Both routes answer 304 exactly to the fields that name the ETag, if and only if the
field is read exactly. -/
theorem conditional_requests_exact_iff {I : Interfaces}
    (hex : ∀ bytes, isSha256Hex (I.sha256 bytes) = true) {toStr : Bytes → Option String}
    (reads : ReadsVisibleAscii toStr) (contract : GraphContract I) (formats : GraphFormats)
    (renderers : GraphRenderers I) (state : GraphState I) (field : IfNoneMatchField)
    (headers : GraphHeaders) (sent : headers.ifNoneMatch = field.lines.map toStr) :
    (∀ request response,
      getDeclaredGraph contract formats renderers state headers request = .ok response →
        AnswersExactly field response) ∧
      ∀ request response,
        getDeclaredGraphExport contract formats renderers state headers request = .ok response →
          AnswersExactly field response := by
  constructor
  · intro request response answered
    obtain ⟨_, _, answered⟩ := bind_ok.mp answered
    obtain ⟨format, _, answered⟩ := bind_ok.mp answered
    obtain ⟨loaded, _, answered⟩ := bind_ok.mp answered
    obtain ⟨body, _, answered⟩ := bind_ok.mp answered
    exact respond_exact hex reads sent answered
  · intro request response answered
    obtain ⟨format, _, answered⟩ := bind_ok.mp answered
    obtain ⟨_, _, answered⟩ := bind_ok.mp answered
    obtain ⟨loaded, _, answered⟩ := bind_ok.mp answered
    obtain ⟨body, _, answered⟩ := bind_ok.mp answered
    exact respond_exact hex reads sent answered

/-! ## A tag with a star between commas -/

namespace ConditionalSample

def bodyHash : String := "46efed75f6134bcf0e18f2237d63a179574ec149f27d1873b38271e44da85219"

/-- The hash of the sample document, and another for everything else. -/
def hexHash (bytes : Bytes) : String :=
  if bytes = asBytes sampleContract.schema then bodyHash else
    String.ofList (List.replicate 64 '0')

theorem hexHash_hex (bytes : Bytes) : isSha256Hex (hexHash bytes) = true := by
  unfold hexHash
  split
  · decide +kernel
  · decide +kernel

def interfaces : Interfaces := { Interfaces.sample [] [] with sha256 := hexHash }

def contract : GraphContract interfaces where
  schema := sampleContract.schema
  maxNodes := sampleContract.maxNodes
  maxEdges := sampleContract.maxEdges
  maxEncodedBytes := sampleContract.maxEncodedBytes
  digestHeader := sampleContract.digestHeader
  authoritativeHeader := sampleContract.authoritativeHeader
  validHeaderValue := sampleContract.validHeaderValue
  manifestFromValue := sampleContract.manifestFromValue
  dependencies := sampleContract.dependencies
  buildDependencies := sampleContract.buildDependencies
  validVersion := sampleContract.validVersion
  finalize := sampleContract.finalize
  verifyDigest := sampleContract.verifyDigest
  canonicalDocumentBytes := sampleContract.canonicalDocumentBytes

def renderers : GraphRenderers interfaces where
  yaml := .ok
  toml := .ok
  dot _ := .ok []
  mermaid _ := .ok []
  xml _ := .ok []
  csv _ := .ok []
  messagePack := .ok
  protobuf _ := []

/-- A registry with one public package. -/
def state : GraphState interfaces where
  registryId := "registry:registry.zpkg.net"
  registryRead := some {
    packagesForArtifactSha256 _ := .ok []
    userBySubject _ _ := .ok none
    orgRoleForUser _ _ := .ok none
    projectRoleForUser _ _ := .ok none
    packageByOrgAndName _ _ := .ok (some (⟨⟨"package"⟩, none, "public"⟩, sampleOrg))
    packageVersion _ _ := .ok (some (.manifest ⟨samplePackage, []⟩)) }
  tokens _ := .ok none
  now := sampleTime
  orgs := [acme]
  sharedAuth := none
  applicationId := "zpkg-web"

def toStr (bytes : Bytes) : Option String :=
  if bytes.all isVisibleAscii then some (String.ofList (latin bytes)) else none

theorem toStr_reads : ReadsVisibleAscii toStr where
  visible _ readable := if_pos readable
  other bytes unreadable := if_neg (by simp [unreadable])

def noBlanks : Blanks := ⟨[], rfl⟩

def listing (tag : EntityTag) : IfNoneMatchField :=
  .listed [⟨⟨noBlanks, some tag, noBlanks⟩, []⟩]

/-- The tag `"a,*,b"`. -/
def starred : EntityTag := ⟨false, [0x61, 0x2C, 0x2A, 0x2C, 0x62], by decide⟩

def headers (field : IfNoneMatchField) : GraphHeaders := ⟨none, [], field.lines.map toStr⟩

def request : DeclaredGraphRequest :=
  ⟨"acme", "http-kit", "1.2.0", some "declared", some "json"⟩

theorem starred_not_named : ¬(listing starred).Names bodyHash := by
  rintro ⟨line, inField, member, listed, tag, tagged, named⟩
  obtain rfl := List.mem_singleton.mp inField
  obtain rfl := List.mem_singleton.mp listed
  obtain rfl := Option.some.inj tagged
  exact absurd named (by decide +kernel)

/-- The weak form of the document's own ETag. -/
def own : EntityTag := ⟨true, asBytes bodyHash, by decide +kernel⟩

end ConditionalSample

open ConditionalSample in
/-- A client that named another ETag is told that its bytes are current. -/
theorem starred_tag_not_modified :
    ∃ response, getDeclaredGraph contract sampleFormats renderers state
        (headers (listing starred)) request = .ok response ∧
      response.headers.lookup "etag" = some (quotedEtag bodyHash) ∧
      ¬(response.status = 304 ↔ (listing starred).Names bodyHash) := by
  have seen : (getDeclaredGraph contract sampleFormats renderers state
      (headers (listing starred)) request).toOption.map
        (fun response => (response.status, response.headers.lookup "etag")) =
      some (304, some (quotedEtag bodyHash)) := by decide +kernel
  obtain ⟨response, answered, parts⟩ := Option.map_eq_some_iff.mp seen
  obtain ⟨status, etag⟩ := Prod.mk.inj parts
  refine ⟨response, ?_, etag, ?_⟩
  · exact toOption_ok answered
  · intro exact
    exact starred_not_named (exact.mp status)

open ConditionalSample in
theorem conditional_requests_exact_sample :
    ∃ response, getDeclaredGraph contract sampleFormats renderers state
        (headers (listing own)) request = .ok response ∧
      AnswersExactly (listing own) response ∧ response.status = 304 := by
  have seen : (getDeclaredGraph contract sampleFormats renderers state
      (headers (listing own)) request).toOption.map Response.status = some 304 := by
    decide +kernel
  obtain ⟨response, answered, status⟩ := Option.map_eq_some_iff.mp seen
  have outcome : getDeclaredGraph contract sampleFormats renderers state
      (headers (listing own)) request = .ok response := toOption_ok answered
  have exact := (conditional_requests_exact_iff hexHash_hex toStr_reads contract sampleFormats
    renderers state (listing own) (headers (listing own)) rfl).1 request response outcome
  exact ⟨response, outcome, exact, status⟩

end ZedRegistry
