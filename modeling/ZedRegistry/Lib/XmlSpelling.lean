import ZedRegistry.Lib.Xml

/-!
# XML written and read back

A writer of trees that may spell characters and empty elements in its own way, and
what a reader gives of its documents.
-/

set_option autoImplicit false

namespace Xml

/-! ## Writing -/

/-- What may not follow a closing bracket in character data. -/
def closesSection : List Char → Bool
  | '>' :: _ => true
  | ']' :: '>' :: _ => true
  | _ => false

/-- A character spelled as itself, where it is not special, or as a reference. -/
inductive Spells (special : List Char) (character : Char) : List Char → Prop where
  | plain (notSpecial : character ∉ special) : Spells special character [character]
  | escape (body : List Char) (refers : reference body = some character)
      (simple : body.all (fun inner => inner != ';' && inner != '\r' && isChar inner) = true) :
      Spells special character ('&' :: (body ++ [';']))

/-- How a writer spells characters, and which empty elements it writes as one tag. -/
structure Spelling where
  attributeChar : Char → List Char
  textChar : Char → List Char
  selfClosing : String → Bool
  attribute_spells : ∀ character,
    Spells ['&', '<', '"', '\t', '\n', '\r'] character (attributeChar character)
  text_spells : ∀ character, Spells ['&', '<', '>', '\r'] character (textChar character)

theorem readReference_append {body : List Char} (simple : ∀ inner ∈ body, inner ≠ ';')
    (rest : List Char) :
    readReference (body ++ ';' :: rest) = (reference body).map (·, rest) := by
  have all : ∀ inner ∈ body, (inner != ';') = true := by simpa using simple
  have front : (body ++ ';' :: rest).takeWhile (· != ';') = body := by
    rw [List.takeWhile_append_of_pos all]
    simp
  have back : (body ++ ';' :: rest).dropWhile (· != ';') = ';' :: rest := by
    rw [List.dropWhile_append_of_pos all]
    simp
  simp only [readReference, front, back]

theorem characterReference_isChar {code : Nat} {character : Char}
    (refers : characterReference code = some character) : isChar character = true := by
  unfold characterReference at refers
  split at refers
  · simp only [Option.filter_eq_some_iff] at refers
    exact refers.2
  · contradiction

theorem reference_isChar {body : List Char} {character : Char}
    (refers : reference body = some character) : isChar character = true := by
  unfold reference at refers
  split at refers
  · obtain ⟨code, _, refers⟩ := Option.bind_eq_some_iff.mp refers
    exact characterReference_isChar refers
  · obtain ⟨code, _, refers⟩ := Option.bind_eq_some_iff.mp refers
    exact characterReference_isChar refers
  all_goals first
    | (obtain rfl := Option.some.inj refers; decide)
    | contradiction

section Spells

variable {special : List Char} {character : Char} {spelled : List Char}

theorem spells_isChar (spells : Spells special character spelled) :
    spelled.all isChar = isChar character := by
  cases spells with
  | plain notSpecial => simp
  | escape body refers simple =>
      have inner : body.all isChar = true := by
        rw [List.all_eq_true] at simple ⊢
        intro inner inside
        have parts := simple inner inside
        simp only [Bool.and_eq_true] at parts
        exact parts.2
      have ampersand : isChar '&' = true := by decide
      have semicolon : isChar ';' = true := by decide
      simp [inner, ampersand, semicolon, reference_isChar refers]

theorem spells_line (spells : Spells special character spelled) (line : '\r' ∈ special) :
    '\r' ∉ spelled := by
  intro inside
  cases spells with
  | plain notSpecial =>
      rw [← List.mem_singleton.mp inside] at notSpecial
      exact notSpecial line
  | escape body refers simple =>
      simp only [List.mem_cons, List.mem_append, List.not_mem_nil, or_false, Char.reduceEq,
        false_or] at inside
      have parts := List.all_eq_true.mp simple '\r' inside
      simp at parts

theorem spells_head (spells : Spells special character spelled) {other : Char}
    (isSpecial : other ∈ special) (notReference : other ≠ '&') :
    ∃ first others, spelled = first :: others ∧ first ≠ other := by
  cases spells with
  | plain notSpecial =>
      refine ⟨character, [], rfl, ?_⟩
      intro same
      exact notSpecial (same ▸ isSpecial)
  | escape body refers simple => exact ⟨'&', _, rfl, notReference.symm⟩

theorem spells_readReference {body : List Char} (refers : reference body = some character)
    (simple : body.all (fun inner => inner != ';' && inner != '\r' && isChar inner) = true)
    (rest : List Char) :
    readReference ((body ++ [';']) ++ rest) = some (character, rest) := by
  rw [List.append_assoc, List.singleton_append, readReference_append, refers, Option.map_some]
  intro inner inside
  have parts := List.all_eq_true.mp simple inner inside
  simp only [Bool.and_eq_true, bne_iff_ne] at parts
  exact parts.1.1

end Spells

namespace Spelling

variable (spelling : Spelling)

theorem attribute_isChar (character : Char) :
    (spelling.attributeChar character).all isChar = isChar character :=
  spells_isChar (spelling.attribute_spells character)

theorem text_isChar (character : Char) :
    (spelling.textChar character).all isChar = isChar character :=
  spells_isChar (spelling.text_spells character)

theorem attribute_line (character : Char) : '\r' ∉ spelling.attributeChar character :=
  spells_line (spelling.attribute_spells character) (by decide)

theorem text_line (character : Char) : '\r' ∉ spelling.textChar character :=
  spells_line (spelling.text_spells character) (by decide)

theorem attribute_head (character : Char) : ∃ first others,
    spelling.attributeChar character = first :: others ∧ first ≠ '"' :=
  spells_head (spelling.attribute_spells character) (by decide) (by decide)

theorem text_head (character : Char) : ∃ first others,
    spelling.textChar character = first :: others ∧ first ≠ '<' :=
  spells_head (spelling.text_spells character) (by decide) (by decide)

/-- Of the white space only a space is written as it is. -/
theorem attribute_reads (character : Char) (rest : List Char) :
    readAttributeChar (spelling.attributeChar character ++ rest) = some (character, rest) := by
  generalize written : spelling.attributeChar character = spelled
  have spells := spelling.attribute_spells character
  rw [written] at spells
  cases spells with
  | plain notSpecial =>
      simp only [List.mem_cons, List.not_mem_nil, or_false, not_or] at notSpecial
      have kept : (if isSpace character then ' ' else character) = character := by
        split
        · rename_i space
          simp only [isSpace, within, List.any_cons, List.any_nil, Bool.or_false,
            Bool.or_eq_true, Bool.and_eq_true, decide_eq_true_eq] at space
          have codes := notSpecial
          simp only [← Char.toNat_inj, Char.reduceToNat] at codes ⊢
          omega
        · rfl
      rw [List.singleton_append]
      unfold readAttributeChar
      split
      · contradiction
      · rename_i same
        exact absurd (List.cons.inj same).1 notSpecial.2.1
      · rename_i same
        exact absurd (List.cons.inj same).1 notSpecial.1
      · rename_i same
        obtain ⟨rfl, rfl⟩ := List.cons.inj same
        rw [kept]
  | escape body refers simple => exact spells_readReference refers simple rest

theorem text_reads (character : Char) (rest : List Char) (follows : closesSection rest = false) :
    readContentChar (spelling.textChar character ++ rest) = some (character, rest) := by
  generalize written : spelling.textChar character = spelled
  have spells := spelling.text_spells character
  rw [written] at spells
  cases spells with
  | plain notSpecial =>
      simp only [List.mem_cons, List.not_mem_nil, or_false, not_or] at notSpecial
      rw [List.singleton_append]
      unfold readContentChar
      split
      · contradiction
      · rename_i same
        exact absurd (List.cons.inj same).1 notSpecial.2.1
      · rename_i same
        exact absurd (List.cons.inj same).1 notSpecial.1
      · rename_i same
        rw [(List.cons.inj same).2] at follows
        contradiction
      · rename_i same
        obtain ⟨rfl, rfl⟩ := List.cons.inj same
        rfl
  | escape body refers simple => exact spells_readReference refers simple rest

theorem text_follows (character : Char) (rest : List Char)
    (follows : closesSection rest = false) :
    closesSection (spelling.textChar character ++ rest) = false := by
  generalize written : spelling.textChar character = spelled
  have spells := spelling.text_spells character
  rw [written] at spells
  cases spells with
  | plain notSpecial =>
      simp only [List.mem_cons, List.not_mem_nil, or_false, not_or] at notSpecial
      rw [List.singleton_append]
      unfold closesSection
      split
      · rename_i same
        exact absurd (List.cons.inj same).1 notSpecial.2.2.1
      · rename_i same
        rw [(List.cons.inj same).2] at follows
        contradiction
      · rfl
  | escape body refers simple => rfl

end Spelling

namespace Spelling

variable (spelling : Spelling)

def spellAttribute (named : String × String) : List Char :=
  ' ' :: (named.1.toList ++ ('=' :: '"' ::
    (named.2.toList.flatMap spelling.attributeChar ++ ['"'])))

def spellTag (name : String) (attributes : List (String × String)) : List Char :=
  '<' :: (name.toList ++ attributes.flatMap spelling.spellAttribute)

def spellToken : Token → List Char
  | .start name attributes => spelling.spellTag name attributes ++ ['>']
  | .empty name attributes => spelling.spellTag name attributes ++ [' ', '/', '>']
  | .stop name => '<' :: '/' :: (name.toList ++ ['>'])
  | .char character => spelling.textChar character

def spellTokens (tokens : List Token) : List Char := tokens.flatMap spelling.spellToken

mutual

def tokens : Node → List Token
  | .char character => [.char character]
  | .element name attributes children =>
    if children.isEmpty && spelling.selfClosing name then [.empty name attributes]
    else .start name attributes :: (tokensAll children ++ [.stop name])

def tokensAll : List Node → List Token
  | [] => []
  | node :: nodes => tokens node ++ tokensAll nodes

end

def spell (nodes : List Node) : List Char := spelling.spellTokens (spelling.tokensAll nodes)

@[simp] theorem spell_nil : spelling.spell [] = [] := rfl

theorem tokensAll_append (left right : List Node) :
    spelling.tokensAll (left ++ right) = spelling.tokensAll left ++ spelling.tokensAll right := by
  induction left with
  | nil => rfl
  | cons node left inductionHypothesis =>
      simp only [List.cons_append, tokensAll, inductionHypothesis, List.append_assoc]

@[simp] theorem spell_append (left right : List Node) :
    spelling.spell (left ++ right) = spelling.spell left ++ spelling.spell right := by
  rw [spell, spellTokens, tokensAll_append, List.flatMap_append]
  rfl

@[simp] theorem spell_flatMap {α : Type} (nodes : α → List Node) (items : List α) :
    spelling.spell (items.flatMap nodes) =
      items.flatMap fun item => spelling.spell (nodes item) := by
  induction items with
  | nil => rfl
  | cons item items inductionHypothesis =>
      rw [List.flatMap_cons, spell_append, inductionHypothesis, List.flatMap_cons]

/-- An element after its name and attributes. -/
def spellInside (name : String) (children : List Node) : List Char :=
  if children.isEmpty && spelling.selfClosing name then [' ', '/', '>']
  else '>' :: (spelling.spell children ++ '<' :: '/' :: (name.toList ++ ['>']))

@[simp] theorem spell_element (name : String) (attributes : List (String × String))
    (children nodes : List Node) :
    spelling.spell (.element name attributes children :: nodes) =
      spelling.spellTag name attributes ++
        (spelling.spellInside name children ++ spelling.spell nodes) := by
  rw [spell, tokensAll, tokens, spellInside]
  split <;> simp [spell, spellTokens, spellToken]

theorem spellInside_nil {name : String} (closes : spelling.selfClosing name = true) :
    spelling.spellInside name [] = [' ', '/', '>'] := by
  simp [spellInside, closes]

theorem spellInside_open {name : String} {children : List Node}
    (opens : children.isEmpty = false ∨ spelling.selfClosing name = false) :
    spelling.spellInside name children =
      '>' :: (spelling.spell children ++ '<' :: '/' :: (name.toList ++ ['>'])) := by
  rw [spellInside, if_neg]
  rcases opens with opens | opens <;> simp [opens]

theorem spell_characters (characters : List Char) :
    spelling.spell (characters.map .char) = characters.flatMap spelling.textChar := by
  induction characters with
  | nil => rfl
  | cons character characters inductionHypothesis =>
      rw [List.map_cons, List.flatMap_cons, ← inductionHypothesis]
      rfl

end Spelling

/-! ## Names and attributes read back -/

/-- The characters after a name do not belong to it. -/
def endsName : List Char → Bool
  | [] => true
  | first :: _ => !isNameChar first

theorem takeWhile_name {name rest : List Char} (names : name.all isNameChar = true)
    (ends : endsName rest = true) : (name ++ rest).takeWhile isNameChar = name := by
  induction name with
  | nil =>
      cases rest with
      | nil => rfl
      | cons first rest =>
          have stop : isNameChar first = false := by simpa [endsName] using ends
          simp [stop]
  | cons first name inductionHypothesis =>
      simp only [List.all_cons, Bool.and_eq_true] at names
      simp [names.1, inductionHypothesis names.2]

theorem dropWhile_name {name rest : List Char} (names : name.all isNameChar = true)
    (ends : endsName rest = true) : (name ++ rest).dropWhile isNameChar = rest := by
  induction name with
  | nil =>
      cases rest with
      | nil => rfl
      | cons first rest =>
          have stop : isNameChar first = false := by simpa [endsName] using ends
          simp [stop]
  | cons first name inductionHypothesis =>
      simp only [List.all_cons, Bool.and_eq_true] at names
      simp [names.1, inductionHypothesis names.2]

theorem readName_append {name : String} (isNamed : isName name = true) {rest : List Char}
    (ends : endsName rest = true) : readName (name.toList ++ rest) = some (name, rest) := by
  have whole : String.ofList name.toList = name := String.ofList_toList
  unfold isName at isNamed
  cases characters : name.toList with
  | nil => simp [characters] at isNamed
  | cons first others =>
      simp only [characters, Bool.and_eq_true] at isNamed
      rw [List.cons_append, readName, if_pos isNamed.1, takeWhile_name isNamed.2 ends,
        dropWhile_name isNamed.2 ends, ← characters, whole]

theorem isName_head {name : String} (isNamed : isName name = true) :
    ∃ first others, name.toList = first :: others ∧ isNameStart first = true := by
  unfold isName at isNamed
  cases characters : name.toList with
  | nil => simp [characters] at isNamed
  | cons first others =>
      simp only [characters, Bool.and_eq_true] at isNamed
      exact ⟨first, others, rfl, isNamed.1⟩

theorem isSpace_of_isNameStart {character : Char} (starts : isNameStart character = true) :
    isSpace character = false := by
  unfold isSpace isNameStart within at *
  simp only [List.any_cons, List.any_nil, Bool.or_false, Bool.or_eq_true, Bool.and_eq_true,
    decide_eq_true_eq, Bool.or_eq_false_iff, Bool.and_eq_false_iff,
    decide_eq_false_iff_not] at *
  omega

section Attributes

variable (spelling : Spelling)

theorem readAttributeValue_spelled {value : List Char} (rest : List Char) {fuel : Nat}
    (enough : value.length < fuel) :
    readAttributeValue '"' fuel (value.flatMap spelling.attributeChar ++ '"' :: rest) =
      some (value, rest) := by
  induction value generalizing fuel with
  | nil =>
      cases fuel with
      | zero => omega
      | succ fuel => simp [readAttributeValue]
  | cons character value inductionHypothesis =>
      simp only [List.length_cons] at enough
      cases fuel with
      | zero => omega
      | succ fuel =>
          obtain ⟨first, others, spelled, notQuote⟩ := spelling.attribute_head character
          have reads := spelling.attribute_reads character
            (value.flatMap spelling.attributeChar ++ '"' :: rest)
          have later := inductionHypothesis (show value.length < fuel by omega)
          rw [List.flatMap_cons, List.append_assoc, spelled, List.cons_append]
          rw [spelled, List.cons_append] at reads
          simp only [readAttributeValue, if_neg notQuote, reads, later, Option.bind_eq_bind,
            Option.bind_some, Option.pure_def]

theorem length_flatMap_attributeChar (value : List Char) :
    value.length ≤ (value.flatMap spelling.attributeChar).length := by
  induction value with
  | nil => exact le_rfl
  | cons character value inductionHypothesis =>
      obtain ⟨first, others, spelled, _⟩ := spelling.attribute_head character
      simp only [List.flatMap_cons, spelled, List.length_append, List.length_cons]
      omega

theorem readAttribute_spelled {named : String × String} (isNamed : isName named.1 = true)
    (rest : List Char) :
    readAttribute (named.1.toList ++ ('=' :: '"' ::
      (named.2.toList.flatMap spelling.attributeChar ++ '"' :: rest))) =
      some (named, rest) := by
  have long := length_flatMap_attributeChar spelling named.2.toList
  have value := @readAttributeValue_spelled spelling named.2.toList rest
    (named.2.toList.flatMap spelling.attributeChar ++ '"' :: rest).length
    (by simp only [List.length_append, List.length_cons]; omega)
  have equals : ∀ after, skipSpace ('=' :: after) = '=' :: after := fun _ => rfl
  have quote : ∀ after, skipSpace ('"' :: after) = '"' :: after := fun _ => rfl
  rw [readAttribute, readName_append isNamed rfl]
  simp only [Option.bind_eq_bind, Option.bind_some, equals, quote, true_or, if_true, value,
    Option.pure_def, String.ofList_toList]

theorem skipSpace_name {name : String} (isNamed : isName name = true) (rest : List Char) :
    ∃ first others, name.toList ++ rest = first :: others ∧ isNameStart first = true ∧
      skipSpace (' ' :: (name.toList ++ rest)) = name.toList ++ rest := by
  obtain ⟨first, others, characters, starts⟩ := isName_head isNamed
  refine ⟨first, others ++ rest, by rw [characters, List.cons_append], starts, ?_⟩
  have space : isSpace ' ' = true := by decide
  simp [skipSpace, space, characters, isSpace_of_isNameStart starts]

/-- `rest` is where the attributes end, before or after white space. -/
theorem readAttributes_spelled {attributes : List (String × String)}
    (names : (attributes.all fun named => isName named.1) = true) {rest after : List Char}
    (ends : ∀ fuel, readAttributes (fuel + 1) rest = some ([], after)) {fuel : Nat}
    (enough : attributes.length < fuel) :
    readAttributes fuel (attributes.flatMap spelling.spellAttribute ++ rest) =
      some (attributes, after) := by
  induction attributes generalizing fuel with
  | nil =>
      cases fuel with
      | zero => omega
      | succ fuel => exact ends fuel
  | cons named attributes inductionHypothesis =>
      simp only [List.all_cons, Bool.and_eq_true] at names
      simp only [List.length_cons] at enough
      cases fuel with
      | zero => omega
      | succ fuel =>
          have later := inductionHypothesis names.2 (show attributes.length < fuel by omega)
          have reads := readAttribute_spelled spelling names.1
            (attributes.flatMap spelling.spellAttribute ++ rest)
          obtain ⟨first, others, characters, starts, skipped⟩ := skipSpace_name names.1
            ('=' :: '"' :: (named.2.toList.flatMap spelling.attributeChar ++
              '"' :: (attributes.flatMap spelling.spellAttribute ++ rest)))
          have space : isSpace ' ' = true := by decide
          rw [characters] at reads skipped
          rw [List.flatMap_cons, Spelling.spellAttribute]
          simp only [List.cons_append, List.append_assoc, List.nil_append, characters]
          simp only [readAttributes, skipped, space, starts, and_self, if_true, reads, later,
            Option.bind_eq_bind, Option.bind_some, Option.pure_def]

end Attributes

/-! ## Tokens read back -/

section Tokens

variable (spelling : Spelling)

def namedAttributes (attributes : List (String × String)) : Prop :=
  (attributes.all fun named => isName named.1) = true ∧ (attributes.map Prod.fst).Nodup

/-- The names of elements are names, and those of attributes also differ. -/
def Token.Named : Token → Prop
  | .start name attributes | .empty name attributes =>
    isName name = true ∧ namedAttributes attributes
  | .stop name => isName name = true
  | .char _ => True

theorem length_flatMap_spellAttribute (attributes : List (String × String)) :
    attributes.length ≤ (attributes.flatMap spelling.spellAttribute).length := by
  induction attributes with
  | nil => exact le_rfl
  | cons named attributes inductionHypothesis =>
      simp only [List.flatMap_cons, Spelling.spellAttribute, List.length_append,
        List.length_cons]
      omega

theorem endsName_attributes (attributes : List (String × String)) {rest : List Char}
    (ends : endsName rest = true) :
    endsName (attributes.flatMap spelling.spellAttribute ++ rest) = true := by
  cases attributes with
  | nil => exact ends
  | cons named attributes => rfl

theorem readToken_tag {name : String} (isNamed : isName name = true) (rest : List Char) :
    readToken ('<' :: (name.toList ++ rest)) = readTag (name.toList ++ rest) := by
  obtain ⟨first, others, characters, starts⟩ := isName_head isNamed
  have notSlash : first ≠ '/' := by
    intro slash
    rw [slash] at starts
    exact absurd starts (by decide)
  rw [characters, List.cons_append]
  unfold readToken
  split
  · rename_i same
    exact absurd (List.cons.inj (List.cons.inj same).2).1 notSlash
  · rename_i same
    rw [(List.cons.inj same).2]
  · rename_i other
    exact absurd rfl (other _)

/-- A tag up to what ends its attributes. -/
theorem readTag_spelled {name : String} {attributes : List (String × String)}
    (isNamed : isName name = true)
    (names : (attributes.all fun named => isName named.1) = true) {rest after : List Char}
    (endsRest : endsName rest = true)
    (ends : ∀ fuel, readAttributes (fuel + 1) rest = some ([], after)) (long : 0 < rest.length) :
    readName (name.toList ++ (attributes.flatMap spelling.spellAttribute ++ rest)) =
        some (name, attributes.flatMap spelling.spellAttribute ++ rest) ∧
      readAttributes (attributes.flatMap spelling.spellAttribute ++ rest).length
        (attributes.flatMap spelling.spellAttribute ++ rest) = some (attributes, after) := by
  have counted := length_flatMap_spellAttribute spelling attributes
  constructor
  · exact readName_append isNamed (endsName_attributes spelling attributes endsRest)
  · apply readAttributes_spelled spelling names ends
    rw [List.length_append]
    omega

theorem readToken_spelled {token : Token} (named : token.Named) {rest : List Char}
    (follows : closesSection rest = false) :
    readToken (spelling.spellToken token ++ rest) = some (token, rest) := by
  cases token with
  | char character =>
      obtain ⟨first, others, spelled, notTag⟩ := spelling.text_head character
      have reads := spelling.text_reads character rest follows
      rw [Spelling.spellToken]
      rw [spelled, List.cons_append] at reads ⊢
      unfold readToken
      split
      · rename_i same
        exact absurd (List.cons.inj same).1 notTag
      · rename_i same
        exact absurd (List.cons.inj same).1 notTag
      · rw [reads]
        rfl
  | stop name =>
      have reads := @readName_append name named ('>' :: rest) rfl
      have skipped : skipSpace ('>' :: rest) = '>' :: rest := rfl
      simp only [Spelling.spellToken, List.cons_append, List.append_assoc, List.nil_append,
        readToken, readEndTag, reads, skipped, Option.bind_eq_bind, Option.bind_some]
  | start name attributes =>
      obtain ⟨isNamed, names, unique⟩ := named
      have ends : ∀ fuel, readAttributes (fuel + 1) ('>' :: rest) = some ([], '>' :: rest) :=
        fun fuel => rfl
      have parts := readTag_spelled spelling isNamed names
        (show endsName ('>' :: rest) = true by rfl) ends (by simp)
      simp only [Spelling.spellToken, Spelling.spellTag, List.cons_append, List.append_assoc,
        List.nil_append, readToken_tag isNamed, readTag, parts.1, parts.2,
        Option.bind_eq_bind, Option.bind_some, if_pos unique]
  | empty name attributes =>
      obtain ⟨isNamed, names, unique⟩ := named
      have ends : ∀ fuel, readAttributes (fuel + 1) (' ' :: '/' :: '>' :: rest) =
          some ([], '/' :: '>' :: rest) :=
        fun fuel => rfl
      have parts := readTag_spelled spelling isNamed names
        (show endsName (' ' :: '/' :: '>' :: rest) = true by rfl) ends (by simp)
      simp only [Spelling.spellToken, Spelling.spellTag, List.cons_append, List.append_assoc,
        List.nil_append, readToken_tag isNamed, readTag, parts.1, parts.2,
        Option.bind_eq_bind, Option.bind_some, if_pos unique]

theorem spellToken_nonempty (token : Token) :
    ∃ first others, spelling.spellToken token = first :: others := by
  cases token with
  | char character =>
      obtain ⟨first, others, spelled, _⟩ := spelling.text_head character
      exact ⟨first, others, spelled⟩
  | stop name => exact ⟨_, _, rfl⟩
  | start name attributes => exact ⟨_, _, rfl⟩
  | empty name attributes => exact ⟨_, _, rfl⟩

theorem spellTokens_follows (tokens : List Token) :
    closesSection (spelling.spellTokens tokens) = false := by
  induction tokens with
  | nil => rfl
  | cons token tokens inductionHypothesis =>
      rw [Spelling.spellTokens, List.flatMap_cons]
      cases token with
      | char character => exact spelling.text_follows character _ inductionHypothesis
      | stop name => rfl
      | start name attributes => rfl
      | empty name attributes => rfl

theorem readTokens_spelled {tokens : List Token} (named : ∀ token ∈ tokens, token.Named)
    {fuel : Nat} (enough : (spelling.spellTokens tokens).length ≤ fuel) :
    readTokens fuel (spelling.spellTokens tokens) = some tokens := by
  induction tokens generalizing fuel with
  | nil => cases fuel <;> rfl
  | cons token tokens inductionHypothesis =>
      have reads := readToken_spelled spelling (named token List.mem_cons_self)
        (spellTokens_follows spelling tokens)
      obtain ⟨first, others, spelled⟩ := spellToken_nonempty spelling token
      have split : spelling.spellTokens (token :: tokens) =
          first :: (others ++ spelling.spellTokens tokens) := by
        rw [Spelling.spellTokens, List.flatMap_cons, spelled, List.cons_append]
        rfl
      rw [spelled, List.cons_append] at reads
      rw [split] at enough ⊢
      simp only [List.length_cons, List.length_append] at enough
      cases fuel with
      | zero => omega
      | succ fuel =>
          have later := inductionHypothesis
            (fun token inside => named token (List.mem_cons_of_mem _ inside))
            (show (spelling.spellTokens tokens).length ≤ fuel by omega)
          simp only [readTokens, reads, later, Option.bind_eq_bind, Option.bind_some,
            Option.pure_def]

end Tokens

/-! ## Elements built back -/

section Elements

variable (spelling : Spelling)

/-- Read inside any open element, the tokens add these nodes to it. -/
def Builds (tokens : List Token) (nodes : List Node) : Prop :=
  ∀ frame stack, tokens.foldlM step (frame :: stack) = some (frame.add nodes :: stack)

theorem builds_nil : Builds [] [] := by
  intro frame stack
  simp [Frame.add]

theorem builds_append {left right : List Token} {leftNodes rightNodes : List Node}
    (buildsLeft : Builds left leftNodes) (buildsRight : Builds right rightNodes) :
    Builds (left ++ right) (leftNodes ++ rightNodes) := by
  intro frame stack
  rw [List.foldlM_append, buildsLeft]
  simp only [Option.bind_eq_bind, Option.bind_some]
  rw [buildsRight]
  simp [Frame.add]

theorem builds_element {inner : List Token} {children : List Node} (name : String)
    (attributes : List (String × String)) (builds : Builds inner children) :
    Builds (.start name attributes :: (inner ++ [.stop name]))
      [.element name attributes children] := by
  intro frame stack
  have opened : step (frame :: stack) (.start name attributes) =
      some (⟨name, attributes, []⟩ :: frame :: stack) := rfl
  rw [List.foldlM_cons, opened, Option.bind_eq_bind, Option.bind_some, List.foldlM_append,
    builds]
  simp [step, Frame.add, Frame.close]

/-- The characters of text and attribute values. -/
def Token.characters : Token → List Char
  | .start _ attributes | .empty _ attributes => attributes.flatMap fun named => named.2.toList
  | .stop _ => []
  | .char character => [character]

mutual

def Node.characters : Node → List Char
  | .char character => [character]
  | .element _ attributes children =>
    attributes.flatMap (fun named => named.2.toList) ++ charactersAll children

def charactersAll : List Node → List Char
  | [] => []
  | node :: nodes => node.characters ++ charactersAll nodes

end

/-- The names of elements are names, and those of attributes also differ. -/
inductive Node.Named : Node → Prop where
  | char (character : Char) : Node.Named (.char character)
  | element (name : String) (attributes : List (String × String)) (children : List Node)
      (named : isName name = true) (attributesNamed : namedAttributes attributes)
      (inner : ∀ child ∈ children, Node.Named child) :
      Node.Named (.element name attributes children)

/-- These tokens stand for these nodes. -/
structure Tokenizes (tokens : List Token) (nodes : List Node) : Prop where
  builds : Builds tokens nodes
  named : ∀ token ∈ tokens, token.Named
  characters : tokens.flatMap Token.characters = charactersAll nodes

theorem charactersAll_append (left right : List Node) :
    charactersAll (left ++ right) = charactersAll left ++ charactersAll right := by
  induction left with
  | nil => rfl
  | cons node left inductionHypothesis =>
      simp only [List.cons_append, charactersAll, inductionHypothesis, List.append_assoc]

theorem tokensAll_tokenizes {nodes : List Node}
    (each : ∀ node ∈ nodes, Tokenizes (spelling.tokens node) [node]) :
    Tokenizes (spelling.tokensAll nodes) nodes := by
  induction nodes with
  | nil => exact ⟨builds_nil, fun token inside => absurd inside List.not_mem_nil, rfl⟩
  | cons node nodes inductionHypothesis =>
      have first := each node List.mem_cons_self
      have later := inductionHypothesis fun node inside =>
        each node (List.mem_cons_of_mem _ inside)
      refine ⟨builds_append first.builds later.builds, ?_, ?_⟩
      · intro token inside
        rcases List.mem_append.mp inside with inFirst | inLater
        · exact first.named token inFirst
        · exact later.named token inLater
      · rw [Spelling.tokensAll, List.flatMap_append, first.characters, later.characters]
        exact (charactersAll_append [node] nodes).symm

theorem tokens_tokenizes {node : Node} (named : node.Named) :
    Tokenizes (spelling.tokens node) [node] := by
  induction named with
  | char character =>
      refine ⟨?_, ?_, rfl⟩
      · intro frame stack
        simp [Spelling.tokens, step]
      · intro token inside
        obtain rfl := List.mem_singleton.mp inside
        trivial
  | element name attributes children named attributesNamed inner inductionHypothesis =>
      have body := tokensAll_tokenizes spelling inductionHypothesis
      unfold Spelling.tokens
      split
      · rename_i closed
        simp only [Bool.and_eq_true, List.isEmpty_iff] at closed
        rw [closed.1]
        refine ⟨?_, ?_, ?_⟩
        · intro frame stack
          simp [step]
        · intro token inside
          obtain rfl := List.mem_singleton.mp inside
          exact ⟨named, attributesNamed⟩
        · simp [Token.characters, charactersAll, Node.characters]
      · refine ⟨builds_element name attributes body.builds, ?_, ?_⟩
        · intro token inside
          simp only [List.mem_cons, List.mem_append, List.not_mem_nil, or_false] at inside
          obtain rfl | inBody | rfl := inside
          · exact ⟨named, attributesNamed⟩
          · exact body.named token inBody
          · exact named
        · simp [Token.characters, charactersAll, Node.characters, body.characters]

theorem spell_tokenizes {nodes : List Node} (named : ∀ node ∈ nodes, node.Named) :
    Tokenizes (spelling.tokensAll nodes) nodes :=
  tokensAll_tokenizes spelling fun node inside => tokens_tokenizes spelling (named node inside)

theorem build_of_tokenizes {tokens : List Token} {nodes : List Node}
    (tokenizes : Tokenizes tokens nodes) : build tokens = rootOf nodes := by
  rw [build, tokenizes.builds]
  simp [Frame.add]

end Elements

/-! ## The characters of a document -/

theorem isChar_of_isNameChar {character : Char} (names : isNameChar character = true) :
    isChar character = true := by
  unfold isChar
  unfold isNameChar isNameStart at names
  simp only [within, List.any_cons, List.any_nil, Bool.or_false, Bool.or_eq_true,
    Bool.and_eq_true, decide_eq_true_eq] at *
  omega

theorem isName_all {name : String} (isNamed : isName name = true) :
    name.toList.all isNameChar = true := by
  unfold isName at isNamed
  cases characters : name.toList with
  | nil => rfl
  | cons first others =>
      simp only [characters, Bool.and_eq_true] at isNamed
      simp [isNameChar, isNamed.1, isNamed.2]

theorem isName_isChar {name : String} (isNamed : isName name = true) :
    name.toList.all isChar = true := by
  have names := List.all_eq_true.mp (isName_all isNamed)
  rw [List.all_eq_true]
  intro character inside
  exact isChar_of_isNameChar (names character inside)

theorem isName_line {name : String} (isNamed : isName name = true) : '\r' ∉ name.toList := by
  intro inside
  have names := List.all_eq_true.mp (isName_all isNamed) '\r' inside
  exact absurd names (by decide)

section Documents

variable (spelling : Spelling)

theorem spellAttribute_isChar {named : String × String} (isNamed : isName named.1 = true) :
    (spelling.spellAttribute named).all isChar = named.2.toList.all isChar := by
  have space : isChar ' ' = true := by decide
  have equals : isChar '=' = true := by decide
  have quote : isChar '"' = true := by decide
  simp [Spelling.spellAttribute, isName_isChar isNamed, List.all_flatMap,
    spelling.attribute_isChar, space, equals, quote]

theorem spellAttributes_isChar {attributes : List (String × String)}
    (names : (attributes.all fun named => isName named.1) = true) :
    (attributes.flatMap spelling.spellAttribute).all isChar =
      (attributes.flatMap fun named => named.2.toList).all isChar := by
  induction attributes with
  | nil => rfl
  | cons named attributes inductionHypothesis =>
      simp only [List.all_cons, Bool.and_eq_true] at names
      simp only [List.flatMap_cons, List.all_append, spellAttribute_isChar spelling names.1,
        inductionHypothesis names.2]

theorem spellToken_isChar {token : Token} (named : token.Named) :
    (spelling.spellToken token).all isChar = token.characters.all isChar := by
  have opens : isChar '<' = true := by decide
  have closes : isChar '>' = true := by decide
  have slash : isChar '/' = true := by decide
  have space : isChar ' ' = true := by decide
  cases token with
  | char character => simp [Spelling.spellToken, Token.characters, spelling.text_isChar]
  | stop name =>
      simp [Spelling.spellToken, Token.characters, isName_isChar named, opens, closes, slash]
  | start name attributes =>
      have values := spellAttributes_isChar spelling named.2.1
      simp only [Spelling.spellToken, Spelling.spellTag, Token.characters, List.all_cons,
        List.all_append, List.all_nil, values, isName_isChar named.1, opens, closes,
        Bool.true_and, Bool.and_true]
  | empty name attributes =>
      have values := spellAttributes_isChar spelling named.2.1
      simp only [Spelling.spellToken, Spelling.spellTag, Token.characters, List.all_cons,
        List.all_append, List.all_nil, values, isName_isChar named.1, opens, closes, slash,
        space, Bool.true_and, Bool.and_true]

theorem spellTokens_isChar {tokens : List Token} (named : ∀ token ∈ tokens, token.Named) :
    (spelling.spellTokens tokens).all isChar =
      (tokens.flatMap Token.characters).all isChar := by
  induction tokens with
  | nil => rfl
  | cons token tokens inductionHypothesis =>
      have later := inductionHypothesis fun token inside =>
        named token (List.mem_cons_of_mem _ inside)
      have first := spellToken_isChar spelling (named token List.mem_cons_self)
      rw [Spelling.spellTokens] at later ⊢
      simp only [List.flatMap_cons, List.all_append, first, later]

theorem spell_isChar {nodes : List Node} (named : ∀ node ∈ nodes, node.Named) :
    (spelling.spell nodes).all isChar = (charactersAll nodes).all isChar := by
  have tokenizes := spell_tokenizes spelling named
  rw [Spelling.spell, spellTokens_isChar spelling tokenizes.named, tokenizes.characters]

theorem spellAttributes_line {attributes : List (String × String)}
    (names : (attributes.all fun named => isName named.1) = true) :
    '\r' ∉ attributes.flatMap spelling.spellAttribute := by
  intro inside
  obtain ⟨named, member, spelled⟩ := List.mem_flatMap.mp inside
  have isNamed := List.all_eq_true.mp names named member
  simp only [Spelling.spellAttribute, List.mem_cons, List.mem_append, List.mem_flatMap,
    List.not_mem_nil, or_false, Char.reduceEq, false_or] at spelled
  obtain inName | ⟨character, _, inValue⟩ := spelled
  · exact isName_line isNamed inName
  · exact spelling.attribute_line character inValue

theorem spellToken_line {token : Token} (named : token.Named) :
    '\r' ∉ spelling.spellToken token := by
  intro inside
  cases token with
  | char character => exact spelling.text_line character inside
  | stop name =>
      simp only [Spelling.spellToken, List.mem_cons, List.mem_append, List.not_mem_nil,
        or_false, Char.reduceEq, false_or] at inside
      exact isName_line named inside
  | start name attributes =>
      simp only [Spelling.spellToken, Spelling.spellTag, List.mem_cons, List.mem_append,
        List.not_mem_nil, or_false, Char.reduceEq, false_or] at inside
      obtain inName | inAttributes := inside
      · exact isName_line named.1 inName
      · exact spellAttributes_line spelling named.2.1 inAttributes
  | empty name attributes =>
      simp only [Spelling.spellToken, Spelling.spellTag, List.mem_cons, List.mem_append,
        List.not_mem_nil, or_false, Char.reduceEq, false_or] at inside
      obtain inName | inAttributes := inside
      · exact isName_line named.1 inName
      · exact spellAttributes_line spelling named.2.1 inAttributes

theorem normalizeLineEnds_of_not_mem {characters : List Char} (lines : '\r' ∉ characters) :
    normalizeLineEnds characters = characters := by
  induction characters with
  | nil => rfl
  | cons first rest inductionHypothesis =>
      have notReturn : first ≠ '\r' := fun same => lines (same ▸ List.mem_cons_self)
      have later := inductionHypothesis fun inside => lines (List.mem_cons_of_mem _ inside)
      unfold normalizeLineEnds
      split
      · contradiction
      · rename_i same
        exact absurd (List.cons.inj same).1 notReturn
      · rename_i same
        exact absurd (List.cons.inj same).1 notReturn
      · rename_i same
        obtain ⟨rfl, rfl⟩ := List.cons.inj same
        rw [later]

/-- The XML declaration and what follows it. -/
def Spelling.spellDocument (declaration : List (String × String)) (nodes : List Node) :
    List Char :=
  '<' :: '?' :: 'x' :: 'm' :: 'l' ::
    (declaration.flatMap spelling.spellAttribute ++ ('?' :: '>' :: spelling.spell nodes))

variable {declaration : List (String × String)}
  (declares : validDeclaration declaration = true)
  (names : (declaration.all fun named => isName named.1) = true)

include names

theorem spellDocument_isChar
    (values : (declaration.flatMap fun named => named.2.toList).all isChar = true)
    {nodes : List Node} (named : ∀ node ∈ nodes, node.Named) :
    (spelling.spellDocument declaration nodes).all isChar =
      (charactersAll nodes).all isChar := by
  have opens : ['<', '?', 'x', 'm', 'l', '>'].all isChar = true := by decide
  simp only [List.all_cons, List.all_nil, Bool.and_eq_true] at opens
  simp only [Spelling.spellDocument, List.all_cons, List.all_append, opens, Bool.true_and,
    spellAttributes_isChar spelling names, values,
    spell_isChar spelling named]

include declares

theorem readDeclaration_spelled (nodes : List Node) :
    readDeclaration (spelling.spellDocument declaration nodes) = some (spelling.spell nodes) := by
  have ends : ∀ fuel, readAttributes (fuel + 1) ('?' :: '>' :: spelling.spell nodes) =
      some ([], '?' :: '>' :: spelling.spell nodes) := fun fuel => rfl
  have counted := length_flatMap_spellAttribute spelling declaration
  have reads := @readAttributes_spelled spelling declaration names
    ('?' :: '>' :: spelling.spell nodes) ('?' :: '>' :: spelling.spell nodes) ends
    (declaration.flatMap spelling.spellAttribute ++ '?' :: '>' :: spelling.spell nodes).length
    (by simp only [List.length_append, List.length_cons]; omega)
  simp only [Spelling.spellDocument, readDeclaration, reads, declares, if_true]

/-- What a reader gives of a document that was written by these spellings. -/
theorem parse_spellDocument {nodes : List Node} (named : ∀ node ∈ nodes, node.Named)
    (valid : (spelling.spellDocument declaration nodes).all isChar = true) :
    parse (spelling.spellDocument declaration nodes) = rootOf nodes := by
  have tokenizes := spell_tokenizes spelling named
  have lines : '\r' ∉ spelling.spellDocument declaration nodes := by
    simp only [Spelling.spellDocument, Spelling.spell, Spelling.spellTokens, List.mem_cons,
      List.mem_append, List.mem_flatMap, Char.reduceEq, false_or]
    rintro (⟨named, member, inside⟩ | ⟨token, member, inside⟩)
    · exact spellAttributes_line spelling names (List.mem_flatMap.mpr ⟨named, member, inside⟩)
    · exact spellToken_line spelling (tokenizes.named token member) inside
  have tokens := readTokens_spelled spelling tokenizes.named le_rfl
  rw [parse, if_pos valid, normalizeLineEnds_of_not_mem lines,
    readDeclaration_spelled spelling declares names]
  rw [Spelling.spell]
  simp only [Option.bind_eq_bind, Option.bind_some, tokens]
  exact build_of_tokenizes tokenizes

end Documents

end Xml
