import Mathlib.Algebra.Order.Ring.Int
import Mathlib.Data.List.Basic

/-!
# XML 1.0

A reader for documents without a document type, comments, processing instructions
and CDATA sections: line ends are normalized first, then tags and characters are
read with their references, then tags are matched.  Text is kept one character a
node.
-/

set_option autoImplicit false

namespace Xml

/-! ## Characters -/

def within (ranges : List (Nat × Nat)) (character : Char) : Bool :=
  ranges.any fun (low, high) => low ≤ character.toNat && character.toNat ≤ high

def isChar (character : Char) : Bool :=
  within [(0x9, 0xa), (0xd, 0xd), (0x20, 0xd7ff), (0xe000, 0xfffd), (0x10000, 0x10ffff)] character

def isSpace (character : Char) : Bool :=
  within [(0x9, 0xa), (0xd, 0xd), (0x20, 0x20)] character

def isNameStart (character : Char) : Bool :=
  within [(0x3a, 0x3a), (0x41, 0x5a), (0x5f, 0x5f), (0x61, 0x7a), (0xc0, 0xd6), (0xd8, 0xf6),
    (0xf8, 0x2ff), (0x370, 0x37d), (0x37f, 0x1fff), (0x200c, 0x200d), (0x2070, 0x218f),
    (0x2c00, 0x2fef), (0x3001, 0xd7ff), (0xf900, 0xfdcf), (0xfdf0, 0xfffd),
    (0x10000, 0xeffff)] character

def isNameChar (character : Char) : Bool :=
  isNameStart character ||
    within [(0x2d, 0x2e), (0x30, 0x39), (0xb7, 0xb7), (0x300, 0x36f), (0x203f, 0x2040)] character

def isName (name : String) : Bool :=
  match name.toList with
  | [] => false
  | first :: rest => isNameStart first && rest.all isNameChar

/-- A carriage return, with a line feed after it or not, is one line feed. -/
def normalizeLineEnds : List Char → List Char
  | [] => []
  | '\r' :: '\n' :: rest => '\n' :: normalizeLineEnds rest
  | '\r' :: rest => '\n' :: normalizeLineEnds rest
  | character :: rest => character :: normalizeLineEnds rest

/-! ## References -/

def digit (base : Nat) (character : Char) : Option Nat :=
  let value :=
    if within [(0x30, 0x39)] character then some (character.toNat - 0x30)
    else if within [(0x41, 0x46)] character then some (character.toNat - 0x37)
    else if within [(0x61, 0x66)] character then some (character.toNat - 0x57)
    else none
  value.filter (· < base)

def number (base : Nat) (digits : List Char) : Option Nat :=
  if digits = [] then none
  else digits.foldlM (fun value character => (digit base character).map (value * base + ·)) 0

def characterReference (code : Nat) : Option Char :=
  if code.isValidChar then (some (Char.ofNat code)).filter isChar else none

/-- What stands between `&` and `;`. -/
def reference : List Char → Option Char
  | '#' :: 'x' :: digits => (number 16 digits).bind characterReference
  | '#' :: digits => (number 10 digits).bind characterReference
  | ['a', 'm', 'p'] => some '&'
  | ['l', 't'] => some '<'
  | ['g', 't'] => some '>'
  | ['a', 'p', 'o', 's'] => some '\''
  | ['q', 'u', 'o', 't'] => some '"'
  | _ => none

def readReference (characters : List Char) : Option (Char × List Char) :=
  match characters.dropWhile (· != ';') with
  | ';' :: rest => (reference (characters.takeWhile (· != ';'))).map (·, rest)
  | _ => none

/-! ## Tags and characters -/

def skipSpace (characters : List Char) : List Char := characters.dropWhile isSpace

def readName : List Char → Option (String × List Char)
  | [] => none
  | first :: rest =>
    if isNameStart first then
      some (String.ofList (first :: rest.takeWhile isNameChar), rest.dropWhile isNameChar)
    else none

/-- White space in an attribute value is a space, unless it is written as a reference. -/
def readAttributeChar : List Char → Option (Char × List Char)
  | [] => none
  | '<' :: _ => none
  | '&' :: rest => readReference rest
  | character :: rest => some (if isSpace character then ' ' else character, rest)

def readAttributeValue (quote : Char) : Nat → List Char → Option (List Char × List Char)
  | 0, _ => none
  | _ + 1, [] => none
  | fuel + 1, first :: rest =>
    if first = quote then some ([], rest)
    else do
      let (character, rest) ← readAttributeChar (first :: rest)
      let (others, rest) ← readAttributeValue quote fuel rest
      pure (character :: others, rest)

def readAttribute (characters : List Char) : Option ((String × String) × List Char) := do
  let (name, rest) ← readName characters
  match skipSpace rest with
  | '=' :: rest =>
    match skipSpace rest with
    | quote :: rest =>
      if quote = '"' ∨ quote = '\'' then
        let (value, rest) ← readAttributeValue quote rest.length rest
        pure ((name, String.ofList value), rest)
      else none
    | [] => none
  | _ => none

/-- An attribute has white space before it; white space may also end the tag. -/
def readAttributes : Nat → List Char → Option (List (String × String) × List Char)
  | 0, _ => none
  | fuel + 1, characters =>
    match characters, skipSpace characters with
    | space :: _, first :: rest =>
      if isSpace space ∧ isNameStart first then do
        let (named, rest) ← readAttribute (first :: rest)
        let (others, rest) ← readAttributes fuel rest
        pure (named :: others, rest)
      else some ([], first :: rest)
    | _, rest => some ([], rest)

inductive Token where
  | start (name : String) (attributes : List (String × String))
  | empty (name : String) (attributes : List (String × String))
  | stop (name : String)
  | char (character : Char)

/-- Character data holds neither markup nor the end of a CDATA section. -/
def readContentChar : List Char → Option (Char × List Char)
  | [] => none
  | '<' :: _ => none
  | '&' :: rest => readReference rest
  | ']' :: ']' :: '>' :: _ => none
  | character :: rest => some (character, rest)

def readTag (characters : List Char) : Option (Token × List Char) := do
  let (name, rest) ← readName characters
  let (attributes, rest) ← readAttributes rest.length rest
  if (attributes.map Prod.fst).Nodup then
    match rest with
    | '>' :: rest => some (.start name attributes, rest)
    | '/' :: '>' :: rest => some (.empty name attributes, rest)
    | _ => none
  else none

def readEndTag (characters : List Char) : Option (Token × List Char) := do
  let (name, rest) ← readName characters
  match skipSpace rest with
  | '>' :: rest => some (.stop name, rest)
  | _ => none

def readToken : List Char → Option (Token × List Char)
  | '<' :: '/' :: rest => readEndTag rest
  | '<' :: rest => readTag rest
  | characters =>
    (readContentChar characters).map fun (character, rest) => (.char character, rest)

def readTokens : Nat → List Char → Option (List Token)
  | _, [] => some []
  | 0, _ :: _ => none
  | fuel + 1, first :: rest => do
    let (token, rest) ← readToken (first :: rest)
    let others ← readTokens fuel rest
    pure (token :: others)

/-! ## Elements -/

inductive Node where
  | element (name : String) (attributes : List (String × String)) (children : List Node)
  | char (character : Char)

/-- An element that is still open. -/
structure Frame where
  name : String
  attributes : List (String × String)
  children : List Node

def Frame.add (frame : Frame) (nodes : List Node) : Frame :=
  { frame with children := frame.children ++ nodes }

def Frame.close (frame : Frame) : Node := .element frame.name frame.attributes frame.children

def step : List Frame → Token → Option (List Frame)
  | frame :: stack, .char character => some (frame.add [.char character] :: stack)
  | frame :: stack, .empty name attributes =>
    some (frame.add [.element name attributes []] :: stack)
  | stack, .start name attributes => some (⟨name, attributes, []⟩ :: stack)
  | frame :: parent :: stack, .stop name =>
    if frame.name = name then some (parent.add [frame.close] :: stack) else none
  | _, _ => none

/-- One element, with nothing but white space around it. -/
def rootOf : List Node → Option Node
  | [] => none
  | .char character :: rest => if isSpace character then rootOf rest else none
  | .element name attributes children :: rest =>
    if rest.all (fun node => match node with
      | .char character => isSpace character
      | .element _ _ _ => false) then some (.element name attributes children)
    else none

def build (tokens : List Token) : Option Node :=
  match tokens.foldlM step [⟨"", [], []⟩] with
  | some [document] => rootOf document.children
  | _ => none

/-! ## Documents -/

def validDeclaration (attributes : List (String × String)) : Bool :=
  attributes.lookup "version" = some "1.0" &&
    (attributes.lookup "encoding").all (fun encoding =>
      encoding.toList.map Char.toUpper = "UTF-8".toList)

/-- The XML declaration, if there is one. -/
def readDeclaration : List Char → Option (List Char)
  | '<' :: '?' :: 'x' :: 'm' :: 'l' :: rest =>
    match readAttributes rest.length rest with
    | some (attributes, '?' :: '>' :: rest) =>
      if validDeclaration attributes then some rest else none
    | _ => none
  | characters => some characters

def parse (characters : List Char) : Option Node :=
  if characters.all isChar then do
    let rest ← readDeclaration (normalizeLineEnds characters)
    let tokens ← readTokens rest.length rest
    build tokens
  else none

end Xml
