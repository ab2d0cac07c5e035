import ZedRegistry.Access
import ZedRegistry.GraphDocument

/-!
# Negotiation of graph representations

The `Accept`, `format` and `If-None-Match` handling of `graph.rs` and
`graph_exports/mod.rs`.  A field line is `none` when its bytes are not text.
-/

set_option autoImplicit false

namespace ZedRegistry

inductive DependencyGraphFormat where
  | json
  | yaml
  | toml
  | dot
  | mermaid
  deriving DecidableEq

inductive GraphExportFormat where
  | json5
  | xml
  | csv
  | messagePack
  | protobuf
  deriving DecidableEq

/-- The fixed order of the canonical formats. -/
def DependencyGraphFormat.all : List DependencyGraphFormat := [.json, .yaml, .toml, .dot, .mermaid]

/-- What the contract crate says of the formats, and its `parse_name`. -/
structure GraphFormats where
  canonical : DependencyGraphFormat → Representation
  extended : GraphExportFormat → Representation
  parseExportName : String → Option GraphExportFormat

/-- The request headers that graph reads look at. -/
structure GraphHeaders where
  authorization : Option String
  accept : List (Option String)
  ifNoneMatch : List (Option String)

def unsupportedFormat (message : String) : ApiErr := ⟨406, "unsupported_format", message⟩

def sameIgnoringCase (left right : List Char) : Bool :=
  left.map Char.toLower = right.map Char.toLower

/-! ## Media ranges -/

def trimQuotes (text : List Char) : List Char :=
  ((text.dropWhile (· = '"')).reverse.dropWhile (· = '"')).reverse

/-- `parse_accept_quality` and `parse_quality`: thousandths. -/
def parseQuality (value : List Char) : Option Nat :=
  let (whole, fraction) := (splitOnce '.' value).getD (value, [])
  if 3 < fraction.length ∨ fraction.all Char.isDigit = false then none
  else
    let thousandths := Nat.ofDigitChars 10 (fraction ++ List.replicate (3 - fraction.length) '0') 0
    if whole = ['0'] then some thousandths
    else if whole = ['1'] ∧ thousandths = 0 then some 1000
    else none

/-- The parameters of one media range: how many are registered ones, and the quality. -/
def matchParameters (registered : List (List Char × List Char)) (specificity : Nat) :
    List (List Char) → Option (Nat × Nat)
  | [] => some (specificity, 1000)
  | parameter :: rest =>
    match splitOnce '=' (trimText parameter) with
    | none => matchParameters registered specificity rest
    | some (name, value) =>
      if sameIgnoringCase (trimText name) ['q'] then
        some (specificity, (parseQuality (trimText value)).getD 0)
      else if registered.any fun other =>
          sameIgnoringCase (trimText name) (trimText other.1) &&
            sameIgnoringCase (trimQuotes (trimText value)) (trimQuotes (trimText other.2)) then
        matchParameters registered (min (specificity + 1) 65535) rest
      else none

def mediaSpecificity (requested registered : List Char × List Char) : Option Nat :=
  if requested = (['*'], ['*']) then some 0
  else if requested.2 = ['*'] ∧ requested.1 = registered.1 then some 1
  else if requested = registered then some 2
  else none

/-- `canonical_accept_match` and `accept_match`: specificity and quality. -/
def acceptMatch (entry : List Char) (registered : String) : Option (Nat × Nat) := do
  let parts := entry.splitOn ';'
  let requested ← splitOnce '/' ((trimText parts.headI).map Char.toLower)
  let registeredParts := registered.toList.splitOn ';'
  let registeredMedia ← splitOnce '/' (trimText registeredParts.headI)
  let registeredParameters := registeredParts.tail.filterMap fun parameter =>
    splitOnce '=' (trimText parameter)
  let media ← mediaSpecificity requested registeredMedia
  let (specificity, quality) ← matchParameters registeredParameters 0 parts.tail
  pure (media * 256 + min specificity 255, quality)

/-- A match replaces the one selected so far when it is more specific, or as
specific with a higher quality. -/
def preferMatch (registered : String) (selected : Option (Nat × Nat)) (entry : List Char) :
    Option (Nat × Nat) :=
  match acceptMatch entry registered with
  | none => selected
  | some candidate =>
    if selected.all fun current =>
        decide (current.1 < candidate.1 ∨ candidate.1 = current.1 ∧ current.2 < candidate.2) then
      some candidate
    else selected

/-! ## The canonical route -/

/-- The field lines, all of which have to be text. -/
def fieldLines (refusal : ApiErr) (lines : List (Option String)) : ApiResult (List (List Char)) :=
  lines.mapM fun line => (okOrElse line refusal).map String.toList

/-- The formats in their order, each with its positive quality.  The loop over the
formats of one entry touches each format's selection by itself. -/
def parseAccept (formats : GraphFormats) (accept : List (Option String)) :
    ApiResult (Option (List (DependencyGraphFormat × Nat))) := do
  let lines ← fieldLines (unsupportedFormat "no acceptable dependency graph representation") accept
  let entries := (lines.flatMap fun line => line.splitOn ',').filter fun entry =>
    trimText entry ≠ []
  if entries = [] then pure none
  else
    pure (some (DependencyGraphFormat.all.filterMap fun format =>
      ((entries.foldl (preferMatch (formats.canonical format).mediaType) none).filter
        fun selected => decide (0 < selected.2)).map fun selected => (format, selected.2)))

def parseFormatName (value : String) : Option DependencyGraphFormat :=
  let name := asciiLowercase value
  if name = "json" then some .json
  else if name = "yaml" ∨ name = "yml" then some .yaml
  else if name = "toml" then some .toml
  else if name = "dot" ∨ name = "graphviz" then some .dot
  else if name = "mermaid" ∨ name = "mmd" then some .mermaid
  else none

def betterQuality (selected : Option (DependencyGraphFormat × Nat))
    (candidate : DependencyGraphFormat × Nat) : Option (DependencyGraphFormat × Nat) :=
  match selected with
  | some current => if candidate.2 ≤ current.2 then some current else some candidate
  | none => some candidate

def resolveFormat (formats : GraphFormats) (accept : List (Option String))
    (formatQuery : Option String) : ApiResult DependencyGraphFormat := do
  let fromQuery ← formatQuery.mapM fun value => okOrElse (parseFormatName value)
    (unsupportedFormat ("unsupported dependency graph format `" ++ value ++ "`"))
  let accepted ← parseAccept formats accept
  match fromQuery, accepted with
  | some format, none => pure format
  | some format, some accepted =>
    if accepted.any fun entry => decide (entry.1 = format) then pure format
    else .error ⟨406, "format_conflict", "requested graph representations conflict"⟩
  | none, none => pure .json
  | none, some accepted =>
    okOrElse ((accepted.foldl betterQuality none).map Prod.fst)
      (unsupportedFormat "no acceptable dependency graph representation")

/-! ## The export route -/

def ensureAcceptable (registered : String) (accept : List (Option String)) : ApiResult Unit := do
  let refusal := unsupportedFormat "requested export format is not acceptable"
  let lines ← fieldLines refusal accept
  let nonempty := lines.filter fun line => trimText line ≠ []
  let selected :=
    (nonempty.flatMap fun line => line.splitOn ',').foldl (preferMatch registered) none
  ensure (nonempty = [] ∨ ∃ chosen ∈ selected, 0 < chosen.2) refusal

/-! ## Conditional requests and file names -/

def ifNoneMatchMatches (ifNoneMatch : List (Option String)) (etag : String) : Bool :=
  ((ifNoneMatch.filterMap id).flatMap fun value => value.toList.splitOn ',').any fun entry =>
    let candidate := trimText entry
    candidate = ['*'] || (candidate.dropPrefix? "W/".toList).getD candidate = etag.toList

def safeFilenameChar (char : Char) : Char :=
  if char.isAlphanum || char = '.' || char = '-' || char = '+' then char else '_'

def filenameStem (org name version : String) : String :=
  String.ofList (['_'].intercalate ([org, name, version].map fun part =>
    part.toList.map safeFilenameChar))

example : parseQuality "0.35".toList = some 350 := by decide

example : filenameStem "acme" "http kit" "1.0.0+x" = "acme_http_kit_1.0.0+x" := by decide

end ZedRegistry
