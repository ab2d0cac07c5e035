import ZedRegistry.Access
import ZedRegistry.BinaryContract
import ZedRegistry.Lib.JsonText

/-!
# Text projections of the canonical JSON

What the YAML and TOML arms of `encode` in `routes/graph.rs` share: the canonical
document is parsed again, written out as text, and every string in it is a JSON
string literal.
-/

set_option autoImplicit false

namespace ZedRegistry.GraphText

open JsonText

def jsonString (text : String) : List Char := quote text

/-- `parse` is `serde_json::from_slice`. -/
def encodeText (parse : Bytes → Except String JsonValue)
    (write : JsonValue → ApiResult (List Char)) (canonical : Bytes) : ApiResult Bytes := do
  let value ← (parse canonical).mapError fun _ => .internal
  let text ← write value
  pure (asBytes (String.ofList text))

theorem encodeText_of_parsed {parse : Bytes → Except String JsonValue}
    {write : JsonValue → ApiResult (List Char)} {canonical : Bytes} {value : JsonValue}
    {text : List Char} (parsed : parse canonical = .ok value) (written : write value = .ok text) :
    encodeText parse write canonical = .ok (asBytes (String.ofList text)) := by
  simp only [encodeText, parsed, Except.mapError, bind, Except.bind, written]
  rfl

/-! ## Documents -/

/-- What the canonical JSON of a document is made of.  The contract omits absent members
instead of spelling them `null`, has no floats and no list of lists, and names members by
the fields of its types; the numbers are depths of 32 bits. -/
inductive Canonical : JsonValue → Prop where
  | bool (value : Bool) : Canonical (.bool value)
  | number (number : JsonNumber) (value : Int) (isInt : number.toInt? = some value)
      (fits : value < 2 ^ 63) : Canonical (.number number)
  | string (text : String) : Canonical (.string text)
  | array (items : List JsonValue) (flat : ∀ inner, .array inner ∉ items)
      (all : ∀ item ∈ items, Canonical item) : Canonical (.array items)
  | object (members : List (String × JsonValue)) (distinct : (members.map Prod.fst).Nodup)
      (short : ∀ member ∈ members, member.1.length ≤ 100)
      (all : ∀ member ∈ members, Canonical member.2) : Canonical (.object members)

namespace Canonical

theorem isInt {number : JsonNumber} (canonical : Canonical (.number number)) :
    number.toInt?.isSome = true := by
  cases canonical with
  | number _ value isInt fits => rw [isInt, Option.isSome_some]

theorem item {items : List JsonValue} (canonical : Canonical (.array items)) :
    ∀ item ∈ items, Canonical item := by
  cases canonical with
  | array _ flat all => exact all

theorem flat {items : List JsonValue} (canonical : Canonical (.array items)) :
    ∀ inner, .array inner ∉ items := by
  cases canonical with
  | array _ flat all => exact flat

theorem child {members : List (String × JsonValue)} (canonical : Canonical (.object members)) :
    ∀ member ∈ members, Canonical member.2 := by
  cases canonical with
  | object _ distinct short all => exact all

theorem short {members : List (String × JsonValue)} (canonical : Canonical (.object members)) :
    ∀ member ∈ members, member.1.length ≤ 100 := by
  cases canonical with
  | object _ distinct short all => exact short

theorem distinct {members : List (String × JsonValue)} (canonical : Canonical (.object members)) :
    (members.map Prod.fst).Nodup := by
  cases canonical with
  | object _ distinct short all => exact distinct

end Canonical

theorem contains_eq_false {key : String} {keys : List String} (absent : key ∉ keys) :
    keys.contains key = false := by
  rw [List.contains_eq_mem]
  exact decide_eq_false absent

mutual

/-- The strings and the keys of a value. -/
def texts : JsonValue → List String
  | .string text => [text]
  | .array items => itemTexts items
  | .object members => memberTexts members
  | .null | .bool _ | .number _ => []

def itemTexts : List JsonValue → List String
  | [] => []
  | item :: rest => texts item ++ itemTexts rest

def memberTexts : List (String × JsonValue) → List String
  | [] => []
  | (key, child) :: rest => key :: (texts child ++ memberTexts rest)

end

/-! ## A small document -/

def sampleMembers (feature : String) : List (String × JsonValue) :=
  [("graph", .object [("features", .array [.string feature]), ("max_depth", .number (.posInt 3
    (by omega)))]), ("schema", .string "zpkg/dependency-graph/v1")]

theorem sampleMembers_canonical (feature : String) :
    Canonical (.object (sampleMembers feature)) := by
  have features : Canonical (.array [.string feature]) := by
    apply Canonical.array
    · simp
    · simpa using Canonical.string feature
  have depth := Canonical.number (.posInt 3 (by omega)) 3 rfl (by omega)
  have graph : Canonical (.object [("features", .array [.string feature]), ("max_depth",
      .number (.posInt 3 (by omega)))]) := by
    apply Canonical.object
    · exact (by decide : ["features", "max_depth"].Nodup)
    · simp only [List.forall_mem_cons]
      exact ⟨by decide +revert, by decide, by simp⟩
    · simpa using ⟨features, depth⟩
  apply Canonical.object
  · exact (by decide : ["graph", "schema"].Nodup)
  · simp only [sampleMembers, List.forall_mem_cons]
    exact ⟨by decide +revert, by decide, by simp⟩
  · simpa [sampleMembers] using ⟨graph, Canonical.string _⟩

def sampleCanonical (literal : String) : Bytes :=
  asBytes ("\x7b\"graph\":\x7b\"features\":[" ++ literal ++
    "],\"max_depth\":3\x7d,\"schema\":\"zpkg/dependency-graph/v1\"\x7d")

def sampleParse (literal feature : String) (bytes : Bytes) : Except String JsonValue :=
  if bytes = sampleCanonical literal then .ok (.object (sampleMembers feature))
  else .error "expected value"

end ZedRegistry.GraphText
