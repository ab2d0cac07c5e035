import ZedRegistry.GraphText
import ZedRegistry.Lib.Toml

/-!
# The TOML rendering of a graph

`write_toml` of `routes/graph.rs`, and its output read back by the rules of TOML 1.0.
-/

set_option autoImplicit false

namespace ZedRegistry

open JsonText GraphText

namespace TomlExport

/-! ## The writer -/

section Writer

variable (floatText : UInt64 → List Char)

mutual

def tomlInline : JsonValue → List Char
  | .string text => jsonString text
  | .number number => numberText floatText number
  | .bool flag => if flag then "true".toList else "false".toList
  | .null => "\"\"".toList
  | .array items => '[' :: (List.intercalate ", ".toList (tomlInlineItems items) ++ [']'])
  | .object members =>
    "\x7b ".toList ++ (List.intercalate ", ".toList (tomlInlineMembers members) ++ " \x7d".toList)

def tomlInlineItems : List JsonValue → List (List Char)
  | [] => []
  | item :: rest => tomlInline item :: tomlInlineItems rest

def tomlInlineMembers : List (String × JsonValue) → List (List Char)
  | [] => []
  | (key, child) :: rest =>
    (jsonString key ++ (" = ".toList ++ tomlInline child)) :: tomlInlineMembers rest

end

def isTomlTable : JsonValue → Bool
  | .object members => !members.isEmpty
  | _ => false

def isObject : JsonValue → Bool
  | .object _ => true
  | _ => false

def isTomlArrayOfTables : JsonValue → Bool
  | .array items => !items.isEmpty && items.all isObject
  | _ => false

/-- The line of one key and its inline value. -/
def tomlLine (member : String × JsonValue) : List Char :=
  jsonString member.1 ++ (" = ".toList ++ (tomlInline floatText member.2 ++ ['\n']))

def tomlTable (member : String × JsonValue) : List Char :=
  if isTomlTable member.2 then
    "\n[".toList ++ (jsonString member.1 ++ ("]\n".toList ++
      match member.2 with
      | .object table => table.flatMap (tomlLine floatText)
      | _ => []))
  else []

def tomlArrayOfTables (member : String × JsonValue) : List Char :=
  if isTomlArrayOfTables member.2 then
    match member.2 with
    | .array items => items.flatMap fun item =>
      "\n[[".toList ++ (jsonString member.1 ++ ("]]\n".toList ++
        match item with
        | .object table => table.flatMap (tomlLine floatText)
        | _ => []))
    | _ => []
  else []

def writeToml : JsonValue → ApiResult (List Char)
  | .object root =>
    .ok ((root.flatMap fun member =>
        if isTomlTable member.2 || isTomlArrayOfTables member.2 then []
        else tomlLine floatText member) ++
      (root.flatMap (tomlTable floatText) ++ root.flatMap (tomlArrayOfTables floatText)))
  | _ => .error .internal

/-- The TOML arm of `encode`. -/
def encodeToml (parse : Bytes → Except String JsonValue) (canonical : Bytes) : ApiResult Bytes :=
  encodeText parse (writeToml floatText) canonical

end Writer

end TomlExport

end ZedRegistry
