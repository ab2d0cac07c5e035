import ZedRegistry.GraphText
import ZedRegistry.Lib.Yaml

/-!
# The YAML rendering of a graph

`write_yaml` of `routes/graph.rs`, and its output read back by the rules of YAML 1.1
and 1.2.
-/

set_option autoImplicit false

namespace ZedRegistry

open JsonText GraphText

namespace YamlExport

/-! ## The writer -/

def yamlScalarKey (key : String) : List Char := jsonString key

def nonemptyObject : JsonValue → Bool
  | .object members => !members.isEmpty
  | _ => false

def nonemptyArray : JsonValue → Bool
  | .array items => !items.isEmpty
  | _ => false

def pad (indent : Nat) : List Char := List.replicate (2 * indent) ' '

section Writer

variable (floatText : UInt64 → List Char)

mutual

def writeYaml : JsonValue → Nat → List Char
  | .object [], _ => "\x7b\x7d\n".toList
  | .object (member :: members), indent => writeYamlMembers (member :: members) 0 indent
  | .array [], _ => "[]\n".toList
  | .array (item :: items), indent => writeYamlItems (item :: items) indent
  | .string text, _ => jsonString text ++ ['\n']
  | .number number, _ => numberText floatText number ++ ['\n']
  | .bool flag, _ => (if flag then "true".toList else "false".toList) ++ ['\n']
  | .null, _ => "\"\"\n".toList

def writeYamlMembers : List (String × JsonValue) → Nat → Nat → List Char
  | [], _, _ => []
  | (key, child) :: rest, index, indent =>
    (if 0 < index ∨ 0 < indent then pad indent else []) ++
      (yamlScalarKey key ++ (':' ::
        ((if nonemptyObject child || nonemptyArray child then '\n' else ' ') ::
          writeYaml child (indent + 1)))) ++
      writeYamlMembers rest (index + 1) indent

/-- The first key of an object rides the dash; the rest align under it. -/
def writeYamlItems : List JsonValue → Nat → List Char
  | [], _ => []
  | item :: rest, indent =>
    pad indent ++
      ('-' :: ' ' ::
        (if nonemptyObject item then (writeYaml item (indent + 1)).dropWhile (· == ' ')
          else writeYaml item (indent + 1))) ++
      writeYamlItems rest indent

end

/-- The YAML arm of `encode`. -/
def encodeYaml (parse : Bytes → Except String JsonValue) (canonical : Bytes) : ApiResult Bytes :=
  encodeText parse (fun value => pure (writeYaml floatText value 0)) canonical

end Writer

end YamlExport

end ZedRegistry
