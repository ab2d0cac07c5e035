import ZedRegistry.GraphText
import ZedRegistry.Lib.BoundedOutput
import ZedRegistry.XmlElements

/-!
# Drawings of a graph

`render_dot` and `render_mermaid` of `routes/graph.rs`: the DOT and Mermaid texts that
people and Graphviz look at.  Every line but the heading is checked before it is added.
-/

set_option autoImplicit false

namespace ZedRegistry.GraphDrawing

open BoundedOutput GraphText
open XmlExport (utf8Length utf8Length_append)

abbrev GraphWriter := Writer ApiErr Char Unit

/-! ## Lines -/

section Lines

variable (sha256 : Bytes → String)

/-- The first eight bytes of the digest in hexadecimal. -/
def graphNodeId (text : String) : String :=
  "n" ++ String.ofList ((sha256 (asBytes text)).toList.take 16)

def plainInLabel (character : Char) : Bool :=
  character.isAlphanum || [' ', '.', '_', ':', '/', '@', '+', '-', '^', '=', ','].contains character

/-- `_u{:X}_` of the code point. -/
def labelToken (character : Char) : List Char :=
  "_u".toList ++ ((Nat.toDigits 16 character.toNat).map Char.toUpper ++ ['_'])

def mermaidSafeLabel (text : String) : String :=
  String.ofList (text.toList.flatMap fun character =>
    if plainInLabel character then [character] else labelToken character)

def dependencyTarget (dependency : DeclaredDependency) : String :=
  dependency.registryId ++ "::" ++ dependency.org ++ "/" ++ dependency.name ++ " " ++
    dependency.requirement

def dotBox (text : String) : String :=
  "  " ++ graphNodeId sha256 text ++ " [label=" ++ String.ofList (jsonString text) ++
    ", shape=box];\n"

def dotTarget (text : String) : String :=
  "  " ++ graphNodeId sha256 text ++ " [label=" ++ String.ofList (jsonString text) ++ "];\n"

def dotArrow (source destination : String) : String :=
  "  " ++ graphNodeId sha256 source ++ " -> " ++ graphNodeId sha256 destination ++ ";\n"

def mermaidLabel (text : String) : String :=
  "  " ++ graphNodeId sha256 text ++ "[\"" ++ mermaidSafeLabel text ++ "\"]\n"

def mermaidArrow (source destination : String) : String :=
  "  " ++ graphNodeId sha256 source ++ " --> " ++ graphNodeId sha256 destination ++ "\n"

end Lines

section Drawings

-- `display` is `to_string` of an identity, which the contract crate defines.
variable {I : Interfaces} (contract : GraphContract I) (display : PackageVersionIdentity → String)

def pushGraphText (value : String) : GraphWriter := fun output => do
  let length ← okOrElse (checkedAdd (utf8Length output) (utf8Length value.toList))
    representationTooLarge
  ensureEncodedSize contract length
  pure ((), output ++ value.toList)

/-! ## DOT -/

def dotHeading : String :=
  "// Non-authoritative rendering of a zpkg/dependency-graph/v1 document.\n" ++
    "// Use the JSON, YAML, or TOML representation for interchange.\n" ++
    "digraph zpkg \x7b\n  rankdir=LR;\n"

def dotGraph : DependencyGraphData → GraphWriter
  | .declared package dependencies => do
    let root := display package
    pushGraphText contract (dotBox I.sha256 root)
    dependencies.forM fun dependency => do
      let target := dependencyTarget dependency
      pushGraphText contract (dotTarget I.sha256 target)
      pushGraphText contract (dotArrow I.sha256 root target)
  | .resolved _ _ nodes edges _ _ _ => do
    nodes.forM fun node => pushGraphText contract (dotBox I.sha256 (display node.id))
    edges.forM fun edge =>
      pushGraphText contract (dotArrow I.sha256 (display edge.source) (display edge.destination))

def dotDocument (document : DependencyGraphDocument) : GraphWriter := do
  dotGraph contract display document.graph
  pushGraphText contract "\x7d\n"

def renderDot (document : DependencyGraphDocument) : ApiResult Bytes := do
  let (_, out) ← (dotDocument contract display document).run dotHeading.toList
  pure (asBytes (String.ofList out))

/-! ## Mermaid -/

def mermaidHeading : String :=
  "%% Non-authoritative rendering of a zpkg/dependency-graph/v1 document.\n" ++
    "%% Use the JSON, YAML, or TOML representation for interchange.\n" ++
    "graph LR\n"

def mermaidGraph : DependencyGraphData → GraphWriter
  | .declared package dependencies => do
    let root := display package
    pushGraphText contract (mermaidLabel I.sha256 root)
    dependencies.forM fun dependency => do
      let target := dependencyTarget dependency
      pushGraphText contract (mermaidLabel I.sha256 target)
      pushGraphText contract (mermaidArrow I.sha256 root target)
  | .resolved _ _ nodes edges _ _ _ => do
    nodes.forM fun node => pushGraphText contract (mermaidLabel I.sha256 (display node.id))
    edges.forM fun edge =>
      pushGraphText contract
        (mermaidArrow I.sha256 (display edge.source) (display edge.destination))

def renderMermaid (document : DependencyGraphDocument) : ApiResult Bytes := do
  let (_, out) ← (mermaidGraph contract display document.graph).run mermaidHeading.toList
  pure (asBytes (String.ofList out))

end Drawings

end ZedRegistry.GraphDrawing
