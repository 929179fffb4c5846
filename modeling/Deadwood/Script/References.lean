import Deadwood.Script.Parse
import Deadwood.Reference

/-!
# References in a script

Three passes over a syntax tree find the sources of imports and exports, the
strings given to dynamic imports, and the values of markup attributes.  Each
pass follows the source from front to back.
-/

namespace Deadwood.Script

/-- Whether a node stands in its parent under a label. -/
def Node.hasLabel (node : Node) (label : Label) : Bool := node.label == some label

/-- Whether a node is the call of a dynamic import. -/
def Node.isImportCall (node : Node) : Bool :=
  node.kind == .call && node.children.any fun child => child.hasLabel .function && child.kind == .importWord

mutual

/-- The strings that are sources of imports and exports. -/
def Node.importSources : Node → List Node
  | .mk kind _ _ _ children => importSourcesOf (kind == .importStatement || kind == .exportStatement) children

/-- The sources among the children of a node and below; `direct` if the node is an import or export. -/
def importSourcesOf (direct : Bool) : List Node → List Node
  | [] => []
  | child :: rest =>
    (if direct && child.hasLabel .source && child.kind == .string then [child] else []) ++
      child.importSources ++ importSourcesOf direct rest

end

mutual

/-- The strings given directly to dynamic imports; `given` if the node holds the arguments of one. -/
def Node.dynamicSources (given : Bool) : Node → List Node
  | .mk kind label start stop children =>
    dynamicSourcesOf given ((Node.mk kind label start stop children).isImportCall) children

/-- The strings among children and below; `given` if they are arguments of a dynamic import, `called` if their parent
is the call of one. -/
def dynamicSourcesOf (given called : Bool) : List Node → List Node
  | [] => []
  | child :: rest =>
    (if given && child.kind == .string then [child] else []) ++
      child.dynamicSources (called && child.hasLabel .arguments && child.kind == .arguments) ++
      dynamicSourcesOf given called rest

end

mutual

/-- The markup attributes of a tree. -/
def Node.attributes : Node → List Node
  | .mk kind label start stop children =>
    (if kind == .markupAttribute then [.mk kind label start stop children] else []) ++ attributesOf children

/-- The markup attributes among some nodes and below. -/
def attributesOf : List Node → List Node
  | [] => []
  | node :: rest => node.attributes ++ attributesOf rest

end

/-- A pass over a syntax tree. -/
inductive Pass where
  | imports
  | dynamicImports
  | attributes
  deriving DecidableEq, Repr

/-- The name of a pass. -/
def Pass.name : Pass → String
  | imports => "import"
  | dynamicImports => "dynamic_import"
  | attributes => "jsx_attribute"

/-- The nodes that a pass finds. -/
def Pass.nodes : Pass → Node → List Node
  | imports, tree => tree.importSources
  | dynamicImports, tree => tree.dynamicSources false
  | attributes, tree => tree.attributes

/-- The passes over the trees of a dialect. -/
def Dialect.passes : Dialect → List Pass
  | .plain => [.imports, .dynamicImports]
  | .markup => [.imports, .dynamicImports, .attributes]

/-- What stands between the quotes of a string. -/
def stringValue (source : List Char) (node : Node) : List Char :=
  ((node.text source).drop 1).dropLast

/-- Cuts the text of a template at its holes, from where the next piece begins. -/
def cutTemplate (source : List Char) (stop : Nat) : Nat → List Node → List (List Char)
  | start, [] => [(source.drop start).take (stop - start)]
  | start, hole :: holes =>
    (source.drop start).take (hole.start - start) :: cutTemplate source stop hole.stop holes

/-- The pieces of a template before, between and after its holes. -/
def templatePieces (source : List Char) (node : Node) : List (List Char) :=
  cutTemplate source (node.stop - 1) (node.start + 1) (node.children.filter (·.kind == .substitution))

/-- The pieces of a template that are not empty. -/
def templateSegments (source : List Char) (node : Node) : List (List Char) :=
  (templatePieces source node).filter (!·.isEmpty)

/-- The texts that a string or a template holds. -/
def literalTexts (source : List Char) (value : Node) : List (List Char) :=
  match value.kind with
  | .string => [stringValue source value]
  | .template => templateSegments source value
  | _ => []

/-- The texts of an attribute's value: a literal, or the literal that stands first in braces. -/
def attributeTexts (source : List Char) (node : Node) : List (List Char) :=
  match node.children with
  | _ :: second :: more =>
    let value := (second :: more).getLastD second
    if value.kind == .braces then
      match value.children with
      | first :: _ => literalTexts source first
      | [] => []
    else literalTexts source value
  | _ => []

/-- What a pass finds in a tree. -/
def Pass.references (source : List Char) (tree : Node) : Pass → List (Site × Text)
  | imports => tree.importSources.map fun node => (.staticImport, Text.ofChars (stringValue source node))
  | dynamicImports =>
    (tree.dynamicSources false).map fun node => (.dynamicImport, Text.ofChars (stringValue source node))
  | attributes =>
    let texts := (tree.attributes.flatMap (attributeTexts source)).map Text.ofChars
    (texts.filter hasRecognizedExtension).map fun text => (.assetAttribute, text)

/-- The references of a tree, pass after pass. -/
def references (dialect : Dialect) (source : List Char) (tree : Node) : List (Site × Text) :=
  dialect.passes.flatMap (Pass.references source tree)

end Deadwood.Script
