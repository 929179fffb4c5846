import Mathlib.Data.List.Perm.Basic
import Deadwood.Script.Extract

/-!
# One walk over a tree

Three passes search a tree for references, each with its own recursion, and what
one of them finds at a node can depend on the node above it.  Here it is said for
each node on its own which references stand there, and the passes together find
what one walk over all the nodes of the tree finds, each site exactly once.
-/

namespace Deadwood.Script

namespace Node

/-- What holds of a node if it holds of its children holds of every node. -/
@[elab_as_elim]
theorem ind {motive : Node → Prop}
    (mk : ∀ kind label start stop children, (∀ child ∈ children, motive child) →
      motive (.mk kind label start stop children)) (node : Node) : motive node := by
  apply @Node.rec motive (fun nodes => ∀ node ∈ nodes, motive node) mk
  · intro node member
    cases member
  · intro first rest ofFirst ofRest
    exact List.forall_mem_cons.mpr ⟨ofFirst, ofRest⟩

mutual

/-- A node and all nodes below it, each one before those below it. -/
def nodes : Node → List Node
  | mk kind label start stop children => mk kind label start stop children :: nodesOf children

/-- Some nodes and all nodes below them. -/
def nodesOf : List Node → List Node
  | [] => []
  | node :: rest => nodes node ++ nodesOf rest

end

variable (kind : Kind) (label : Option Label) (start stop : Nat) (children : List Node)

@[simp]
theorem kind_mk : (mk kind label start stop children).kind = kind := rfl

@[simp]
theorem children_mk : (mk kind label start stop children).children = children := rfl

theorem nodesOf_eq : nodesOf children = children.flatMap nodes := by
  induction children with
  | nil => rfl
  | cons child rest ih => rw [nodesOf, ih, List.flatMap_cons]

theorem nodes_mk : (mk kind label start stop children).nodes =
    mk kind label start stop children :: children.flatMap nodes := by
  rw [nodes, nodesOf_eq]

theorem anyHasFault_eq (nodes : List Node) : anyHasFault nodes = nodes.any hasFault := by
  induction nodes with
  | nil => rfl
  | cons node rest ih => rw [anyHasFault, ih, List.any_cons]

/-- A tree has a fault if a fault, or a lexeme that is missing, is among its nodes. -/
theorem hasFault_iff (tree : Node) :
    tree.hasFault = true ↔ ∃ node ∈ tree.nodes, node.kind = .fault ∨ node.kind = .missing := by
  induction tree using ind with
  | mk kind label start stop children ih =>
    simp only [hasFault, anyHasFault_eq, nodes_mk, Bool.or_eq_true, beq_iff_eq, List.any_eq_true,
      List.exists_mem_cons_iff, List.mem_flatMap]
    apply or_congr Iff.rfl
    constructor
    · rintro ⟨child, member, fault⟩
      obtain ⟨node, below, faulty⟩ := (ih child member).mp fault
      exact ⟨node, ⟨child, member, below⟩, faulty⟩
    · rintro ⟨node, ⟨child, member, below⟩, faulty⟩
      exact ⟨child, member, (ih child member).mpr ⟨node, below, faulty⟩⟩

/-! ## What stands at a node -/

/-- The strings from which an import or export statement takes its names. -/
def moduleSources (node : Node) : List Node :=
  if node.kind == .importStatement || node.kind == .exportStatement then
    node.children.filter fun child => child.hasLabel .source && child.kind == .string
  else []

theorem moduleSources_mk : (mk kind label start stop children).moduleSources =
    if kind == .importStatement || kind == .exportStatement then
      children.filter fun child => child.hasLabel .source && child.kind == .string
    else [] := rfl

/-- The strings among the children of a node. -/
def strings (node : Node) : List Node := node.children.filter (·.kind == .string)

/-- The strings that the call of a dynamic import is directly given. -/
def importArguments (node : Node) : List Node :=
  if node.isImportCall then
    (node.children.filter fun child => child.hasLabel .arguments && child.kind == .arguments).flatMap strings
  else []

/-- The value of a markup attribute: what stands last behind its name. -/
def value? (node : Node) : Option Node :=
  if node.kind == .markupAttribute then node.children.tail.getLast? else none

/-- The literal that a value is: a string, or a string or template that stands first in braces. -/
def literal? (value : Node) : Option Node :=
  if value.kind == .string then some value
  else if value.kind == .braces then
    value.children.head?.filter fun first => first.kind == .string || first.kind == .template
  else none

/-- No template is the value of an attribute without braces around it. -/
def Enclosed (tree : Node) : Prop := ∀ node ∈ tree.nodes, ∀ value ∈ node.value?, value.kind ≠ .template

variable (source : List Char) (node : Node)

/-- The references of an import or export statement. -/
def staticReferences : List (Site × Text) :=
  node.moduleSources.map fun string => (.staticImport, Text.ofChars (stringValue source string))

/-- The references of the call of a dynamic import. -/
def dynamicReferences : List (Site × Text) :=
  node.importArguments.map fun string => (.dynamicImport, Text.ofChars (stringValue source string))

/-- The references of a markup attribute: the texts of its literal that have a known extension. -/
def assetReferences : List (Site × Text) :=
  let texts := ((node.value?.bind literal?).toList.flatMap (literalTexts source)).map Text.ofChars
  (texts.filter hasRecognizedExtension).map fun text => (.assetAttribute, text)

/-- The references that stand at a node itself; attributes refer to files in markup only. -/
def siteReferences (dialect : Dialect) : List (Site × Text) :=
  node.staticReferences source ++ node.dynamicReferences source ++
    if dialect = .markup then node.assetReferences source else []

end Node

/-! ## What a pass finds -/

section

variable {α : Type} (node : Node)

/-- To choose among items is to walk over them and keep those that are chosen. -/
theorem flatMap_ite_singleton (choose : α → Bool) (items : List α) :
    items.flatMap (fun item => if choose item then [item] else []) = items.filter choose := by
  induction items with
  | nil => rfl
  | cons item rest ih =>
    rw [List.flatMap_cons, ih, List.filter_cons]
    cases choose item with
    | true => rfl
    | false => rfl

theorem importSourcesOf_eq (direct : Bool) (nodes : List Node) :
    importSourcesOf direct nodes = nodes.flatMap fun child =>
      (if direct && child.hasLabel .source && child.kind == .string then [child] else []) ++ child.importSources := by
  induction nodes with
  | nil => rfl
  | cons node rest ih => rw [importSourcesOf, ih, List.flatMap_cons]

theorem dynamicSourcesOf_eq (given called : Bool) (nodes : List Node) :
    dynamicSourcesOf given called nodes = nodes.flatMap fun child =>
      (if given && child.kind == .string then [child] else []) ++
        child.dynamicSources (called && child.hasLabel .arguments && child.kind == .arguments) := by
  induction nodes with
  | nil => rfl
  | cons node rest ih => rw [dynamicSourcesOf, ih, List.flatMap_cons]

theorem attributesOf_eq (nodes : List Node) : attributesOf nodes = nodes.flatMap Node.attributes := by
  induction nodes with
  | nil => rfl
  | cons node rest ih => rw [attributesOf, ih, List.flatMap_cons]

/-- The pass over imports and exports finds the sources of all such statements. -/
theorem importSources_perm : node.importSources.Perm (node.nodes.flatMap Node.moduleSources) := by
  induction node using Node.ind with
  | mk kind label start stop children ih =>
    rw [Node.importSources, importSourcesOf_eq, Node.nodes_mk, List.flatMap_cons, List.flatMap_assoc]
    apply (List.flatMap_append_perm _ _ _).symm.trans
    apply List.Perm.append
    · rw [flatMap_ite_singleton, Node.moduleSources_mk]
      cases kind == .importStatement || kind == .exportStatement with
      | true => simp
      | false => simp
    · exact List.Perm.flatMap_left children ih

/-- The pass over dynamic imports finds what all their calls are given, and the strings at the node where it begins if
that node holds arguments itself. -/
theorem dynamicSources_perm (given : Bool) : (node.dynamicSources given).Perm
    ((if given then node.strings else []) ++ node.nodes.flatMap Node.importArguments) := by
  induction node using Node.ind generalizing given with
  | mk kind label start stop children ih =>
    rw [Node.dynamicSources, dynamicSourcesOf_eq, Node.nodes_mk, List.flatMap_cons, List.flatMap_assoc]
    apply (List.flatMap_append_perm _ _ _).symm.trans
    apply List.Perm.append
    · rw [flatMap_ite_singleton]
      cases given with
      | true => simp [Node.strings, Node.children]
      | false => simp
    · apply (List.Perm.flatMap_left children fun child member => ih child member _).trans
      apply (List.flatMap_append_perm _ _ _).symm.trans
      apply List.Perm.append_right
      rw [Node.importArguments]
      cases (Node.mk kind label start stop children).isImportCall with
      | true =>
        simp only [Bool.true_and, if_true, ← flatMap_ite_singleton, List.flatMap_assoc, Node.children_mk]
        apply List.Perm.of_eq
        apply List.flatMap_congr
        intro child _
        split
        · rw [List.flatMap_singleton]
        · rfl
      | false => simp

/-- The pass over attributes finds them all. -/
theorem attributes_eq : node.attributes = node.nodes.filter (·.kind == .markupAttribute) := by
  induction node using Node.ind with
  | mk kind label start stop children ih =>
    rw [Node.attributes, attributesOf_eq, List.flatMap_congr ih, Node.nodes_mk, List.filter_cons, List.filter_flatMap]
    show _ = if kind == .markupAttribute then _ else _
    cases kind == .markupAttribute with
    | true => rfl
    | false => rfl

theorem literalTexts_eq_nil {source : List Char} {node : Node} (notString : node.kind ≠ .string)
    (notTemplate : node.kind ≠ .template) : literalTexts source node = [] := by
  rw [literalTexts]
  split
  case h_1 isString => exact absurd isString notString
  case h_2 isTemplate => exact absurd isTemplate notTemplate
  case h_3 => rfl

/-- The texts of a value are those of the literal that it is. -/
theorem literalTexts_value {source : List Char} {value : Node} (bare : value.kind ≠ .template) :
    (if value.kind == .braces then value.children.head?.toList.flatMap (literalTexts source)
      else literalTexts source value) = value.literal?.toList.flatMap (literalTexts source) := by
  by_cases isString : value.kind = .string
  · simp [Node.literal?, isString]
  · by_cases isBraces : value.kind = .braces
    · cases inside : value.children with
      | nil => simp [Node.literal?, isBraces, inside]
      | cons first rest =>
        by_cases chosen : first.kind = .string ∨ first.kind = .template
        · simp [Node.literal?, isBraces, inside, chosen, Option.filter]
        · have none := not_or.mp chosen
          simp [Node.literal?, isBraces, inside, none, Option.filter, literalTexts_eq_nil none.1 none.2]
    · simp [Node.literal?, isString, isBraces, literalTexts_eq_nil isString bare]

/-- The texts of an attribute are those of the literal that its value is. -/
theorem attributeTexts_eq {source : List Char} {node : Node} (isAttribute : node.kind = .markupAttribute)
    (enclosed : ∀ value ∈ node.value?, value.kind ≠ .template) :
    attributeTexts source node = (node.value?.bind Node.literal?).toList.flatMap (literalTexts source) := by
  obtain ⟨kind, label, start, stop, children⟩ := node
  cases isAttribute
  match children with
  | [] => rfl
  | [name] => rfl
  | name :: second :: more =>
    have last : (Node.mk .markupAttribute label start stop (name :: second :: more)).value? =
        some ((second :: more).getLastD second) := by
      simp [Node.value?, List.getLast?_cons]
    have bare := enclosed _ last
    rw [last, Option.bind_some, ← literalTexts_value bare, attributeTexts]
    simp only [Node.children_mk]
    cases ((second :: more).getLastD second).children with
    | nil => rfl
    | cons first rest => simp

end

/-! ## What all passes find -/

section

variable (source : List Char) (tree : Node)

theorem references_imports_perm :
    (Pass.imports.references source tree).Perm (tree.nodes.flatMap (Node.staticReferences source)) := by
  unfold Node.staticReferences
  rw [← List.map_flatMap]
  exact (importSources_perm tree).map _

theorem references_dynamicImports_perm :
    (Pass.dynamicImports.references source tree).Perm (tree.nodes.flatMap (Node.dynamicReferences source)) := by
  unfold Node.dynamicReferences
  rw [← List.map_flatMap]
  exact (dynamicSources_perm tree false).map _

variable {tree}

theorem references_attributes_eq (enclosed : tree.Enclosed) :
    Pass.attributes.references source tree = tree.nodes.flatMap (Node.assetReferences source) := by
  have texts : tree.attributes.flatMap (attributeTexts source) = tree.nodes.flatMap fun node =>
      (node.value?.bind Node.literal?).toList.flatMap (literalTexts source) := by
    rw [attributes_eq, ← flatMap_ite_singleton, List.flatMap_assoc]
    apply List.flatMap_congr
    intro node member
    by_cases isAttribute : node.kind = .markupAttribute
    · simp [isAttribute, attributeTexts_eq isAttribute (enclosed node member)]
    · simp [isAttribute, Node.value?]
  unfold Node.assetReferences
  simp only [Pass.references, texts, List.map_flatMap, List.filter_flatMap]

/-- The references of a tree, pass after pass, are those that stand at its nodes. -/
theorem references_perm (dialect : Dialect) (enclosed : tree.Enclosed) :
    (references dialect source tree).Perm (tree.nodes.flatMap fun node => node.siteReferences source dialect) := by
  have imports := (references_imports_perm source tree).append (references_dynamicImports_perm source tree)
  replace imports := imports.trans (List.flatMap_append_perm _ _ _)
  cases dialect with
  | plain => simpa [references, Dialect.passes, Node.siteReferences] using imports
  | markup =>
    have all := imports.append (.of_eq (references_attributes_eq source enclosed))
    replace all := all.trans (List.flatMap_append_perm _ _ _)
    simpa [references, Dialect.passes, Node.siteReferences] using all

end

end Deadwood.Script
