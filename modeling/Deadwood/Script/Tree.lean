/-!
# Syntax trees of scripts

A node has a kind, the label under which its parent holds it, the offsets at
which it begins and ends in the source, and its named children.  Only the
kinds on which references depend are told apart; every other construct is
`other`.  A tree of a source that is not well formed holds a `fault` node.
-/

namespace Deadwood.Script

/-- The kinds of nodes that matter to the search for references. -/
inductive Kind where
  | program
  | importStatement
  | exportStatement
  | importWord
  | call
  | arguments
  | string
  | template
  | substitution
  | markupAttribute
  | braces
  | comment
  | identifier
  | member
  | subscript
  | nonNull
  | parenthesized
  | pattern
  | other
  | fault
  | missing
  deriving DecidableEq, Repr

/-- The roles under which a node can stand in its parent. -/
inductive Label where
  | source
  | function
  | arguments
  deriving DecidableEq, Repr

/-- A node of a syntax tree; `start` and `stop` count the characters of the source before its two ends. -/
inductive Node where
  | mk (kind : Kind) (label : Option Label) (start stop : Nat) (children : List Node)
  deriving Repr

namespace Node

def kind : Node → Kind
  | mk kind .. => kind

def label : Node → Option Label
  | mk _ label .. => label

def start : Node → Nat
  | mk _ _ start .. => start

def stop : Node → Nat
  | mk _ _ _ stop _ => stop

def children : Node → List Node
  | mk _ _ _ _ children => children

/-- The same node under another label. -/
def withLabel (newLabel : Label) : Node → Node
  | mk kind _ start stop children => mk kind (some newLabel) start stop children

/-- The characters of the source that a node spans. -/
def text (source : List Char) (node : Node) : List Char :=
  (source.drop node.start).take (node.stop - node.start)

mutual

/-- Whether a node, or one below it, stands for a fault in the source. -/
def hasFault : Node → Bool
  | mk kind _ _ _ children => kind == .fault || kind == .missing || anyHasFault children

/-- Whether one of several nodes has a fault. -/
def anyHasFault : List Node → Bool
  | [] => false
  | node :: rest => hasFault node || anyHasFault rest

end

end Node

end Deadwood.Script
