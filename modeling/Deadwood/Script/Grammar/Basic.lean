import Deadwood.Script.Rule

/-!
# Vocabulary of the script grammar

The two dialects, the symbols under which rules refer to one another, and the
small combinations of rules that the grammar is written with.
-/

namespace Deadwood.Script

/-- The dialects of scripts: `plain` has casts in angle brackets, `markup` has elements instead. -/
inductive Dialect where
  | plain
  | markup
  deriving DecidableEq, Repr

/-- Where an expression or a type stands. -/
inductive Place where
  /-- Enclosed, so that a line end does not close it. -/
  | inner
  /-- Last in its statement, so that a line end may close it. -/
  | final
  /-- After a cast that is last in its statement. -/
  | cast
  /-- Between the two marks of a condition, where functions state no result type. -/
  | branch
  deriving DecidableEq, Repr

/-- The names of the grammar's recursive rules. -/
inductive Symbol where
  | statement
  | block
  | declaration
  | declarators
  | importStatement
  | exportStatement
  | expressions (place : Place)
  | expression (place : Place)
  | operand (place : Place)
  | arrow (place : Place)
  | primary
  | arguments
  | template
  | destructuring
  | pattern
  | propertyName
  | parameters
  | signature (place : Place)
  | decorator
  | classTail
  | indexSignature
  | type (place : Place)
  | typeOperand (place : Place)
  | primaryType (place : Place)
  | typeArguments
  | typeParameters
  | objectType
  | markup
  deriving DecidableEq, Repr

/-- A rule of the script grammar. -/
abbrev Clause := Rule Symbol

namespace Clause

def empty : Clause := .seq []

def word (text : String) : Clause := .lexeme (.word text.toList)

def mark (text : String) (notBefore : String := "") : Clause := .lexeme (.mark text.toList notBefore.toList)

/-- A leaf of some kind. -/
def leaf (kind : Kind) (lexeme : Lexeme) : Clause := .node kind (.lexeme lexeme)

/-- Any name, except some words. -/
def name (except : List String := []) : Clause := leaf .identifier (.name except)

def words (texts : List String) : Clause := .alt (texts.map word)

def opt (clause : Clause) : Clause := .alt [clause, empty]

def openBrace : Clause := mark "\x7b"

def closeBrace : Clause := mark "\x7d"

def backtick : Clause := mark "\x60"

/-- The mark that gives a value; it is no part of a comparison or an arrow. -/
def equals : Clause := mark "=" "=>"

def string : Clause := leaf .string .quoted

def anonymous (clauses : List Clause) : Clause := .node .other (.seq clauses)

/-- One or more, with commas between. -/
def commaSep (clause : Clause) : Clause := .seq [clause, .many (.seq [mark ",", clause])]

/-- Any number with commas between; places may be left empty. -/
def commaSepOpt (clause : Clause) : Clause := .seq [opt clause, .many (.seq [mark ",", opt clause])]

/-- A semicolon, or a line end in its place. -/
def semicolon (afterExpression signature : Bool) : Clause := .alt [mark ";", .lineEnd afterExpression signature]

/-- What follows continues the expression before it. -/
def sameLine : Place → Clause
  | .final | .cast => .unless (.lineEnd true false)
  | .inner | .branch => empty

/-- What follows continues the type before it. -/
def sameTypeLine : Place → Clause
  | .final => .unless (.lineEnd false false)
  | .cast => .unless (.lineEnd true false)
  | .inner | .branch => empty

/-- A value given to what stands before. -/
def initializer (place : Place) : Clause := .seq [equals, .symbol (.expression place)]

/-- The type of what stands before. -/
def typing (place : Place) : Clause := .seq [mark ":", .symbol (.type place)]

/-- The words that begin an operand and are no names there. -/
def operandWords : List String :=
  ["this", "super", "true", "false", "null", "function", "class", "import", "typeof", "void", "delete", "await",
    "yield"]

/-- A name that stands as an operand. -/
def operandName : Clause := name operandWords

/-- What a member's name begins with, or the mark of a generator before it. -/
def memberStart : Clause :=
  .alt [.lexeme (.name []), .lexeme .privateName, .lexeme .quoted, .lexeme .number, mark "[", mark "*"]

/-- A word before a member's name. -/
def modifier (text : String) : Clause := .seq [word text, .ahead memberStart]

/-- One of the words that limit access to a member. -/
def access : Clause := .seq [words ["public", "private", "protected"], .ahead memberStart]

/-- The words and marks before the name of a method. -/
def methodHead : Clause :=
  .seq [opt access, opt (modifier "static"), opt (modifier "override"), opt (modifier "readonly"),
    opt (modifier "async"), opt (.alt [modifier "get", modifier "set", mark "*"])]

/-- A name with further names after points. -/
def nestedName : Clause := .seq [name, .many (.seq [mark ".", name])]

end Clause

end Deadwood.Script
