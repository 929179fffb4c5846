import Deadwood.Script.Grammar.Basic

/-!
# Expressions

Operators are taken in a row without regard to their binding, because binding
does not decide which sources are well formed.  A call, a member access or an
operator wraps the node before it, so the first child of a node is a string
only if the string stands there alone.
-/

namespace Deadwood.Script.Clause

/-- The kinds of nodes that can be assigned to. -/
def assignable : List Kind := [.identifier, .member, .subscript, .nonNull, .parenthesized, .pattern]

/-- What an operand can begin with, apart from the words that continue an expression. -/
def operandStart : Clause :=
  .alt [.lexeme (.name ["as", "in", "instanceof", "satisfies", "implements"]), .lexeme .number, mark "\x22",
    mark "\x27", mark "(", mark "[", mark "+", mark "-", mark "!" "=", mark "~", backtick, mark "/", mark "<", mark "@",
    mark "#"]

def spread : Clause := anonymous [mark "...", .symbol (.expression .inner)]

def arguments : Clause :=
  .node .arguments (.seq [mark "(", commaSepOpt (.alt [spread, .symbol (.expression .inner)]), mark ")"])

def template : Clause :=
  .node .template (.seq [backtick,
    .many (.alt [.templateChars,
      .node .substitution (.seq [mark "$\x7b", .symbol (.expressions .inner), closeBrace])]),
    backtick])

/-- What can follow a finished operand: member accesses, calls, subscripts. -/
def suffix : Clause :=
  .alt [
    .extend .member none (.seq [.alt [mark "?." "0123456789", mark "."],
      .alt [leaf .other (.name []), leaf .other .privateName]]),
    .extend .call (some .function) (.seq [opt (mark "?."), opt (.symbol .typeArguments),
      .label .arguments (.symbol .arguments)]),
    .extend .subscript none (.seq [opt (mark "?."), mark "[", .symbol (.expressions .inner), mark "]"]),
    .extend .call (some .function) (.label .arguments (.symbol .template)),
    .extend .nonNull none (mark "!" "="),
    .extend .other none (.alt [mark "++", mark "--"]),
    .extend .other none (.seq [.symbol .typeArguments, .alt [.lineEnd true false, .unless operandStart]])]

/-- Whatever follows a finished operand on the same line. -/
def suffixes (place : Place) : Clause := .many (.seq [sameLine place, suffix])

def assignment (place : Place) : Clause :=
  .seq [.lastIs assignable,
    .extend .other none (.seq [.alt [equals, .lexeme .assigning], .symbol (.expression place)])]

/-- An operand with what follows it, possibly assigned to. -/
def chain (place : Place) : Clause :=
  .seq [.symbol .primary, suffixes place, opt (.seq [sameLine place, assignment place])]

/-- The marks and words before an operand. -/
def before : Clause :=
  .alt [mark "++", mark "--", mark "!", mark "~", mark "-", mark "+", words ["typeof", "void", "delete", "await"]]

def operand (dialect : Dialect) (place : Place) : Clause :=
  let cast : List Clause := match dialect with
    | .plain => [anonymous [.symbol .typeArguments, .symbol (.operand place)]]
    | .markup => []
  .alt ([.symbol (.arrow place),
    anonymous [before, .symbol (.operand place)],
    anonymous [word "yield",
      .alt [.seq [mark "*", .symbol (.expression place)], .seq [sameLine place, .symbol (.expression place)], empty]]]
    ++ cast ++
    [anonymous [word "using", sameLine place, operandName, equals, .symbol (.expression place)],
      anonymous [.lexeme .privateName, word "in", .symbol (.operand place)],
      chain place])

/-- What can follow an operand and make a longer expression. -/
def continuation (place : Place) : Clause :=
  let castPlace : Place := if place = .final then .cast else place
  .alt [
    .extend .other none (.seq [.lexeme .binary, .symbol (.operand place)]),
    .extend .other none (.seq [.lexeme .question, .alt [
      .seq [.symbol (.expression .inner), mark ":", .symbol (.expression place)],
      .seq [.symbol (.expression .branch), mark ":", .symbol (.expression place)]]]),
    .seq [.extend .other none (.seq [words ["as", "satisfies"], .symbol (.type castPlace)]), suffixes place]]

def expression (place : Place) : Clause :=
  .seq [.symbol (.operand place), .many (.seq [sameLine place, continuation place])]

def expressions (place : Place) : Clause :=
  .seq [.symbol (.expression place),
    .many (.extend .other none (.seq [mark ",", .symbol (.expression place)]))]

/-- A function written with an arrow.  Behind a body in braces it can be called or accessed like any operand. -/
def arrow (place : Place) : Clause :=
  let parts : Clause := .alt [operandName, .seq [opt (.symbol .typeParameters), .symbol .parameters,
    if place = .branch then empty else opt (.symbol (.signature .inner))]]
  let body (clause : Clause) : Clause := .extend .other none (.seq [mark "=>", clause])
  .seq [
    .alt [anonymous [word "async", sameLine place, parts, .ahead (mark "=>")], anonymous [parts, .ahead (mark "=>")]],
    .alt [.seq [body (.symbol .block), suffixes place], body (.symbol (.expression place))]]

def functionExpression : Clause :=
  anonymous [opt (word "async"), word "function", opt (mark "*"), opt name, opt (.symbol .typeParameters),
    .symbol .parameters, opt (.symbol (.signature .inner)), .symbol .block]

def classExpression : Clause :=
  anonymous [.many (.symbol .decorator), word "class", opt (name ["extends", "implements"]), .symbol .classTail]

def parenthesized : Clause :=
  .node .parenthesized (.seq [mark "(", .symbol (.expressions .inner), opt (typing .inner), mark ")"])

def arrayLiteral : Clause :=
  anonymous [mark "[", commaSepOpt (.alt [spread, .symbol (.expression .inner)]), mark "]"]

def method : Clause :=
  anonymous [methodHead, .symbol .propertyName, opt (mark "?"), opt (.symbol .typeParameters), .symbol .parameters,
    opt (.symbol (.signature .inner)), .symbol .block]

def objectLiteral : Clause :=
  anonymous [openBrace,
    commaSepOpt (.alt [spread,
      anonymous [.symbol .propertyName, mark ":", .symbol (.expression .inner)],
      method,
      name]),
    closeBrace]

/-- The keyword of a dynamic import, which is always called or has a member. -/
def importWord : Clause :=
  .seq [leaf .importWord (.word "import".toList), .ahead (.alt [mark "(", mark ".", mark "<"])]

def primary (dialect : Dialect) : Clause :=
  let elements : List Clause := match dialect with
    | .plain => []
    | .markup => [.symbol .markup]
  .alt ([string,
    leaf .other .number,
    .symbol .template,
    parenthesized,
    .seq [.alt [arrayLiteral, objectLiteral], .unless equals],
    .seq [.symbol .destructuring, .ahead equals],
    leaf .other .regex]
    ++ elements ++
    [importWord,
      functionExpression,
      classExpression,
      anonymous [word "new", .alt [.seq [mark ".", word "target"], .symbol .primary]],
      anonymous [word "namespace", nestedName, .symbol .block],
      leaf .other (.word "this".toList),
      leaf .other (.word "super".toList),
      leaf .other (.word "true".toList),
      leaf .other (.word "false".toList),
      leaf .other (.word "null".toList),
      operandName])

/-- A name or a member that receives a value; the words for objects themselves receive none. -/
def target : Clause :=
  .seq [.alt [leaf .other (.word "this".toList), leaf .other (.word "super".toList), operandName],
    .many (.alt [
      .extend .member none (.seq [mark ".", .alt [leaf .other (.name []), leaf .other .privateName]]),
      .extend .subscript none (.seq [mark "[", .symbol (.expressions .inner), mark "]"]),
      .extend .nonNull none (mark "!" "=")]),
    .lastIs [.identifier, .member, .subscript, .nonNull]]

def restPattern : Clause := anonymous [mark "...", .alt [.symbol .destructuring, target]]

def pattern : Clause := .alt [restPattern, .symbol .destructuring, target]

def destructuring : Clause :=
  .alt [
    .node .pattern (.seq [openBrace,
      commaSepOpt (.alt [restPattern,
        anonymous [.symbol .propertyName, mark ":", .symbol .pattern, opt (initializer .inner)],
        .seq [name, opt (initializer .inner)]]),
      closeBrace]),
    .node .pattern (.seq [mark "[",
      commaSepOpt (.seq [.symbol .pattern, opt (initializer .inner)]),
      mark "]"])]

def propertyName : Clause :=
  .alt [name, leaf .other .privateName, string, leaf .other .number,
    anonymous [mark "[", .symbol (.expression .inner), mark "]"]]

def decorator : Clause :=
  let access : Clause := .seq [name, .many (.seq [mark ".", name])]
  let call : Clause := .seq [access, opt (.seq [opt (.symbol .typeArguments), .symbol .arguments])]
  anonymous [mark "@", .alt [.seq [mark "(", call, mark ")"], call]]

/-- A word that limits access, before a parameter. -/
def parameterModifier (texts : List String) : Clause :=
  .seq [words texts, .ahead (.alt [.lexeme (.name []), openBrace, mark "["])]

def parameter : Clause :=
  .seq [.many (.symbol .decorator), opt (parameterModifier ["public", "private", "protected"]),
    opt (parameterModifier ["override"]), opt (parameterModifier ["readonly"]),
    .alt [.symbol .pattern, leaf .other (.word "this".toList)], opt (mark "?"), opt (typing .inner),
    opt (initializer .inner)]

def parameters : Clause :=
  anonymous [mark "(", opt (.seq [commaSep parameter, opt (mark ",")]), mark ")"]

end Deadwood.Script.Clause
