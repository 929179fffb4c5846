import Deadwood.Script.Grammar.Types
import Deadwood.Script.Grammar.Expression

/-!
# Statements

Imports and exports keep their sources under a label of their own.  Each other
statement is recognized so that what follows it can be, and so that a source
with a fault is known to have one.
-/

namespace Deadwood.Script.Clause

/-- The words that begin a statement and so no expression. -/
def statementWords : List String :=
  ["var", "const", "if", "else", "switch", "case", "default", "for", "while", "do", "try", "with", "break",
    "continue", "debugger", "return", "throw", "enum", "interface", "abstract"]

/-- The module that names are taken from. -/
def from_ : Clause := .seq [word "from", .label .source string]

/-- A name by which a module exports something. -/
def moduleName : Clause := .alt [name, string]

/-- Names in braces, with new names for some. -/
def specifiers : Clause :=
  let plain : Clause := .seq [moduleName, opt (.seq [word "as", moduleName])]
  let specifier : Clause := .alt [
    .seq [words ["type", "typeof"], plain, .ahead (.alt [mark ",", closeBrace])],
    plain]
  anonymous [openBrace, opt (commaSep specifier), opt (mark ","), closeBrace]

def importClause : Clause :=
  let several : Clause := .alt [.seq [mark "*", word "as", name], specifiers]
  anonymous [.alt [several, .seq [name ["typeof"], opt (.seq [mark ",", several])]]]

def importStatement : Clause :=
  let body : Clause := .alt [
    .label .source string,
    .seq [importClause, from_],
    anonymous [name, equals, word "require", mark "(", string, mark ")"]]
  .node .importStatement (.seq [word "import",
    .alt [.seq [words ["type", "typeof"], body], body],
    opt (.seq [sameTypeLine .final, word "with", objectLiteral]),
    semicolon false false])

def exportStatement : Clause :=
  .node .exportStatement (.seq [.many (.symbol .decorator), word "export", sameLine .final, .alt [
    .seq [mark "*", opt (.seq [word "as", moduleName]), from_, semicolon false false],
    .seq [opt (word "type"), specifiers, opt from_, semicolon false false],
    .seq [equals, .symbol (.expression .final), semicolon true false],
    .seq [word "as", word "namespace", name, semicolon false false],
    .seq [word "default", .alt [.symbol .declaration, .seq [.symbol (.expression .final), semicolon true false]]],
    .symbol .declaration]])

/-- Declared names, each with a type or a value, up to the end of the statement. -/
def declarators : Clause :=
  .seq [
    .alt [.seq [name, mark "!", typing .final],
      .seq [.alt [.symbol .destructuring, name ["enum"]], opt (typing .final)]],
    .alt [
      .seq [initializer .final, .alt [.seq [mark ",", .symbol .declarators], semicolon true false]],
      .seq [mark ",", .symbol .declarators],
      semicolon false false]]

def classMember : Clause :=
  let head : Clause := .seq [methodHead, .symbol .propertyName, opt (mark "?"),
    .unless (.lineEnd false false), callSignature]
  let close (afterExpression signature : Bool) : Clause := .alt [mark ",", semicolon afterExpression signature]
  .alt [
    mark ";",
    .symbol .decorator,
    anonymous [word "static", .symbol .block],
    .seq [anonymous [head, .symbol .block], opt (semicolon false false)],
    .seq [anonymous [head], close false true],
    .seq [anonymous [opt access, modifier "abstract", opt (modifier "override"),
      opt (.alt [modifier "get", modifier "set", mark "*"]), .symbol .propertyName, opt (mark "?"), callSignature],
      close false false],
    .seq [.symbol .indexSignature, close false false],
    .seq [anonymous [
      opt (.alt [.seq [modifier "declare", opt access], .seq [access, opt (modifier "declare")]]),
      .alt [modifier "accessor", .seq [modifier "abstract", opt (modifier "readonly")],
        .seq [modifier "readonly", modifier "abstract"],
        .seq [opt (modifier "static"), opt (modifier "override"), opt (modifier "readonly")]],
      .symbol .propertyName, opt (.alt [mark "?", mark "!"]), opt (typing .final),
      .alt [.seq [initializer .final, close true false], close false false]]]]

def classTail : Clause :=
  .seq [opt (.symbol .typeParameters),
    opt (.seq [word "extends", commaSep (.seq [.symbol (.expression .inner), opt (.symbol .typeArguments)])]),
    opt (.seq [word "implements", commaSep (.symbol (.type .inner))]),
    openBrace, .many classMember, closeBrace]

def enumDeclaration : Clause :=
  anonymous [opt (word "const"), word "enum", name, openBrace,
    opt (.seq [commaSep (.seq [.symbol .propertyName, opt (initializer .inner)]), opt (mark ",")]), closeBrace]

def declaration : Clause :=
  .alt [
    enumDeclaration,
    anonymous [words ["let", "const", "var"], .symbol .declarators],
    anonymous [opt (word "async"), word "function", opt (mark "*"), name, callSignature, .symbol .block],
    anonymous [opt (word "async"), word "function", name, callSignature, semicolon false true],
    anonymous [.many (.symbol .decorator), opt (word "abstract"), word "class", name ["extends", "implements"],
      .symbol .classTail],
    anonymous [word "type", name, opt (.symbol .typeParameters), equals, .symbol (.type .final),
      semicolon false false],
    anonymous [word "interface", name, opt (.symbol .typeParameters),
      opt (.seq [word "extends", commaSep (.seq [nestedName, opt (.symbol .typeArguments)])]), .symbol .objectType],
    anonymous [words ["module", "namespace"], .alt [string, nestedName], opt (.symbol .block)],
    anonymous [word "import", name, equals, nestedName, semicolon false false],
    anonymous [word "declare", .alt [
      .symbol .declaration,
      .seq [word "global", .symbol .block],
      .seq [word "module", mark ".", name, mark ":", .symbol (.type .final), semicolon false false]]]]

def block : Clause := anonymous [openBrace, .many (.symbol .statement), closeBrace]

def condition : Clause := parenthesized

def ifStatement : Clause :=
  anonymous [word "if", condition, .symbol .statement, opt (.seq [word "else", .symbol .statement])]

def switchStatement : Clause :=
  anonymous [word "switch", condition, openBrace,
    .many (.seq [.alt [.seq [word "case", .symbol (.expressions .inner)], word "default"], mark ":",
      .many (.symbol .statement)]),
    closeBrace]

def forStatement : Clause :=
  let each : Clause := .seq [
    .alt [
      .seq [words ["var", "let", "const"], .alt [.symbol .destructuring, name], opt (typing .inner),
        opt (initializer .inner)],
      .symbol .destructuring,
      .seq [.symbol .primary, .many suffix, .lastIs assignable]],
    words ["in", "of"], .symbol (.expressions .inner)]
  let counting : Clause := .seq [
    .alt [.seq [words ["var", "let", "const"], .symbol .declarators],
      .seq [opt (.symbol (.expressions .inner)), mark ";"]],
    opt (.symbol (.expressions .inner)), mark ";", opt (.symbol (.expressions .inner))]
  anonymous [word "for", .alt [
    .seq [opt (word "await"), mark "(", each, mark ")"],
    .seq [mark "(", counting, mark ")"]],
    .symbol .statement]

def tryStatement : Clause :=
  anonymous [word "try", .symbol .block,
    opt (.seq [word "catch",
      opt (.seq [mark "(", .alt [.symbol .destructuring, name], opt (typing .inner), mark ")"]), .symbol .block]),
    opt (.seq [word "finally", .symbol .block])]

/-- A function or class with a name of its own, which at the start of a statement is a declaration. -/
def declares : Clause :=
  .alt [.seq [opt (word "async"), word "function", opt (mark "*"), .lexeme (.name [])],
    .seq [word "class", .lexeme (.name ["extends", "implements"])]]

def expressionStatement : Clause :=
  anonymous [.unless (words statementWords), .unless declares, .symbol (.expressions .final), semicolon true false]

def statement : Clause :=
  .alt [
    .symbol .importStatement,
    .symbol .exportStatement,
    .symbol .declaration,
    .symbol .block,
    leaf .other (.mark ";".toList []),
    ifStatement,
    forStatement,
    anonymous [word "while", condition, .symbol .statement],
    anonymous [word "do", .symbol .statement, word "while", condition, opt (semicolon true false)],
    tryStatement,
    switchStatement,
    anonymous [word "with", condition, .symbol .statement],
    anonymous [words ["break", "continue"], opt (.seq [sameTypeLine .final, name]), semicolon false false],
    anonymous [word "debugger", semicolon false false],
    anonymous [word "return", .alt [
      .seq [sameTypeLine .final, .symbol (.expressions .final), semicolon true false],
      semicolon false false]],
    anonymous [word "throw", .symbol (.expressions .final), semicolon true false],
    anonymous [name (statementWords ++ operandWords), mark ":", .symbol .statement],
    expressionStatement,
    leaf .comment .pageComment]

end Deadwood.Script.Clause
