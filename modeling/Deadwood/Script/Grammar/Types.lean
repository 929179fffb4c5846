import Deadwood.Script.Grammar.Basic

/-!
# Types

Types are part of the grammar because a source is rejected as a whole if one of
its types is not well formed, and because a type can import a module.
-/

namespace Deadwood.Script.Clause

/-- The words that cannot stand alone as the name of a type. -/
def typeWords : List String :=
  ["typeof", "keyof", "infer", "readonly", "unique", "import", "new", "abstract"]

/-- The named types that may stand in the brackets of a type query. -/
def predefinedTypes : List String :=
  ["any", "number", "boolean", "string", "symbol", "void", "unknown", "never", "object"]

/-- The statement that a parameter has a type. -/
def predicate (place : Place) : Clause := .seq [name, word "is", .symbol (.type place)]

/-- The result of a function: an assertion about a parameter, or a type. -/
def resultType (place : Place) : Clause :=
  .alt [.seq [word "asserts", .alt [predicate place, name]], predicate place, .symbol (.type place)]

/-- The stated result of a function. -/
def signature (place : Place) : Clause := .seq [mark ":", resultType place]

/-- A module imported in a type, with the members taken from it. -/
def importedType : Clause :=
  .seq [leaf .importWord (.word "import".toList), .ahead (.alt [mark "(", mark "."]),
    .many (.alt [
      .extend .member none (.seq [mark ".", .alt [name, leaf .other .privateName]]),
      .extend .call (some .function) (.label .arguments (.symbol .arguments))])]

def typeOperator : Clause := .alt [mark "|" "|\x7d", mark "&" "&"]

def type (place : Place) : Clause :=
  .seq [.many typeOperator, .symbol (.typeOperand place),
    .many (.seq [sameTypeLine place, typeOperator, .many typeOperator, .symbol (.typeOperand place)]),
    opt (.seq [sameTypeLine place, word "extends", .symbol (.type .inner), mark "?", .symbol (.type .inner), mark ":",
      .symbol (.type place)])]

def typeOperand (place : Place) : Clause :=
  .alt [
    anonymous [opt (.symbol .typeParameters), .symbol .parameters, mark "=>", resultType place],
    anonymous [opt (word "abstract"), word "new", opt (.symbol .typeParameters), .symbol .parameters, mark "=>",
      .symbol (.type place)],
    anonymous [word "readonly", .symbol (.typeOperand place)],
    anonymous [word "infer", name, opt (.seq [sameTypeLine place, word "extends", .symbol (.typeOperand place)])],
    importedType,
    anonymous [word "keyof", .symbol (.primaryType place)],
    .symbol (.primaryType place)]

def tupleMember : Clause :=
  .alt [
    .seq [opt (mark "..."), name, opt (mark "?"), typing .inner],
    .seq [mark "...", .symbol (.type .inner)],
    .seq [.symbol (.type .inner), opt (mark "?")]]

def typeQuery (place : Place) : Clause :=
  let access : Clause := .many (.seq [sameTypeLine place, .alt [
    .extend .member none (.seq [.alt [mark "?.", mark "."], .alt [name, leaf .other .privateName]]),
    .extend .subscript none (.seq [opt (mark "?."), mark "[",
      .alt [string, leaf .other .number, words predefinedTypes], mark "]"]),
    .extend .call (some .function) (.label .arguments (.symbol .arguments))]])
  anonymous [word "typeof", .alt [importedType, name ["import"]], access, opt (.symbol .typeArguments)]

def templateType : Clause :=
  anonymous [backtick,
    .many (.alt [.templateChars, anonymous [mark "$\x7b", .symbol (.type .inner), closeBrace]]), backtick]

def atomicType (place : Place) : Clause :=
  .alt [
    .symbol .objectType,
    anonymous [mark "[", opt (.seq [commaSep tupleMember, opt (mark ",")]), mark "]"],
    anonymous [mark "(", .symbol (.type .inner), mark ")"],
    typeQuery place,
    templateType,
    string,
    leaf .other .number,
    anonymous [.alt [mark "-", mark "+"], leaf .other .number],
    anonymous [mark "?", .symbol (.primaryType place)],
    leaf .other (.mark "*".toList []),
    anonymous [word "unique", word "symbol"],
    anonymous [name typeWords, .many (.seq [mark ".", name]), opt (.symbol .typeArguments)]]

def primaryType (place : Place) : Clause :=
  .seq [atomicType place, .many (.seq [sameTypeLine place,
    .extend .other none (.seq [mark "[", opt (.symbol (.type .inner)), mark "]"])])]

def typeArguments : Clause :=
  anonymous [mark "<", commaSep (.symbol (.type .inner)), opt (mark ","), mark ">"]

def typeParameters : Clause :=
  let parameter : Clause := .seq [opt (.seq [word "const", .ahead (.lexeme (.name []))]), name,
    opt (.seq [.alt [word "extends", mark ":"], .symbol (.type .inner)]),
    opt (.seq [equals, .symbol (.type .inner)])]
  anonymous [mark "<", commaSep parameter, opt (mark ","), mark ">"]

/-- A signature for all members of some type, or for each name of some type. -/
def indexSignature : Clause :=
  anonymous [opt (.seq [opt (.alt [mark "-", mark "+"]), word "readonly"]), mark "[",
    .alt [.seq [name, typing .inner],
      .seq [name, word "in", .symbol (.type .inner), opt (.seq [word "as", .symbol (.type .inner)])]],
    mark "]",
    .alt [mark ":", mark "-?:", mark "+?:", mark "?:"], .symbol (.type .final)]

/-- A function described by its parameters and result. -/
def callSignature : Clause :=
  .seq [opt (.symbol .typeParameters), .symbol .parameters, opt (.symbol (.signature .final))]

def typeMember : Clause :=
  .alt [
    .symbol .exportStatement,
    .symbol .indexSignature,
    anonymous [opt (word "abstract"), word "new", opt (.symbol .typeParameters), .symbol .parameters,
      opt (typing .final)],
    anonymous [callSignature],
    anonymous [methodHead, .symbol .propertyName, opt (mark "?"), callSignature],
    anonymous [opt access, opt (modifier "static"), opt (modifier "override"), opt (modifier "readonly"),
      .symbol .propertyName, opt (mark "?"), opt (typing .final)]]

def objectType : Clause :=
  let close : Clause := .alt [mark "|\x7d", closeBrace]
  anonymous [.alt [mark "\x7b|", openBrace], opt (.alt [mark ",", mark ";"]),
    .many (.seq [typeMember, .alt [mark ",", semicolon false false, .ahead close]]), close]

end Deadwood.Script.Clause
