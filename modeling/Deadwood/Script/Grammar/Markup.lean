import Deadwood.Script.Grammar.Basic

/-!
# Markup

Elements written among the expressions of a script.  The name that closes an
element need not be the one that opened it.
-/

namespace Deadwood.Script.Clause

def braces : Clause :=
  .node .braces (.seq [openBrace,
    opt (.alt [anonymous [mark "...", .symbol (.expression .inner)], .symbol (.expressions .inner)]), closeBrace])

def elementName : Clause :=
  .seq [.lexeme .markupName, .alt [.seq [mark ":", .lexeme .markupName], .many (.seq [mark ".", .lexeme .markupName])]]

def elementAttribute : Clause :=
  .node .markupAttribute (.seq [
    .node .other (.seq [.lexeme .markupName, opt (.seq [mark ":", .lexeme .markupName])]),
    opt (.seq [mark "=", .alt [leaf .string .markupQuoted, braces, .symbol .markup]])])

def child : Clause :=
  .alt [.node .other .markupText, leaf .other .entity, .symbol .markup, braces]

def markup : Clause :=
  anonymous [mark "<" "/",
    opt (.seq [elementName, opt (.symbol .typeArguments), .many (.alt [elementAttribute, braces])]),
    .alt [mark "/>", .seq [mark ">", .many child, mark "</", opt elementName, mark ">"]]]

end Deadwood.Script.Clause
