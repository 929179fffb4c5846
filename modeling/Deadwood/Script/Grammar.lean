import Deadwood.Script.Grammar.Statement
import Deadwood.Script.Grammar.Markup

/-!
# The script grammar

The rule of each symbol, in either dialect.
-/

namespace Deadwood.Script

/-- The rule that a symbol stands for. -/
def grammar (dialect : Dialect) : Symbol → Clause
  | .statement => Clause.statement
  | .block => Clause.block
  | .declaration => Clause.declaration
  | .declarators => Clause.declarators
  | .importStatement => Clause.importStatement
  | .exportStatement => Clause.exportStatement
  | .expressions place => Clause.expressions place
  | .expression place => Clause.expression place
  | .operand place => Clause.operand dialect place
  | .arrow place => Clause.arrow place
  | .primary => Clause.primary dialect
  | .arguments => Clause.arguments
  | .template => Clause.template
  | .destructuring => Clause.destructuring
  | .pattern => Clause.pattern
  | .propertyName => Clause.propertyName
  | .parameters => Clause.parameters
  | .signature place => Clause.signature place
  | .decorator => Clause.decorator
  | .classTail => Clause.classTail
  | .indexSignature => Clause.indexSignature
  | .type place => Clause.type place
  | .typeOperand place => Clause.typeOperand place
  | .primaryType place => Clause.primaryType place
  | .typeArguments => Clause.typeArguments
  | .typeParameters => Clause.typeParameters
  | .objectType => Clause.objectType
  | .markup => Clause.markup

end Deadwood.Script
