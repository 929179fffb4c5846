import Deadwood.Wildcard

/-!
# Packages

A specifier belongs to the package that its first segment names, or its first
two segments if the package has a scope.
-/

namespace Deadwood.Package

/-- The package that a specifier belongs to. -/
def nameOf (specifier : Text) : Text :=
  let parts := Text.splitOn '/' specifier
  if Text.startsWith specifier "@" then Text.joinWith "/" (parts.take 2) else parts.headD []

/-- The declared packages that no specifier belongs to and no pattern excuses. -/
def unusedDeclared (declared used patterns : List Text) : List Text :=
  let names := used.map nameOf
  declared.filter fun name => !names.contains name && !patterns.any (Wildcard.accepts · name)

end Deadwood.Package
