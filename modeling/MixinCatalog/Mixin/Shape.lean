/-!
# Shapes of mixins
-/

namespace MixinCatalog

/-- The form in which a mixin is written. -/
inductive Shape where
  /-- `const M = base => class extends base {}` -/
  | expressionBody
  /-- `const M = base => { return class extends base {} }` -/
  | blockReturnExpression
  /-- `const M = base => { class C extends base {} return C }`, or without the return. -/
  | blockClassDeclaration (explicitReturn : Bool)
  /-- `function M(base) { return class extends base {} }` -/
  | functionReturnExpression
  /-- `function M(base) { class C extends base {} return C }`, or without the return. -/
  | functionClassDeclaration (explicitReturn : Bool)
deriving DecidableEq, Repr, Inhabited

namespace Shape

/-- Whether the class is declared but never returned. -/
def isImplicitReturn : Shape → Bool
  | blockClassDeclaration false | functionClassDeclaration false => true
  | _ => false

def label : Shape → String
  | expressionBody => "arrow expression"
  | blockReturnExpression => "arrow returning class"
  | blockClassDeclaration true => "arrow with class declaration"
  | blockClassDeclaration false => "arrow with class declaration (implicit return)"
  | functionReturnExpression => "function returning class"
  | functionClassDeclaration true => "function with class declaration"
  | functionClassDeclaration false => "function with class declaration (implicit return)"

end Shape

end MixinCatalog
