import MixinCatalog.Syntax.Node

/-!
# Parts of statements and functions

The children of a node that the recognition rules ask for. Comments are never among them.
-/

namespace MixinCatalog.Syntax.Node

/-- The declarators of a variable statement, in source order. -/
def declarators (statement : Node) : List Node :=
  statement.namedChildren.filter (·.kind == .variableDeclarator)

/-- The value of a declarator that binds a plain name. -/
def initializer? (declarator : Node) : Option Node :=
  if declarator.kind = .variableDeclarator then
    match declarator.child? .name with
    | some n => if n.role = .identifier then declarator.child? .value else none
    | none => none
  else none

/-- The statements directly inside a block, in source order. -/
def statements (block : Node) : List Node := block.parts

def returned? (statement : Node) : Option Node := statement.parts.head?

def body? (function : Node) : Option Node := function.child? .body

end MixinCatalog.Syntax.Node
