import MixinCatalog.Syntax.Parts

/-!
# The name a function returns

A return statement names what it returns if the expression is a name, possibly under parentheses
and type assertions. How names are read is a parameter of the recognition rules; `textual` is the
reading that looks at the text alone.
-/

namespace MixinCatalog

open Syntax

/-- A way to read the name that a return statement in a source text hands back. -/
abbrev NameReader := Node → String → Option String

namespace NameReader

/-- The wrappers whose operand is their first part. -/
def wrapsFirst : Kind → Bool
  | .parenthesizedExpression | .nonNullExpression | .asExpression | .satisfiesExpression => true
  | _ => false

mutual

/-- The expression under parentheses and type assertions. A prefix assertion has its operand last,
all other wrappers have it first. -/
def unwrap : Node → Option Node
  | n@(.mk kind _ _ _ _ children) =>
    if wrapsFirst kind then unwrapFirst children
    else if kind = .typeAssertion then unwrapLast children
    else some n

/-- The expression under the first part among some children. -/
def unwrapFirst : List Node → Option Node
  | [] => none
  | c :: cs => if c.named && !c.isComment then unwrap c else unwrapFirst cs

/-- The expression under the last named node among some children. -/
def unwrapLast : List Node → Option Node
  | [] => none
  | c :: cs =>
    if cs.any Node.named then unwrapLast cs
    else if c.named then unwrap c
    else none

end

/-- Read the name under parentheses and type assertions. -/
def textual : NameReader := fun statement source =>
  if statement.role = .returnStatement then
    match statement.returned?.bind unwrap with
    | some e => if e.role = .identifier then some (e.text source) else none
    | none => none
  else none

end NameReader

end MixinCatalog
