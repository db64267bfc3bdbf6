import MixinCatalog.Grammar.Types

/-!
# Patterns, blocks and functions
-/

namespace MixinCatalog.Grammar

open Syntax

/-! ### Patterns -/

private def withDefault (g : Rules) (target : Bool) : Parser Unit := do
  g (.pattern target)
  if ← lookingEquals then
    label .left
    extend .assignmentPattern do
      symbol "="
      g (.expression false)

private def propertyPattern (g : Rules) (target : Bool) : Parser Unit := do
  if ← looking "..." then g (.pattern target)
  else
    let pair ← attempt do
      node (.other "pair_pattern") do
        memberName g
        symbol ":"
        withDefault g target
    if !pair then
      name (.other "shorthand_property_identifier_pattern")
      if ← lookingEquals then
        extend (.other "object_assignment_pattern") do
          symbol "="
          g (.expression false)

/-- Members and elements of a place that already exists. -/
private def memberChain (g : Rules) : Parser Unit :=
  repeatWhile do
    if (← looking ".") && !(← looking "...") then
      extend (.other "member_expression") do
        symbol "."
        name (.other "property_identifier") <|> privateName
      return true
    if ← looking "[" then
      extend (.other "subscript_expression") do
        symbol "["
        g (.expression false)
        symbol "]"
      return true
    return false

def patternRule (g : Rules) (target : Bool) : Parser Unit := do
  match ← peekChar with
  | some '\x7b' =>
    node (.other "object_pattern") do
      symbol "\x7b"
      commaList "\x7d" (propertyPattern g target)
      symbol "\x7d"
  | some '[' =>
    node (.other "array_pattern") do
      symbol "["
      commaList "]" (withDefault g target)
      symbol "]"
  | some '.' =>
    node (.other "rest_pattern") do
      symbol "..."
      g (.pattern target)
  | _ =>
    name .identifier
    if target then memberChain g

/-! ### Blocks -/

/-- A block of statements. `operator` says whether a binary operator could follow it, given whether
the block is empty. -/
def blockWith (g : Rules) (operator : Bool → Bool) : Parser Unit :=
  node .statementBlock do
    symbol "\x7b"
    let empty ← looking "\x7d"
    repeatWhile do
      if ← looking "\x7d" then return false
      g .statement
      return true
    symbol "\x7d"
    discard (impliedSemicolon? (operator empty) false)

/-- A block of statements that an operator cannot follow. -/
def block (g : Rules) : Parser Unit := blockWith g fun _ => false

/-- The body of a function inside an expression. -/
def operandBlock (g : Rules) : Parser Unit := blockWith g fun _ => true

/-! ### Functions -/

def functionExpression (g : Rules) : Parser Unit :=
  nodeBy do
    discard (keyword? "async")
    keyword "function"
    let generator ← symbol? "*"
    if !(← looking "(") && !(← looking "<") then field .name (name .identifier)
    callSignature g
    field .body (operandBlock g)
    return if generator then .generatorFunction else .functionExpression

/-- A function with a name of its own. `operator` says that the function could also be an operand.
In the typed dialects the body may be missing. -/
def functionDeclaration (g : Rules) (operator : Bool) : Parser Unit :=
  nodeBy do
    discard (keyword? "async")
    keyword "function"
    let generator ← symbol? "*"
    field .name (name .identifier)
    callSignature g
    if (← read).types && !(← looking "\x7b") then
      signatureEnd
      return .functionSignature
    field .body (blockWith g fun _ => operator)
    discard (impliedSemicolon? operator false)
    return if generator then .generatorFunctionDeclaration else .functionDeclaration

private def arrowBody (g : Rules) (line : Bool) : Parser Unit := do
  symbol "=>"
  if ← looking "\x7b" then field .body (operandBlock g)
  else field .body (g (.expression line))

/-- An arrow function with its parameters in parentheses. -/
def arrowFunction (g : Rules) (line : Bool) : Parser Unit :=
  node .arrowFunction do
    discard (keyword? "async")
    typeParameters? g
    field .parameters (formalParameters g)
    if (← read).resultTypes then ascription? g
    arrowBody g line

/-- An arrow function with one bare parameter. -/
def bareArrowFunction (g : Rules) (line : Bool) : Parser Unit :=
  node .arrowFunction do
    if (← lookingWord "async") && !(← peekAfterWord).startsWith "=>" then keyword "async"
    field .parameter (name .identifier)
    arrowBody g line

/-! ### Methods -/

def method (g : Rules) (words : List String) : Parser Unit := do
  modifiers words "(<:=;,?!\x7d"
  discard (symbol? "*")
  field .name (memberName g)
  discard (symbol? "?")
  callSignature g
  field .body (block g)

end MixinCatalog.Grammar
