import MixinCatalog.Grammar.Functions

/-!
# Classes
-/

namespace MixinCatalog.Grammar

open Syntax

private def methodWords (types : Bool) : List String :=
  if types then
    ["public", "private", "protected", "static", "override", "readonly", "abstract", "declare",
      "async", "get", "set", "accessor"]
  else ["static", "async", "get", "set", "accessor"]

private def fieldWords (types : Bool) : List String :=
  if types then
    ["public", "private", "protected", "static", "override", "readonly", "abstract", "declare",
      "accessor"]
  else ["static", "accessor"]

private def staticBlock (g : Rules) : Parser Unit :=
  node (.other "class_static_block") do
    keyword "static"
    field .body (block g)
    discard (impliedSemicolon? false false)

private def methodSignature (g : Rules) : Parser Unit :=
  node (.other "method_signature") do
    modifiers (methodWords true) "(<:=;,?!\x7d"
    discard (symbol? "*")
    field .name (memberName g)
    discard (symbol? "?")
    callSignature g
    if !(← symbol? ",") then signatureEnd

private def indexSignature (g : Rules) : Parser Unit :=
  node (.other "index_signature") do
    modifiers (fieldWords true) "(<:=;,?!\x7d"
    symbol "["
    name .identifier
    if !(← keyword? "in") then symbol ":"
    g .type
    symbol "]"
    ascription? g
    if !(← symbol? ",") then semicolon false

private def fieldDefinition (g : Rules) : Parser Unit := do
  let types := (← read).types
  node (.other (if types then "public_field_definition" else "field_definition")) do
    decorators g
    modifiers (fieldWords types) "(<:=;,?!\x7d"
    field .name (memberName g)
    if types then
      discard (symbol? "?")
      discard (symbol? "!")
    ascription? g
    initializer? g true
  let valued := ((← get).built.head?.bind (·.child? .value)).isSome
  if !(types && (← symbol? ",")) then semicolon valued

private def methodDefinition (g : Rules) : Parser Unit := do
  let types := (← read).types
  node (.other "method_definition") do
    decorators g
    method g (methodWords types)

private def classMember (g : Rules) : Parser Unit := do
  if (← lookingWord "static") && (← peekAfterWord).startsWith "\x7b" then staticBlock g
  else if (← read).types then
    methodDefinition g <|> methodSignature g <|> indexSignature g <|> fieldDefinition g
  else methodDefinition g <|> fieldDefinition g

private def classBody (g : Rules) : Parser Unit :=
  node (.other "class_body") do
    symbol "\x7b"
    repeatWhile do
      if ← looking "\x7d" then return false
      if ← symbol? ";" then return true
      classMember g
      return true
    symbol "\x7d"

private def typedHeritage (g : Rules) : Parser Unit :=
  node .classHeritage do
    if ← lookingWord "extends" then
      node .extendsClause do
        keyword "extends"
        commaList1 do
          field .value (g (.operand false))
          if ← looking "<" then typeArguments g
    if ← lookingWord "implements" then
      node (.other "implements_clause") do
        keyword "implements"
        commaList1 (g .type)

private def plainHeritage (g : Rules) : Parser Unit :=
  node .classHeritage do
    keyword "extends"
    g (.expression false)

private def heritage? (g : Rules) : Parser Unit := do
  if (← read).types then
    if (← lookingWord "extends") || (← lookingWord "implements") then typedHeritage g
  else if ← lookingWord "extends" then plainHeritage g

/-- Whether the class being read goes on with a name. -/
private def namedHere : Parser Bool := do
  let types := (← read).types
  match ← peekWord with
  | some "extends" => return false
  | some "implements" => return !types
  | some _ => return true
  | none => return false

private def classRest (g : Rules) : Parser Unit := do
  typeParameters? g
  heritage? g
  field .body (classBody g)

private def className : Parser Unit := do
  field .name (name (if (← read).types then .typeIdentifier else .identifier))

def classExpression (g : Rules) : Parser Unit :=
  node .classExpression do
    decorators g
    keyword "class"
    if ← namedHere then className
    classRest g

/-- A class with a name of its own. `operator` says that the class could also be an operand. -/
def classDeclaration (g : Rules) (operator : Bool) : Parser Unit :=
  nodeBy do
    decorators g
    let types := (← read).types
    let abstract_ ← if types then keyword? "abstract" else pure false
    keyword "class"
    require (← namedHere)
    className
    classRest g
    if abstract_ then return .abstractClassDeclaration
    discard (impliedSemicolon? operator false)
    return .classDeclaration

end MixinCatalog.Grammar
