import MixinCatalog.Grammar.Literals

/-!
# Type annotations

The analysis never looks inside a type, so all types are nodes of one kind; the rules below only
decide where a type ends.
-/

namespace MixinCatalog.Grammar

open Syntax

/-- The arguments `<A, B>` of a generic name. -/
def typeArguments (g : Rules) : Parser Unit :=
  node (.other "type_arguments") do
    symbol "<"
    commaList ">" (g .type)
    symbol ">"

private def typeParameter (g : Rules) : Parser Unit :=
  node (.other "type_parameter") do
    repeatWhile do
      match ← peekWord with
      | some "const" => keyword? "const"
      | some "in" => keyword? "in"
      | some "out" => if (← peekAfterWord).name?.isSome then keyword? "out" else return false
      | _ => return false
    name .typeIdentifier
    if ← keyword? "extends" then g .type
    if ← symbol? "=" then g .type

/-- The parameters `<A, B extends C>` of a generic declaration. -/
def typeParameters (g : Rules) : Parser Unit :=
  node (.other "type_parameters") do
    symbol "<"
    commaList ">" (typeParameter g)
    symbol ">"

/-- The parameters of a generic declaration, if there are any. -/
def typeParameters? (g : Rules) : Parser Unit := do
  if (← read).types && (← looking "<") then typeParameters g

/-- A type behind a colon, if there is one. -/
def ascription? (g : Rules) : Parser Unit := do
  if (← read).types && (← looking ":") then
    node (.other "type_annotation") do
      symbol ":"
      g .type

/-- Words that modify the name behind them. A word in front of one of the characters `stops` is
itself the name. -/
def modifiers (words : List String) (stops : String) : Parser Unit :=
  repeatWhile do
    match ← peekWord with
    | some w =>
      let isName := (((← peekAfterWord).rest.head?).map stops.toList.contains).getD true
      if isName || !words.contains w then return false
      keyword? w
    | none => return false

private def parameterModifiers : List String :=
  ["public", "private", "protected", "override", "readonly"]

private def decoratorName (g : Rules) : Parser Unit := do
  name .identifier
  repeatWhile do
    if ← looking "." then
      extend (.other "member_expression") do
        symbol "."
        name (.other "property_identifier")
      return true
    return false
  if (← read).types && (← looking "<") then discard (attempt (typeArguments g))

def arguments (g : Rules) : Parser Unit :=
  node (.other "arguments") do
    symbol "("
    commaList ")" do
      if ← looking "..." then
        node (.other "spread_element") do
          symbol "..."
          g (.expression false)
      else g (.expression false)
    symbol ")"

/-- Decorators such as `@dec` and `@dec(x)`. -/
def decorators (g : Rules) : Parser Unit :=
  repeatWhile do
    if ← looking "@" then
      node (.other "decorator") do
        symbol "@"
        if ← looking "(" then
          node .parenthesizedExpression do
            symbol "("
            g (.expression false)
            symbol ")"
        else
          decoratorName g
          if ← looking "(" then extend (.other "call_expression") (arguments g)
      return true
    return false

/-- The sign `=` that gives a value, not the beginning of a longer operator. -/
def lookingEquals : Parser Bool := do
  let c ← peek
  return c.startsWith "=" && !c.startsWith "==" && !c.startsWith "=>"

/-- A value behind the sign `=`, if there is one. -/
def initializer? (g : Rules) (line : Bool) : Parser Unit := do
  if ← lookingEquals then
    symbol "="
    field .value (g (.expression line))

private def typedParameter (g : Rules) : Parser Unit :=
  nodeBy do
    decorators g
    modifiers parameterModifiers ",):=?"
    if ← lookingWord "this" then field .pattern (name (.other "this"))
    else field .pattern (g (.pattern false))
    let optional ← symbol? "?"
    ascription? g
    initializer? g false
    return if optional then .optionalParameter else .requiredParameter

private def plainParameter (g : Rules) : Parser Unit := do
  g (.pattern false)
  if ← lookingEquals then
    label .left
    extend .assignmentPattern do
      symbol "="
      g (.expression false)

def formalParameters (g : Rules) : Parser Unit := do
  let typed := (← read).types
  node (.other "formal_parameters") do
    symbol "("
    commaList ")" (if typed then typedParameter g else plainParameter g)
    symbol ")"

/-- Type parameters, parameters and result type of a function. -/
def callSignature (g : Rules) : Parser Unit := do
  typeParameters? g
  field .parameters (formalParameters g)
  ascription? g

private def functionType (g : Rules) : Parser Unit := do
  if ← looking "<" then typeParameters g
  formalParameters g
  symbol "=>"
  g .type

private def bracketedMember (g : Rules) : Parser Unit := do
  symbol "["
  let mapped ← attempt do
    name .identifier
    keyword "in"
    g .type
    if ← keyword? "as" then g .type
  if !mapped then
    let indexed ← attempt do
      name .identifier
      symbol ":"
      g .type
    if !indexed then g (.expression false)
  symbol "]"

private def memberModifiers : List String :=
  ["readonly", "static", "get", "set", "new", "abstract", "async", "public", "private", "protected"]

private def typeMember (g : Rules) : Parser Unit :=
  node (.other "property_signature") do
    if (← looking "(") || (← looking "<") then callSignature g
    else
      if (← looking "+readonly") || (← looking "-readonly") then
        discard (symbol? "+")
        discard (symbol? "-")
      modifiers memberModifiers "(<:?;,=\x7d"
      if (← lookingWord "new") && !(← peekAfterWord).startsWith ":"
          && !(← peekAfterWord).startsWith "?" then
        keyword "new"
        callSignature g
      else
        if ← looking "..." then
          symbol "..."
          g .type
        else if ← looking "[" then bracketedMember g
        else memberName g
        if (← looking "-?") || (← looking "+?") then
          discard (symbol? "-")
          discard (symbol? "+")
        discard (symbol? "?")
        if (← looking "(") || (← looking "<") then callSignature g
        else ascription? g

def objectType (g : Rules) (kind : Kind) : Parser Unit :=
  node kind do
    symbol "\x7b"
    repeatWhile do
      if ← looking "\x7d" then return false
      if (← symbol? ";") || (← symbol? ",") then return true
      typeMember g
      if (← symbol? ";") || (← symbol? ",") then return true
      require ((← looking "\x7d") || (← lineBreakAhead))
      return true
    symbol "\x7d"

private def tupleMember (g : Rules) : Parser Unit := do
  discard (symbol? "...")
  let named ← attempt do
    name .identifier
    discard (symbol? "?")
    symbol ":"
    g .type
  if !named then
    g .type
    discard (symbol? "?")

/-- The name of a type, qualified and with arguments. -/
private def typeName (g : Rules) : Parser Unit := do
  name .typeIdentifier
  repeatWhile do
    if (← looking ".") && !(← looking "...") then
      symbol "."
      name .typeIdentifier
      return true
    return false
  if (← looking "<") && !(← lineBreakAhead) then discard (attempt (typeArguments g))

private def importType (g : Rules) : Parser Unit := do
  keyword "import"
  arguments g
  repeatWhile do
    if ← looking "." then
      symbol "."
      name .typeIdentifier
      return true
    return false
  if ← looking "<" then typeArguments g

private def typeQuery (g : Rules) : Parser Unit := do
  keyword "typeof"
  if ← lookingWord "import" then importType g
  else
    name .identifier
    repeatWhile do
      if ← looking "." then
        symbol "."
        name (.other "property_identifier") <|> privateName
        return true
      return false
    if (← looking "<") && !(← lineBreakAhead) then discard (attempt (typeArguments g))

private def typeOperators : List String := ["keyof", "unique", "readonly", "asserts", "infer"]

private def Cursor.atType (c : Cursor) : Bool :=
  match c.nameText? with
  | some w => w != "extends" && w != "is" && w != "in" && w != "as"
  | none => (c.rest.head?.map ("([\x7b\x22\x27\x60<-".toList.contains ·)).getD false
      || c.number?.isSome

private def primaryType (g : Rules) : Parser Unit := do
  match ← peekChar with
  | some '(' =>
    let isFunction ← attempt (functionType g)
    if !isFunction then
      symbol "("
      g .type
      symbol ")"
  | some '<' => functionType g
  | some '\x7b' => objectType g (.other "object_type")
  | some '[' =>
    symbol "["
    commaList "]" (tupleMember g)
    symbol "]"
  | some '\x22' | some '\x27' => stringLiteral
  | some '\x60' => template (.other "template_literal_type") (g .type)
  | some '-' =>
    symbol "-"
    numberLiteral
  | some '?' =>
    symbol "?"
    g .type
  | some '*' => symbol "*"
  | _ =>
    match ← peekWord with
    | some "new" =>
      keyword "new"
      functionType g
    | some "abstract" =>
      if (← peekAfterWord).nameText? == some "new" then
        keyword "abstract"
        keyword "new"
        functionType g
      else typeName g
    | some "typeof" => typeQuery g
    | some "import" => importType g
    | some _ => typeName g
    | none => numberLiteral

private def operandType (g : Rules) : Parser Unit := do
  repeatWhile do
    match ← peekWord with
    | some w =>
      if typeOperators.contains w && (← peekAfterWord).atType then keyword? w else return false
    | none => return false
  primaryType g
  repeatWhile do
    if (← looking "[") && !(← lineBreakAhead) then
      symbol "["
      if !(← looking "]") then g .type
      symbol "]"
      return true
    return false

def typeRule (g : Rules) : Parser Unit :=
  node (.other "type") do
    if !(← symbol? "|") then discard (symbol? "&")
    operandType g
    repeatWhile do
      if (← looking "|") && !(← looking "||") then
        symbol "|"
        operandType g
        return true
      if (← looking "&") && !(← looking "&&") then
        symbol "&"
        operandType g
        return true
      return false
    if !(← lineBreakAhead) then
      if ← keyword? "is" then g .type
      else if ← lookingWord "extends" then
        -- A constraint of an inferred type ends without a question mark.
        discard <| attempt do
          keyword "extends"
          g .type
          if ← looking "?" then
            symbol "?"
            g .type
            symbol ":"
            g .type

end MixinCatalog.Grammar
