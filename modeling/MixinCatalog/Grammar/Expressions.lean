import MixinCatalog.Grammar.Classes
import MixinCatalog.Grammar.Markup

/-!
# Expressions
-/

namespace MixinCatalog.Grammar

open Syntax

/-! ### Literals made of expressions -/

private def arrayLiteral (g : Rules) : Parser Unit :=
  node (.other "array") do
    symbol "["
    commaList "]" do
      if ← looking "..." then
        node (.other "spread_element") do
          symbol "..."
          g (.expression false)
      else g (.expression false)
    symbol "]"

private def property (g : Rules) : Parser Unit := do
  if ← looking "..." then
    node (.other "spread_element") do
      symbol "..."
      g (.expression false)
  else
    let isMethod ← attempt do
      node (.other "method_definition") (method g ["async", "get", "set"])
    if !isMethod then
      let isPair ← attempt do
        node (.other "pair") do
          memberName g
          symbol ":"
          field .value (g (.expression false))
      if !isPair then name (.other "shorthand_property_identifier")

private def objectLiteral (g : Rules) : Parser Unit :=
  node (.other "object") do
    symbol "\x7b"
    commaList "\x7d" (property g)
    symbol "\x7d"

private def parenthesized (g : Rules) : Parser Unit :=
  node .parenthesizedExpression do
    symbol "("
    expressions g false
    ascription? g
    symbol ")"

private def templateLiteral (g : Rules) : Parser Unit :=
  template (.other "template_string") (expressions g false)

/-! ### Operands -/

/-- The words that never name a value. -/
private def reservedWords : List String :=
  ["break", "case", "catch", "const", "continue", "debugger", "default", "do", "else", "extends",
    "finally", "for", "if", "in", "instanceof", "return", "switch", "throw", "try", "var", "while",
    "with", "export"]

/-- The words that are values of their own. -/
private def valueWords : List String := ["this", "super", "null", "true", "false", "undefined"]

private def newExpression (g : Rules) : Parser Unit := do
  if (← peekAfterWord).startsWith "." then
    node (.other "meta_property") do
      keyword "new"
      symbol "."
      keyword "target"
  else
    node (.other "new_expression") do
      keyword "new"
      g .constructed
      if (← read).types && (← looking "<") then
        discard <| attempt do
          typeArguments g
          require (← looking "(")
      if ← looking "(" then arguments g

private def importExpression (g : Rules) : Parser Unit := do
  if (← peekAfterWord).startsWith "." then
    node (.other "meta_property") do
      keyword "import"
      symbol "."
      keyword "meta"
  else
    node (.other "call_expression") do
      keyword "import"
      arguments g

private def asyncOperand (g : Rules) (line : Bool) : Parser Unit := do
  let c ← peekAfterWord
  if c.nameText? == some "function" then functionExpression g
  else arrowFunction g line <|> bareArrowFunction g line <|> name .identifier

private def wordOperand (g : Rules) (line : Bool) (w : String) : Parser Unit := do
  if w == "function" then functionExpression g
  else if w == "class" then classExpression g
  else if w == "async" then asyncOperand g line
  else if (← peekAfterWord).startsWith "=>" then bareArrowFunction g line
  else if w == "new" then newExpression g
  else if w == "import" then importExpression g
  else if valueWords.contains w then name (.other w)
  else
    require (!reservedWords.contains w)
    name .identifier

private def primary (g : Rules) (line : Bool) : Parser Unit := do
  match ← peekChar with
  | some '(' => arrowFunction g line <|> parenthesized g
  | some '[' => arrayLiteral g
  | some '\x7b' => objectLiteral g
  | some '\x22' | some '\x27' => stringLiteral
  | some '\x60' => templateLiteral g
  | some '/' => lexeme (.other "regex") Cursor.regex?
  | some '#' => privateName
  | some '@' => classExpression g
  | some '<' =>
    require (← read).markup
    g .element <|> (do require (← read).types; arrowFunction g line)
  | _ =>
    match ← peekWord with
    | some w => wordOperand g line w
    | none => numberLiteral

private def optionalLink (g : Rules) : Parser Unit := do
  if ← looking "(" then arguments g
  else if (← read).types && (← looking "<") then
    typeArguments g
    arguments g
  else if ← looking "[" then
    symbol "["
    expressions g false
    symbol "]"
  else name (.other "property_identifier") <|> privateName

/-- What may stand behind the arguments of a generic value that is not called. -/
private def endsInstantiation (c : Cursor) : Bool :=
  match c.rest.head? with
  | none => true
  | some x => ")],;:.?=|&^*%!\x7d".toList.contains x

private def genericCall (g : Rules) : Parser Unit :=
  extend (.other "call_expression") do
    typeArguments g
    if ← looking "\x60" then templateLiteral g else arguments g

private def instantiation (g : Rules) : Parser Unit :=
  extend (.other "instantiation_expression") do
    typeArguments g
    require ((← lineBreakAhead) || endsInstantiation (← peek))
    require !(← looking "\x7b")

/-- One member access, call or other postfix operator. -/
private def link (g : Rules) (calls line : Bool) : Parser Bool := do
  if !(← mayContinue line) then return false
  let types := (← read).types
  let c ← peek
  match c.rest with
  | '?' :: '.' :: x :: _ =>
    if x.isDigit || !calls then return false
    extend (.other "member_expression") do
      symbol "?."
      optionalLink g
    return true
  | '.' :: '.' :: _ => return false
  | '.' :: _ =>
    extend (.other "member_expression") do
      symbol "."
      name (.other "property_identifier") <|> privateName
    return true
  | '[' :: _ =>
    extend (.other "subscript_expression") do
      symbol "["
      expressions g false
      symbol "]"
    return true
  | '(' :: _ =>
    if !calls then return false
    extend (.other "call_expression") (arguments g)
    return true
  | '\x60' :: _ =>
    extend (.other "call_expression") (templateLiteral g)
    return true
  | '!' :: '=' :: _ => return false
  | '!' :: _ =>
    if !types then return false
    extend .nonNullExpression (symbol "!")
    return true
  | '<' :: '<' :: _ | '<' :: '=' :: _ => return false
  | '<' :: _ => if types && calls then attempt (genericCall g <|> instantiation g) else return false
  | _ => return false

/-- What `new` applies to: a value with members, but without calls. -/
def constructedRule (g : Rules) : Parser Unit := do
  primary g false
  repeatWhile (link g false false)

private def postfixOperand (g : Rules) (line : Bool) : Parser Unit := do
  primary g line
  repeatWhile (link g true line)
  if ← mayContinue line then
    if ← looking "++" then extend (.other "update_expression") (symbol "++")
    else if ← looking "--" then extend (.other "update_expression") (symbol "--")

private def assertion (g : Rules) (line : Bool) : Parser Unit :=
  node .typeAssertion do
    typeArguments g
    g (.operand line)

private def signs : List String := ["!", "~", "-", "+"]

private def unaryWords : List String := ["typeof", "void", "delete"]

private def yieldExpression (g : Rules) (line : Bool) : Parser Unit :=
  node (.other "yield_expression") do
    keyword "yield"
    if ← symbol? "*" then g (.expression line)
    else if ← mayContinue line then discard (attempt (g (.expression line)))

/-- An operand with its prefix and postfix operators. -/
def operandRule (g : Rules) (line : Bool) : Parser Unit := do
  let c ← peek
  let setting ← read
  if c.startsWith "++" || c.startsWith "--" then
    node (.other "update_expression") do
      operator (if c.startsWith "++" then "++" else "--")
      g (.operand line)
  else if c.startsWith "<" && setting.types && !setting.markup then
    arrowFunction g line <|> assertion g line
  else
    match signs.find? c.startsWith with
    | some s =>
      node (.other "unary_expression") do
        operator s
        g (.operand line)
    | none =>
      match c.nameText? with
      | some w =>
        let plain := (← peekAfterWord).startsWith "=>"
        if plain then postfixOperand g line
        else if unaryWords.contains w then
          node (.other "unary_expression") do
            keyword w
            g (.operand line)
        else if w == "await" then
          node (.other "await_expression") do
            keyword "await"
            g (.operand line)
        else if w == "yield" then yieldExpression g line
        else postfixOperand g line
      | none => postfixOperand g line

/-! ### Operators -/

/-- The binary operators with their binding strength, longer spellings first. -/
private def binaryOperators : List (String × Nat) :=
  [(">>>", 9), ("===", 7), ("!==", 7), ("**", 12), ("&&", 3), ("||", 2), ("??", 1), ("==", 7),
    ("!=", 7), ("<=", 8), (">=", 8), ("<<", 9), (">>", 9), ("+", 10), ("-", 10), ("*", 11),
    ("/", 11), ("%", 11), ("<", 8), (">", 8), ("&", 6), ("^", 5), ("|", 4)]

private def assignmentOperators : List String :=
  [">>>=", "**=", "&&=", "||=", "??=", "<<=", ">>=", "+=", "-=", "*=", "/=", "%=", "&=", "^=", "|="]

private def binaryOperator? (c : Cursor) : Option (String × Nat) :=
  if assignmentOperators.any c.startsWith then none
  else if c.startsWith "++" || c.startsWith "--" then none
  else binaryOperators.find? fun o => c.startsWith o.1

private def wordOperator (g : Rules) (level : Nat) (line : Bool) (w : String) : Parser Bool := do
  let types := (← read).types
  if level > 8 then return false
  else if w == "in" || w == "instanceof" then
    extend (.other "binary_expression") do
      keyword w
      g (.binary 9 line)
    return true
  else if types && w == "as" then
    extend .asExpression do
      keyword "as"
      if !(← keyword? "const") then g .type
    return true
  else if types && w == "satisfies" then
    extend .satisfiesExpression do
      keyword "satisfies"
      g .type
    return true
  else return false

/-- Operands joined by binary operators that bind at least as tightly as `level`. -/
def binaryRule (g : Rules) (level : Nat) (line : Bool) : Parser Unit := do
  g (.operand line)
  repeatWhile do
    if !(← mayContinue line) then return false
    let c ← peek
    match c.nameText? with
    | some w => wordOperator g level line w
    | none =>
      match binaryOperator? c with
      | some (o, strength) =>
        if strength < level then return false
        extend (.other "binary_expression") do
          operator o
          g (.binary (if o == "**" then strength else strength + 1) line)
        return true
      | none => return false

private def atQuestion (c : Cursor) : Bool :=
  match c.rest with
  | '?' :: '?' :: _ => false
  | '?' :: '.' :: x :: _ => x.isDigit
  | '?' :: _ => true
  | _ => false

private def consequence (g : Rules) (resultTypes : Bool) : Parser Unit := do
  operator "?"
  withReader (fun s => { s with resultTypes }) (g (.expression false))
  symbol ":"

private def conditional (g : Rules) (line : Bool) : Parser Unit :=
  extend (.other "ternary_expression") do
    -- `a ? (b) : c => d` reads `c => d` as the alternative, not `c` as a result type.
    consequence g true <|> consequence g false
    g (.expression line)

private def assignmentTail (g : Rules) (line : Bool) : Parser Unit := do
  let c ← peek
  match assignmentOperators.find? c.startsWith with
  | some o =>
    extend (.other "augmented_assignment_expression") do
      symbol o
      g (.expression line)
  | none =>
    if ← lookingEquals then
      extend (.other "assignment_expression") do
        symbol "="
        g (.expression line)

private def destructuring (g : Rules) (line : Bool) : Parser Unit :=
  node (.other "assignment_expression") do
    g (.pattern true)
    require (← lookingEquals)
    symbol "="
    g (.expression line)

private def plainExpression (g : Rules) (line : Bool) : Parser Unit := do
  g (.binary 0 line)
  if ← mayContinue line then
    if atQuestion (← peek) then conditional g line else assignmentTail g line

def expressionRule (g : Rules) (line : Bool) : Parser Unit := do
  if (← looking "\x7b") || (← looking "[") then destructuring g line <|> plainExpression g line
  else plainExpression g line

end MixinCatalog.Grammar
