import MixinCatalog.Grammar.Declarations

/-!
# Statements
-/

namespace MixinCatalog.Grammar

open Syntax

private def expressionStatement (g : Rules) : Parser Unit :=
  node (.other "expression_statement") do
    expressions g true
    semicolon true

private def condition (g : Rules) : Parser Unit :=
  node .parenthesizedExpression do
    symbol "("
    expressions g false
    symbol ")"

private def ifStatement (g : Rules) : Parser Unit :=
  node (.other "if_statement") do
    keyword "if"
    condition g
    g .statement
    if ← lookingWord "else" then
      node (.other "else_clause") do
        keyword "else"
        g .statement

private def whileStatement (g : Rules) : Parser Unit :=
  node (.other "while_statement") do
    keyword "while"
    condition g
    g .statement

private def doStatement (g : Rules) : Parser Unit :=
  node (.other "do_statement") do
    keyword "do"
    g .statement
    keyword "while"
    condition g
    if !(← impliedSemicolon? false false) then discard (symbol? ";")

private def withStatement (g : Rules) : Parser Unit :=
  node (.other "with_statement") do
    keyword "with"
    condition g
    g .statement

/-- A loop over the members or elements of something. -/
private def forInStatement (g : Rules) : Parser Unit :=
  node (.other "for_in_statement") do
    keyword "for"
    discard (keyword? "await")
    symbol "("
    let declared ← attempt do
      if !(← keyword? "var") then
        if !(← keyword? "let") then keyword "const"
      g (.pattern false)
      initializer? g false
      require ((← lookingWord "in") || (← lookingWord "of"))
    if !declared then
      let target ← attempt do
        g (.pattern true)
        require ((← lookingWord "in") || (← lookingWord "of"))
      if !target then g (.operand false)
    if !(← keyword? "in") then keyword "of"
    expressions g false
    symbol ")"
    g .statement

private def forStatement (g : Rules) : Parser Unit :=
  node (.other "for_statement") do
    keyword "for"
    symbol "("
    if ← looking ";" then node (.other "empty_statement") (symbol ";")
    else
      let declared ← attempt do
        require ((← lookingWord "var") || (← lookingWord "let") || (← lookingWord "const"))
        variableStatement g
      if !declared then
        expressions g false
        symbol ";"
    if ← looking ";" then node (.other "empty_statement") (symbol ";")
    else
      expressions g false
      symbol ";"
    if !(← looking ")") then expressions g false
    symbol ")"
    g .statement

private def caseBody (g : Rules) : Parser Unit :=
  repeatWhile do
    if (← looking "\x7d") || (← lookingWord "case") || (← lookingWord "default") then return false
    g .statement
    return true

private def switchStatement (g : Rules) : Parser Unit :=
  node (.other "switch_statement") do
    keyword "switch"
    condition g
    node (.other "switch_body") do
      symbol "\x7b"
      repeatWhile do
        if ← looking "\x7d" then return false
        if ← lookingWord "case" then
          node (.other "switch_case") do
            keyword "case"
            expressions g false
            symbol ":"
            caseBody g
        else
          node (.other "switch_default") do
            keyword "default"
            symbol ":"
            caseBody g
        return true
      symbol "\x7d"
      -- unlike behind other braces, no semicolon is implied here
      openEnd

private def tryStatement (g : Rules) : Parser Unit :=
  node (.other "try_statement") do
    keyword "try"
    field .body (block g)
    if ← lookingWord "catch" then
      node (.other "catch_clause") do
        keyword "catch"
        if ← symbol? "(" then
          field .parameter (g (.pattern false))
          ascription? g
          symbol ")"
        field .body (block g)
    if ← lookingWord "finally" then
      node (.other "finally_clause") do
        keyword "finally"
        field .body (block g)

/-- A jump that may name a label. -/
private def jump (w : String) : Parser Unit :=
  node (.other (w ++ "_statement")) do
    keyword w
    if !(← endsHere false) && !(← looking ";") then name (.other "statement_identifier")
    semicolon false

private def returnStatement (g : Rules) : Parser Unit :=
  node .returnStatement do
    keyword "return"
    if ← endsHere false then semicolon false
    else if ← looking ";" then symbol ";"
    else
      expressions g true
      semicolon true

private def throwStatement (g : Rules) : Parser Unit :=
  node (.other "throw_statement") do
    keyword "throw"
    expressions g true
    semicolon true

private def labeledStatement (g : Rules) : Parser Unit :=
  node (.other "labeled_statement") do
    name (.other "statement_identifier")
    symbol ":"
    g .statement

private def decoratedStatement (g : Rules) : Parser Unit :=
  exportStatement g <|> classDeclaration g true <|> expressionStatement g

/-- The words that begin statements but are also names. -/
private def nameLikeWords (types : Bool) : List String :=
  ["export", "let", "async"] ++ if types then ["declare", "namespace", "type", "module"] else []

/-- Whether the next word is a statement of its own because the line ends behind it. -/
private def standsAlone (w : String) : Parser Bool := do
  if (nameLikeWords (← read).types).contains w then
    wouldSucceed do
      name .identifier
      require (← endsHere true)
  else return false

private def letStatement (g : Rules) (next : Cursor) : Parser Unit :=
  let declares := match next.nameText? with
    | some w => w != "in" && w != "instanceof"
    | none => next.startsWith "[" || next.startsWith "\x7b"
  if declares then variableStatement g else expressionStatement g

private def wordStatement (g : Rules) (w : String) : Parser Unit := do
  let c ← peekAfterWord
  if c.startsWith ":" && w != "default" && w != "case" then labeledStatement g
  else if ← standsAlone w then
    node (.other "expression_statement") do
      name .identifier
      semicolon true
  else match w with
    | "var" => variableStatement g
    | "const" => typedStatement g <|> variableStatement g
    | "let" => letStatement g c
    | "function" => functionDeclaration g true <|> expressionStatement g
    | "async" =>
      if c.nameText? == some "function" then functionDeclaration g true <|> expressionStatement g
      else expressionStatement g
    | "class" => classDeclaration g true <|> expressionStatement g
    | "if" => ifStatement g
    | "for" => forInStatement g <|> forStatement g
    | "while" => whileStatement g
    | "do" => doStatement g
    | "switch" => switchStatement g
    | "try" => tryStatement g
    | "with" => withStatement g
    | "break" => jump "break"
    | "continue" => jump "continue"
    | "return" => returnStatement g
    | "throw" => throwStatement g
    | "debugger" => node (.other "debugger_statement") (do keyword "debugger"; semicolon false)
    | "import" =>
      if c.startsWith "(" || c.startsWith "." then expressionStatement g else importStatement g
    | "export" => exportStatement g
    | "abstract" | "interface" | "type" | "enum" | "namespace" | "module" | "declare" =>
      typedStatement g <|> expressionStatement g
    | _ => expressionStatement g

def statementRule (g : Rules) : Parser Unit := do
  match ← peekChar with
  | some '\x7b' => blockWith g id
  | some ';' => node (.other "empty_statement") (symbol ";")
  | some '@' => decoratedStatement g
  | _ =>
    match ← peekWord with
    | some w => wordStatement g w
    | none => expressionStatement g

end MixinCatalog.Grammar
