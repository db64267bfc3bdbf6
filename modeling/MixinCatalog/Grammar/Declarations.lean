import MixinCatalog.Grammar.Expressions

/-!
# Declarations, imports and exports
-/

namespace MixinCatalog.Grammar

open Syntax

/-! ### Variables -/

private def declarator (g : Rules) : Parser Unit :=
  node .variableDeclarator do
    field .name (g (.pattern false))
    if (← read).types && (← looking "!") && !(← looking "!=") then symbol "!"
    ascription? g
    initializer? g true

/-- Whether the last declarator ends with a value, which an operator could continue. -/
private def endsWithValue : Parser Bool := do
  return ((← get).built.head?.bind (·.child? .value)).isSome

def variableStatement (g : Rules) : Parser Unit :=
  nodeBy do
    let isVar ← keyword? "var"
    if !isVar then
      if !(← keyword? "const") then keyword "let"
    commaList1 (declarator g)
    semicolon (← endsWithValue)
    return if isVar then .variableDeclaration else .lexicalDeclaration

/-! ### Modules -/

private def moduleName : Parser Unit := name .identifier <|> stringLiteral

private def exportSpecifier : Parser Unit :=
  node (.other "export_specifier") do
    if (← read).types && (← lookingWord "type") then
      let c ← peekAfterWord
      if c.name?.isSome && c.nameText? != some "as" then keyword "type"
    moduleName
    if ← keyword? "as" then moduleName

private def specifiers (kind : Kind) : Parser Unit :=
  node kind do
    symbol "\x7b"
    commaList "\x7d" exportSpecifier
    symbol "\x7d"

private def importAttributes (g : Rules) : Parser Unit := do
  if (← lookingWord "with") || ((← lookingWord "assert") && !(← lineBreakAhead)) then
    node (.other "import_attribute") do
      if !(← keyword? "with") then keyword "assert"
      g (.operand false)

private def fromClause (g : Rules) : Parser Unit := do
  keyword "from"
  stringLiteral
  importAttributes g

private def namespaceImport : Parser Unit := do
  symbol "*"
  keyword "as"
  moduleName

private def namedOrNamespace : Parser Unit := do
  if ← looking "*" then namespaceImport else specifiers (.other "named_imports")

private def importClause : Parser Unit := do
  if (← looking "*") || (← looking "\x7b") then namedOrNamespace
  else
    name .identifier
    if ← symbol? "," then namedOrNamespace

private def qualifiedName : Parser Unit := do
  name .identifier
  repeatWhile do
    if ← looking "." then
      symbol "."
      name .identifier
      return true
    return false

/-- A name given to something else, such as `import A = B.C`. -/
private def importAlias (g : Rules) : Parser Unit := do
  name .identifier
  symbol "="
  if (← lookingWord "require") && (← peekAfterWord).startsWith "(" then
    keyword "require"
    arguments g
  else qualifiedName
  semicolon false

def importStatement (g : Rules) : Parser Unit :=
  node (.other "import_statement") do
    let types := (← read).types
    keyword "import"
    if (← looking "\x22") || (← looking "\x27") then
      stringLiteral
      importAttributes g
      semicolon false
    else
      let aliased ← if types then attempt (importAlias g) else pure false
      if !aliased then
        let plain ← attempt do
          importClause
          fromClause g
          semicolon false
        if !plain then
          require types
          if !(← keyword? "type") then keyword "typeof"
          importAlias g <|> do
            importClause
            fromClause g
            semicolon false

/-! ### Declarations of the typed dialects -/

private def interfaceDeclaration (g : Rules) : Parser Unit :=
  node (.other "interface_declaration") do
    keyword "interface"
    name .typeIdentifier
    typeParameters? g
    if ← keyword? "extends" then commaList1 (g .type)
    objectType g (.other "interface_body")

private def typeAlias (g : Rules) : Parser Unit :=
  node (.other "type_alias_declaration") do
    keyword "type"
    name .typeIdentifier
    typeParameters? g
    symbol "="
    g .type
    semicolon false

private def enumDeclaration (g : Rules) : Parser Unit :=
  node (.other "enum_declaration") do
    discard (keyword? "const")
    keyword "enum"
    name .identifier
    symbol "\x7b"
    commaList "\x7d" do
      memberName g
      if ← lookingEquals then
        symbol "="
        g (.expression false)
    symbol "\x7d"

private def namespaceDeclaration (g : Rules) (word : String) : Parser Unit := do
  keyword word
  require !(← lineBreakAhead)
  if (← looking "\x22") || (← looking "\x27") then stringLiteral else qualifiedName
  if ← looking "\x7b" then field .body (block g)

private def internalModule (g : Rules) : Parser Unit :=
  node (.other "internal_module") (namespaceDeclaration g "namespace")

private def moduleDeclaration (g : Rules) : Parser Unit :=
  node (.other "module") (namespaceDeclaration g "module")

private def ambientBody (g : Rules) (declaration : Parser Unit) : Parser Unit := do
  if (← lookingWord "global") && (← peekAfterWord).startsWith "\x7b" then
    keyword "global"
    block g
  else
    let dotted ← attempt do
      keyword "module"
      symbol "."
      name (.other "property_identifier")
      symbol ":"
      g .type
      semicolon false
    if !dotted then declaration

/-- A declaration that some dialect has, `ambient` ones excluded. -/
private def plainDeclaration (g : Rules) (operator : Bool) : Parser Unit := do
  let types := (← read).types
  match ← peekWord with
  | some "var" => variableStatement g
  | some "const" =>
    if types && (← peekAfterWord).nameText? == some "enum" then
      enumDeclaration g <|> variableStatement g
    else variableStatement g
  | some "let" => variableStatement g
  | some "function" => functionDeclaration g operator
  | some "async" => functionDeclaration g operator
  | some "class" => classDeclaration g operator
  | some w =>
    require types
    if w == "abstract" then classDeclaration g operator
    else if w == "interface" then interfaceDeclaration g
    else if w == "type" then typeAlias g
    else if w == "enum" then enumDeclaration g
    else if w == "namespace" then internalModule g
    else if w == "module" then moduleDeclaration g
    else if w == "import" then
      node (.other "import_alias") do
        keyword "import"
        importAlias g
    else failure
  | none =>
    require (← looking "@")
    classDeclaration g operator

/-- A declaration. `operator` says that a function or class here could also be an operand. -/
def declaration (g : Rules) (operator : Bool) : Parser Unit := do
  if (← read).types && (← lookingWord "declare") then
    node (.other "ambient_declaration") do
      keyword "declare"
      ambientBody g (plainDeclaration g operator)
  else plainDeclaration g operator

/-- A namespace that ends like an expression, or a declaration of the typed dialects. -/
def typedStatement (g : Rules) : Parser Unit := do
  require (← read).types
  match ← peekWord with
  | some "namespace" =>
    node (.other "expression_statement") (do internalModule g; semicolon false) <|> internalModule g
  | _ => declaration g true

/-! ### Exports -/

private def exportDefault (g : Rules) : Parser Unit := do
  keyword "default"
  let declared ← attempt do
    require !(← lookingWord "let")
    field .declaration (declaration g true)
  if !declared then
    field .value (g (.expression true))
    semicolon true

private def exportList (g : Rules) : Parser Unit := do
  specifiers (.other "export_clause")
  if ← lookingWord "from" then fromClause g
  semicolon false

private def exportAll (g : Rules) : Parser Unit := do
  symbol "*"
  if ← keyword? "as" then moduleName
  fromClause g
  semicolon false

private def typedExport (g : Rules) : Parser Unit := do
  require (← read).types
  if ← looking "=" then
    symbol "="
    g (.expression true)
    semicolon true
  else if ← lookingWord "as" then
    keyword "as"
    keyword "namespace"
    name .identifier
    semicolon false
  else
    keyword "type"
    if ← looking "\x7b" then exportList g else exportAll g

def exportStatement (g : Rules) : Parser Unit :=
  node .exportStatement do
    decorators g
    keyword "export"
    if ← looking "*" then exportAll g
    else if ← looking "\x7b" then exportList g
    else if ← lookingWord "default" then exportDefault g
    else typedExport g <|> field .declaration (declaration g false)

end MixinCatalog.Grammar
