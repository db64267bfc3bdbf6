import MixinCatalog.Grammar.Functions

/-!
# Markup elements

Between the tags of an element the text is taken as it stands; only braces and tags interrupt it.
-/

namespace MixinCatalog.Grammar

open Syntax

def expressions (g : Rules) (line : Bool) : Parser Unit := do
  g (.expression line)
  if (← mayContinue line) && (← looking ",") then
    extend (.other "sequence_expression") do
      repeatWhile do
        if (← mayContinue line) && (← looking ",") then
          symbol ","
          g (.expression line)
          return true
        return false

private def elementName : Parser Unit :=
  lexeme (.other "identifier") fun c =>
    c.name?.map (·.dropWhile fun x => isNamePart x || x = '-' || x = '.' || x = ':')

/-- An expression in braces, possibly spread or missing. -/
private def embedded (g : Rules) : Parser Unit :=
  node (.other "jsx_expression") do
    symbol "\x7b"
    if ← looking "..." then
      node (.other "spread_element") do
        symbol "..."
        g (.expression false)
    else if !(← looking "\x7d") then expressions g false
    symbol "\x7d"

private def scanQuoted (quote : Char) (c : Cursor) : Option Cursor :=
  let e := c.dropWhile (· != quote)
  if e.rest.isEmpty then none else some e.next

private def markupString : Parser Unit :=
  lexeme (.other "string") fun c =>
    match c.rest with
    | '\x22' :: _ => scanQuoted '\x22' c.next
    | '\x27' :: _ => scanQuoted '\x27' c.next
    | _ => none

private def elementAttribute (g : Rules) : Parser Unit := do
  if ← looking "\x7b" then embedded g
  else
    node (.other "jsx_attribute") do
      elementName
      if ← symbol? "=" then
        match ← peekChar with
        | some '\x7b' => embedded g
        | some '<' => g .element
        | _ => markupString

/-- The inside of an element up to its closing tag. -/
private def content (g : Rules) : Parser Unit :=
  repeatWhile do
    let c := (← get).cursor
    if c.startsWith "</" then return false
    else if c.startsWith "<" then
      g .element
      return true
    else if c.startsWith "\x7b" then
      embedded g
      return true
    else
      let e := c.dropWhile fun x => !"<>\x7b\x7d".toList.contains x
      require (e.loc.offset != c.loc.offset && !e.rest.isEmpty)
      leafTo (.other "jsx_text") true e
      return true

def elementRule (g : Rules) : Parser Unit :=
  nodeBy do
    symbol "<"
    if !(← looking ">") then
      elementName
      if (← read).types && (← looking "<") then typeArguments g
      repeatWhile do
        if (← looking ">") || (← looking "/") then return false
        elementAttribute g
        return true
    if ← symbol? "/" then
      symbol ">"
      return .other "jsx_self_closing_element"
    symbol ">"
    content g
    symbol "</"
    if !(← looking ">") then elementName
    symbol ">"
    return .other "jsx_element"

end MixinCatalog.Grammar
