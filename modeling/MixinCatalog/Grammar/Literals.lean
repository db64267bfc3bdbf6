import MixinCatalog.Grammar.Builder

/-!
# Literals and names of members
-/

namespace MixinCatalog.Grammar

open Syntax

def stringLiteral : Parser Unit := lexeme (.other "string") Cursor.string?

def numberLiteral : Parser Unit := lexeme (.other "number") Cursor.number?

/-- A template whose substitutions are read by `inner`. -/
def template (kind : Kind) (inner : Parser Unit) : Parser Unit :=
  node kind do
    symbol "\x60"
    repeatWhile do
      let s ← get
      let c := s.cursor.templateChars
      if c.loc.offset != s.cursor.loc.offset then leafTo (.other "string_fragment") true c
      if c.rest.isEmpty then failure
      if c.startsWith "\x60" then return false
      node (.other "template_substitution") do
        symbol "$\x7b"
        inner
        symbol "\x7d"
      return true
    symbol "\x60"

def privateName : Parser Unit :=
  lexeme (.other "private_property_identifier") fun c =>
    if c.startsWith "#" then c.next.name? else none

/-- The name of a member: a word, a private name, a literal or a computed name. -/
def memberName (g : Rules) : Parser Unit := do
  match ← peekChar with
  | some '[' =>
    node (.other "computed_property_name") do
      symbol "["
      g (.expression false)
      symbol "]"
  | some '#' => privateName
  | some '\x22' | some '\x27' => stringLiteral
  | _ => name (.other "property_identifier") <|> numberLiteral

end MixinCatalog.Grammar
