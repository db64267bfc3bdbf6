import MixinCatalog.Grammar.Statements
import MixinCatalog.Language

/-!
# Whole source texts

The rules refer to each other through a bounded number of steps. Every step that does not read a
character is followed by one that does within a few more, so a bound proportional to the length of
the text is never reached.
-/

namespace MixinCatalog.Grammar

open Syntax

/-- What each rule stands for, given the rules it refers to. -/
def Rule.parser (g : Rules) : Rules
  | .statement => statementRule g
  | .expression line => expressionRule g line
  | .binary level line => binaryRule g level line
  | .operand line => operandRule g line
  | .constructed => constructedRule g
  | .pattern target => patternRule g target
  | .type => typeRule g
  | .element => elementRule g

/-- The rules with at most `depth` references nested in each other. -/
def rules : Nat → Rules
  | 0, _ => failure
  | depth + 1, r => r.parser (rules depth)

private def hashBang : Parser Unit := do
  lexeme (.other "hash_bang_line") fun c =>
    if c.startsWith "#!" then some (c.dropWhile (· != '\n')) else none
  openEnd

/-- The statements of a source text, and whether all of the text was read. -/
private def program (g : Rules) : Parser Bool := do
  discard (attempt hashBang)
  repeatWhile do
    if (← peek).rest.isEmpty then return false
    attempt (g .statement)
  takeComments
  return (← peek).rest.isEmpty

end MixinCatalog.Grammar

namespace MixinCatalog.Syntax

structure Source where
  text : String
  root : Node
  /-- The text does not follow the grammar; the tree holds the statements in front of the fault. -/
  hasErrors : Bool

open Grammar in
def Source.parse (dialect : Dialect) (text : String) : Source :=
  let setting : Setting := ⟨dialect.hasTypes, dialect.hasMarkup, text.utf8ByteSize, true⟩
  let cursor := Cursor.ofString text
  let depth := 16 * text.utf8ByteSize + 64
  match (program (rules depth)).run setting |>.run { cursor } with
  | some (complete, s) =>
    ⟨text, .mk .program true none {} s.cursor.loc s.built.reverse, !complete⟩
  | none => ⟨text, .mk .program true none {} {} [], true⟩

end MixinCatalog.Syntax

