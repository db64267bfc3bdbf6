import MixinCatalog.Grammar.Cursor

/-!
# Semicolons that need not be written

A statement may end without a semicolon in front of a closing brace, at the end of the text, and at
a line break unless the next line continues the statement. The dialects differ in which first
characters continue it and in how comments count: without type annotations a comment is looked
through, with them it has to be read first.
-/

namespace MixinCatalog.Grammar

/-- What is known about the place where a statement might end. -/
structure EndOfStatement where
  types : Bool
  operator : Bool
  /-- The statement is the head of a function, which a body could follow. -/
  signature : Bool := false

/-- The blanks that are looked through, line breaks among them. -/
private def isSpace (c : Char) : Bool := c = ' ' || ('\t' ≤ c && c ≤ '\r')

/-- Whether a name starting with `i` is none of the operators `in` and `instanceof`. -/
private def startsOperand (r : List Char) : Bool :=
  match r with
  | 'n' :: r =>
    match r with
    | x :: _ =>
      if !x.isAlpha then false
      else if "stanceof".toList.isPrefixOf r then
        match r.drop 8 with
        | y :: _ => y.isAlpha
        | [] => false
      else true
    | [] => false
  | _ => true

/-- Whether a statement can end in front of a line that begins with `c` followed by `r`. -/
private def EndOfStatement.before (e : EndOfStatement) (c : Char) (r : List Char) : Bool :=
  if ",;*%>=?^|&/:<\x60".toList.contains c then false
  else if c = '.' then !e.types && (r.head?.map Char.isDigit).getD false
  else if c = '(' || c = '[' then e.types && !e.operator
  else if c = '\x7b' then !(e.types && e.signature)
  else if c = '+' then r.head? == some '+'
  else if c = '-' then r.head? == some '-'
  else if c = '!' then r.head? != some '='
  else if c = 'i' then startsOperand r
  else true

/-- How far the search for the end of a statement has come. -/
private inductive Search where
  /-- On the line of the statement. -/
  | here
  /-- Behind a comment on that line. -/
  | resumed
  /-- Between comments on that line. -/
  | between (broken : Bool)
  /-- In a line comment on that line. -/
  | hereLine (broken : Bool)
  /-- In a block comment on that line; `broken` records a line break inside. -/
  | hereBlock (broken : Bool)
  /-- On a later line. -/
  | below
  | belowLine
  | belowBlock
  /-- Behind a closing brace. -/
  | closed

private def EndOfStatement.search (e : EndOfStatement) : Search → List Char → Bool
  | .here, [] => true
  | .here, '/' :: r =>
    if e.types then false
    else match r with
      | '/' :: r => e.search (.hereLine false) r
      | '*' :: r => e.search (.hereBlock false) r
      | _ => false
  | .here, x :: r =>
    if x = '\x7d' then (if e.types then e.search .closed r else true)
    else if x = '\n' || (!e.types && isBreak x) then e.search .below r
    else if isSpace x then e.search .here r
    else false
  | .resumed, [] => false
  | .resumed, x :: r =>
    if x = '\x7d' then true
    else if isBreak x then e.search .below r
    else if isSpace x then e.search .here r
    else false
  | .between _, [] => !e.operator
  | .between b, '/' :: r =>
    match r with
    | '/' :: r => e.search (.hereLine b) r
    | '*' :: r => e.search (.hereBlock b) r
    | _ => false
  | .between b, x :: r =>
    if isSpace x then e.search (.between b) r
    else if !e.operator && x != ',' && x != '=' then true
    else x = '\x7d'
  | .hereLine b, x :: r => if isBreak x then e.search (.between b) r else e.search (.hereLine b) r
  | .hereLine _, [] => !e.operator
  | .hereBlock b, '*' :: '/' :: r =>
    if r.head? == some '/' then e.search (.between b) r
    else if b && !e.operator && r.head? != some ',' && r.head? != some '=' then true
    else e.search .resumed r
  | .hereBlock b, x :: r => e.search (.hereBlock (b || isBreak x)) r
  | .hereBlock _, [] => !e.operator
  | .below, [] => true
  | .below, '/' :: r =>
    match r with
    | '/' :: r => e.search .belowLine r
    | '*' :: r => e.search .belowBlock r
    | _ => false
  | .below, x :: r => if isSpace x then e.search .below r else e.before x r
  | .belowLine, x :: r => if isBreak x then e.search .below r else e.search .belowLine r
  | .belowLine, [] => true
  | .belowBlock, '*' :: '/' :: r => e.search .below r
  | .belowBlock, _ :: r => e.search .belowBlock r
  | .belowBlock, [] => true
  | .closed, [] => true
  | .closed, x :: r => if isSpace x then e.search .closed r else x != ':' || e.operator

/-- Whether the statement can end right in front of the characters `r`. -/
def EndOfStatement.implied (e : EndOfStatement) (r : List Char) : Bool := e.search .here r

end MixinCatalog.Grammar
