import MixinCatalog.Grammar.Semicolon

/-!
# Building trees

A `Parser` reads tokens and appends nodes to the list of children of the node under construction.
Comments in front of a token are appended with it, so a comment ends up in the innermost node that
has tokens on both sides of it. What is spelled like a comment of markup is one only where it cannot
be made of operators. Failing leaves no trace, which makes every alternative a retry from the same
place.
-/

namespace MixinCatalog.Grammar

open Syntax

/-- What stays the same while one source text is read. -/
structure Setting where
  types : Bool
  markup : Bool
  /-- The number of bytes of the source text. -/
  size : Nat
  /-- Arrow functions may declare a result type here. -/
  resultTypes : Bool := true

/-- The reading position and the children found so far, latest first. -/
structure State where
  cursor : Cursor
  /-- Where the last token ended. -/
  last : Location := {}
  built : List Node := []
  /-- Neither an operator nor the end of a statement can come next, so that `<!--` and `-->` begin
  comments. -/
  openEnded : Bool := true

abbrev Parser (α : Type) := ReaderT Setting (StateT State Option) α

/-! ### Looking ahead -/

def peek : Parser Cursor := do
  let s ← get
  return s.cursor.token s.openEnded

def looking (text : String) : Parser Bool := do return (← peek).startsWith text

def peekChar : Parser (Option Char) := do return (← peek).rest.head?

private def takeChars : List Char → Nat → List Char
  | _, 0 => []
  | [], _ => []
  | x :: r, n => if x.utf8Size ≤ n then x :: takeChars r (n - x.utf8Size) else []

def Cursor.nameText? (c : Cursor) : Option String :=
  c.name?.map fun e => String.ofList (takeChars c.rest (e.loc.offset - c.loc.offset))

def peekWord : Parser (Option String) := do return (← peek).nameText?

/-- The token after the next token, if that is a name. -/
def peekAfterWord : Parser Cursor := do
  let c ← peek
  return (c.name?.getD c).token false

def lookingWord (w : String) : Parser Bool := do return (← peekWord) == some w

/-- Whether a line break stands in front of the next token. -/
def lineBreakAhead : Parser Bool := do
  return (← peek).loc.row != (← get).last.row

/-! ### Alternatives and repetition -/

def require (b : Bool) : Parser Unit := if b then pure () else failure

/-- Run `p` if it succeeds, and say whether it did. -/
def attempt (p : Parser Unit) : Parser Bool := (do p; return true) <|> pure false

/-- Whether `p` would succeed here; nothing is read. -/
def wouldSucceed (p : Parser Unit) : Parser Bool := do
  let s ← get
  let b ← attempt p
  set s
  return b

private def iterate (step : Parser Bool) : Nat → Parser Unit
  | 0 => pure ()
  | n + 1 => do if ← step then iterate step n

/-- Run `step` as long as it asks for more. No text has room for more steps than it has bytes. -/
def repeatWhile (step : Parser Bool) : Parser Unit := do
  iterate step ((← read).size + 1 - (← get).cursor.loc.offset)

/-! ### Tokens and nodes -/

/-- Append the comments in front of the next token. -/
def takeComments : Parser Unit :=
  modify fun s =>
    let (found, c) := s.cursor.skipTrivia s.openEnded
    { s with cursor := c, built := found ++ s.built }

/-- Append a childless node that ends at `stop`. -/
def leafTo (kind : Kind) (named : Bool) (stop : Cursor) : Parser Unit :=
  modify fun s =>
    { cursor := stop, last := stop.loc, openEnded := false,
      built := .mk kind named none s.cursor.loc stop.loc [] :: s.built }

/-- Say that neither an operator nor the end of a statement can come next. -/
def openEnd : Parser Unit := modify fun s => { s with openEnded := true }

/-- The tokens behind which an expression, a type or a statement can end. Words that also serve as
names are among them. -/
private def closers : List String :=
  [")", "]", "\x7d", ">", "++", "--", "!", "?", "\x60", "return", "break", "continue", "debugger",
    "yield", "get", "set", "async", "static", "export", "let", "declare", "namespace", "type",
    "module"]

private def tokenTo (text : String) (kind : Kind) (stop : Cursor) : Parser Unit := do
  leafTo kind false stop
  if !closers.contains text then openEnd

def symbol (text : String) : Parser Unit := do
  takeComments
  match (← get).cursor.after? text.toList with
  | some c => tokenTo text (.other text) c
  | none => failure

/-- A symbol that an operand has to follow. -/
def operator (text : String) : Parser Unit := do
  symbol text
  openEnd

def symbol? (text : String) : Parser Bool := attempt (symbol text)

def keyword (w : String) : Parser Unit := do
  takeComments
  let c := (← get).cursor
  match c.name? with
  | some e => if c.nameText? == some w then tokenTo w (Kind.ofName w) e else failure
  | none => failure

def keyword? (w : String) : Parser Bool := attempt (keyword w)

def name (kind : Kind) : Parser Unit := do
  takeComments
  match (← get).cursor.name? with
  | some e => leafTo kind true e
  | none => failure

/-- Read what a scanner recognises as a node of the given kind. -/
def lexeme (kind : Kind) (scan : Cursor → Option Cursor) : Parser Unit := do
  takeComments
  match scan (← get).cursor with
  | some e => leafTo kind true e
  | none => failure

/-- A node whose kind is known once its parts are read. -/
def nodeBy (p : Parser Kind) : Parser Unit := do
  takeComments
  let s ← get
  set { s with built := [] }
  let kind ← p
  modify fun t =>
    { t with built := .mk kind true none s.cursor.loc t.last t.built.reverse :: s.built }

def node (kind : Kind) (p : Parser Unit) : Parser Unit := nodeBy (do p; return kind)

/-- A node that begins with the node read last and goes on with what `p` reads. -/
def extend (kind : Kind) (p : Parser Unit) : Parser Unit := do
  let s ← get
  match s.built with
  | [] => failure
  | first :: rest =>
    set { s with built := [first] }
    p
    modify fun t =>
      { t with built := .mk kind true none first.start t.last t.built.reverse :: rest }

/-- Give the node read last a role in the node under construction. -/
def label (f : Field) : Parser Unit :=
  modify fun s =>
    match s.built with
    | [] => s
    | first :: rest => { s with built := first.withField f :: rest }

def field (f : Field) (p : Parser Unit) : Parser Unit := do p; label f

/-- The grammar is a set of rules that refer to each other. -/
inductive Rule where
  | statement
  /-- An expression without top-level commas; `line` says that a statement may end behind it. -/
  | expression (line : Bool)
  /-- Operands joined by binary operators that bind at least as tightly as `level`. -/
  | binary (level : Nat) (line : Bool)
  /-- An operand with its prefix and postfix operators. -/
  | operand (line : Bool)
  | constructed
  /-- A place that receives a value; `target` says that it need not be a new name. -/
  | pattern (target : Bool)
  | type
  | element

/-- The rules, as the grammar of one construct sees them. -/
abbrev Rules := Rule → Parser Unit

/-- Items separated by commas up to the token `close`, which is not read. Items may be missing. -/
def commaList (close : String) (item : Parser Unit) : Parser Unit :=
  repeatWhile do
    if ← looking close then return false
    if !(← looking ",") then item
    symbol? ","

def commaList1 (item : Parser Unit) : Parser Unit := do
  item
  repeatWhile do
    if ← looking "," then
      symbol ","
      item
      return true
    return false

/-! ### Ends of statements -/

private def impliedEnd (e : EndOfStatement) : Nat → List Node → Cursor → Option (List Node × Cursor)
  | 0, _, _ => none
  | n + 1, found, c =>
    if e.implied c.rest then some (found, c)
    else match c.comment? with
      | some (comment, d) => impliedEnd e n (comment :: found) d
      | none => none

private def findEnd (operator signature : Bool) : Parser (Option (List Node × Cursor)) := do
  let setting ← read
  let c := (← get).cursor
  return impliedEnd ⟨setting.types, operator, signature⟩ (setting.size + 1 - c.loc.offset) [] c

/-- Whether a statement can end here without a semicolon. `operator` says that a binary operator
could come next. -/
def endsHere (operator : Bool) : Parser Bool := do return (← findEnd operator false).isSome

/-- End the statement without a semicolon if that is possible here. The comments that had to be
read to find that out belong to the statement. -/
def impliedSemicolon? (operator signature : Bool) : Parser Bool := do
  match ← findEnd operator signature with
  | some (found, c) =>
    modify fun s => { cursor := c, last := c.loc, built := found ++ s.built, openEnded := true }
    return true
  | none => return false

def semicolon (operator : Bool) : Parser Unit := do
  if !(← impliedSemicolon? operator false) then symbol ";"

/-- End the head of a function that has no body. -/
def signatureEnd : Parser Unit := do
  if !(← impliedSemicolon? false true) then symbol ";"

/-- Whether an expression may go on with the next token. On a line of its own (`line`) it may not
where a statement can end. -/
def mayContinue (line : Bool) : Parser Bool := do
  if line then return !(← endsHere true) else return true

end MixinCatalog.Grammar
