import MixinCatalog.Syntax.Node

/-!
# Reading characters

A cursor is the unread rest of a source text together with its location. The scanners below
recognise what lies between two tokens and the tokens whose inside is not made of tokens: names,
numbers, strings and regular expressions. Each is structural on the unread characters and answers
with the cursor behind what it recognised.
-/

namespace MixinCatalog.Grammar

open Syntax

/-- The unread characters and where they begin. -/
structure Cursor where
  rest : List Char
  loc : Location
deriving Inhabited

namespace Cursor

def ofString (source : String) : Cursor := ⟨source.toList, {}⟩

def next (c : Cursor) : Cursor :=
  match c.rest with
  | [] => c
  | x :: r => ⟨r, c.loc.advance x⟩

/-- The cursor behind `text`, if that is what comes next. -/
def after? (c : Cursor) (text : List Char) : Option Cursor :=
  match text with
  | [] => some c
  | t :: ts =>
    match c.rest with
    | x :: r => if x = t then after? ⟨r, c.loc.advance x⟩ ts else none
    | [] => none

def startsWith (c : Cursor) (text : String) : Bool := text.toList.isPrefixOf c.rest

private def dropWhileFrom (p : Char → Bool) : List Char → Location → Cursor
  | [], l => ⟨[], l⟩
  | x :: r, l => if p x then dropWhileFrom p r (l.advance x) else ⟨x :: r, l⟩

def dropWhile (p : Char → Bool) (c : Cursor) : Cursor := dropWhileFrom p c.rest c.loc

end Cursor

/-! ### Character classes -/

/-- The characters that end a line comment. -/
def isLineEnd (c : Char) : Bool := c = '\n' || c = '\r' || c = '\u2028' || c = '\u2029'

/-- The characters that end a comment in the style of markup, and may end a statement. -/
def isBreak (c : Char) : Bool := c = '\n' || c = '\u2028' || c = '\u2029'

/-- The characters that separate tokens. -/
def isBlank (c : Char) : Bool :=
  c = ' ' || ('\t' ≤ c && c ≤ '\r') || c = '\u0085' || c = '\u00a0' || c = '\u1680'
    || ('\u2000' ≤ c && c ≤ '\u200b') || c = '\u2028' || c = '\u2029' || c = '\u202f'
    || c = '\u205f' || c = '\u2060' || c = '\u3000' || c = '\ufeff'

/-- The characters of the language's own punctuation, which never belong to a name. -/
def isPunctuation (c : Char) : Bool :=
  ":;\x60\x22\x27@#.,|^&<=>+-*/\x5c%?!~()[]\x7b\x7d".toList.contains c

/-- The characters a name may contain besides escapes. -/
def isNamePart (c : Char) : Bool := !('\x00' ≤ c && c ≤ '\x1f') && !isBlank c && !isPunctuation c

/-- The characters a name may begin with besides escapes. -/
def isNameStart (c : Char) : Bool := isNamePart c && !c.isDigit

def isHexDigit (c : Char) : Bool :=
  c.isDigit || ('a' ≤ c && c ≤ 'f') || ('A' ≤ c && c ≤ 'F')

/-! ### Comments -/

def commentNode (start stop : Location) : Node := .mk .comment true none start stop []

def markupCommentNode (start stop : Location) : Node :=
  .mk (.other "html_comment") true none start stop []

/-- What the characters before the next token are found to be. -/
private inductive Gap where
  | blank
  | line (start : Location)
  | block (start : Cursor)
  /-- A comment in the style of markup, which ends in front of the line break. -/
  | markup (start : Location)

private def skipGap (markup : Bool) : Gap → List Char → Location → List Node → List Node × Cursor
  | .blank, '/' :: '/' :: r, l, found =>
    skipGap markup (.line l) r ((l.advance '/').advance '/') found
  | .blank, '/' :: '*' :: r, l, found =>
    skipGap markup (.block ⟨'/' :: '*' :: r, l⟩) r ((l.advance '/').advance '*') found
  | .blank, '<' :: '!' :: '-' :: '-' :: r, l, found =>
    if markup then skipGap markup (.markup l) r ("<!--".toList.foldl Location.advance l) found
    else (found, ⟨'<' :: '!' :: '-' :: '-' :: r, l⟩)
  | .blank, '-' :: '-' :: '>' :: r, l, found =>
    if markup then skipGap markup (.markup l) r ("-->".toList.foldl Location.advance l) found
    else (found, ⟨'-' :: '-' :: '>' :: r, l⟩)
  | .blank, x :: r, l, found =>
    if isBlank x then skipGap markup .blank r (l.advance x) found else (found, ⟨x :: r, l⟩)
  | .blank, [], l, found => (found, ⟨[], l⟩)
  | .line s, x :: r, l, found =>
    if isLineEnd x then skipGap markup .blank r (l.advance x) (commentNode s l :: found)
    else skipGap markup (.line s) r (l.advance x) found
  | .line s, [], l, found => (commentNode s l :: found, ⟨[], l⟩)
  | .block s, '*' :: '/' :: r, l, found =>
    let stop := (l.advance '*').advance '/'
    skipGap markup .blank r stop (commentNode s.loc stop :: found)
  | .block s, x :: r, l, found => skipGap markup (.block s) r (l.advance x) found
  | .block s, [], _, found => (found, s)
  | .markup s, x :: r, l, found =>
    if isBreak x then skipGap markup .blank r (l.advance x) (markupCommentNode s l :: found)
    else skipGap markup (.markup s) r (l.advance x) found
  | .markup s, [], l, found => (markupCommentNode s l :: found, ⟨[], l⟩)

namespace Cursor

/-- The comments before the next token, latest first, and the cursor at that token. Comments in the
style of markup are among them if `markup` says so. An unterminated block comment is no comment, so
the cursor stays in front of it. -/
def skipTrivia (c : Cursor) (markup : Bool) : List Node × Cursor :=
  skipGap markup .blank c.rest c.loc []

def token (c : Cursor) (markup : Bool) : Cursor := (c.skipTrivia markup).2

private def finishComment : Bool → List Char → Location → Option Cursor
  | true, '*' :: '/' :: r, l => some ⟨r, (l.advance '*').advance '/'⟩
  | true, x :: r, l => finishComment true r (l.advance x)
  | true, [], _ => none
  | false, x :: r, l =>
    if isLineEnd x then some ⟨x :: r, l⟩ else finishComment false r (l.advance x)
  | false, [], l => some ⟨[], l⟩

/-- The comment that comes next, with the cursor behind it. -/
def comment? (c : Cursor) : Option (Node × Cursor) :=
  let d := c.dropWhile isBlank
  match d.rest with
  | '/' :: '/' :: r => (finishComment false r ((d.loc.advance '/').advance '/')).map
      fun e => (commentNode d.loc e.loc, e)
  | '/' :: '*' :: r => (finishComment true r ((d.loc.advance '/').advance '*')).map
      fun e => (commentNode d.loc e.loc, e)
  | _ => none

/-! ### Names -/

/-- `braced` says that the characters belong to an escape such as `\u{41}`. -/
private def scanName (braced : Bool) : List Char → Location → Cursor
  | '\x5c' :: 'u' :: '\x7b' :: r, l =>
    if braced then ⟨'\x5c' :: 'u' :: '\x7b' :: r, l⟩
    else scanName true r (((l.advance '\x5c').advance 'u').advance '\x7b')
  | '\x5c' :: 'u' :: a :: b :: c :: d :: r, l =>
    if !braced && [a, b, c, d].all isHexDigit then
      scanName false r ([a, b, c, d].foldl Location.advance ((l.advance '\x5c').advance 'u'))
    else ⟨'\x5c' :: 'u' :: a :: b :: c :: d :: r, l⟩
  | x :: r, l =>
    if braced then
      if x = '\x7d' then scanName false r (l.advance x)
      else if isHexDigit x then scanName true r (l.advance x)
      else ⟨x :: r, l⟩
    else if isNamePart x then scanName false r (l.advance x)
    else ⟨x :: r, l⟩
  | [], l => ⟨[], l⟩

def name? (c : Cursor) : Option Cursor :=
  match c.rest with
  | x :: _ =>
    let e := scanName false c.rest c.loc
    if (isNameStart x || x = '\x5c') && e.loc.offset != c.loc.offset then some e else none
  | [] => none

/-! ### Literals -/

private def scanString (quote : Char) : List Char → Location → Option Cursor
  | '\x5c' :: 'x' :: a :: b :: r, l =>
    if isHexDigit a && isHexDigit b then
      scanString quote r ((((l.advance '\x5c').advance 'x').advance a).advance b)
    else none
  | '\x5c' :: x :: r, l => scanString quote r ((l.advance '\x5c').advance x)
  | x :: r, l =>
    if x = quote then some ⟨r, l.advance x⟩
    else if x = '\n' then none
    else scanString quote r (l.advance x)
  | [], _ => none

def string? (c : Cursor) : Option Cursor :=
  match c.rest with
  | '\x22' :: r => scanString '\x22' r (c.loc.advance '\x22')
  | '\x27' :: r => scanString '\x27' r (c.loc.advance '\x27')
  | _ => none

private def scanRegex (inClass : Bool) : List Char → Location → Option Cursor
  | '\x5c' :: x :: r, l =>
    if x = '\n' then none else scanRegex inClass r ((l.advance '\x5c').advance x)
  | x :: r, l =>
    if x = '\n' then none
    else if x = '/' && !inClass then some ⟨r, l.advance x⟩
    else scanRegex (if x = '[' then true else if x = ']' then false else inClass) r (l.advance x)
  | [], _ => none

/-- The cursor behind the regular expression that comes next, its flags included. -/
def regex? (c : Cursor) : Option Cursor :=
  match c.rest with
  | '/' :: x :: r =>
    if x = '/' || x = '*' then none
    else (scanRegex false (x :: r) (c.loc.advance '/')).map (dropWhile Char.isAlpha)
  | _ => none

private def isDecimal (c : Char) : Bool := c.isDigit || c = '_'

private def exponent (c : Cursor) : Cursor :=
  match c.rest with
  | e :: s :: d :: _ =>
    if e = 'e' || e = 'E' then
      if s.isDigit then c.next.dropWhile isDecimal
      else if (s = '+' || s = '-') && d.isDigit then c.next.next.dropWhile isDecimal
      else c
    else c
  | [e, s] => if (e = 'e' || e = 'E') && s.isDigit then c.next.next else c
  | _ => c

private def decimal (c : Cursor) : Cursor :=
  let whole := c.dropWhile isDecimal
  match whole.rest with
  | '.' :: _ => exponent (whole.next.dropWhile isDecimal)
  | 'n' :: _ => whole.next
  | _ => exponent whole

def number? (c : Cursor) : Option Cursor :=
  match c.rest with
  | '0' :: x :: _ =>
    if x = 'x' || x = 'X' then
      some (c.next.next.dropWhile fun d => isHexDigit d || d = '_' || d = 'n')
    else if x = 'o' || x = 'O' || x = 'b' || x = 'B' then
      some (c.next.next.dropWhile fun d => isDecimal d || d = 'n')
    else some (decimal c)
  | '.' :: d :: _ => if d.isDigit then some (exponent (c.next.dropWhile isDecimal)) else none
  | d :: _ => if d.isDigit then some (decimal c) else none
  | [] => none

private def scanTemplate : List Char → Location → Cursor
  | '\x5c' :: x :: r, l => scanTemplate r ((l.advance '\x5c').advance x)
  | '$' :: '\x7b' :: r, l => ⟨'$' :: '\x7b' :: r, l⟩
  | x :: r, l => if x = '\x60' then ⟨x :: r, l⟩ else scanTemplate r (l.advance x)
  | [], l => ⟨[], l⟩

/-- The cursor behind the literal part of a template, in front of a substitution or the end. -/
def templateChars (c : Cursor) : Cursor := scanTemplate c.rest c.loc

end Cursor

end MixinCatalog.Grammar
