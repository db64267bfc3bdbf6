import MixinCatalog.Toml.Scalar

/-!
# Strings of TOML

A string stands in one or three quotes, double or single. Between double quotes a backslash begins
an escape. A string in three quotes may run over lines: a line break right behind the opening quotes
does not count, and a backslash at the end of a line removes the blanks and line breaks that follow.
-/

namespace MixinCatalog.Toml

/-- The characters that may stand for themselves: no control characters but the tabulator. -/
def isTextChar (c : Char) : Bool := c = '\t' || (' ' ≤ c && c != '\x7f')

def isBlank (c : Char) : Bool := c = ' ' || c = '\t'

def simpleEscape? (c : Char) : Option Char :=
  if c = 'b' then some '\x08'
  else if c = 't' then some '\t'
  else if c = 'n' then some '\n'
  else if c = 'f' then some '\x0c'
  else if c = 'r' then some '\r'
  else if c = 'e' then some '\x1b'
  else if c = '\x22' || c = '\x5c' then some c
  else none

/-- The number of digits behind the letter of a numeric escape. -/
def escapeDigits? (c : Char) : Option Nat :=
  if c = 'x' then some 2 else if c = 'u' then some 4 else if c = 'U' then some 8 else none

def scalar? (n : Nat) : Option Char := if n.isValidChar then some (Char.ofNat n) else none

/-- Where the reader of a string stands. -/
inductive Inside where
  | text
  | escape
  /-- Behind a numeric escape whose last `left + 1` digits are missing. -/
  | number (left value : Nat)
  /-- Behind a backslash and blanks, in front of the end of the line. -/
  | lineEnd
  /-- Behind a backslash at the end of a line. -/
  | continuation

private def cons (c : Char) : Option (List Char × List Char) → Option (List Char × List Char)
  | some (s, rest) => some (c :: s, rest)
  | none => none

/-- The rest of a string up to a double quote, and what follows it. -/
def readBasic : Inside → List Char → Option (List Char × List Char)
  | _, [] => none
  | .escape, c :: cs =>
    match simpleEscape? c, escapeDigits? c with
    | some x, _ => cons x (readBasic .text cs)
    | none, some (n + 1) => readBasic (.number n 0) cs
    | none, _ => none
  | .number left value, c :: cs =>
    match digitValue? 16 c, left with
    | some d, 0 =>
      match scalar? (16 * value + d) with
      | some x => cons x (readBasic .text cs)
      | none => none
    | some d, n + 1 => readBasic (.number n (16 * value + d)) cs
    | none, _ => none
  | _, c :: cs =>
    if c = '\x22' then some ([], cs)
    else if c = '\x5c' then readBasic .escape cs
    else if isTextChar c then cons c (readBasic .text cs)
    else none

/-- The rest of a string up to a single quote, and what follows it. -/
def readLiteral : List Char → Option (List Char × List Char)
  | [] => none
  | c :: cs =>
    if c = '\x27' then some ([], cs)
    else if isTextChar c then cons c (readLiteral cs)
    else none

/-- The rest of a string up to three double quotes, and what follows them. Two more quotes in front
of them belong to the string. -/
def readBasicLines : Inside → List Char → Option (List Char × List Char)
  | _, [] => none
  | .escape, '\r' :: '\n' :: cs => readBasicLines .continuation cs
  | .escape, c :: cs =>
    if c = '\n' then readBasicLines .continuation cs
    else if isBlank c then readBasicLines .lineEnd cs
    else match simpleEscape? c, escapeDigits? c with
      | some x, _ => cons x (readBasicLines .text cs)
      | none, some (n + 1) => readBasicLines (.number n 0) cs
      | none, _ => none
  | .number left value, c :: cs =>
    match digitValue? 16 c, left with
    | some d, 0 =>
      match scalar? (16 * value + d) with
      | some x => cons x (readBasicLines .text cs)
      | none => none
    | some d, n + 1 => readBasicLines (.number n (16 * value + d)) cs
    | none, _ => none
  | .lineEnd, '\r' :: '\n' :: cs => readBasicLines .continuation cs
  | .lineEnd, c :: cs =>
    if c = '\n' then readBasicLines .continuation cs
    else if isBlank c then readBasicLines .lineEnd cs
    else none
  | .continuation, '\r' :: '\n' :: cs => readBasicLines .continuation cs
  | _, '\x22' :: '\x22' :: '\x22' :: '\x22' :: '\x22' :: cs => some (['\x22', '\x22'], cs)
  | _, '\x22' :: '\x22' :: '\x22' :: '\x22' :: cs => some (['\x22'], cs)
  | _, '\x22' :: '\x22' :: '\x22' :: cs => some ([], cs)
  | _, '\r' :: '\n' :: cs => cons '\r' (cons '\n' (readBasicLines .text cs))
  | inside, c :: cs =>
    match inside, isBlank c || c = '\n' with
    | .continuation, true => readBasicLines .continuation cs
    | _, _ =>
      if c = '\x5c' then readBasicLines .escape cs
      else if c = '\n' || isTextChar c then cons c (readBasicLines .text cs)
      else none

/-- The rest of a string up to three single quotes, and what follows them. Two more quotes in front
of them belong to the string. -/
def readLiteralLines : List Char → Option (List Char × List Char)
  | [] => none
  | '\x27' :: '\x27' :: '\x27' :: '\x27' :: '\x27' :: cs => some (['\x27', '\x27'], cs)
  | '\x27' :: '\x27' :: '\x27' :: '\x27' :: cs => some (['\x27'], cs)
  | '\x27' :: '\x27' :: '\x27' :: cs => some ([], cs)
  | '\r' :: '\n' :: cs => cons '\r' (cons '\n' (readLiteralLines cs))
  | c :: cs => if c = '\n' || isTextChar c then cons c (readLiteralLines cs) else none

def dropLineBreak : List Char → List Char
  | '\n' :: cs => cs
  | '\r' :: '\n' :: cs => cs
  | cs => cs

def readString : List Char → Option (List Char × List Char)
  | '\x22' :: '\x22' :: '\x22' :: cs => readBasicLines .text (dropLineBreak cs)
  | '\x22' :: cs => readBasic .text cs
  | '\x27' :: '\x27' :: '\x27' :: cs => readLiteralLines (dropLineBreak cs)
  | '\x27' :: cs => readLiteral cs
  | _ => none

end MixinCatalog.Toml
