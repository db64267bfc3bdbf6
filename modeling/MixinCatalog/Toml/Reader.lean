import MixinCatalog.Toml.Text
import MixinCatalog.Toml.Value

/-!
# Reading TOML

A document is read line by line into one growing table. Lists of items are read with as many steps
as there are characters, which is never too little; values are nested at most `maxDepth` deep. A
text that is no document is refused with the place of the first fault and what is wrong there.
-/

namespace MixinCatalog.Toml

/-! ### Faults -/

/-- Why a text cannot be read on, and how many characters were left where that showed. -/
structure Fault where
  reason : String
  left : Nat
deriving DecidableEq, Repr

/-- The text of a fault: its line and column, the line with a mark below it, and the reason. -/
def Fault.text (f : Fault) (source : List Char) : String :=
  let front := source.take (source.length - f.left)
  let before := (front.reverse.takeWhile (· != '\n')).reverse
  let behind := (source.drop front.length).takeWhile (· != '\n')
  let number := String.ofList (Nat.toDigits 10 (front.count '\n' + 1))
  let column := String.ofList (Nat.toDigits 10 (before.length + 1))
  let margin := String.ofList (List.replicate (number.length + 1) ' ') ++ "|"
  "TOML parse error at line " ++ number ++ ", column " ++ column ++ "\n"
    ++ margin ++ "\n"
    ++ number ++ " | " ++ String.ofList (before ++ behind) ++ "\n"
    ++ margin ++ String.ofList (List.replicate (before.length + 1) ' ') ++ "^\n"
    ++ f.reason ++ "\n"

/-- What was found, or the fault that nothing was found in front of `cs`. -/
def orFault {α : Type} (reason : String) (cs : List Char) : Option α → Except Fault α
  | some a => .ok a
  | none => .error ⟨reason, cs.length⟩

/-! ### Between the items -/

/-- The text behind blanks, line breaks and comments. A comment may not hold every character. -/
def skipGap (inComment : Bool) : List Char → Except Fault (List Char)
  | [] => .ok []
  | '\r' :: '\n' :: cs => skipGap false cs
  | c :: cs =>
    if c = '\n' then skipGap false cs
    else if inComment then
      if isTextChar c then skipGap true cs
      else .error ⟨"invalid character in a comment", cs.length + 1⟩
    else if isBlank c then skipGap false cs
    else if c = '#' then skipGap true cs
    else .ok (c :: cs)

/-- The text behind the end of a line on which nothing but a comment follows. -/
def endLine (inComment : Bool) : List Char → Except Fault (List Char)
  | [] => .ok []
  | '\r' :: '\n' :: cs => .ok cs
  | c :: cs =>
    if c = '\n' then .ok cs
    else if inComment then
      if isTextChar c then endLine true cs
      else .error ⟨"invalid character in a comment", cs.length + 1⟩
    else if isBlank c then endLine false cs
    else if c = '#' then endLine true cs
    else .error ⟨"expected the end of the line", cs.length + 1⟩

def skipBlanks (cs : List Char) : List Char := cs.dropWhile isBlank

/-! ### Keys -/

def isKeyChar (c : Char) : Bool := c.isAlphanum || c = '_' || c = '-'

/-- One part of a key, and what follows it. -/
def readKeyPart : List Char → Option (String × List Char)
  | '\x22' :: cs => (readBasic .text cs).map fun (s, rest) => (String.ofList s, rest)
  | '\x27' :: cs => (readLiteral cs).map fun (s, rest) => (String.ofList s, rest)
  | cs =>
    match cs.takeWhile isKeyChar with
    | [] => none
    | s => some (String.ofList s, cs.dropWhile isKeyChar)

/-- A key of at most `steps` parts, the parts in front and the last one, and what follows it and
the blanks behind it. -/
def readKey : (steps : Nat) → List Char → Except Fault (List String × String × List Char)
  | 0, cs => .error ⟨"expected a key", cs.length⟩
  | n + 1, cs =>
    match readKeyPart (skipBlanks cs) with
    | none => .error ⟨"expected a key", (skipBlanks cs).length⟩
    | some (part, rest) =>
      match skipBlanks rest with
      | '.' :: rest => (readKey n rest).map fun (path, key, rest) => (part :: path, key, rest)
      | rest => .ok ([], part, rest)

/-! ### Values -/

def isScalarChar (c : Char) : Bool :=
  c.isAlphanum || c = '_' || c = '+' || c = '-' || c = '.' || c = ':'

/-- The characters of a scalar without quotes, and what follows them. One blank may stand between a
date and a time. -/
def splitScalar (cs : List Char) : List Char × List Char :=
  let front := cs.takeWhile isScalarChar
  match dateRest? front, cs.dropWhile isScalarChar with
  | some [], ' ' :: c :: rest =>
    if c.isDigit then
      (front ++ ' ' :: (c :: rest).takeWhile isScalarChar, (c :: rest).dropWhile isScalarChar)
    else (front, ' ' :: c :: rest)
  | _, rest => (front, rest)

def scalarValue? (cs : List Char) : Option Value :=
  if cs = "true".toList then some (.boolean true)
  else if cs = "false".toList then some (.boolean false)
  else if isInteger cs || isFloat cs then some (.number (String.ofList cs))
  else if isDate cs then some (.date (String.ofList cs))
  else none

/-- A way to read the value in front. -/
abbrev ValueReader := List Char → Except Fault (Value × List Char)

/-- The items of an array up to the closing bracket. -/
def readItems (value : ValueReader) :
    (steps : Nat) → List Char → Except Fault (List Value × List Char)
  | 0, cs => .error ⟨"expected ']'", cs.length⟩
  | n + 1, cs =>
    match skipGap false cs with
    | .error fault => .error fault
    | .ok (']' :: rest) => .ok ([], rest)
    | .ok cs => do
      let (v, rest) ← value cs
      match ← skipGap false rest with
      | ',' :: rest =>
        let (vs, rest) ← readItems value n rest
        return (v :: vs, rest)
      | ']' :: rest => return ([v], rest)
      | rest => .error ⟨"expected ',' or ']'", rest.length⟩

/-- The value of a key behind the equals sign, added to the members of a table. -/
def readPair (value : ValueReader) (ms : Members) (cs : List Char) :
    Except Fault (Members × List Char) := do
  match ← readKey (cs.length + 1) cs with
  | (path, key, '=' :: rest) =>
    let (v, rest) ← value (skipBlanks rest)
    return (← orFault "duplicate key" cs (ms.insertDotted path key v), rest)
  | (_, _, rest) => .error ⟨"expected '='", rest.length⟩

/-- The members of a table written as a value, up to the closing brace. -/
def readMembers (value : ValueReader) :
    (steps : Nat) → Members → List Char → Except Fault (Members × List Char)
  | 0, _, cs => .error ⟨"expected '\x7d'", cs.length⟩
  | n + 1, ms, cs =>
    match skipGap false cs with
    | .error fault => .error fault
    | .ok ('\x7d' :: rest) => .ok (ms, rest)
    | .ok cs => do
      let (ms, rest) ← readPair value ms cs
      match ← skipGap false rest with
      | ',' :: rest => readMembers value n ms rest
      | '\x7d' :: rest => return (ms, rest)
      | rest => .error ⟨"expected ',' or '\x7d'", rest.length⟩

/-- The value in front, with values nested at most `depth` deep in it. -/
def readValue : (depth : Nat) → ValueReader
  | 0, cs => readPlain cs
  | depth + 1, cs =>
    match cs with
    | '[' :: rest =>
      (readItems (readValue depth) (rest.length + 1) rest).map fun (vs, rest) => (.array vs, rest)
    | '\x7b' :: rest =>
      (readMembers (readValue depth) (rest.length + 1) [] rest).map
        fun (ms, rest) => (.inlineTable ms, rest)
    | cs => readPlain cs
where
  readPlain (cs : List Char) : Except Fault (Value × List Char) :=
    match cs with
    | '\x22' :: _ | '\x27' :: _ =>
      orFault "invalid string" cs
        ((readString cs).map fun (s, rest) => (.string (String.ofList s), rest))
    | cs =>
      let (scalar, rest) := splitScalar cs
      orFault "expected a value" cs ((scalarValue? scalar).map (·, rest))

/-- How deep arrays and tables may stand in each other. -/
def maxDepth : Nat := 80

/-! ### Documents -/

/-- A header line behind its opening bracket: the members with the table opened, and the path of
the table. -/
def readHeader (ms : Members) : List Char → Except Fault (Members × List String × List Char)
  | '[' :: cs => do
    match ← readKey (cs.length + 1) cs with
    | (path, key, ']' :: ']' :: rest) =>
      return (← orFault "duplicate key" cs (ms.openElement path key), path ++ [key], rest)
    | (_, _, rest) => .error ⟨"expected ']]'", rest.length⟩
  | cs => do
    match ← readKey (cs.length + 1) cs with
    | (path, key, ']' :: rest) =>
      return (← orFault "duplicate key" cs (ms.openTable path key), path ++ [key], rest)
    | (_, _, rest) => .error ⟨"expected ']'", rest.length⟩

/-- Read lines into the table at `current`. -/
def readLines : (steps : Nat) → (current : List String) → Members → List Char →
    Except Fault Members
  | 0, _, _, cs => .error ⟨"expected the end of the document", cs.length⟩
  | n + 1, current, ms, cs =>
    match skipGap false cs with
    | .error fault => .error fault
    | .ok [] => .ok ms
    | .ok ('[' :: rest) => do
      let (ms, current, rest) ← readHeader ms rest
      readLines n current ms (← endLine false rest)
    | .ok cs => do
      let inner ← orFault "duplicate key" cs (tableAt current ms)
      let (inner, rest) ← readPair (readValue maxDepth) inner cs
      let changed := ms.change .parent (fun _ _ => some inner) current .header
      let ms ← orFault "duplicate key" cs changed
      readLines n current ms (← endLine false rest)
where
  /-- The members of the table at a path of headers. -/
  tableAt : List String → Members → Option Members
    | [], ms => some ms
    | key :: path, ms =>
      match ms.get? key with
      | some (.table _ inner) => tableAt path inner
      | some (.tables latest _) => tableAt path latest
      | _ => none

/-- The table that a document denotes. A byte order mark in front does not count. -/
def readDocument : List Char → Except Fault Members
  | '\ufeff' :: cs => readLines (cs.length + 1) [] [] cs
  | cs => readLines (cs.length + 1) [] [] cs

end MixinCatalog.Toml
