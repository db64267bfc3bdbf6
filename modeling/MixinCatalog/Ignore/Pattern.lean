/-!
# Patterns of ignore files

These patterns are read against the path below the directory of the file they stand in, byte by
byte of its UTF-8 text. `?` and `*` do not reach over a slash; `**` as a whole component stands for
any number of components; `[...]` stands for one byte in or not in a set; braces list alternatives;
a backslash takes away the meaning of the next character.
-/

namespace MixinCatalog.Ignore

/-- A set of bytes given by ranges, both ends included. -/
abbrev ByteRanges := List (UInt8 × UInt8)

inductive Part where
  | literal (c : Char)
  | anyByte
  | anyBytes
  | oneOf (ranges : ByteRanges)
  | noneOf (ranges : ByteRanges)
  /-- Any directories in front of what follows, or none. -/
  | leading
  /-- A slash, any directories, and what follows them. -/
  | between
  /-- Everything inside a directory. -/
  | inside
  /-- One of some alternatives, or nothing if there is none. -/
  | either (branches : List (List Part))
deriving Repr, Inhabited

structure Pattern where
  parts : List Part
deriving Repr, Inhabited

def utf8 (cs : List Char) : List UInt8 := cs.flatMap String.utf8EncodeChar

/-! ### Reading -/

/-- The bytes that a range of characters covers. Only the bytes next to the hyphen form a range; the
others of the two characters stand for themselves. -/
def byteRanges (low high : Char) : ByteRanges :=
  let single := (utf8 [low]).map fun b => (b, b)
  if low = high then single
  else
    single.dropLast ++ ((utf8 [low]).getLast?.bind fun a => (utf8 [high]).head?.map (a, ·)).toList
      ++ (utf8 [high]).tail.map fun b => (b, b)

/-- What a bracket turns out to open. -/
inductive Brackets where
  | closed (ranges : List (Char × Char)) (rest : List Char)
  /-- There is no closing bracket: the opening one stands for itself. -/
  | unclosed
  /-- A range runs backwards. -/
  | backwards

/-- Read the inside of brackets. `ranges` are those read so far, the latest first; `isOpen` says
that the latest is followed by a hyphen. A bracket or hyphen at the beginning stands for itself. -/
def readBrackets (isOpen : Bool) (ranges : List (Char × Char)) : List Char → Brackets
  | [] => .unclosed
  | c :: cs =>
    match ranges with
    | [] => readBrackets false [(c, c)] cs
    | (low, high) :: earlier =>
      if c = ']' then .closed ((if isOpen then [('-', '-')] else []) ++ ranges) cs
      else if isOpen then
        if c < low then .backwards else readBrackets false ((low, c) :: earlier) cs
      else if c = '-' then readBrackets true ((low, high) :: earlier) cs
      else readBrackets false ((c, c) :: ranges) cs

/-- A group of alternatives that is not closed yet: the parts in front of it and its finished
branches, both the latest first. -/
structure Group where
  before : List Part
  branches : List (List Part)

def Part.isNothing : Part → Bool
  | .either [] => true
  | _ => false

/-- Close a group whose last branch is given, the latest part first. Branches with nothing in them
do not count. -/
def Group.close (g : Group) (last : List Part) : List Part :=
  .either ((last.reverse :: g.branches).filter (!·.all Part.isNothing)).reverse :: g.before

/-- The parts read so far, the latest first, with what two stars in front of `rest` stand for, and
the text behind them. `before` is the character in front of the stars. -/
def addStars (groups : List Group) (parts : List Part) (before : Option Char) (rest : List Char) :
    List Part × List Char :=
  let plain := (.anyBytes :: .anyBytes :: parts, rest)
  match parts, rest with
  | [], [] => ([.leading], [])
  | [], '/' :: rest => ([.leading], rest)
  | [], _ => plain
  | last :: earlier, rest =>
    let add (p : Part) : List Part :=
      match last with
      | .leading | .inside => last :: earlier
      | _ => p :: earlier
    if before != some '/' then plain
    else match rest with
      | [] => (add .inside, [])
      | '/' :: rest => (add .between, rest)
      | c :: _ => if !groups.isEmpty && (c = ',' || c = '\x7d') then (add .inside, rest) else plain

def readParts : (steps : Nat) → (groups : List Group) → (parts : List Part) →
    (before : Option Char) → List Char → Option (List Part)
  | 0, _, _, _, _ => none
  | _ + 1, groups, parts, _, [] => if groups.isEmpty then some parts.reverse else none
  | n + 1, groups, parts, before, c :: cs =>
    if c = '?' then readParts n groups (.anyByte :: parts) (some c) cs
    else if c = '*' then
      match cs with
      | '*' :: rest =>
        let (parts, rest') := addStars groups parts before rest
        readParts n groups parts (if rest'.length < rest.length then some '/' else some c) rest'
      | _ => readParts n groups (.anyBytes :: parts) (some c) cs
    else if c = '[' then
      let (negated, inside) := match cs with
        | '!' :: inside | '^' :: inside => (true, inside)
        | inside => (false, inside)
      match readBrackets false [] inside with
      | .unclosed => readParts n groups (.literal c :: parts) (some c) cs
      | .backwards => none
      | .closed ranges rest =>
        let bytes := ranges.flatMap fun (low, high) => byteRanges low high
        let part := if negated then Part.noneOf bytes else .oneOf bytes
        readParts n groups (part :: parts) (some ']') rest
    else if c = '\x7b' then readParts n (⟨parts, []⟩ :: groups) [] (some c) cs
    else if c = '\x7d' then
      match groups with
      | [] => none
      | g :: groups => readParts n groups (g.close parts) (some c) cs
    else if c = ',' then
      match groups with
      | [] => readParts n groups (.literal c :: parts) (some c) cs
      | g :: groups =>
        readParts n (⟨g.before, parts.reverse :: g.branches⟩ :: groups) [] (some c) cs
    else if c = '\x5c' then
      match cs with
      | [] => none
      | d :: rest => readParts n groups (.literal d :: parts) (some d) rest
    else readParts n groups (.literal c :: parts) (some c) cs

/-- The pattern that a text denotes, if it is one. -/
def Pattern.parse? (cs : List Char) : Option Pattern :=
  (readParts (cs.length + 1) [] [] none cs).map Pattern.mk

/-! ### Matching -/

def slash : UInt8 := 47

def ByteRanges.has (ranges : ByteRanges) (b : UInt8) : Bool :=
  ranges.any fun (low, high) => low ≤ b && b ≤ high

/-- The texts behind the slashes of a text. -/
def behindSlashes : List UInt8 → List (List UInt8)
  | [] => []
  | b :: bs => if b = slash then bs :: behindSlashes bs else behindSlashes bs

/-- All texts that are left when some bytes in front are dropped. -/
def suffixes : List UInt8 → List (List UInt8)
  | [] => [[]]
  | b :: bs => (b :: bs) :: suffixes bs

/-- The texts that are left when bytes up to the first slash are dropped. -/
def nameSuffixes : List UInt8 → List (List UInt8)
  | [] => [[]]
  | b :: bs => (b :: bs) :: if b = slash then [] else nameSuffixes bs

/-- The text behind a byte that passes a test. -/
private def behindByte (test : UInt8 → Bool) : List UInt8 → List (List UInt8)
  | b :: bs => if test b then [bs] else []
  | [] => []

/-- The text behind some bytes. -/
private def behindBytes : List UInt8 → List UInt8 → List (List UInt8)
  | [], bs => [bs]
  | a :: as, b :: bs => if a = b then behindBytes as bs else []
  | _ :: _, [] => []

mutual

/-- What may be left of a text when a part stands for its beginning. -/
def Part.rests : Part → List UInt8 → List (List UInt8)
  | .literal c, bs => behindBytes (utf8 [c]) bs
  | .anyByte, bs => behindByte (· != slash) bs
  | .anyBytes, bs => nameSuffixes bs
  | .oneOf ranges, bs => behindByte ranges.has bs
  | .noneOf ranges, bs => behindByte (!ranges.has ·) bs
  | .leading, bs => bs :: behindSlashes bs
  | .between, bs => (behindByte (· == slash) bs).flatMap fun bs => bs :: behindSlashes bs
  | .inside, bs => (behindByte (· == slash) bs).flatMap suffixes
  | .either [], bs => [bs]
  | .either (b :: branches), bs => partRests b bs ++ branchRests branches bs

/-- What may be left of a text when parts in a row stand for its beginning. -/
def partRests : List Part → List UInt8 → List (List UInt8)
  | [], bs => [bs]
  | p :: ps, bs => (p.rests bs).flatMap fun rest => partRests ps rest

/-- What may be left of a text when one of some branches stands for its beginning. -/
def branchRests : List (List Part) → List UInt8 → List (List UInt8)
  | [], _ => []
  | b :: branches, bs => partRests b bs ++ branchRests branches bs

end

/-- Whether a pattern stands for a path. Two stars alone stand for every path. -/
def Pattern.isMatch (p : Pattern) (path : List Char) : Bool :=
  match p.parts with
  | [.leading] => true
  | parts => (partRests parts (utf8 path)).any List.isEmpty

end MixinCatalog.Ignore
