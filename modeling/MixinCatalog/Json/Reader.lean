import MixinCatalog.Json.Basic

/-!
# Reading JSON

The reader takes every JSON text. Nesting is bounded by the length of the text, which is never too
little.
-/

namespace MixinCatalog.Json

def isSpace (c : Char) : Bool := c = ' ' || c = '\n' || c = '\r' || c = '\t'

/-- The text behind the blanks in front. -/
def skipSpace (cs : List Char) : List Char := cs.dropWhile isSpace

def hexValue? (c : Char) : Option Nat :=
  if c.isDigit then some (c.toNat - '0'.toNat)
  else if 'a' ≤ c && c ≤ 'f' then some (c.toNat - 'a'.toNat + 10)
  else if 'A' ≤ c && c ≤ 'F' then some (c.toNat - 'A'.toNat + 10)
  else none

def hex4? (a b c d : Char) : Option Nat :=
  match hexValue? a, hexValue? b, hexValue? c, hexValue? d with
  | some a, some b, some c, some d => some (((a * 16 + b) * 16 + c) * 16 + d)
  | _, _, _, _ => none

def simpleEscape? (c : Char) : Option Char :=
  if c = '\x22' || c = '\x5c' || c = '/' then some c
  else if c = 'b' then some '\x08'
  else if c = 'f' then some '\x0c'
  else if c = 'n' then some '\n'
  else if c = 'r' then some '\r'
  else if c = 't' then some '\t'
  else none

def scalar? (n : Nat) : Option Char :=
  if n.isValidChar then some (Char.ofNat n) else none

/-- The second half of a character that is written as a pair, and what follows it. -/
def readLowHalf (high : Nat) : List Char → Option (Char × List Char)
  | '\x5c' :: 'u' :: a :: b :: c :: d :: r =>
    match hex4? a b c d with
    | some low =>
      if 0xdc00 ≤ low && low < 0xe000 then
        (scalar? (0x10000 + (high - 0xd800) * 0x400 + (low - 0xdc00))).map (·, r)
      else none
    | none => none
  | _ => none

/-- The character that an escape stands for whose backslash is read already, and what follows the
escape. -/
def readEscape : List Char → Option (Char × List Char)
  | 'u' :: a :: b :: c :: d :: r =>
    match hex4? a b c d with
    | some n =>
      if 0xd800 ≤ n && n < 0xdc00 then readLowHalf n r
      else (scalar? n).map (·, r)
    | none => none
  | c :: r => (simpleEscape? c).map (·, r)
  | [] => none

theorem length_readLowHalf {high : Nat} {cs r : List Char} {x : Char}
    (h : readLowHalf high cs = some (x, r)) : r.length < cs.length := by
  unfold readLowHalf at h
  split at h
  · split at h
    · split at h
      · simp only [Option.map_eq_some_iff, Prod.mk.injEq] at h
        obtain ⟨_, _, _, rfl⟩ := h
        simp only [List.length_cons]
        omega
      · simp at h
    · simp at h
  · simp at h

theorem length_readEscape {cs r : List Char} {x : Char} (h : readEscape cs = some (x, r)) :
    r.length < cs.length := by
  unfold readEscape at h
  split at h
  · split at h
    · split at h
      · have := length_readLowHalf h
        simp only [List.length_cons]
        omega
      · simp only [Option.map_eq_some_iff, Prod.mk.injEq] at h
        obtain ⟨_, _, _, rfl⟩ := h
        simp only [List.length_cons]
        omega
    · simp at h
  · simp only [Option.map_eq_some_iff, Prod.mk.injEq] at h
    obtain ⟨_, _, _, rfl⟩ := h
    simp only [List.length_cons]
    omega
  · simp at h

/-- The characters up to the closing quote, and what follows it. -/
def readString (cs : List Char) : Option (List Char × List Char) :=
  match cs with
  | [] => none
  | c :: r =>
    if c = '\x22' then some ([], r)
    else if c = '\x5c' then
      match h : readEscape r with
      | none => none
      | some (x, r') =>
        have := length_readEscape h
        (readString r').map (Prod.map (x :: ·) id)
    else if c.toNat < 32 then none
    else (readString r).map (Prod.map (c :: ·) id)
termination_by cs.length
decreasing_by all_goals simp_all <;> omega

/-- One or more digits, and what follows them. -/
def readDigits (cs : List Char) : Option (List Char × List Char) :=
  match cs.takeWhile Char.isDigit with
  | [] => none
  | ds => some (ds, cs.dropWhile Char.isDigit)

def readWhole : List Char → Option (List Char × List Char)
  | '0' :: r => some (['0'], r)
  | cs => readDigits cs

def readFraction : List Char → Option (List Char × List Char)
  | '.' :: r => (readDigits r).map fun (ds, r) => ('.' :: ds, r)
  | cs => some ([], cs)

def readExponent : List Char → Option (List Char × List Char)
  | e :: s :: r =>
    if e = 'e' || e = 'E' then
      if s = '+' || s = '-' then (readDigits r).map fun (ds, r) => (e :: s :: ds, r)
      else (readDigits (s :: r)).map fun (ds, r) => (e :: ds, r)
    else some ([], e :: s :: r)
  | cs => some ([], cs)

def readUnsigned (cs : List Char) : Option (List Char × List Char) := do
  let (a, cs) ← readWhole cs
  let (b, cs) ← readFraction cs
  let (c, cs) ← readExponent cs
  return (a ++ b ++ c, cs)

/-- The spelling of the number in front, and what follows it. -/
def readNumber : List Char → Option (List Char × List Char)
  | '-' :: r => (readUnsigned r).map fun (s, r) => ('-' :: s, r)
  | cs => readUnsigned cs

mutual

/-- The value in front, with at most `fuel` values nested in each other. -/
def readValue : Nat → List Char → Option (Json × List Char)
  | 0, _ => none
  | fuel + 1, cs =>
    match skipSpace cs with
    | 'n' :: 'u' :: 'l' :: 'l' :: r => some (.null, r)
    | 't' :: 'r' :: 'u' :: 'e' :: r => some (.bool true, r)
    | 'f' :: 'a' :: 'l' :: 's' :: 'e' :: r => some (.bool false, r)
    | '\x22' :: r => (readString r).map fun (s, r) => (.string (String.ofList s), r)
    | '[' :: r =>
      match skipSpace r with
      | ']' :: r => some (.array [], r)
      | r => (readItems fuel r).map fun (xs, r) => (.array xs, r)
    | '\x7b' :: r =>
      match skipSpace r with
      | '\x7d' :: r => some (.object [], r)
      | r => (readMembers fuel r).map fun (ms, r) => (.object ms, r)
    | r => (readNumber r).map fun (s, r) => (.number (String.ofList s), r)

/-- One or more elements and the closing bracket. -/
def readItems : Nat → List Char → Option (List Json × List Char)
  | 0, _ => none
  | fuel + 1, cs =>
    match readValue fuel cs with
    | none => none
    | some (x, r) =>
      match skipSpace r with
      | ',' :: r => (readItems fuel r).map fun (xs, r) => (x :: xs, r)
      | ']' :: r => some ([x], r)
      | _ => none

/-- One or more members and the closing brace. -/
def readMembers : Nat → List Char → Option (List (String × Json) × List Char)
  | 0, _ => none
  | fuel + 1, cs =>
    match skipSpace cs with
    | '\x22' :: r =>
      match readString r with
      | none => none
      | some (k, r) =>
        match skipSpace r with
        | ':' :: r =>
          match readValue fuel r with
          | none => none
          | some (v, r) =>
            match skipSpace r with
            | ',' :: r => (readMembers fuel r).map fun (ms, r) => ((String.ofList k, v) :: ms, r)
            | '\x7d' :: r => some ([(String.ofList k, v)], r)
            | _ => none
        | _ => none
    | _ => none

end

def parse? (s : String) : Option Json :=
  match readValue (s.length + 1) s.toList with
  | some (v, r) => if (skipSpace r).isEmpty then some v else none
  | none => none

end MixinCatalog.Json
