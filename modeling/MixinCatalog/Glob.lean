/-!
# Glob patterns for whole paths

A pattern is matched against a path as it is spelled. `?` stands for one character and `*` for any
number of them, a slash included; `**` stands for any number of whole components and must be a
component itself; `[...]` and `[!...]` stand for one character in or not in a set. There are no
escapes: a set of one character serves for that.
-/

namespace MixinCatalog

/-- A set of characters given by ranges, both ends included. -/
abbrev CharRanges := List (Char × Char)

def CharRanges.has (ranges : CharRanges) (c : Char) : Bool :=
  ranges.any fun (low, high) => low ≤ c && c ≤ high

namespace Glob

inductive Token where
  | char (c : Char)
  | anyChar
  | oneOf (ranges : CharRanges)
  | noneOf (ranges : CharRanges)
  | anyText
  /-- Nothing, any characters up to a slash, or all that is left. -/
  | anyComponents
deriving DecidableEq, Repr

inductive Fault where
  | wildcards
  | recursiveWildcards
  | invalidRange
deriving DecidableEq, Repr

/-- A fault and the number of characters in front of it. -/
structure Error where
  position : Nat
  fault : Fault
deriving DecidableEq, Repr

def Fault.message : Fault → String
  | wildcards => "wildcards are either regular \x60*\x60 or recursive \x60**\x60"
  | recursiveWildcards => "recursive wildcards must form a single path component"
  | invalidRange => "invalid range pattern"

def Error.message (e : Error) : String :=
  "Pattern syntax error near position " ++ String.ofList (Nat.toDigits 10 e.position) ++ ": "
    ++ e.fault.message

end Glob

structure Glob where
  tokens : List Glob.Token
deriving DecidableEq, Repr

namespace Glob

/-! ### Reading -/

/-- The ranges that the inside of brackets lists. -/
def readRanges : List Char → CharRanges
  | a :: '-' :: b :: cs => (a, b) :: readRanges cs
  | c :: cs => (c, c) :: readRanges cs
  | [] => []

/-- The inside of brackets whose first character `first` is read already, and what follows the
closing bracket. The first character never closes. -/
def readBrackets (first : Char) (cs : List Char) : Option (CharRanges × List Char) :=
  match cs.dropWhile (· != ']') with
  | [] => none
  | _ :: rest => some (readRanges (first :: cs.takeWhile (· != ']')), rest)

theorem length_readBrackets {first : Char} {cs : List Char} {ranges : CharRanges}
    {rest : List Char} (h : readBrackets first cs = some (ranges, rest)) :
    rest.length < cs.length := by
  unfold readBrackets at h
  split at h
  · simp at h
  · rename_i c rest' hd
    have hle := (List.dropWhile_suffix (p := (· != ']')) (l := cs)).length_le
    simp only [Option.some.injEq, Prod.mk.injEq] at h
    simp only [hd, h.2, List.length_cons] at hle
    omega

/-- Read the tokens of a text that stands behind `position` characters, the last of them
`before`. -/
def readTokens (position : Nat) (before : Option Char) (cs : List Char) :
    Except Error (List Token) :=
  match cs with
  | [] => .ok []
  | '*' :: '*' :: '*' :: _ => .error ⟨position + 2, .wildcards⟩
  | '*' :: '*' :: rest =>
    if before != none && before != some '/' then .error ⟨position - 1, .recursiveWildcards⟩
    else match rest with
      | [] => .ok [.anyComponents]
      | '/' :: rest => (readTokens (position + 3) (some '/') rest).map (.anyComponents :: ·)
      | _ :: _ => .error ⟨position + 2, .recursiveWildcards⟩
  | '*' :: rest => (readTokens (position + 1) (some '*') rest).map (.anyText :: ·)
  | '?' :: rest => (readTokens (position + 1) (some '?') rest).map (.anyChar :: ·)
  | '[' :: '!' :: c :: inside =>
    match h : readBrackets c inside with
    | none => .error ⟨position, .invalidRange⟩
    | some (ranges, rest) =>
      have := length_readBrackets h
      (readTokens (position + (cs.length - rest.length)) (some ']') rest).map (.noneOf ranges :: ·)
  | ['[', '!'] => .error ⟨position, .invalidRange⟩
  | '[' :: c :: inside =>
    match h : readBrackets c inside with
    | none => .error ⟨position, .invalidRange⟩
    | some (ranges, rest) =>
      have := length_readBrackets h
      (readTokens (position + (cs.length - rest.length)) (some ']') rest).map (.oneOf ranges :: ·)
  | ['['] => .error ⟨position, .invalidRange⟩
  | c :: rest => (readTokens (position + 1) (some c) rest).map (.char c :: ·)
termination_by cs.length
decreasing_by all_goals simp_all <;> omega

def parse (s : String) : Except Error Glob := (readTokens 0 none s.toList).map Glob.mk

/-! ### Matching -/

/-- All texts that are left when some characters in front are dropped. -/
def suffixes : List Char → List (List Char)
  | [] => [[]]
  | c :: cs => (c :: cs) :: suffixes cs

/-- The texts behind the slashes of a text. -/
def behindSlashes : List Char → List (List Char)
  | [] => []
  | c :: cs => if c = '/' then cs :: behindSlashes cs else behindSlashes cs

def accepts : List Token → List Char → Bool
  | [], cs => cs.isEmpty
  | .anyText :: ts, cs => (suffixes cs).any (accepts ts)
  | .anyComponents :: ts, cs => (cs :: behindSlashes cs ++ [[]]).any (accepts ts)
  | .char a :: ts, c :: cs => a == c && accepts ts cs
  | .anyChar :: ts, _ :: cs => accepts ts cs
  | .oneOf ranges :: ts, c :: cs => ranges.has c && accepts ts cs
  | .noneOf ranges :: ts, c :: cs => !ranges.has c && accepts ts cs
  | _ :: _, [] => false

def isMatch (g : Glob) (s : String) : Bool := accepts g.tokens s.toList

end Glob

end MixinCatalog
