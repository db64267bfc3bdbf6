/-!
# Numbers and dates of TOML

Scalars without quotes are recognised by their spelling. Digits may be grouped by single
underscores, a decimal number has no zero in front, and a number that is too big to be kept in 128
bits, or as a finite binary fraction of 64 bits, is none.
-/

namespace MixinCatalog.Toml

/-! ### Digits -/

/-- The value of a digit in a base up to sixteen. -/
def digitValue? (base : Nat) (c : Char) : Option Nat :=
  let value :=
    if c.isDigit then c.toNat - '0'.toNat
    else if 'a' ≤ c && c ≤ 'f' then c.toNat - 'a'.toNat + 10
    else if 'A' ≤ c && c ≤ 'F' then c.toNat - 'A'.toNat + 10
    else base
  if value < base then some value else none

/-- Read digits behind a digit, where `value` has been read so far. -/
private def moreDigits (base : Nat) (value : Nat) : List Char → Option Nat
  | [] => some value
  | '_' :: c :: cs =>
    match digitValue? base c with
    | some d => moreDigits base (base * value + d) cs
    | none => none
  | c :: cs =>
    match digitValue? base c with
    | some d => moreDigits base (base * value + d) cs
    | none => none

/-- The number that digits grouped by underscores denote. -/
def digits? (base : Nat) : List Char → Option Nat
  | [] => none
  | c :: cs => (digitValue? base c).bind (moreDigits base · cs)

/-- The number that decimal digits without a zero in front denote. -/
def whole? : List Char → Option Nat
  | '0' :: _ :: _ => none
  | cs => digits? 10 cs

/-- Whether there is a sign that is a minus, and what follows the sign. -/
def splitSign : List Char → Bool × List Char
  | '-' :: cs => (true, cs)
  | '+' :: cs => (false, cs)
  | cs => (false, cs)

/-! ### Numbers -/

def isInteger : List Char → Bool
  | '0' :: 'x' :: cs => (digits? 16 cs).any (· < Nat.pow 2 128)
  | '0' :: 'o' :: cs => (digits? 8 cs).any (· < Nat.pow 2 128)
  | '0' :: 'b' :: cs => (digits? 2 cs).any (· < Nat.pow 2 128)
  | cs =>
    let (negative, cs) := splitSign cs
    (whole? cs).any fun n => if negative then n ≤ Nat.pow 2 127 else n < Nat.pow 2 128

/-- Whether `mantissa * 10 ^ exponent / 10 ^ places` is rounded to a finite number. -/
private def isFinite (mantissa exponent places : Nat) : Bool :=
  let limit := Nat.pow 2 1024 - Nat.pow 2 970
  let size := (Nat.toDigits 10 mantissa).length
  mantissa == 0 || size + exponent < 309 + places
    || (size + exponent == 309 + places
      && mantissa * Nat.pow 10 (exponent - places) < limit * Nat.pow 10 (places - exponent))

/-- Whether the characters are an exponent, and its value is one that `test` accepts. A negative
exponent counts as places behind the point. -/
private def exponentFits (test : Nat → Nat → Bool) (cs : List Char) : Bool :=
  let (negative, cs) := splitSign cs
  (digits? 10 cs).any fun n => if negative then test 0 n else test n 0

private def isExponentMark (c : Char) : Bool := c = 'e' || c = 'E'

def isFloat (cs : List Char) : Bool :=
  let (_, cs) := splitSign cs
  if cs = ['i', 'n', 'f'] || cs = ['n', 'a', 'n'] then true
  else
    let front := cs.takeWhile fun c => c != '.' && !isExponentMark c
    match whole? front, cs.drop front.length with
    | some n, '.' :: rest =>
      let places := rest.takeWhile (!isExponentMark ·)
      let count := (places.filter (· != '_')).length
      match digits? 10 places, rest.drop places.length with
      | some m, [] => isFinite (n * Nat.pow 10 count + m) 0 count
      | some m, _ :: rest =>
        exponentFits (fun e p => isFinite (n * Nat.pow 10 count + m) e (count + p)) rest
      | none, _ => false
    | some n, _ :: rest => exponentFits (isFinite n) rest
    | _, _ => false

/-! ### Dates -/

private def twoDigits? (a b : Char) : Option Nat :=
  if a.isDigit && b.isDigit then digits? 10 [a, b] else none

private def daysIn (year month : Nat) : Nat :=
  if month = 2 then
    if year % 4 = 0 && (year % 100 != 0 || year % 400 = 0) then 29 else 28
  else if month = 4 || month = 6 || month = 9 || month = 11 then 30
  else 31

private def isDay (year month day : Option Nat) : Bool :=
  match year, month, day with
  | some y, some m, some d => 1 ≤ m && m ≤ 12 && 1 ≤ d && d ≤ daysIn y m
  | _, _, _ => false

/-- The date in front: what follows it, if there is one. -/
def dateRest? : List Char → Option (List Char)
  | y₁ :: y₂ :: y₃ :: y₄ :: '-' :: m₁ :: m₂ :: '-' :: d₁ :: d₂ :: rest =>
    let year := (twoDigits? y₁ y₂).bind fun a => (twoDigits? y₃ y₄).map (100 * a + ·)
    if isDay year (twoDigits? m₁ m₂) (twoDigits? d₁ d₂) then some rest else none
  | _ => none

private def below (limit : Nat) (a b : Char) : Bool := (twoDigits? a b).any (· < limit)

private def fractionRest : List Char → Option (List Char)
  | '.' :: cs => if (cs.head?.any Char.isDigit) then some (cs.dropWhile Char.isDigit) else none
  | cs => some cs

/-- The time in front: what follows it, if there is one. The seconds may be left out. -/
def timeRest? : List Char → Option (List Char)
  | h₁ :: h₂ :: ':' :: m₁ :: m₂ :: ':' :: s₁ :: s₂ :: rest =>
    if below 24 h₁ h₂ && below 60 m₁ m₂ && below 61 s₁ s₂ then fractionRest rest else none
  | h₁ :: h₂ :: ':' :: m₁ :: m₂ :: rest =>
    if below 24 h₁ h₂ && below 60 m₁ m₂ then some rest else none
  | _ => none

private def isOffset : List Char → Bool
  | [] | ['Z'] | ['z'] => true
  | [sign, h₁, h₂, ':', m₁, m₂] =>
    (sign = '+' || sign = '-') && below 24 h₁ h₂ && below 60 m₁ m₂
  | _ => false

/-- Whether the characters are a date, a time, or both with an offset or without. -/
def isDate (cs : List Char) : Bool :=
  match dateRest? cs with
  | none => (timeRest? cs).any List.isEmpty
  | some [] => true
  | some (c :: rest) => (c = 'T' || c = 't' || c = ' ') && (timeRest? rest).any isOffset

end MixinCatalog.Toml
