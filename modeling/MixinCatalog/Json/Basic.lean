/-!
# JSON values and their text

Objects keep their members in order. Numbers keep their spelling, so that a reader decides which
numbers it takes. The printer writes one member or element per line, indented by two blanks per
level.
-/

namespace MixinCatalog

inductive Json where
  | null
  | bool (b : Bool)
  | number (literal : String)
  | string (s : String)
  | array (items : List Json)
  | object (members : List (String × Json))
deriving Repr, Inhabited

namespace Json

def ofNat (n : Nat) : Json := .number (String.ofList (Nat.toDigits 10 n))

def ofOption {α : Type} (f : α → Json) : Option α → Json
  | some a => f a
  | none => .null

/-! ### Printing -/

/-- The digits of numbers in base sixteen. -/
def hexDigits (n : Nat) : List Char := Nat.toDigits 16 n

/-- A character inside a string: quotes, backslashes and control characters are escaped. -/
def escapeChar (c : Char) : List Char :=
  if c = '\x22' then ['\x5c', '\x22']
  else if c = '\x5c' then ['\x5c', '\x5c']
  else if c = '\x08' then ['\x5c', 'b']
  else if c = '\x0c' then ['\x5c', 'f']
  else if c = '\n' then ['\x5c', 'n']
  else if c = '\r' then ['\x5c', 'r']
  else if c = '\t' then ['\x5c', 't']
  else if c.toNat < 16 then ['\x5c', 'u', '0', '0', '0'] ++ hexDigits c.toNat
  else if c.toNat < 32 then ['\x5c', 'u', '0', '0'] ++ hexDigits c.toNat
  else [c]

def quote (s : String) : List Char := '\x22' :: s.toList.flatMap escapeChar ++ ['\x22']

/-- The beginning of a line at a level of nesting. -/
def newLine (level : Nat) : List Char := '\n' :: List.replicate (2 * level) ' '

mutual

/-- The text of a value whose members stand at the level `level + 1`. -/
def render (level : Nat) : Json → List Char
  | .null => "null".toList
  | .bool true => "true".toList
  | .bool false => "false".toList
  | .number literal => literal.toList
  | .string s => quote s
  | .array [] => "[]".toList
  | .array (x :: xs) =>
    '[' :: newLine (level + 1) ++ render (level + 1) x ++ renderItems (level + 1) xs
      ++ newLine level ++ [']']
  | .object [] => "\x7b\x7d".toList
  | .object ((k, v) :: ms) =>
    '\x7b' :: newLine (level + 1) ++ quote k ++ [':', ' '] ++ render (level + 1) v
      ++ renderMembers (level + 1) ms ++ newLine level ++ ['\x7d']

def renderItems (level : Nat) : List Json → List Char
  | [] => []
  | x :: xs => ',' :: newLine level ++ render level x ++ renderItems level xs

def renderMembers (level : Nat) : List (String × Json) → List Char
  | [] => []
  | (k, v) :: ms =>
    ',' :: newLine level ++ quote k ++ [':', ' '] ++ render level v ++ renderMembers level ms

end

theorem render_ofNat (level n : Nat) : render level (.ofNat n) = Nat.toDigits 10 n :=
  String.toList_ofList

theorem render_string (level : Nat) (s : String) : render level (.string s) = quote s := rfl

theorem render_array_cons (level : Nat) (x : Json) (xs : List Json) :
    render level (.array (x :: xs)) =
      '[' :: (newLine (level + 1) ++ (render (level + 1) x ++ (renderItems (level + 1) xs
        ++ (newLine level ++ [']'])))) := by
  simp only [← List.append_assoc, ← List.cons_append]
  rfl

theorem renderItems_nil (level : Nat) : renderItems level [] = [] := rfl

theorem renderItems_cons (level : Nat) (x : Json) (xs : List Json) :
    renderItems level (x :: xs) =
      ',' :: (newLine level ++ (render level x ++ renderItems level xs)) := by
  simp only [← List.append_assoc, ← List.cons_append]
  rfl

theorem render_object_cons (level : Nat) (k : String) (v : Json) (ms : List (String × Json)) :
    render level (.object ((k, v) :: ms)) =
      '\x7b' :: (newLine (level + 1) ++ (quote k ++ ':' :: ' ' :: (render (level + 1) v
        ++ (renderMembers (level + 1) ms ++ (newLine level ++ ['\x7d']))))) := by
  show '\x7b' :: newLine (level + 1) ++ quote k ++ [':', ' '] ++ render (level + 1) v
    ++ renderMembers (level + 1) ms ++ newLine level ++ ['\x7d'] = _
  simp only [List.append_assoc, List.cons_append, List.nil_append]

theorem renderMembers_nil (level : Nat) : renderMembers level [] = [] := rfl

theorem renderMembers_cons (level : Nat) (k : String) (v : Json) (ms : List (String × Json)) :
    renderMembers level ((k, v) :: ms) =
      ',' :: (newLine level ++ (quote k ++ ':' :: ' ' :: (render level v
        ++ renderMembers level ms))) := by
  show ',' :: newLine level ++ quote k ++ [':', ' '] ++ render level v
    ++ renderMembers level ms = _
  simp only [List.append_assoc, List.cons_append, List.nil_append]

def pretty (j : Json) : String := String.ofList (j.render 0)

/-! ### Members -/

/-- The value of a member, if the object has one of that name. -/
def member? (members : List (String × Json)) (key : String) : Option Json :=
  (members.find? (·.1 == key)).map (·.2)

/-- The natural number below `2^64` that a number is. -/
def nat? : Json → Option Nat
  | .number literal =>
    let digits := literal.toList
    if !digits.isEmpty && digits.all Char.isDigit then
      let n := digits.foldl (fun n d => 10 * n + (d.toNat - '0'.toNat)) 0
      if n < Nat.pow 2 64 then some n else none
    else none
  | _ => none

def string? : Json → Option String
  | .string s => some s
  | _ => none

def bool? : Json → Option Bool
  | .bool b => some b
  | _ => none

end Json

end MixinCatalog
