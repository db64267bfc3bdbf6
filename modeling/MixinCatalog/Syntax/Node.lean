import MixinCatalog.Syntax.Kind

/-!
# Syntax trees

A node has a kind, the stretch of source it covers, the role its parent gives it and its children
in source order, comments included. Positions count bytes of the UTF-8 text; only a line feed ends
a row. Nothing here depends on how a tree was obtained.
-/

namespace MixinCatalog.Syntax

/-- A place in a source text: byte offset, row, and byte offset within the row, all from zero. -/
structure Location where
  offset : Nat := 0
  row : Nat := 0
  column : Nat := 0
deriving DecidableEq, Repr, Inhabited

namespace Location

def advance (l : Location) (c : Char) : Location :=
  if c = '\n' then ⟨l.offset + 1, l.row + 1, 0⟩
  else ⟨l.offset + c.utf8Size, l.row, l.column + c.utf8Size⟩

def line (l : Location) : Nat := l.row + 1

def columnNumber (l : Location) : Nat := l.column + 1

end Location

/-- The roles a parent can give to a child that the analysis asks for by name. -/
inductive Field where
  | name
  | value
  | body
  | declaration
  | parameter
  | parameters
  | pattern
  | left
deriving DecidableEq, Repr, Inhabited

/-- A syntax tree. `named` is false for the bare tokens of the grammar, such as keywords. -/
inductive Node where
  | mk (kind : Kind) (named : Bool) (field : Option Field) (start stop : Location)
      (children : List Node)
deriving Repr, Inhabited

namespace Node

def kind : Node → Kind
  | mk k _ _ _ _ _ => k

def named : Node → Bool
  | mk _ b _ _ _ _ => b

def field : Node → Option Field
  | mk _ _ f _ _ _ => f

def start : Node → Location
  | mk _ _ _ s _ _ => s

def stop : Node → Location
  | mk _ _ _ _ e _ => e

def children : Node → List Node
  | mk _ _ _ _ _ cs => cs

/-- The part the node plays in the recognition rules. -/
def role (n : Node) : Role := n.kind.role

def withField (f : Field) : Node → Node
  | mk k b _ s e cs => mk k b (some f) s e cs

/-- The children that are constructs or comments, not bare tokens. -/
def namedChildren (n : Node) : List Node := n.children.filter named

def child? (n : Node) (f : Field) : Option Node := n.children.find? (·.field == some f)

def isComment (n : Node) : Bool := n.kind == .comment

/-- The named children that are not comments. -/
def parts (n : Node) : List Node := n.namedChildren.filter (!·.isComment)

/-- The stretch of source the node covers; empty if it does not fall on character boundaries. -/
def text (n : Node) (source : String) : String :=
  let from_ : String.Pos.Raw := ⟨n.start.offset⟩
  let to_ : String.Pos.Raw := ⟨n.stop.offset⟩
  if from_.isValid source && to_.isValid source && n.start.offset ≤ n.stop.offset then
    String.Pos.Raw.extract source from_ to_
  else ""

mutual

/-- The node and everything below it, outer nodes before inner ones, in source order. -/
def preorder : Node → List Node
  | n@(mk _ _ _ _ _ cs) => n :: preorderAll cs

def preorderAll : List Node → List Node
  | [] => []
  | n :: ns => preorder n ++ preorderAll ns

end

end Node

end MixinCatalog.Syntax
