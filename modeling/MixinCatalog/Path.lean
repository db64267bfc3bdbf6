import MixinCatalog.Text.Split

/-!
# Paths

A path is kept as it was spelled. Its components are what the spelling denotes: repeated slashes
and inner `.` segments mean nothing, `/` in front makes the path absolute. Paths are compared
component by component, and the parent of a path is the spelling up to its last component.
-/

namespace MixinCatalog

structure Path where
  text : String
deriving DecidableEq, Repr, Inhabited

namespace Path

/-! ### Segments -/

def isAbsolute (p : Path) : Bool := p.text.toList.head? == some '/'

/-- The segments of the spelling behind a slash in front. -/
def segments (p : Path) : List (List Char) :=
  match p.text.toList with
  | '/' :: cs => Text.split '/' cs
  | cs => Text.split '/' cs

def ofSegments (absolute : Bool) (ss : List (List Char)) : Path :=
  ⟨String.ofList ((if absolute then ['/'] else []) ++ Text.join '/' ss)⟩

/-! ### Components -/

/-- What a segment denotes. The constructors stand in the order in which components sort. -/
inductive Component where
  | root
  | current
  | parent
  | normal (name : List Char)
deriving DecidableEq, Repr

/-- What a segment behind the first denotes: a `.` and an empty segment denote nothing. -/
def componentOf (s : List Char) : Option Component :=
  if s = [] || s = ['.'] then none
  else if s = ['.', '.'] then some .parent
  else some (.normal s)

/-- The components of a path. A `.` counts only at the beginning of a relative path. -/
def components (p : Path) : List Component :=
  if p.isAbsolute then .root :: p.segments.filterMap componentOf
  else match p.segments with
    | ['.'] :: ss => .current :: ss.filterMap componentOf
    | ss => ss.filterMap componentOf

/-- The place of a component among those that are no names, which all come last. -/
def Component.rank : Component → Nat
  | .root => 0
  | .current => 1
  | .parent => 2
  | .normal _ => 3

/-- The order of names: by character codes, a shorter name first. -/
def compareNames : List Char → List Char → Ordering
  | [], [] => .eq
  | [], _ :: _ => .lt
  | _ :: _, [] => .gt
  | a :: as, b :: bs => (compare a.toNat b.toNat).then (compareNames as bs)

/-- Names are compared character by character, other components by their rank. -/
def Component.order : Component → Component → Ordering
  | .normal a, .normal b => compareNames a b
  | a, b => compare a.rank b.rank

def compareComponents : List Component → List Component → Ordering
  | [], [] => .eq
  | [], _ :: _ => .lt
  | _ :: _, [] => .gt
  | a :: as, b :: bs => (a.order b).then (compareComponents as bs)

/-- Paths are compared component by component. -/
def le (p q : Path) : Bool := (compareComponents p.components q.components).isLE

/-- Sort by path, paths with the same components in the order they came in. -/
def sortOn {α : Type} (path : α → Path) (xs : List α) : List α :=
  xs.mergeSort fun a b => (path a).le (path b)

/-! ### Parents -/

/-- Whether a segment denotes nothing where it stands. -/
def isIdle (absolute first : Bool) (s : List Char) : Bool :=
  s = [] || (s = ['.'] && (absolute || !first))

/-- The segments up to the last that denotes something. -/
def trimIdle (absolute : Bool) (ss : List (List Char)) : List (List Char) :=
  match ss with
  | [] => []
  | s :: ss =>
    match (ss.reverse.dropWhile (isIdle absolute false)).reverse with
    | [] => if isIdle absolute true s then [] else [s]
    | rest => s :: rest

/-- The spelling up to the last component, without slashes at its end. The root and the empty path
have no parent. -/
def parent? (p : Path) : Option Path :=
  match trimIdle p.isAbsolute p.segments with
  | [] => none
  | ss => some (ofSegments p.isAbsolute (trimIdle p.isAbsolute ss.dropLast))

/-- The path and the `n - 1` nearest paths above it, nearest first. -/
def ancestors (p : Path) : Nat → List Path
  | 0 => []
  | n + 1 =>
    match p.parent? with
    | none => [p]
    | some q => p :: q.ancestors n

/-! ### Names and extensions -/

/-- The last component, if it is a name. -/
def fileName? (p : Path) : Option (List Char) :=
  match p.components.getLast? with
  | some (.normal name) => some name
  | _ => none

private def afterLastDot (name : List Char) : Option (List Char) :=
  match name.reverse.dropWhile (· != '.') with
  | [] | [_] => none
  | _ :: _ => some (name.reverse.takeWhile (· != '.')).reverse

/-- What stands behind the last dot of the last component; a dot in front of the name does not
count. -/
def extension? (p : Path) : Option String :=
  (p.fileName?.bind afterLastDot).map String.ofList

/-- The path of `names` below a path. -/
def join (p : Path) (rest : String) : Path :=
  if rest.toList.head? == some '/' then ⟨rest⟩
  else if p.text.isEmpty || p.text.toList.getLast? == some '/' then ⟨p.text ++ rest⟩
  else ⟨p.text ++ "/" ++ rest⟩

end Path

end MixinCatalog
