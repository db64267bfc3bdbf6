/-!
# TOML values and the growth of tables

A document is a table that grows line by line. Headers open tables, dotted keys open tables on the
way, and every table is defined once: what a value, a header or a dotted key has defined cannot be
defined again by another. The growing operations fail where a document breaks that rule.
-/

namespace MixinCatalog.Toml

inductive Origin where
  /-- By a header of its own. -/
  | header
  /-- On the way to a table with a header. -/
  | parent
  /-- On the way to the last part of a dotted key. -/
  | dotted
deriving DecidableEq, Repr, Inhabited

/-- A value. Numbers and dates keep their spelling. -/
inductive Value where
  | string (s : String)
  | boolean (b : Bool)
  | number (text : String)
  | date (text : String)
  | array (items : List Value)
  /-- A table written as a value. -/
  | inlineTable (members : List (String × Value))
  | table (origin : Origin) (members : List (String × Value))
  /-- The tables of a repeated header, the latest first. -/
  | tables (latest : List (String × Value)) (earlier : List (List (String × Value)))
deriving Repr, Inhabited

abbrev Members := List (String × Value)

namespace Members

def get? (ms : Members) (key : String) : Option Value := (ms.find? (·.1 == key)).map (·.2)

/-- Give a key a value, in place of the one it had. -/
def set : Members → String → Value → Members
  | [], key, v => [(key, v)]
  | (k, old) :: ms, key, v => if k == key then (k, v) :: ms else (k, old) :: set ms key v

/-- Change the table at a path of keys. Tables that are missing on the way are opened with the
origin `fresh`. A dotted key does not pass through a table that has a header of its own, and
nothing passes through a value. -/
def change (fresh : Origin) (f : Origin → Members → Option Members) :
    List String → Origin → Members → Option Members
  | [], origin, ms => f origin ms
  | key :: path, _, ms =>
    match ms.get? key with
    | none => do
      let inner ← change fresh f path fresh []
      return ms.set key (.table fresh inner)
    | some (.table origin inner) =>
      if fresh = .dotted && origin = .header then none
      else do
        let inner ← change fresh f path origin inner
        return ms.set key (.table origin inner)
    | some (.tables latest earlier) => do
      let inner ← change fresh f path .header latest
      return ms.set key (.tables inner earlier)
    | some _ => none

/-- Give a key that has no value yet a value. -/
def insert? (ms : Members) (key : String) (v : Value) : Option Members :=
  if (ms.get? key).isSome then none else some (ms.set key v)

/-- Give the dotted key `path`.`key` a value. Only a table that dotted keys opened takes part. -/
def insertDotted (ms : Members) (path : List String) (key : String) (v : Value) : Option Members :=
  change .dotted
    (fun origin inner =>
      if (origin == .dotted) == path.isEmpty then none else inner.insert? key v)
    path .header ms

/-- Open the table of a header. It may have been opened on the way to another one. -/
def openTable (ms : Members) (path : List String) (key : String) : Option Members :=
  change .parent
    (fun _ inner =>
      match inner.get? key with
      | none => some (inner.set key (.table .header []))
      | some (.table .parent members) => some (inner.set key (.table .header members))
      | some _ => none)
    path .header ms

/-- Open one more table of a repeated header. -/
def openElement (ms : Members) (path : List String) (key : String) : Option Members :=
  change .parent
    (fun _ inner =>
      match inner.get? key with
      | none => some (inner.set key (.tables [] []))
      | some (.tables latest earlier) => some (inner.set key (.tables [] (latest :: earlier)))
      | some _ => none)
    path .header ms

end Members

end MixinCatalog.Toml
