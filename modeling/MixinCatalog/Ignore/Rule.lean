import MixinCatalog.Ignore.Pattern
import MixinCatalog.Text.Blank

/-!
# Rules of ignore files

An ignore file has one rule a line. The last rule that fits a path decides about it. A line that is
no rule is passed over, and so is all that follows a line that is no UTF-8 text.
-/

namespace MixinCatalog.Ignore

inductive Verdict where
  | skip
  | keep
deriving DecidableEq, Repr

structure Rule where
  pattern : Pattern
  verdict : Verdict
  onlyDirectories : Bool
deriving Repr

/-- The text without a slash at its end and a backslash in front of that, and whether there was
one. -/
private def splitFinalSlash (cs : List Char) : List Char × Bool :=
  match cs.reverse with
  | '/' :: '\x5c' :: rest => (rest.reverse, true)
  | '/' :: rest => (rest.reverse, true)
  | _ => (cs, false)

private def startsWith (front cs : List Char) : Bool := front.isPrefixOf cs

private def endsWith (back cs : List Char) : Bool := back.isSuffixOf cs

/-- The text of the pattern that a line stands for. Without a slash it fits at every depth, with two
stars at the end it fits all that is inside a directory and not the directory. -/
def widen (anchored : Bool) (cs : List Char) : List Char :=
  let cs :=
    if anchored || cs.contains '/' || cs = ['*', '*'] then cs
    else '*' :: '*' :: '/' :: cs
  if endsWith ['/', '*', '*'] cs then cs ++ ['/', '*'] else cs

/-- The rule that stands on a line, if there is one. -/
def Rule.parse? (line : List Char) : Option Rule :=
  if line.head? = some '#' then none
  else
    let line := if endsWith ['\x5c', ' '] line then line else Text.trimRight line
    if line.isEmpty then none
    else
      let (verdict, anchored, line) :=
        if startsWith ['\x5c', '!'] line || startsWith ['\x5c', '#'] line then
          (Verdict.skip, false, line.tail)
        else
          let (verdict, line) := match line with
            | '!' :: rest => (Verdict.keep, rest)
            | _ => (Verdict.skip, line)
          match line with
          | '/' :: rest => (verdict, true, rest)
          | _ => (verdict, false, line)
      let (line, onlyDirectories) := splitFinalSlash line
      (Pattern.parse? (widen anchored line)).map (⟨·, verdict, onlyDirectories⟩)

/-- The lines of a text. A carriage return in front of a line feed belongs to the end of its
line. -/
def splitLines : List UInt8 → List (List UInt8)
  | [] => [[]]
  | 13 :: 10 :: bs => [] :: splitLines bs
  | b :: bs =>
    if b = 10 then [] :: splitLines bs
    else match splitLines bs with
      | [] => [[b]]
      | l :: ls => (b :: l) :: ls

/-- The lines up to the first that is no UTF-8 text. -/
def decodeLines : List (List UInt8) → List (List Char)
  | [] => []
  | l :: ls =>
    match String.fromUTF8? ⟨l.toArray⟩ with
    | some s => s.toList :: decodeLines ls
    | none => []

/-- The rules of an ignore file. Byte order marks in front do not count. -/
def rules (bytes : ByteArray) : List Rule :=
  match decodeLines (splitLines bytes.toList) with
  | [] => []
  | first :: lines => ((first.dropWhile (· == '\ufeff')) :: lines).filterMap Rule.parse?

def Rule.fits (r : Rule) (path : List Char) (isDirectory : Bool) : Bool :=
  (isDirectory || !r.onlyDirectories) && r.pattern.isMatch path

/-- The verdict of the last rule that fits. -/
def verdict? (rs : List Rule) (path : List Char) (isDirectory : Bool) : Option Verdict :=
  (rs.reverse.find? (·.fits path isDirectory)).map (·.verdict)

end MixinCatalog.Ignore
