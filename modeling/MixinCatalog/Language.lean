import MixinCatalog.Path
import MixinCatalog.Text.Blank

/-!
# Languages and dialects

A language is what users select; a dialect is the grammar a file is read with. Both are found from
the file's extension, which is case-sensitive.
-/

namespace MixinCatalog

/-- A language a user can select, or none of them. -/
inductive Language where
  | javaScript
  | typeScript
  | unknown
deriving DecidableEq, Repr, Inhabited

inductive Dialect where
  | javaScript
  | jsx
  | typeScript
  | tsx
deriving DecidableEq, Repr, Inhabited

namespace Language

def ofExtension : String → Language
  | "js" | "jsx" | "mjs" | "cjs" => javaScript
  | "ts" | "tsx" | "mts" | "cts" => typeScript
  | _ => unknown

def ofPath (p : Path) : Language := (p.extension?.map ofExtension).getD unknown

/-- The language with a given name; blanks around it and the case of its letters do not matter. -/
def ofName (name : String) : Language :=
  match String.ofList ((Text.trim name.toList).map Text.lowerAscii) with
  | "js" | "javascript" => javaScript
  | "ts" | "typescript" => typeScript
  | _ => unknown

def label : Language → String
  | javaScript => "JavaScript"
  | typeScript => "TypeScript"
  | unknown => "Unknown"

def ofLabel? : String → Option Language
  | "JavaScript" => some javaScript
  | "TypeScript" => some typeScript
  | "Unknown" => some unknown
  | _ => none

theorem ofLabel?_label (l : Language) : ofLabel? l.label = some l := by cases l <;> rfl

end Language

namespace Dialect

def ofExtension? : String → Option Dialect
  | "js" | "mjs" | "cjs" => some javaScript
  | "jsx" => some jsx
  | "ts" | "mts" | "cts" => some typeScript
  | "tsx" => some tsx
  | _ => none

/-- The dialect of a file, by its extension; a file of no known dialect is read as JavaScript. -/
def ofPath (p : Path) : Dialect := (p.extension?.bind ofExtension?).getD javaScript

def language : Dialect → Language
  | javaScript | jsx => .javaScript
  | typeScript | tsx => .typeScript

def hasTypes (d : Dialect) : Bool := d.language == .typeScript

/-- Whether the dialect has markup elements. The others read `<T>x` as a type assertion. -/
def hasMarkup : Dialect → Bool
  | typeScript => false
  | _ => true

end Dialect

end MixinCatalog
