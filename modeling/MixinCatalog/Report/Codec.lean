import MixinCatalog.Catalog.Record
import MixinCatalog.Json.Reader

/-!
# Catalogs as JSON

Members stand in the order of the fields. A shape without a parameter is a string, one with a
parameter an object with that one member. A reader may leave out the names that can be missing,
ignores members it does not know, and takes an array of the fields for an object.
-/

namespace MixinCatalog

namespace Shape

def explicitReturn (b : Bool) : Json := .object [("explicit_return", .bool b)]

def toJson : Shape → Json
  | expressionBody => .string "expression_body"
  | blockReturnExpression => .string "block_return_expression"
  | blockClassDeclaration b => .object [("block_class_declaration", explicitReturn b)]
  | functionReturnExpression => .string "function_return_expression"
  | functionClassDeclaration b => .object [("function_class_declaration", explicitReturn b)]

def ofSimpleName? : String → Option Shape
  | "expression_body" => some expressionBody
  | "block_return_expression" => some blockReturnExpression
  | "function_return_expression" => some functionReturnExpression
  | _ => none

def ofCompoundName? (name : String) (b : Bool) : Option Shape :=
  if name = "block_class_declaration" then some (blockClassDeclaration b)
  else if name = "function_class_declaration" then some (functionClassDeclaration b)
  else none

def ofJson? : Json → Option Shape
  | .string s => ofSimpleName? s
  | .object [(name, .null)] => ofSimpleName? name
  | .object [(name, .object ms)] =>
    ((Json.member? ms "explicit_return").bind Json.bool?).bind (ofCompoundName? name)
  | _ => none

end Shape

namespace Json

/-- The fields of a record, in the order of `keys`; a missing member is `null`. -/
def fields? (keys : List String) : Json → Option (List Json)
  | .object ms => some (keys.map fun k => (member? ms k).getD .null)
  | .array xs => if xs.length = keys.length then some xs else none
  | _ => none

def optionString? : Json → Option (Option String)
  | .null => some none
  | .string s => some (some s)
  | _ => none

def listOf? {α : Type} (f : Json → Option α) : Json → Option (List α)
  | .array xs => xs.mapM f
  | _ => none

def path? (j : Json) : Option Path := j.string?.map Path.mk

end Json

def Language.ofJson? : Json → Option Language
  | .string s => ofLabel? s
  | .object [(name, .null)] => ofLabel? name
  | _ => none

namespace MixinRecord

def toJson (r : MixinRecord) : Json :=
  .object
    [("name", .ofOption .string r.name),
      ("class_name", .ofOption .string r.className),
      ("shape", r.shape.toJson),
      ("parameters", .array (r.parameters.map .string)),
      ("superclass", .ofOption .string r.superclass),
      ("exported", .bool r.exported),
      ("file", .string r.file.text),
      ("line", .ofNat r.line),
      ("column", .ofNat r.column),
      ("class_line", .ofNat r.classLine)]

def keys : List String :=
  ["name", "class_name", "shape", "parameters", "superclass", "exported", "file", "line", "column",
    "class_line"]

def ofJson? (j : Json) : Option MixinRecord :=
  match j.fields? keys with
  | some [name, className, shape, parameters, superclass, exported, file, line, column,
      classLine] => do
    return {
      name := ← name.optionString?
      className := ← className.optionString?
      shape := ← Shape.ofJson? shape
      parameters := ← parameters.listOf? Json.string?
      superclass := ← superclass.optionString?
      exported := ← exported.bool?
      file := ← file.path?
      line := ← line.nat?
      column := ← column.nat?
      classLine := ← classLine.nat? }
  | _ => none

end MixinRecord

namespace FileMixins

def toJson (f : FileMixins) : Json :=
  .object
    [("path", .string f.path.text),
      ("language", .string f.language.label),
      ("has_parse_errors", .bool f.hasParseErrors),
      ("mixins", .array (f.mixins.map MixinRecord.toJson))]

def keys : List String := ["path", "language", "has_parse_errors", "mixins"]

def ofJson? (j : Json) : Option FileMixins :=
  match j.fields? keys with
  | some [path, language, hasParseErrors, mixins] => do
    return {
      path := ← path.path?
      language := ← Language.ofJson? language
      hasParseErrors := ← hasParseErrors.bool?
      mixins := ← mixins.listOf? MixinRecord.ofJson? }
  | _ => none

end FileMixins

namespace Catalog

def toJson (c : Catalog) : Json :=
  .object
    [("project_path", .string c.projectPath.text),
      ("files_analyzed", .ofNat c.filesAnalyzed),
      ("files", .array (c.files.map FileMixins.toJson))]

def keys : List String := ["project_path", "files_analyzed", "files"]

def ofJson? (j : Json) : Option Catalog :=
  match j.fields? keys with
  | some [projectPath, filesAnalyzed, files] => do
    return {
      projectPath := ← projectPath.path?
      filesAnalyzed := ← filesAnalyzed.nat?
      files := ← files.listOf? FileMixins.ofJson? }
  | _ => none

/-- The catalog that a JSON text denotes. -/
def ofText? (text : String) : Option Catalog := (Json.parse? text).bind ofJson?

end Catalog

end MixinCatalog
