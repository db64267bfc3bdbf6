import MixinCatalog.Glob
import MixinCatalog.Language
import MixinCatalog.Mixin.Classifier
import MixinCatalog.Toml.Reader

/-!
# Configurations

A configuration is a TOML text with up to three tables. Keys and tables that mean nothing are passed
over. A configuration is accepted if its ignore patterns are patterns; names of languages that are
not known are taken out of it.
-/

namespace MixinCatalog

/-- The settings of a project; what is missing is left to the defaults. -/
structure Config where
  mixins : Option MixinOptions := none
  languages : Option (List String) := none
  ignore : Option (List String) := none
deriving DecidableEq, Repr, Inhabited

namespace Config

/-! ### Settings -/

def mixinOptions (c : Config) : MixinOptions := c.mixins.getD {}

def knownLanguages (names : List String) : List Language :=
  (names.map Language.ofName).filter (· != .unknown)

/-- The enabled languages: both if none is named. -/
def enabledLanguages (c : Config) : List Language :=
  match c.languages with
  | some (n :: names) => knownLanguages (n :: names)
  | _ => [.javaScript, .typeScript]

def ignorePatterns (c : Config) : List String := c.ignore.getD []

/-! ### Decoding -/

/-- What a value is said to be when another one was expected. -/
private def described : Toml.Value → String
  | .string s => "string \x22" ++ s ++ "\x22"
  | .boolean b => "boolean \x60" ++ (if b then "true" else "false") ++ "\x60"
  | .number text =>
    (if Toml.isInteger text.toList then "integer \x60" else "floating point \x60") ++ text ++ "\x60"
  | .array _ | .tables _ _ => "sequence"
  | .date _ | .inlineTable _ | .table _ _ => "map"

private def mismatch {α : Type} (v : Toml.Value) (expected : String) : Except String α :=
  .error ("invalid type: " ++ described v ++ ", expected " ++ expected)

/-- The only field of a table. An array with the field in front serves for a table, and a date does
not have it. -/
private def field? (table key : String) : Toml.Value → Except String (Option Toml.Value)
  | .table _ ms | .inlineTable ms => .ok (Toml.Members.get? ms key)
  | .array vs => .ok vs.head?
  | .tables latest earlier =>
    .ok ((latest :: earlier).reverse.head?.map (Toml.Value.table .header))
  | .date _ => .ok none
  | v => mismatch v ("struct " ++ table)

private def strings : Toml.Value → Except String (List String)
  | .array vs => vs.mapM fun
    | .string s => .ok s
    | v => mismatch v "a string"
  | v => mismatch v "a sequence"

private def decodeMixins (v : Toml.Value) : Except String MixinOptions := do
  match ← field? "MixinsConfig" "implicit_return" v with
  | none => return {}
  | some (.boolean b) => return ⟨b⟩
  | some v => mismatch v "a boolean"

/-- A table with one field that must be there. -/
private def decodeNames (table key : String) (v : Toml.Value) : Except String (List String) := do
  match ← field? table key v with
  | none => .error ("missing field \x60" ++ key ++ "\x60")
  | some names => strings names

/-- A part of the settings that may be missing. What is wrong with it is said with its name. -/
private def optional {α : Type} (decode : Toml.Value → Except String α) (ms : Toml.Members)
    (key : String) : Except String (Option α) :=
  match ms.get? key with
  | none => .ok none
  | some v =>
    match decode v with
    | .ok a => .ok (some a)
    | .error reason => .error (reason ++ "\nin \x60" ++ key ++ "\x60\n")

def decode (ms : Toml.Members) : Except String Config := do
  return {
    mixins := ← optional decodeMixins ms "mixins"
    languages := ← optional (decodeNames "LanguagesConfig" "enabled") ms "languages"
    ignore := ← optional (decodeNames "IgnoreConfig" "patterns") ms "ignore" }

/-! ### Validation -/

inductive Error where
  /-- The text is no TOML, or not that of a configuration; `detail` says why. -/
  | malformed (detail : String)
  | pattern (text : String) (cause : Glob.Error)
deriving DecidableEq, Repr

def fileName : String := ".mixinmap.toml"

def Error.message : Error → String
  | malformed detail => "Configuration error: Failed to parse " ++ fileName ++ ": " ++ detail
  | pattern text cause =>
    "Configuration error: Invalid ignore pattern '" ++ text ++ "': " ++ cause.message

def isKnown (name : String) : Bool := Language.ofName name != .unknown

/-- The configuration without the names of unknown languages. -/
def keepKnown (c : Config) : Config := { c with languages := c.languages.map (·.filter isKnown) }

def unknownNames (c : Config) : List String := (c.languages.getD []).filter (!isKnown ·)

/-- The first ignore pattern that is none. -/
def badPattern? (c : Config) : Option Error :=
  c.ignorePatterns.findSome? fun text =>
    match Glob.parse text with
    | .ok _ => none
    | .error e => some (.pattern text e)

/-- The configuration without unknown languages, if all its patterns are patterns. -/
def validate (c : Config) : Except Error Config :=
  match c.badPattern? with
  | some e => .error e
  | none => .ok c.keepKnown

/-- The configuration that a text denotes, or why it denotes none. -/
def fromToml (text : String) : Except String Config :=
  match Toml.readDocument text.toList with
  | .ok ms => decode ms
  | .error fault => .error (fault.text text.toList)

def ofToml? (text : String) : Option Config := (fromToml text).toOption

/-- The accepted configuration that a text denotes. -/
def parse (text : String) : Except Error Config :=
  match fromToml text with
  | .ok c => c.validate
  | .error detail => .error (.malformed detail)

/-- The names of unknown languages in a text that denotes a configuration, accepted or not. -/
def unknownNamesIn (text : String) : List String :=
  match ofToml? text with
  | none => []
  | some c => c.unknownNames

end Config

end MixinCatalog
