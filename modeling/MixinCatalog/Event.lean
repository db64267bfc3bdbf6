import MixinCatalog.Config.Basic
import MixinCatalog.FileSystem.Basic

/-!
# What is logged

An event says what happened; its level, its text and where it comes from are functions of it. A
filter says which events are shown.
-/

namespace MixinCatalog

inductive Level where
  | error
  | warn
  | info
  | debug
  | trace
deriving DecidableEq, Repr, Inhabited

namespace Level

def label : Level → String
  | error => "ERROR"
  | warn => "WARN"
  | info => "INFO"
  | debug => "DEBUG"
  | trace => "TRACE"

/-- The number of more important levels, and one. -/
def rank : Level → Nat
  | error => 1
  | warn => 2
  | info => 3
  | debug => 4
  | trace => 5

end Level

inductive Event where
  | unknownLanguage (name : String)
  | configUnreadable (path : Path) (cause : IoError)
  | configRejected (cause : Config.Error)
  | configLoaded (path : Path)
  | noConfig (searched : Nat)
  | noWorkingDirectory (cause : IoError)
  | configCreated (path : Path)
  | syntaxErrors (file : Path)
  | catalogued (file : Path) (mixins : Nat)
  | fileSkipped (file : Path) (cause : IoError)
  | discovered (root : Path) (files : Nat)
  | completed (root : Path) (files mixins : Nat)
deriving DecidableEq, Repr

namespace Event

def level : Event → Level
  | unknownLanguage _ | configUnreadable _ _ | configRejected _ | noWorkingDirectory _
  | syntaxErrors _ | fileSkipped _ _ => .warn
  | configCreated _ | completed _ _ _ => .info
  | configLoaded _ | noConfig _ | catalogued _ _ | discovered _ _ => .debug

private def decimal (n : Nat) : String := String.ofList (Nat.toDigits 10 n)

/-- What failed when a file could not be read. -/
def readFailure (file : Path) (cause : IoError) : String :=
  "Failed to read file: " ++ file.text ++ ": " ++ cause.message

def text : Event → String
  | unknownLanguage name => "Ignoring unsupported language '" ++ name ++ "' in config"
  | configUnreadable path cause =>
    "Failed to read config file " ++ path.text ++ ": " ++ cause.message
  | configRejected cause => cause.message ++ ". Using defaults."
  | configLoaded path => "Loaded config from " ++ path.text
  | noConfig searched =>
    "No config found after checking " ++ decimal searched ++ " directories. Using default config."
  | noWorkingDirectory cause =>
    "Failed to get current directory: " ++ cause.message ++ ". Using default config."
  | configCreated path => "Created " ++ path.text
  | syntaxErrors _ => "Source has syntax errors; catalog may be incomplete"
  | catalogued _ _ => "Catalogued file"
  | fileSkipped file cause => "Skipping file: " ++ readFailure file cause
  | discovered _ _ => "Discovered source files"
  | completed _ _ _ => "Catalog complete"

/-- The named values that follow the text. -/
def fields : Event → List (String × String)
  | syntaxErrors file | fileSkipped file _ => [("file", file.text)]
  | catalogued file mixins => [("file", file.text), ("count", decimal mixins)]
  | discovered _ files => [("files", decimal files)]
  | completed _ files mixins => [("files", decimal files), ("mixins", decimal mixins)]
  | _ => []

/-- The task during which the event happened, for those that belong to one. -/
def task : Event → String
  | discovered root _ | completed root _ _ => "catalog_project\x7broot=" ++ root.text ++ "\x7d: "
  | _ => ""

/-- The part of the program that the event comes from. -/
def origin : Event → String
  | unknownLanguage _ | configUnreadable _ _ | configRejected _ | configLoaded _ | noConfig _
  | noWorkingDirectory _ => "mixinmap::config::loader"
  | configCreated _ => "mixinmap::commands::init"
  | syntaxErrors _ | catalogued _ _ | fileSkipped _ _ | discovered _ _ | completed _ _ _ =>
    "mixinmap::builders::mixin_catalog"

def line (e : Event) : String :=
  e.level.label ++ " " ++ e.task ++ e.origin ++ ": " ++ e.text
    ++ String.join (e.fields.map fun (name, value) => " " ++ name ++ "=" ++ value)

end Event

/-! ### Filters -/

/-- Events from origins that begin with `origin` are shown up to a rank. -/
structure LogRule where
  origin : String
  rank : Nat
deriving DecidableEq, Repr

namespace LogRule

/-- The rank of the level that goes by a name or number. -/
def rankOfName? (s : String) : Option Nat :=
  match String.ofList (s.toList.map Text.lowerAscii) with
  | "off" | "0" => some 0
  | "error" | "1" => some 1
  | "warn" | "2" => some 2
  | "info" | "3" => some 3
  | "debug" | "4" => some 4
  | "trace" | "5" => some 5
  | _ => none

/-- A level for all origins, an origin with a level, or an origin alone. -/
def parse? (s : String) : Option LogRule :=
  match s.splitOn "=" with
  | [one] =>
    match rankOfName? one with
    | some rank => some ⟨"", rank⟩
    | none => some ⟨one, 5⟩
  | [origin, level] => (rankOfName? level).map (⟨origin, ·⟩)
  | _ => none

end LogRule

/-- The rules that a setting lists, separated by commas. -/
def logRules? (s : String) : Option (List LogRule) :=
  ((s.splitOn ",").filter (!·.isEmpty)).mapM LogRule.parse?

/-- Whether an event is shown: the rule for the longest origin decides. -/
def Event.isShown (rules : List LogRule) (e : Event) : Bool :=
  let fitting := rules.filter (fun r => r.origin.toList.isPrefixOf e.origin.toList)
  let longest := fitting.foldl (fun n r => max n r.origin.length) 0
  match (fitting.filter (·.origin.length == longest)).getLast? with
  | some r => e.level.rank ≤ r.rank
  | none => false

end MixinCatalog
