import MixinCatalog.Catalog.Project
import MixinCatalog.Command.Arguments
import MixinCatalog.Report.Buffer

/-!
# The command `analyze`

The options on the command line go before the configuration; ignore patterns of both add up. The
report is written only after the whole catalog is made. It goes to a file through a buffer, and a
file may be on a device that has no room for it.
-/

namespace MixinCatalog

inductive Failure where
  | noLanguages
  | analysis (path : Path) (cause : CatalogError)
  | output (path : Path) (cause : IoError)
  | configExists (path : Path)
  | write (cause : IoError)
deriving DecidableEq, Repr

namespace Failure

/-- What failed and the reasons for it, the nearest first. -/
def messages : Failure → List String
  | noLanguages => ["No supported languages selected (expected js and/or ts)"]
  | analysis path cause => ["Failed to analyze " ++ path.text, cause.message]
  | output path cause => ["Failed to create output file: " ++ path.text, cause.message]
  | configExists _ =>
    ["File system error: Configuration file already exists. Use --force to overwrite."]
  | write cause => [cause.message]

/-- What failed and why, on one line. -/
def message (f : Failure) : String := ": ".intercalate f.messages

/-- The report of a failed run. Several reasons are numbered. -/
def report (f : Failure) : String :=
  match f.messages with
  | [] => "Error: "
  | [what] => "Error: " ++ what
  | [what, why] => "Error: " ++ what ++ "\n\nCaused by:\n    " ++ why
  | what :: reasons =>
    "Error: " ++ what ++ "\n\nCaused by:"
      ++ String.join (reasons.zipIdx.map fun (why, i) => "\n    " ++ toString i ++ ": " ++ why)

end Failure

namespace AnalyzeFlags

/-- The settings of a run: what the command line says, and the configuration for the rest. -/
def options (flags : AnalyzeFlags) (config : Config) : CatalogOptions where
  languages :=
    match flags.languages with
    | some names => Config.knownLanguages names
    | none => config.enabledLanguages
  ignorePatterns := config.ignorePatterns ++ flags.ignore.getD []
  mixins := if flags.noImplicitReturn then ⟨false⟩ else config.mixinOptions

end AnalyzeFlags

/-- How a command ended: what it printed or why it failed, and the file system that it left. -/
structure Ended where
  result : Except Failure String
  fileSystem : FileSystem

namespace FileSystem

/-- An open file takes every text, or none if there is no room for it. -/
def openFile (full : Bool) (place : Place) : Report.Sink FileSystem IoError where
  write text fs := if full then .error .noSpace else .ok (fs.append place text.toUTF8)
  flush := .ok

/-- How many bytes are held back from an open file. -/
def bufferSize : Nat := 8192

/-- Write a report step by step to a file that is opened for it, or print it. Places where `full`
holds have no room for anything. -/
def deliver (fs : FileSystem) (full : Place → Bool) (output : Option Path)
    (report : List Report.Step) : Ended :=
  match output with
  | none => ⟨.ok (Report.text report), fs⟩
  | some path =>
    match fs.create path with
    | .error e => ⟨.error (.output path e), fs⟩
    | .ok (place, opened) =>
      let file := openFile (full place) place
      match (file.buffered bufferSize).run report ⟨opened, ""⟩ with
      | .ok written => ⟨.ok "", file.close written⟩
      | .error e => ⟨.error (.write e), opened⟩

/-- Catalogue a path and deliver the report, with what happened on the way. -/
def analyzeLogged (fs : FileSystem) (full : Place → Bool) (color : Bool) (flags : AnalyzeFlags)
    (config : Config) : Ended × List Event :=
  let options := flags.options config
  if options.languages.isEmpty then (⟨.error .noLanguages, fs⟩, [])
  else
    match fs.catalogProjectLogged flags.path options with
    | .error e => (⟨.error (.analysis flags.path e), fs⟩, [])
    | .ok (catalog, events) =>
      (fs.deliver full flags.output (Report.steps flags.format color catalog), events)

/-- An analysis with room for its report wherever that goes. -/
def analyze (fs : FileSystem) (color : Bool) (flags : AnalyzeFlags) (config : Config) : Ended :=
  (fs.analyzeLogged (fun _ => false) color flags config).1

end FileSystem

end MixinCatalog
