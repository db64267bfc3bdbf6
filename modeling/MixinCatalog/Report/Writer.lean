import MixinCatalog.Report.Codec
import MixinCatalog.Report.Sink
import MixinCatalog.Report.Style

/-!
# The three reports

Each report is the list of steps that writes it.
-/

namespace MixinCatalog

inductive ReportFormat where
  | json
  | markdown
  | terminal
deriving DecidableEq, Repr, Inhabited

def ReportFormat.ofName? : String → Option ReportFormat
  | "json" => some json
  | "markdown" => some markdown
  | "terminal" => some terminal
  | _ => none

namespace Report

/-- The name shown to users, also where there is none. -/
def displayName (name : Option String) : String := name.getD "<anonymous>"

def decimal (n : Nat) : String := String.ofList (Nat.toDigits 10 n)

def parameterList (r : MixinRecord) : String := ", ".intercalate r.parameters

def json (c : Catalog) : List Step := [.write c.toJson.pretty, .write "\n", .flush]

def markdownRow (r : MixinRecord) : String :=
  "| " ++ displayName r.name ++ " | " ++ displayName r.className ++ " | " ++ r.shape.label ++ " | "
    ++ parameterList r ++ " | " ++ r.file.text ++ ":" ++ decimal r.line ++ " |"

/-- The catalog as a Markdown table. Without mixins there is no table. -/
def markdown (c : Catalog) : List Step :=
  let heading : List Step :=
    [.line "# Mixin Catalog", .line "",
      .line (decimal c.totalMixins ++ " mixins in " ++ decimal c.filesAnalyzed
        ++ " files under \x60"
        ++ c.projectPath.text ++ "\x60")]
  if c.totalMixins = 0 then heading
  else
    heading
      ++ [.line "", .line "| Mixin | Class | Form | Parameters | Location |",
        .line "|-------|-------|------|------------|----------|"]
      ++ c.mixins.map (fun r => .line (markdownRow r))
      ++ [.flush]

def terminalMixin (color : Bool) (r : MixinRecord) : List String :=
  [ "  " ++ paint color .bold (displayName r.name) ++ "(" ++ parameterList r ++ ") -> "
      ++ paint color .cyan (displayName r.className),
    "    " ++ paint color .dimmed "at" ++ " " ++ r.file.text ++ ":" ++ decimal r.line ++ ":"
      ++ decimal r.column,
    "    " ++ paint color .dimmed "form" ++ " " ++ r.shape.label ]
  ++ (match r.superclass with
    | some s => ["    " ++ paint color .dimmed "extends" ++ " " ++ s]
    | none => [])
  ++ (if r.shape.isImplicitReturn then
      ["    " ++ paint color .yellow "note: class is declared but never returned"]
    else [])

def terminalFile (color : Bool) (f : FileMixins) : List String :=
  [paint color .underline f.path.text] ++ f.mixins.flatMap (terminalMixin color) ++ [""]

def terminalLines (color : Bool) (c : Catalog) : List String :=
  let failures := c.files.countP (·.hasParseErrors)
  [paint color .boldBlue "Mixin Catalog", paint color .blue "=============", ""]
  ++ (c.files.filter (!·.mixins.isEmpty)).flatMap (terminalFile color)
  ++ ["Found " ++ paint color .boldGreen (decimal c.totalMixins) ++ " mixins in "
      ++ decimal c.filesAnalyzed ++ " files"]
  ++ (if failures > 0 then [paint color .yellow (decimal failures ++ " files had syntax errors")]
    else [])

def terminal (color : Bool) (c : Catalog) : List Step :=
  (terminalLines color c).map .line ++ [.flush]

/-- The steps of a report. Only the report for people has colors. -/
def steps (format : ReportFormat) (color : Bool) (c : Catalog) : List Step :=
  match format with
  | .json => json c
  | .markdown => markdown c
  | .terminal => terminal color c

def render (format : ReportFormat) (color : Bool) (c : Catalog) : String :=
  text (steps format color c)

end Report

end MixinCatalog
