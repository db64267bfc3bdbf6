import MixinCatalog.Command.Help
import MixinCatalog.Command.Init

/-!
# Runs of the program

A run takes a command line, the environment and a file system to an exit code, a printed text, a
report of the failure if there is one, a log, and the file system afterwards.
-/

namespace MixinCatalog

/-- The settings that a run takes from its environment. -/
structure Environment where
  /-- Whether a class that is never returned makes no mixin. -/
  noImplicitReturn : Option String := none
  log : Option String := none
  color : Bool := false
  /-- Whether a device stands at a place that has no room for anything. -/
  full : Place → Bool := fun _ => false

structure Outcome where
  fileSystem : FileSystem
  code : Nat
  printed : String
  failure : Option Failure := none
  /-- What is wrong with the command line. -/
  rejection : Option Command.ArgumentError := none
  log : List Event := []

namespace Command

/-- The rules for the log: those of the environment, or a level by the number of `-v`. -/
def logRules (environment : Environment) (verbosity : Nat) : List LogRule :=
  ((environment.log.bind logRules?)).getD [⟨"", min 5 (verbosity + 2)⟩]

/-- The outcome of a command that ended. -/
def outcome (log : List Event) : Ended → Outcome
  | ⟨.ok printed, fileSystem⟩ => { fileSystem, code := 0, printed, log }
  | ⟨.error f, fileSystem⟩ => { fileSystem, code := 1, printed := "", failure := some f, log }

def execute (fs : FileSystem) (environment : Environment) : Command → Outcome
  | .analyze flags verbosity =>
    let (config, searching) := Config.loadCurrent fs
    let (ended, cataloguing) := fs.analyzeLogged environment.full environment.color flags config
    let rules := logRules environment verbosity
    outcome ((searching ++ cataloguing).filter (·.isShown rules)) ended
  | .init force =>
    let (ended, creating) := fs.initConfigLogged environment.full ⟨"."⟩ force
    outcome (creating.filter (·.isShown (logRules environment 0)))
      { ended with
        result := ended.result.map fun _ =>
          "Created " ++ Config.fileName ++ " configuration file\n" }

def run (fs : FileSystem) (environment : Environment) (args : List String) : Outcome :=
  match parse environment.noImplicitReturn args with
  | .ok command => execute fs environment command
  | .error e =>
    let printed := match e with
      | .help topic => topic.text
      | .version => versionText
      | _ => ""
    { fileSystem := fs, code := e.exitCode, printed, rejection := some e }

end Command

end MixinCatalog
