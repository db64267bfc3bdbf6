import MixinCatalog.Event

/-!
# Finding a configuration

The directories from a starting point upwards are searched for a configuration file. A file that
cannot be read or is not accepted is reported and passed over.
-/

namespace MixinCatalog.Config

def maxSearched : Nat := 10

/-- The configuration in one directory's file, and what happened on the way to it. A missing file is
nothing to report. -/
def tryFile (fs : FileSystem) (path : Path) : Option Config × List Event :=
  match fs.read path with
  | .error .notFound => (none, [])
  | .error e => (none, [.configUnreadable path e])
  | .ok text =>
    let warnings := (unknownNamesIn text).map Event.unknownLanguage
    match parse text with
    | .ok c => (some c, warnings ++ [.configLoaded path])
    | .error e => (none, warnings ++ [.configRejected e])

/-- The first configuration in some files. -/
def firstIn (fs : FileSystem) : List Path → Option Config × List Event
  | [] => (none, [])
  | path :: paths =>
    match tryFile fs path with
    | (some c, events) => (some c, events)
    | (none, events) =>
      let (found, later) := firstIn fs paths
      (found, events ++ later)

/-- The files that are looked at from a starting point, nearest first. -/
def searchPath (start : Path) : List Path :=
  (start.ancestors maxSearched).map (·.join fileName)

/-- The configuration for a starting point, and what happened in the search for it. -/
def load (fs : FileSystem) (start : Path) : Config × List Event :=
  match firstIn fs (searchPath start) with
  | (some c, events) => (c, events)
  | (none, events) => ({}, events ++ [.noConfig maxSearched])

def loadCurrent (fs : FileSystem) : Config × List Event :=
  match fs.currentPath with
  | .ok dir => load fs dir
  | .error e => ({}, [.noWorkingDirectory e])

end MixinCatalog.Config
