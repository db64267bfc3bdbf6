import MixinCatalog.FileSystem.Basic
import MixinCatalog.Glob
import MixinCatalog.Ignore.Rule
import MixinCatalog.Language

/-!
# Finding source files

A walk finds the files below a directory that no ignore file and no leading dot hides, that are
written in one of the wanted languages, and that no glob pattern matches. A file that is itself the
root of the walk is never hidden.
-/

namespace MixinCatalog

namespace FileSystem

/-! ### Hidden entries -/

/-- The ignore files of a directory, the most important first. -/
def ignoreFiles : List Place :=
  [[⟨".ignore", by decide⟩], [⟨".gitignore", by decide⟩],
    [⟨".git", by decide⟩, ⟨"info", by decide⟩, ⟨"exclude", by decide⟩]]

def rulesAt (fs : FileSystem) (place : Place) : List Ignore.Rule :=
  match fs.get? place with
  | some (.file bytes) => Ignore.rules bytes
  | _ => []

/-- The splits of a place into a directory and the names below it, the longest directory first. -/
def splits : Place → List (Place × Place)
  | [] => []
  | name :: names =>
    (splits names).map (fun (dir, below) => (name :: dir, below)) ++ [([], name :: names)]

/-- What the ignore files say about an entry. Among the files of one name the one in the nearest
directory decides, if it has a rule that fits. -/
def ignoreVerdict? (fs : FileSystem) (place : Place) (isDirectory : Bool) :
    Option Ignore.Verdict :=
  ignoreFiles.findSome? fun name =>
    (splits place).findSome? fun (dir, below) =>
      Ignore.verdict? (fs.rulesAt (dir ++ name)) below.spelled.toList isDirectory

/-- Whether an entry is left out. A dot in front hides it unless a rule keeps it. -/
def isHidden (fs : FileSystem) (place : Place) (isDirectory : Bool) : Bool :=
  match fs.ignoreVerdict? place isDirectory with
  | some .skip => true
  | some .keep => false
  | none => (place.getLast?.bind (·.text.toList.head?)) == some '.'

/-- Whether the file that some names lead to from a directory is not hidden, and neither is a
directory on the way. -/
def isVisible (fs : FileSystem) (dir : Place) : Place → Bool
  | [] => true
  | [name] => !fs.isHidden (dir ++ [name]) false
  | name :: names => !fs.isHidden (dir ++ [name]) true && fs.isVisible (dir ++ [name]) names

/-- The files below a directory, by the names that lead to them. -/
def filesBelow (fs : FileSystem) (dir : Place) : List Place :=
  fs.entries.filterMap fun
    | (place, .file _) => Place.below? dir place
    | (_, .directory) => none

/-- The path that names lead to from a root. -/
def pathBelow (root : Path) (names : Place) : Path :=
  names.foldl (fun p name => p.join name.text) root

/-- The files that a root stands for: itself, or the visible files below it. -/
def visibleFiles (fs : FileSystem) (root : Path) : Except IoError (List Path) :=
  match fs.resolve root with
  | .error e => .error e
  | .ok place =>
    match fs.get? place with
    | none => .error .notFound
    | some (.file _) => .ok [root]
    | some .directory =>
      .ok (((fs.filesBelow place).filter (fs.isVisible place)).map (pathBelow root))

end FileSystem

inductive CatalogError where
  | walk (root : Path) (cause : IoError)
  | pattern (cause : Glob.Error)
deriving DecidableEq, Repr

def CatalogError.message : CatalogError → String
  | walk root cause =>
    "File system error: Failed to walk directory: " ++ root.text ++ ": IO error for operation on "
      ++ root.text ++ ": " ++ cause.message
  | pattern cause => cause.message

def isWanted (languages : List Language) (patterns : List Glob) (p : Path) : Bool :=
  Language.ofPath p != .unknown && languages.contains (Language.ofPath p)
    && !patterns.any (·.isMatch p.text)

/-- The wanted files of a root, sorted. Patterns are looked at before the root is. -/
def FileSystem.walk (fs : FileSystem) (root : Path) (languages : List Language)
    (patterns : List String) : Except CatalogError (List Path) :=
  match patterns.mapM Glob.parse with
  | .error e => .error (.pattern e)
  | .ok globs =>
    match fs.visibleFiles root with
    | .error e => .error (.walk root e)
    | .ok files => .ok (Path.sortOn id (files.filter (isWanted languages globs)))

end MixinCatalog
