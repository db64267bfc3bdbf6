import MixinCatalog.Catalog.File
import MixinCatalog.Event
import MixinCatalog.FileSystem.Walk

/-!
# Cataloguing a project

Every wanted file below a root gives one entry of the catalog; a file that cannot be read is
reported and left out. The entries are sorted by path.
-/

namespace MixinCatalog

structure CatalogOptions where
  languages : List Language := [.javaScript, .typeScript]
  ignorePatterns : List String := []
  mixins : MixinOptions := {}
deriving DecidableEq, Repr, Inhabited

namespace FileSystem

def catalogFile (fs : FileSystem) (options : MixinOptions) (path : Path) :
    Except IoError FileMixins :=
  match fs.read path with
  | .error e => .error e
  | .ok text => .ok (catalogSource path text options)

/-- A file and what came of it. -/
abbrev FileResult := Path × Except IoError FileMixins

def catalogEach (fs : FileSystem) (options : MixinOptions) (paths : List Path) : List FileResult :=
  paths.map fun p => (p, fs.catalogFile options p)

/-- The entries of the files that could be read, sorted by path. -/
def sortedEntries (results : List FileResult) : List FileMixins :=
  Path.sortOn FileMixins.path (results.filterMap fun r => r.2.toOption)

def catalogPaths (fs : FileSystem) (options : MixinOptions) (paths : List Path) : List FileMixins :=
  sortedEntries (fs.catalogEach options paths)

/-- The files of a project. A root that is a file is the only one, whatever the settings are. -/
def projectFiles (fs : FileSystem) (root : Path) (options : CatalogOptions) :
    Except CatalogError (List Path) :=
  if fs.isFile root then .ok [root]
  else fs.walk root options.languages options.ignorePatterns

/-- What there is to report about a file. -/
def fileEvents : FileResult → List Event
  | (path, .error e) => [.fileSkipped path e]
  | (path, .ok f) =>
    (if f.hasParseErrors then [.syntaxErrors path] else []) ++ [.catalogued path f.mixins.length]

def catalogOf (root : Path) (files : List FileMixins) : Catalog := ⟨root, files.length, files⟩

def catalogProject (fs : FileSystem) (root : Path) (options : CatalogOptions) :
    Except CatalogError Catalog :=
  (fs.projectFiles root options).map fun paths =>
    catalogOf root (fs.catalogPaths options.mixins paths)

/-- The catalog of a project, and what happened on the way to it. -/
def catalogProjectLogged (fs : FileSystem) (root : Path) (options : CatalogOptions) :
    Except CatalogError (Catalog × List Event) :=
  (fs.projectFiles root options).map fun paths =>
    let results := fs.catalogEach options.mixins paths
    let catalog := catalogOf root (sortedEntries results)
    (catalog, .discovered root paths.length :: results.flatMap fileEvents
      ++ [.completed root catalog.filesAnalyzed catalog.totalMixins])

/-- The log does not change the catalog. -/
theorem map_catalogProjectLogged (fs : FileSystem) (root : Path) (options : CatalogOptions) :
    (fs.catalogProjectLogged root options).map Prod.fst = fs.catalogProject root options := by
  unfold catalogProjectLogged catalogProject
  cases fs.projectFiles root options <;> rfl

end FileSystem

end MixinCatalog
