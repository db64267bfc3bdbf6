import MixinCatalog.Command.Analyze
import MixinCatalog.Proofs.PathOrder

/-!
# Strict mode

Options that do not accept implicit returns give what the permissive options give, less the mixins
that only an implicit return makes. This holds of one declaration and is carried from there to the
records of a file, to its catalog entry and to the catalog of a project, since a record keeps the
shape that was recognised and neither the search for files nor the sorting looks at the mixins.
-/

namespace MixinCatalog

open Syntax

/-- Implicit returns are accepted. -/
def MixinOptions.permissive : MixinOptions := ⟨true⟩

/-- Implicit returns are not accepted. -/
def MixinOptions.strict : MixinOptions := ⟨false⟩

/-- The same entry without the mixins of implicit returns. -/
def FileMixins.withoutImplicit (f : FileMixins) : FileMixins :=
  { f with mixins := f.mixins.filter fun r => !r.shape.isImplicitReturn }

/-- The same catalog with no mixins of implicit returns in its entries. -/
def Catalog.withoutImplicit (c : Catalog) : Catalog :=
  { c with files := c.files.map FileMixins.withoutImplicit }

/-! ### Declarations -/

private theorem classDeclarationRule_strict (names : NameReader) (source : String)
    (scan : BlockScan) (function : Node) (shape : Bool → Shape)
    (hshape : ∀ b, (shape b).isImplicitReturn = !b) :
    classDeclarationRule names .strict source scan function shape =
      (classDeclarationRule names .permissive source scan function shape).filter
        fun m => !m.shape.isImplicitReturn := by
  unfold classDeclarationRule
  cases hc : scan.firstClass? with
  | none => rfl
  | some c =>
    cases hr : scan.firstReturn? with
    | none => simp [MixinOptions.strict, MixinOptions.permissive, Option.filter_some, hshape]
    | some r =>
      by_cases hn : returnsClass names source c r
      · simp [hn, Option.filter_some, hshape]
      · simp [hn]

private theorem variableForms_strict (names : NameReader) (source : String) (statement : Node) :
    variableForms names .strict source statement =
      (variableForms names .permissive source statement).filter
        fun m => !m.shape.isImplicitReturn := by
  unfold variableForms
  cases hf : statement.decidingInitializer? with
  | none => rfl
  | some f =>
    cases hb : f.body? with
    | none => simp [hb]
    | some body =>
      simp only [hb]
      cases hrole : body.role with
      | block =>
        cases hret : (BlockScan.ofBlock body).returnedClass? with
        | some c => rfl
        | none =>
          apply classDeclarationRule_strict
          intro b
          cases b <;> rfl
      | _ => rfl

private theorem functionForms_strict (names : NameReader) (source : String) (function : Node) :
    functionForms names .strict source function =
      (functionForms names .permissive source function).filter
        fun m => !m.shape.isImplicitReturn := by
  unfold functionForms
  cases hb : function.body? with
  | none => rfl
  | some body =>
    by_cases hrole : body.role = .block
    · simp only [hrole, if_true]
      cases hret : (BlockScan.ofBlock body).returnedClass? with
      | some c => rfl
      | none =>
        apply classDeclarationRule_strict
        intro b
        cases b <;> rfl
    · simp [hrole]

private theorem mixinNodes?_strict (names : NameReader) (source : String) (declaration : Node) :
    mixinNodes? names .strict source declaration =
      (mixinNodes? names .permissive source declaration).filter
        fun m => !m.shape.isImplicitReturn := by
  unfold mixinNodes?
  cases hrole : declaration.role with
  | variableStatement => exact variableForms_strict names source declaration
  | functionDeclaration => exact functionForms_strict names source declaration
  | _ => rfl

/-! ### Files -/

private theorem catalogMixins_strict (path : Path) (source : String) (root : Node) :
    catalogMixins path source root .strict =
      (catalogMixins path source root .permissive).filter
        fun r => !r.shape.isImplicitReturn := by
  simp only [catalogMixins, List.filter_filterMap]
  congr 1
  funext d
  rw [mixinNodes?_strict]
  cases mixinNodes? NameReader.textual .permissive source d.node with
  | none => rfl
  | some m => cases hm : m.shape.isImplicitReturn <;> simp [Option.filter, mixinRecord, hm]

private theorem catalogSource_strict (path : Path) (text : String) :
    catalogSource path text .strict = (catalogSource path text .permissive).withoutImplicit := by
  simp only [catalogSource, FileMixins.withoutImplicit, catalogMixins_strict]

/-! ### Projects -/

namespace FileSystem

private theorem catalogFile_strict (fs : FileSystem) (path : Path) :
    fs.catalogFile .strict path =
      (fs.catalogFile .permissive path).map FileMixins.withoutImplicit := by
  unfold catalogFile
  cases fs.read path with
  | error e => rfl
  | ok text => simp [Except.map, catalogSource_strict]

private theorem catalogPaths_strict (fs : FileSystem) (paths : List Path) :
    fs.catalogPaths .strict paths =
      (fs.catalogPaths .permissive paths).map FileMixins.withoutImplicit := by
  have hentry (p : Path) : (fs.catalogFile .strict p).toOption =
      (fs.catalogFile .permissive p).toOption.map FileMixins.withoutImplicit := by
    rw [catalogFile_strict]
    cases fs.catalogFile .permissive p <;> rfl
  have hkept (f : FileMixins) : f.withoutImplicit.path = f.path := rfl
  unfold catalogPaths sortedEntries catalogEach
  rw [← Path.sortOn_map hkept]
  simp only [List.filterMap_map, List.map_filterMap, Function.comp_def, hentry]

private theorem catalogProject_strict (fs : FileSystem) (root : Path) (languages : List Language)
    (patterns : List String) :
    fs.catalogProject root ⟨languages, patterns, .strict⟩ =
      (fs.catalogProject root ⟨languages, patterns, .permissive⟩).map Catalog.withoutImplicit := by
  have hfiles : fs.projectFiles root ⟨languages, patterns, .strict⟩ =
      fs.projectFiles root ⟨languages, patterns, .permissive⟩ := rfl
  unfold catalogProject
  rw [hfiles]
  cases fs.projectFiles root ⟨languages, patterns, .permissive⟩ with
  | error e => rfl
  | ok paths => simp [Except.map, catalogOf, Catalog.withoutImplicit, catalogPaths_strict]

end FileSystem

/-- Strict mode is permissive mode without the implicit returns: for a declaration, for the records
of a tree, and for a project, which fails alike and otherwise has the same files in the same order.
The command line flag and the configuration switch it on alike. -/
theorem strict_eq_permissive_withoutImplicit :
    (∀ (names : NameReader) (source : String) (declaration : Node),
      mixinNodes? names .strict source declaration =
        (mixinNodes? names .permissive source declaration).filter
          fun m => !m.shape.isImplicitReturn) ∧
    (∀ (path : Path) (source : String) (root : Node),
      catalogMixins path source root .strict =
        (catalogMixins path source root .permissive).filter
          fun r => !r.shape.isImplicitReturn) ∧
    (∀ (fs : FileSystem) (root : Path) (languages : List Language) (patterns : List String),
      fs.catalogProject root ⟨languages, patterns, .strict⟩ =
        (fs.catalogProject root ⟨languages, patterns, .permissive⟩).map
          Catalog.withoutImplicit) ∧
    (∀ (flags : AnalyzeFlags) (config : Config),
      { flags with noImplicitReturn := true }.options config =
        flags.options { config with mixins := some .strict }) := by
  refine ⟨mixinNodes?_strict, catalogMixins_strict, FileSystem.catalogProject_strict, ?_⟩
  intro flags config
  cases hflag : flags.noImplicitReturn <;>
    simp [AnalyzeFlags.options, Config.mixinOptions, Config.enabledLanguages,
      Config.ignorePatterns, MixinOptions.strict, hflag]

end MixinCatalog
