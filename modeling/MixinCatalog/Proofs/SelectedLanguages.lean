import MixinCatalog.Proofs.ProjectCatalog

/-!
# The languages of selected files

One table of extensions selects files, another one says which dialect a file is read in. Both go by
the same extension of the path, and the first table is the second read through the language of a
dialect. So a file that was selected for a language is read and reported in that language.
-/

namespace MixinCatalog

open Syntax

/-! ### The two tables -/

private theorem Dialect.language_ne_unknown (d : Dialect) : d.language ≠ .unknown := by
  cases d <;> decide

/-- The table of languages is the table of dialects with the dialects of a language put together. -/
theorem Language.ofExtension_eq (ext : String) :
    Language.ofExtension ext = ((Dialect.ofExtension? ext).map Dialect.language).getD .unknown := by
  unfold Language.ofExtension
  split
  case h_9 =>
    -- an extension of no language is one of no dialect
    rw [Dialect.ofExtension?]
    · rfl
    all_goals assumption
  all_goals rfl

theorem Language.ofPath_eq (p : Path) :
    Language.ofPath p =
      ((p.extension?.bind Dialect.ofExtension?).map Dialect.language).getD .unknown := by
  unfold Language.ofPath
  cases p.extension? with
  | none => rfl
  | some ext => exact Language.ofExtension_eq ext

private theorem Dialect.language_ofPath {p : Path} (h : Language.ofPath p ≠ .unknown) :
    (Dialect.ofPath p).language = Language.ofPath p := by
  rw [Language.ofPath_eq] at h ⊢
  unfold Dialect.ofPath
  cases hdialect : p.extension?.bind Dialect.ofExtension? with
  | none => simp [hdialect] at h
  | some d => rfl

private theorem Dialect.ofPath_of_unknown {p : Path} (h : Language.ofPath p = .unknown) :
    p.extension?.bind Dialect.ofExtension? = none ∧ Dialect.ofPath p = .javaScript := by
  rw [Language.ofPath_eq] at h
  cases hdialect : p.extension?.bind Dialect.ofExtension? with
  | none => simp [Dialect.ofPath, hdialect]
  | some d =>
    rw [hdialect] at h
    exact absurd h d.language_ne_unknown

namespace FileSystem

/-! ### Selected files -/

private theorem language_of_mem_walk {fs : FileSystem} {root p : Path} {languages : List Language}
    {patterns : List String} {paths : List Path} (h : fs.walk root languages patterns = .ok paths)
    (hp : p ∈ paths) : Language.ofPath p ≠ .unknown ∧ Language.ofPath p ∈ languages := by
  unfold walk at h
  split at h
  next => simp at h
  next globs _ =>
    split at h
    next => simp at h
    next files _ =>
      obtain rfl := Except.ok.inj h
      rw [(Path.sortOn_perm id _).mem_iff, List.mem_filter] at hp
      have hwanted := hp.2
      simp only [isWanted, Bool.and_eq_true, bne_iff_ne, List.contains_iff_mem] at hwanted
      exact hwanted.1

private theorem language_of_mem_projectFiles {fs : FileSystem} {root p : Path}
    {options : CatalogOptions} {paths : List Path} (hroot : fs.isFile root = false)
    (h : fs.projectFiles root options = .ok paths) (hp : p ∈ paths) :
    Language.ofPath p ≠ .unknown ∧ Language.ofPath p ∈ options.languages := by
  rw [projectFiles, hroot] at h
  exact language_of_mem_walk h hp

private theorem exists_source_of_mem_catalog {fs : FileSystem} {root : Path}
    {options : CatalogOptions} {catalog : Catalog} {entry : FileMixins}
    (h : fs.catalogProject root options = .ok catalog) (hentry : entry ∈ catalog.files) :
    ∃ paths text, fs.projectFiles root options = .ok paths ∧ entry.path ∈ paths ∧
      fs.read entry.path = .ok text ∧ entry = catalogSource entry.path text options.mixins := by
  unfold catalogProject at h
  cases hpaths : fs.projectFiles root options with
  | error e => simp [hpaths, Except.map] at h
  | ok paths =>
    rw [hpaths] at h
    obtain rfl := Except.ok.inj h
    obtain ⟨p, text, hp, hread, rfl⟩ := mem_catalogPaths_iff.mp hentry
    exact ⟨paths, text, rfl, hp, hread, rfl⟩

/-- An entry is read in a dialect of the language it reports, and this is the language of its
path. -/
structure ReadInItsLanguage (fs : FileSystem) (options : MixinOptions) (entry : FileMixins) :
    Prop where
  language : entry.language = Language.ofPath entry.path
  known : entry.language ≠ .unknown
  dialect : (Dialect.ofPath entry.path).language = entry.language
  source : ∃ text, fs.read entry.path = .ok text ∧
    entry.hasParseErrors = (Source.parse (Dialect.ofPath entry.path) text).hasErrors ∧
    entry.mixins = catalogMixins entry.path text
      (Source.parse (Dialect.ofPath entry.path) text).root options

/-- The two tables agree on every path: a path of a known language has a dialect of that language,
and a path of no language has none and is read as JavaScript. Hence every file that is selected
below a root has a dialect of an enabled language, and every entry of the catalog is read in one. -/
theorem selected_files_read_in_enabled_language :
    (∀ p : Path,
      (Language.ofPath p ≠ .unknown → (Dialect.ofPath p).language = Language.ofPath p) ∧
      (Language.ofPath p = .unknown →
        (∀ ext, p.extension? = some ext → Dialect.ofExtension? ext = none) ∧
          Dialect.ofPath p = .javaScript)) ∧
    ∀ (fs : FileSystem) (root : Path) (options : CatalogOptions), fs.isFile root = false →
      (∀ paths, fs.projectFiles root options = .ok paths → ∀ p ∈ paths,
        (Dialect.ofPath p).language ∈ options.languages) ∧
      ∀ catalog, fs.catalogProject root options = .ok catalog → ∀ entry ∈ catalog.files,
        fs.ReadInItsLanguage options.mixins entry ∧ entry.language ∈ options.languages := by
  refine ⟨?_, ?_⟩
  · intro p
    refine ⟨Dialect.language_ofPath, ?_⟩
    intro hunknown
    obtain ⟨hnone, hdialect⟩ := Dialect.ofPath_of_unknown hunknown
    refine ⟨?_, hdialect⟩
    intro ext hext
    simpa [hext] using hnone
  · intro fs root options hroot
    constructor
    · intro paths hpaths p hp
      obtain ⟨hknown, henabled⟩ := language_of_mem_projectFiles hroot hpaths hp
      rw [Dialect.language_ofPath hknown]
      exact henabled
    · intro catalog hcatalog entry hentry
      obtain ⟨paths, text, hpaths, hp, hread, hsource⟩ :=
        exists_source_of_mem_catalog hcatalog hentry
      obtain ⟨hknown, henabled⟩ := language_of_mem_projectFiles hroot hpaths hp
      have hdialect := Dialect.language_ofPath hknown
      have hlanguage : entry.language = Language.ofPath entry.path := by
        rw [hsource]
        exact hdialect
      refine ⟨⟨hlanguage, hlanguage ▸ hknown, hdialect.trans hlanguage.symm, text, hread, ?_, ?_⟩,
        hlanguage ▸ henabled⟩
      · rw [hsource]
        rfl
      · rw [hsource]
        rfl

/-- Only the typed files of the sample are wanted. -/
def sampleTyped : CatalogOptions := { languages := [.typeScript] }

/-- The extension of a path is taken behind its last dot and as it is written. The file of
declarations in the sample is the only one that is catalogued for its language. -/
theorem sampleProject_typed :
    Language.ofPath ⟨"src/a.d.tsx/."⟩ ≠ .unknown ∧
    (Dialect.ofPath ⟨"src/a.d.tsx/."⟩).language = Language.ofPath ⟨"src/a.d.tsx/."⟩ ∧
    Language.ofPath ⟨"src/a.TS"⟩ = .unknown ∧ Path.extension? ⟨"src/a.TS"⟩ = some "TS" ∧
    Dialect.ofExtension? "TS" = none ∧ Dialect.ofPath ⟨"src/a.TS"⟩ = .javaScript ∧
    sampleProject.isFile ⟨"src"⟩ = false ∧
    ∃ paths catalog entry, sampleProject.projectFiles ⟨"src"⟩ sampleTyped = .ok paths ∧
      ⟨"src/a.d.ts"⟩ ∈ paths ∧
      (Dialect.ofPath ⟨"src/a.d.ts"⟩).language ∈ sampleTyped.languages ∧
      sampleProject.catalogProject ⟨"src"⟩ sampleTyped = .ok catalog ∧ entry ∈ catalog.files ∧
      entry.path = ⟨"src/a.d.ts"⟩ ∧ sampleProject.ReadInItsLanguage {} entry ∧
      entry.language ∈ sampleTyped.languages := by
  obtain ⟨htables, hselected⟩ := selected_files_read_in_enabled_language
  have hknown : Language.ofPath ⟨"src/a.d.tsx/."⟩ ≠ .unknown := by decide
  have hunknown : Language.ofPath ⟨"src/a.TS"⟩ = .unknown := by decide
  have hext : Path.extension? ⟨"src/a.TS"⟩ = some "TS" := by decide
  have hroot : sampleProject.isFile ⟨"src"⟩ = false := rfl
  have hdirectory : sampleProject.lookup ⟨"src"⟩ = .ok .directory := rfl
  have hpatterns : ∀ pattern ∈ sampleTyped.ignorePatterns, ∃ g, Glob.parse pattern = .ok g := by
    simp [sampleTyped]
  obtain ⟨paths, hpaths, _, hmem, _⟩ := projectFiles_of_directory hdirectory hpatterns
  have hp : ⟨"src/a.d.ts"⟩ ∈ paths := by
    refine (hmem _).mpr ⟨⟨[⟨"a.d.ts", by decide⟩], ⟨#[]⟩, ?_, rfl⟩, ?_⟩
    · refine ⟨[⟨"src", by decide⟩], rfl, ?_, rfl⟩
      simp [sampleProject]
    · exact ⟨by decide, by decide, by simp [sampleTyped]⟩
  have hcatalog : sampleProject.catalogProject ⟨"src"⟩ sampleTyped =
      .ok (catalogOf ⟨"src"⟩ (sampleProject.catalogPaths {} paths)) := by
    rw [catalogProject, hpaths]
    rfl
  have hentry : catalogSource ⟨"src/a.d.ts"⟩ "" {} ∈
      (catalogOf ⟨"src"⟩ (sampleProject.catalogPaths {} paths)).files :=
    mem_catalogPaths_iff.mpr ⟨_, _, hp, rfl, rfl⟩
  obtain ⟨hfiles, hentries⟩ := hselected sampleProject ⟨"src"⟩ sampleTyped hroot
  obtain ⟨hread, henabled⟩ := hentries _ hcatalog _ hentry
  exact ⟨hknown, (htables _).1 hknown, hunknown, hext, ((htables _).2 hunknown).1 _ hext,
    ((htables _).2 hunknown).2, hroot, paths, _, _, hpaths, hp, hfiles paths hpaths _ hp, hcatalog,
    hentry, rfl, hread, henabled⟩

end FileSystem

end MixinCatalog
