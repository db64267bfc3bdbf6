import Mathlib.Logic.Relation
import MixinCatalog.Catalog.Project
import MixinCatalog.Proofs.Walk

/-!
# The catalog of a project

A catalog has one entry for each file that the walk yields, the settings select and that can be
read, sorted strictly by path. The walk may yield the files in any order and the files may be done
in any order: what is sorted has distinct components, so no order is left to be seen.
-/

namespace MixinCatalog

/-- The settings select a path: its language is known and enabled, and no ignore pattern matches
it. -/
def CatalogOptions.Selects (options : CatalogOptions) (p : Path) : Prop :=
  Language.ofPath p ≠ .unknown ∧ Language.ofPath p ∈ options.languages ∧
    ∀ pattern ∈ options.ignorePatterns, ∀ g, Glob.parse pattern = .ok g → g.isMatch p.text = false

/-! ### Ignore patterns -/

theorem exists_mapM_parse_eq_ok {patterns : List String}
    (h : ∀ pattern ∈ patterns, ∃ g, Glob.parse pattern = .ok g) :
    ∃ globs, patterns.mapM Glob.parse = .ok globs ∧
      ∀ g, g ∈ globs ↔ ∃ pattern ∈ patterns, Glob.parse pattern = .ok g := by
  induction patterns with
  | nil => exact ⟨[], rfl, by simp⟩
  | cons pattern patterns ih =>
    obtain ⟨g, hg⟩ := h pattern List.mem_cons_self
    obtain ⟨globs, hglobs, hmem⟩ := ih fun q hq => h q (List.mem_cons_of_mem _ hq)
    refine ⟨g :: globs, ?_, ?_⟩
    · rw [List.mapM_cons, hg, hglobs]
      rfl
    · intro g'
      simp [hmem, hg, eq_comm]

theorem CatalogOptions.exists_globs {options : CatalogOptions}
    (h : ∀ pattern ∈ options.ignorePatterns, ∃ g, Glob.parse pattern = .ok g) :
    ∃ globs, options.ignorePatterns.mapM Glob.parse = .ok globs ∧
      ∀ p, isWanted options.languages globs p = true ↔ options.Selects p := by
  obtain ⟨globs, hglobs, hmem⟩ := exists_mapM_parse_eq_ok h
  refine ⟨globs, hglobs, ?_⟩
  intro p
  have hpatterns : (!globs.any (·.isMatch p.text)) = true ↔
      ∀ pattern ∈ options.ignorePatterns, ∀ g, Glob.parse pattern = .ok g →
        g.isMatch p.text = false := by
    simp only [Bool.not_eq_true', List.any_eq_false, hmem, Bool.not_eq_true]
    constructor
    · intro hnone pattern hpattern g hg
      exact hnone g ⟨pattern, hpattern, hg⟩
    · rintro hnone g ⟨pattern, hpattern, hg⟩
      exact hnone pattern hpattern g hg
  rw [isWanted, Bool.and_eq_true, Bool.and_eq_true, hpatterns, bne_iff_ne, List.contains_iff_mem,
    CatalogOptions.Selects, and_assoc]

namespace FileSystem

/-! ### Schedules -/

/-- Files that are catalogued at the same time: those that are not done yet, and the results so far
in the order in which they came. -/
structure Progress where
  pending : List Path
  finished : List FileResult

/-- One pending file is done. Which one is up to the schedule. -/
inductive Progress.Step (fs : FileSystem) (options : MixinOptions) : Progress → Progress → Prop
  | finish (before after : List Path) (p : Path) (finished : List FileResult) :
      Step fs options ⟨before ++ p :: after, finished⟩
        ⟨before ++ after, finished ++ [(p, fs.catalogFile options p)]⟩

/-- Some files can be done in an order that gives their results in this order. -/
def Schedule (fs : FileSystem) (options : MixinOptions) (paths : List Path)
    (results : List FileResult) : Prop :=
  Relation.ReflTransGen (Progress.Step fs options) ⟨paths, []⟩ ⟨[], results⟩

/-- The results that there are and the results that are still to come. -/
def Progress.results (fs : FileSystem) (options : MixinOptions) (s : Progress) :
    List FileResult :=
  s.finished ++ fs.catalogEach options s.pending

theorem Progress.Step.results_perm {fs : FileSystem} {options : MixinOptions} {s t : Progress}
    (h : Progress.Step fs options s t) :
    (t.results fs options).Perm (s.results fs options) := by
  cases h with
  | finish before after p finished =>
    simp only [Progress.results, catalogEach, List.map_append, List.map_cons, List.append_assoc,
      List.singleton_append]
    exact List.perm_middle.symm.append_left finished

/-- Every schedule gives the result of each file once. -/
theorem Schedule.perm {fs : FileSystem} {options : MixinOptions} {paths : List Path}
    {results : List FileResult} (h : fs.Schedule options paths results) :
    results.Perm (fs.catalogEach options paths) := by
  -- what is done and what is pending make up the same results after every step
  have hrun {s t : Progress} (hst : Relation.ReflTransGen (Progress.Step fs options) s t) :
      (t.results fs options).Perm (s.results fs options) := by
    induction hst with
    | refl => exact .refl _
    | tail _ hstep ih => exact hstep.results_perm.trans ih
  simpa [Progress.results, catalogEach] using hrun h

private theorem schedule_catalogEach (fs : FileSystem) (options : MixinOptions)
    (paths : List Path) : fs.Schedule options paths (fs.catalogEach options paths) := by
  have hrun (finished : List FileResult) :
      Relation.ReflTransGen (Progress.Step fs options) ⟨paths, finished⟩
        ⟨[], finished ++ fs.catalogEach options paths⟩ := by
    induction paths generalizing finished with
    | nil =>
      rw [catalogEach, List.map_nil, List.append_nil]
    | cons p paths ih =>
      have hnext := ih (finished ++ [(p, fs.catalogFile options p)])
      rw [List.append_assoc, List.singleton_append] at hnext
      exact .head (.finish [] paths p finished) hnext
  exact hrun []

/-! ### Entries -/

theorem toOption_catalogFile_eq_some_iff {fs : FileSystem} {options : MixinOptions} {p : Path}
    {entry : FileMixins} :
    (fs.catalogFile options p).toOption = some entry ↔
      ∃ text, fs.read p = .ok text ∧ entry = catalogSource p text options := by
  unfold catalogFile
  cases hread : fs.read p with
  | error e => simp [Except.toOption]
  | ok text => simp [Except.toOption, eq_comm]

theorem mem_entries_iff {fs : FileSystem} {options : MixinOptions} {paths : List Path}
    {entry : FileMixins} :
    entry ∈ (fs.catalogEach options paths).filterMap (fun r => r.2.toOption) ↔
      ∃ p text, p ∈ paths ∧ fs.read p = .ok text ∧ entry = catalogSource p text options := by
  simp only [catalogEach, List.filterMap_map, List.mem_filterMap, Function.comp_apply,
    toOption_catalogFile_eq_some_iff]
  constructor
  · rintro ⟨p, hp, text, hread, hentry⟩
    exact ⟨p, text, hp, hread, hentry⟩
  · rintro ⟨p, text, hp, hread, hentry⟩
    exact ⟨p, hp, text, hread, hentry⟩

theorem mem_catalogPaths_iff {fs : FileSystem} {options : MixinOptions} {paths : List Path}
    {entry : FileMixins} :
    entry ∈ fs.catalogPaths options paths ↔
      ∃ p text, p ∈ paths ∧ fs.read p = .ok text ∧ entry = catalogSource p text options := by
  rw [catalogPaths, sortedEntries, (Path.sortOn_perm _ _).mem_iff]
  exact mem_entries_iff

theorem catalogPaths_perm (fs : FileSystem) (options : MixinOptions) (paths : List Path) :
    (fs.catalogPaths options paths).Perm
      (paths.filterMap fun p => (fs.catalogFile options p).toOption) := by
  have hentries : (fs.catalogEach options paths).filterMap (fun r => r.2.toOption) =
      paths.filterMap fun p => (fs.catalogFile options p).toOption := by
    simp [catalogEach, List.filterMap_map]
  rw [← hentries]
  exact Path.sortOn_perm FileMixins.path _

theorem entry_eq_of_components_eq {fs : FileSystem} {options : MixinOptions} {paths : List Path}
    (hspelled : ∀ p ∈ paths, ∀ q ∈ paths, p.components = q.components → p = q) :
    ∀ a ∈ (fs.catalogEach options paths).filterMap (fun r => r.2.toOption),
      ∀ b ∈ (fs.catalogEach options paths).filterMap (fun r => r.2.toOption),
        a.path.components = b.path.components → a = b := by
  intro a ha b hb hcomponents
  obtain ⟨p, text, hp, hread, rfl⟩ := mem_entries_iff.mp ha
  obtain ⟨q, text', hq, hread', rfl⟩ := mem_entries_iff.mp hb
  obtain rfl : p = q := hspelled p hp q hq hcomponents
  obtain rfl : text = text' := Except.ok.inj (hread.symm.trans hread')
  rfl

theorem sortedEntries_eq_of_perm {fs : FileSystem} {options : MixinOptions} {paths : List Path}
    {results : List FileResult} (hperm : results.Perm (fs.catalogEach options paths))
    (hspelled : ∀ p ∈ paths, ∀ q ∈ paths, p.components = q.components → p = q) :
    sortedEntries results = fs.catalogPaths options paths := by
  have hentries := (hperm.filterMap fun r => r.2.toOption).symm
  exact (Path.sortOn_eq_of_perm hentries (entry_eq_of_components_eq hspelled)).symm

theorem catalogPaths_eq_of_perm {fs : FileSystem} {options : MixinOptions}
    {paths paths' : List Path} (hperm : paths.Perm paths')
    (hspelled : ∀ p ∈ paths, ∀ q ∈ paths, p.components = q.components → p = q) :
    fs.catalogPaths options paths' = fs.catalogPaths options paths :=
  sortedEntries_eq_of_perm (hperm.symm.map _) hspelled

private theorem catalogPaths_pairwise_precedes {fs : FileSystem} {options : MixinOptions}
    {paths : List Path} (h : paths.Pairwise fun p q => p.components ≠ q.components) :
    (fs.catalogPaths options paths).Pairwise fun a b => a.path.Precedes b.path := by
  apply Path.sortOn_pairwise_precedes
  rw [catalogEach, List.filterMap_map, List.pairwise_filterMap]
  refine h.imp ?_
  intro p q hne a ha b hb
  obtain ⟨text, _, rfl⟩ := toOption_catalogFile_eq_some_iff.mp ha
  obtain ⟨text', _, rfl⟩ := toOption_catalogFile_eq_some_iff.mp hb
  exact hne

/-! ### Runs -/

/-- A run over a directory: the walk yields its files in some order, the selected ones are sorted,
and they are done in some order. -/
inductive ProjectRun (fs : FileSystem) (root : Path) (options : CatalogOptions) : Catalog → Prop
  | done {globs : List Glob} {files yielded : List Path} {results : List FileResult}
      (hglobs : options.ignorePatterns.mapM Glob.parse = .ok globs)
      (hfiles : fs.visibleFiles root = .ok files) (hyielded : yielded.Perm files)
      (hresults : fs.Schedule options.mixins
        (Path.sortOn id (yielded.filter (isWanted options.languages globs))) results) :
      ProjectRun fs root options (catalogOf root (sortedEntries results))

theorem eq_of_components_eq {paths : List Path}
    (h : paths.Pairwise fun p q => p.components ≠ q.components) {p q : Path} (hp : p ∈ paths)
    (hq : q ∈ paths) (hcomponents : p.components = q.components) : p = q := by
  have hnodup : (paths.map Path.components).Nodup := List.pairwise_map.mpr h
  exact List.inj_on_of_nodup_map hnodup hp hq hcomponents

/-- Every run over files with distinct components ends with the catalog of the files in the order
of the walk: neither the order in which they are yielded nor the schedule is seen. -/
theorem ProjectRun.eq {fs : FileSystem} {root : Path} {options : CatalogOptions}
    {globs : List Glob} {files : List Path} {catalog : Catalog}
    (hglobs : options.ignorePatterns.mapM Glob.parse = .ok globs)
    (hfiles : fs.visibleFiles root = .ok files)
    (hdistinct : files.Pairwise fun p q => p.components ≠ q.components)
    (hrun : fs.ProjectRun root options catalog) :
    catalog = catalogOf root (fs.catalogPaths options.mixins
      (Path.sortOn id (files.filter (isWanted options.languages globs)))) := by
  cases hrun with
  | @done globs' files' yielded results hglobs' hfiles' hyielded hresults =>
    obtain rfl := Except.ok.inj (hglobs.symm.trans hglobs')
    obtain rfl := Except.ok.inj (hfiles.symm.trans hfiles')
    have hselected := hdistinct.filter (isWanted options.languages globs)
    -- the first sort forgets the order of the walk, the second that of the schedule
    have hsorted : Path.sortOn id (files.filter (isWanted options.languages globs)) =
        Path.sortOn id (yielded.filter (isWanted options.languages globs)) :=
      Path.sortOn_eq_of_perm (hyielded.symm.filter _) fun p hp q hq =>
        eq_of_components_eq hselected hp hq
    rw [← hsorted] at hresults
    rw [sortedEntries_eq_of_perm hresults.perm]
    intro p hp q hq
    rw [(Path.sortOn_perm _ _).mem_iff] at hp hq
    exact eq_of_components_eq hselected hp hq

/-- The files of a directory are those that the walk yields and the settings select, and every run
over the directory ends with their catalog. -/
theorem projectFiles_of_directory {fs : FileSystem} {root : Path} {options : CatalogOptions}
    (hroot : fs.lookup root = .ok .directory)
    (hpatterns : ∀ pattern ∈ options.ignorePatterns, ∃ g, Glob.parse pattern = .ok g) :
    ∃ paths, fs.projectFiles root options = .ok paths ∧
      (paths.Pairwise fun p q => p.components ≠ q.components) ∧
      (∀ p, p ∈ paths ↔ (∃ names bytes, fs.Yields root names bytes ∧ p = pathBelow root names) ∧
        options.Selects p) ∧
      ∀ catalog, fs.ProjectRun root options catalog ↔
        catalog = catalogOf root (fs.catalogPaths options.mixins paths) := by
  obtain ⟨globs, hglobs, hselects⟩ := CatalogOptions.exists_globs hpatterns
  obtain ⟨files, hfiles, hyields, hdistinct⟩ := visibleFiles_of_directory hroot
  have hnotFile : fs.isFile root = false := by simp [isFile, hroot]
  refine ⟨Path.sortOn id (files.filter (isWanted options.languages globs)), ?_, ?_, ?_, ?_⟩
  · simp only [projectFiles, hnotFile, Bool.false_eq_true, if_false, walk, hglobs, hfiles]
  · exact (Path.sortOn_perm _ _).symm.pairwise (hdistinct.filter _) fun h => h.symm
  · intro p
    rw [(Path.sortOn_perm _ _).mem_iff, List.mem_filter, hyields, hselects]
  · intro catalog
    constructor
    · exact ProjectRun.eq hglobs hfiles hdistinct
    · rintro rfl
      exact .done hglobs hfiles (.refl _) (fs.schedule_catalogEach _ _)

/-- The catalog of a directory has exactly the entries of the files that the walk yields, the
settings select and that can be read, each with its own path and text. They are sorted strictly and
counted, and every run over the directory gives this catalog. A list of paths in which no path is
spelled in two ways has one list of entries, whatever its order is, with one entry for each time
that a readable file is listed. -/
theorem catalogProject_lists_selected_files (fs : FileSystem) :
    (∀ (root : Path) (options : CatalogOptions), fs.lookup root = .ok .directory →
      (∀ pattern ∈ options.ignorePatterns, ∃ g, Glob.parse pattern = .ok g) →
      ∃ catalog, fs.catalogProject root options = .ok catalog ∧
        catalog.projectPath = root ∧ catalog.filesAnalyzed = catalog.files.length ∧
        (catalog.files.Pairwise fun a b => a.path.Precedes b.path) ∧
        (∀ entry, entry ∈ catalog.files ↔ ∃ names bytes text, fs.Yields root names bytes ∧
          options.Selects (pathBelow root names) ∧ fs.read (pathBelow root names) = .ok text ∧
          String.fromUTF8? bytes = some text ∧
          entry = catalogSource (pathBelow root names) text options.mixins) ∧
        (∀ names names', (pathBelow root names).components = (pathBelow root names').components →
          names = names') ∧
        ∀ other, fs.ProjectRun root options other ↔ other = catalog) ∧
    ∀ (options : MixinOptions) (paths : List Path),
      (∀ p ∈ paths, ∀ q ∈ paths, p.components = q.components → p = q) →
      (∀ paths', paths.Perm paths' →
        fs.catalogPaths options paths' = fs.catalogPaths options paths) ∧
      (fs.catalogPaths options paths).Perm
        (paths.filterMap fun p => (fs.catalogFile options p).toOption) := by
  constructor
  · intro root options hroot hpatterns
    obtain ⟨paths, hpaths, hdistinct, hmem, hruns⟩ := projectFiles_of_directory hroot hpatterns
    refine ⟨catalogOf root (fs.catalogPaths options.mixins paths), ?_, rfl, rfl, ?_, ?_, ?_, hruns⟩
    · rw [catalogProject, hpaths]
      rfl
    · exact catalogPaths_pairwise_precedes hdistinct
    · intro entry
      refine mem_catalogPaths_iff.trans ?_
      constructor
      · rintro ⟨p, text, hp, hread, rfl⟩
        obtain ⟨⟨names, bytes, hyield, rfl⟩, hselect⟩ := (hmem p).mp hp
        exact ⟨names, bytes, text, hyield, hselect, hread, hyield.fromUTF8?_of_read hread, rfl⟩
      · rintro ⟨names, bytes, text, hyield, hselect, hread, _, rfl⟩
        exact ⟨_, text, (hmem _).mpr ⟨⟨names, bytes, hyield, rfl⟩, hselect⟩, hread, rfl⟩
    · intro names names' h
      exact pathBelow_components_injective h
  · intro options paths hspelled
    refine ⟨?_, catalogPaths_perm fs options paths⟩
    intro paths' hperm
    exact catalogPaths_eq_of_perm hperm hspelled

/-- A project with two mixins, a file that is not text and a file of declarations. -/
def sampleProject : FileSystem where
  entries :=
    [([⟨"src", by decide⟩], .directory),
      ([⟨"src", by decide⟩, ⟨"a.d.ts", by decide⟩], .file ⟨#[]⟩),
      ([⟨"src", by decide⟩, ⟨"a.js", by decide⟩], .file "let M = B => class {}".toUTF8),
      ([⟨"src", by decide⟩, ⟨"a", by decide⟩], .directory),
      ([⟨"src", by decide⟩, ⟨"a", by decide⟩, ⟨"b.js", by decide⟩],
        .file "let N = B => class {}".toUTF8),
      ([⟨"src", by decide⟩, ⟨"c.js", by decide⟩], .file ⟨#[0xff]⟩)]
  distinct := by decide
  current := []

def sampleOptions : CatalogOptions := { ignorePatterns := ["*.d.ts"] }

/-- The ignored file of the sample and the one that is not text are left out. -/
theorem sampleProject_catalog :
    sampleProject.lookup ⟨"src"⟩ = .ok .directory ∧
    (∀ pattern ∈ sampleOptions.ignorePatterns, ∃ g, Glob.parse pattern = .ok g) ∧
    (∃ catalog, sampleProject.catalogProject ⟨"src"⟩ sampleOptions = .ok catalog ∧
      catalogSource ⟨"src/a/b.js"⟩ "let N = B => class {}" {} ∈ catalog.files ∧
      (∀ text, catalogSource ⟨"src/a.d.ts"⟩ text {} ∉ catalog.files ∧
        catalogSource ⟨"src/c.js"⟩ text {} ∉ catalog.files) ∧
      ∀ other, sampleProject.ProjectRun ⟨"src"⟩ sampleOptions other ↔ other = catalog) ∧
    sampleProject.catalogPaths {} [⟨"src/a.js"⟩, ⟨"src/a/b.js"⟩, ⟨"src/a.js"⟩] =
      sampleProject.catalogPaths {} [⟨"src/a.js"⟩, ⟨"src/a.js"⟩, ⟨"src/a/b.js"⟩] := by
  have hroot : sampleProject.lookup ⟨"src"⟩ = .ok .directory := rfl
  have hpattern : Glob.parse "*.d.ts" = .ok ⟨.anyText :: ".d.ts".toList.map .char⟩ := by cbv
  have hpatterns : ∀ pattern ∈ sampleOptions.ignorePatterns, ∃ g, Glob.parse pattern = .ok g := by
    intro pattern h
    rw [List.mem_singleton.mp h]
    exact ⟨_, hpattern⟩
  obtain ⟨hproject, hpaths⟩ := catalogProject_lists_selected_files sampleProject
  obtain ⟨catalog, hcatalog, _, _, _, hentries, _, hruns⟩ := hproject _ _ hroot hpatterns
  have hentry {entry : FileMixins} (h : entry ∈ catalog.files) :
      sampleOptions.Selects entry.path ∧ ∃ text, sampleProject.read entry.path = .ok text := by
    obtain ⟨names, bytes, text, _, hselects, hread, _, rfl⟩ := (hentries _).mp h
    exact ⟨hselects, text, hread⟩
  refine ⟨hroot, hpatterns, ⟨catalog, hcatalog, ?_, ?_, hruns⟩, ?_⟩
  · refine (hentries _).mpr ⟨[⟨"a", by decide⟩, ⟨"b.js", by decide⟩],
      "let N = B => class {}".toUTF8, "let N = B => class {}", ?_, ?_, rfl, rfl, rfl⟩
    · refine ⟨[⟨"src", by decide⟩], rfl, ?_, rfl⟩
      simp [sampleProject]
    · refine ⟨by decide, by decide, ?_⟩
      intro pattern h g hg
      rw [List.mem_singleton.mp h, hpattern, Except.ok.injEq] at hg
      rw [← hg]
      decide
  · intro text
    constructor
    · intro h
      have hmatch := (hentry h).1.2.2 "*.d.ts" List.mem_cons_self _ hpattern
      change Glob.isMatch _ "src/a.d.ts" = false at hmatch
      exact absurd hmatch (by decide)
    · intro h
      obtain ⟨text', hread⟩ := (hentry h).2
      have hfails : sampleProject.read ⟨"src/c.js"⟩ = .error .notUtf8 := rfl
      simp [catalogSource, hfails] at hread
  · refine (hpaths {} [⟨"src/a.js"⟩, ⟨"src/a.js"⟩, ⟨"src/a/b.js"⟩] ?_).1 _ ?_
    · decide
    · decide

end FileSystem

end MixinCatalog
