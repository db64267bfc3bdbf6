import MixinCatalog.Proofs.AnalysisOutcome

/-!
# What the settings select

A walk leaves out files one by one, each by its own path, so the lists of languages and patterns act
as sets: more patterns leave out more files, more languages let more files in, and neither the order
of a list nor what it repeats is seen. Sorting comes last and keeps all of this.
-/

namespace MixinCatalog

/-! ### Settings as tests of a path -/

/-- Every text of a list is a pattern. -/
def AllPatterns (patterns : List String) : Prop :=
  ∀ pattern ∈ patterns, ∃ g, Glob.parse pattern = .ok g

/-- Some pattern of a list matches a path. A text that is no pattern matches nothing. -/
def isIgnored (patterns : List String) (p : Path) : Bool :=
  patterns.any fun pattern =>
    match Glob.parse pattern with
    | .ok g => g.isMatch p.text
    | .error _ => false

/-- The language of a path is known and enabled. -/
def isEnabled (languages : List Language) (p : Path) : Bool :=
  Language.ofPath p != .unknown && languages.contains (Language.ofPath p)

def isSelected (languages : List Language) (patterns : List String) (p : Path) : Bool :=
  isEnabled languages p && !isIgnored patterns p

theorem isIgnored_eq_true_iff {patterns : List String} {p : Path} :
    isIgnored patterns p = true ↔
      ∃ pattern ∈ patterns, ∃ g, Glob.parse pattern = .ok g ∧ g.isMatch p.text = true := by
  rw [isIgnored, List.any_eq_true]
  refine exists_congr fun pattern => and_congr_right fun _ => ?_
  cases Glob.parse pattern with
  | error e => simp
  | ok g => simp

theorem isEnabled_eq_true_iff {languages : List Language} {p : Path} :
    isEnabled languages p = true ↔
      Language.ofPath p ≠ .unknown ∧ Language.ofPath p ∈ languages := by
  rw [isEnabled, Bool.and_eq_true, bne_iff_ne, List.contains_iff_mem]

theorem isSelected_eq_true_iff {options : CatalogOptions} {p : Path} :
    isSelected options.languages options.ignorePatterns p = true ↔ options.Selects p := by
  rw [isSelected, Bool.and_eq_true, isEnabled_eq_true_iff, Bool.not_eq_true', and_assoc,
    CatalogOptions.Selects, ← Bool.not_eq_true, isIgnored_eq_true_iff]
  simp only [not_exists, not_and, Bool.not_eq_true]

theorem isIgnored_append (patterns more : List String) (p : Path) :
    isIgnored (patterns ++ more) p = (isIgnored patterns p || isIgnored more p) :=
  List.any_append

private theorem isIgnored_congr {patterns patterns' : List String}
    (h : ∀ pattern, pattern ∈ patterns' ↔ pattern ∈ patterns) (p : Path) :
    isIgnored patterns' p = isIgnored patterns p := by
  rw [Bool.eq_iff_iff, isIgnored_eq_true_iff, isIgnored_eq_true_iff]
  exact exists_congr fun pattern => and_congr_left fun _ => h pattern

private theorem isEnabled_congr {languages languages' : List Language}
    (h : ∀ l, l ≠ .unknown → (l ∈ languages' ↔ l ∈ languages)) (p : Path) :
    isEnabled languages' p = isEnabled languages p := by
  rw [Bool.eq_iff_iff, isEnabled_eq_true_iff, isEnabled_eq_true_iff]
  exact and_congr_right fun hknown => h _ hknown

theorem isEnabled_append (languages more : List Language) (p : Path) :
    isEnabled (languages ++ more) p = (isEnabled languages p || isEnabled more p) := by
  simp only [isEnabled, List.contains_append, Bool.and_or_distrib_left]

private theorem isSelected_append_patterns (languages : List Language) (patterns more : List String)
    (p : Path) :
    isSelected languages (patterns ++ more) p =
      (isSelected languages patterns p && !isIgnored more p) := by
  rw [isSelected, isSelected, isIgnored_append, Bool.not_or, Bool.and_assoc]

private theorem isSelected_append_languages (languages more : List Language)
    (patterns : List String) (p : Path) :
    isSelected (languages ++ more) patterns p =
      (isSelected languages patterns p || isSelected more patterns p) := by
  simp only [isSelected, isEnabled_append, Bool.and_or_distrib_right]

private theorem isSelected_congr {languages languages' : List Language}
    {patterns patterns' : List String}
    (hlanguages : ∀ l, l ≠ .unknown → (l ∈ languages' ↔ l ∈ languages))
    (hpatterns : ∀ pattern, pattern ∈ patterns' ↔ pattern ∈ patterns) :
    isSelected languages' patterns' = isSelected languages patterns := by
  funext p
  rw [isSelected, isSelected, isEnabled_congr hlanguages, isIgnored_congr hpatterns]

/-! ### Walks -/

namespace AllPatterns

theorem append {patterns more : List String} (h : AllPatterns patterns) (hmore : AllPatterns more) :
    AllPatterns (patterns ++ more) := by
  intro pattern hpattern
  obtain hold | hnew := List.mem_append.mp hpattern
  · exact h pattern hold
  · exact hmore pattern hnew

/-- The patterns of a list compile to globs that want what the list selects. -/
theorem exists_globs {patterns : List String} (h : AllPatterns patterns) :
    ∃ globs, patterns.mapM Glob.parse = .ok globs ∧
      ∀ languages, isWanted languages globs = isSelected languages patterns := by
  obtain ⟨globs, hglobs, _⟩ := exists_mapM_parse_eq_ok h
  refine ⟨globs, hglobs, ?_⟩
  intro languages
  obtain ⟨globs', hglobs', hwanted⟩ := @CatalogOptions.exists_globs ⟨languages, patterns, {}⟩ h
  obtain rfl : globs = globs' := Except.ok.inj (hglobs.symm.trans hglobs')
  funext p
  exact Bool.eq_iff_iff.mpr ((hwanted p).trans isSelected_eq_true_iff.symm)

end AllPatterns

namespace FileSystem

theorem walk_eq {fs : FileSystem} {root : Path} {languages : List Language}
    {patterns : List String} (h : AllPatterns patterns) :
    fs.walk root languages patterns =
      ((fs.visibleFiles root).mapError (CatalogError.walk root)).map fun files =>
        Path.sortOn id (files.filter (isSelected languages patterns)) := by
  obtain ⟨globs, hglobs, hwanted⟩ := h.exists_globs
  cases hfiles : fs.visibleFiles root with
  | error e => simp only [walk, hglobs, hfiles, Except.mapError, Except.map]
  | ok files => simp only [walk, hglobs, hfiles, hwanted, Except.mapError, Except.map]

theorem walk_of_visibleFiles {fs : FileSystem} {root : Path} {languages : List Language}
    {patterns : List String} {files : List Path} (h : AllPatterns patterns)
    (hfiles : fs.visibleFiles root = .ok files) :
    fs.walk root languages patterns =
      .ok (Path.sortOn id (files.filter (isSelected languages patterns))) := by
  rw [walk_eq h, hfiles]
  rfl

private theorem allPatterns_of_walk_eq_ok {fs : FileSystem} {root : Path}
    {languages : List Language} {patterns : List String} {paths : List Path}
    (h : fs.walk root languages patterns = .ok paths) : AllPatterns patterns := by
  by_contra hnot
  obtain ⟨good, bad, rest, cause, rfl, hgood, hbad⟩ := exists_first_bad hnot
  simp [walk, mapM_parse_of_bad hgood hbad] at h

private theorem walk_of_directory {fs : FileSystem} {root : Path}
    (hroot : fs.lookup root = .ok .directory) :
    ∃ files : List Path, (files.Pairwise fun p q => p.components ≠ q.components) ∧
      ∀ languages patterns, AllPatterns patterns → fs.walk root languages patterns =
        .ok (Path.sortOn id (files.filter (isSelected languages patterns))) := by
  obtain ⟨files, hfiles, _, hdistinct⟩ := visibleFiles_of_directory hroot
  refine ⟨files, hdistinct, ?_⟩
  intro languages patterns hpatterns
  exact walk_of_visibleFiles hpatterns hfiles

private theorem walk_append_patterns {fs : FileSystem} {root : Path}
    (hroot : fs.lookup root = .ok .directory) {languages : List Language}
    {patterns more : List String} {paths : List Path} (hmore : AllPatterns more)
    (hwalk : fs.walk root languages patterns = .ok paths) :
    fs.walk root languages (patterns ++ more) =
      .ok (paths.filter fun p => !isIgnored more p) := by
  obtain ⟨files, hdistinct, hwalks⟩ := walk_of_directory hroot
  have hpatterns := allPatterns_of_walk_eq_ok hwalk
  obtain rfl : _ = paths := Except.ok.inj ((hwalks _ _ hpatterns).symm.trans hwalk)
  have hselected : files.filter (isSelected languages (patterns ++ more)) =
      (files.filter (isSelected languages patterns)).filter fun p => !isIgnored more p := by
    rw [List.filter_filter]
    refine List.filter_congr fun p _ => ?_
    rw [isSelected_append_patterns, Bool.and_comm]
  rw [hwalks _ _ (hpatterns.append hmore), hselected, Path.sortOn_filter]
  intro p hp q hq
  exact eq_of_components_eq (hdistinct.filter _) hp hq

private theorem walk_append_languages {fs : FileSystem} {root : Path}
    (hroot : fs.lookup root = .ok .directory) {languages more : List Language}
    {patterns : List String} {paths paths' : List Path}
    (hwalk : fs.walk root languages patterns = .ok paths)
    (hwalk' : fs.walk root more patterns = .ok paths') :
    ∃ union, fs.walk root (languages ++ more) patterns = .ok union ∧
      union.Pairwise Path.Precedes ∧ union.Nodup ∧ ∀ p, p ∈ union ↔ p ∈ paths ∨ p ∈ paths' := by
  obtain ⟨files, hdistinct, hwalks⟩ := walk_of_directory hroot
  have hpatterns := allPatterns_of_walk_eq_ok hwalk
  obtain rfl : _ = paths := Except.ok.inj ((hwalks _ _ hpatterns).symm.trans hwalk)
  obtain rfl : _ = paths' := Except.ok.inj ((hwalks _ _ hpatterns).symm.trans hwalk')
  have hselected := hdistinct.filter (isSelected (languages ++ more) patterns)
  refine ⟨_, hwalks _ _ hpatterns, Path.sortOn_pairwise_precedes hselected, ?_, ?_⟩
  · rw [(Path.sortOn_perm _ _).nodup_iff]
    exact hselected.imp fun hne heq => hne (congrArg Path.components heq)
  · intro p
    simp only [(Path.sortOn_perm _ _).mem_iff, List.mem_filter, isSelected_append_languages,
      Bool.or_eq_true, and_or_left]

private theorem walk_congr {fs : FileSystem} {root : Path} {languages languages' : List Language}
    {patterns patterns' : List String} {paths : List Path}
    (hlanguages : ∀ l, l ≠ .unknown → (l ∈ languages' ↔ l ∈ languages))
    (hpatterns : ∀ pattern, pattern ∈ patterns' ↔ pattern ∈ patterns)
    (hwalk : fs.walk root languages patterns = .ok paths) :
    fs.walk root languages' patterns' = .ok paths := by
  have hall := allPatterns_of_walk_eq_ok hwalk
  have hall' : AllPatterns patterns' :=
    fun pattern hpattern => hall pattern ((hpatterns pattern).mp hpattern)
  rw [← hwalk, walk_eq hall, walk_eq hall', isSelected_congr hlanguages hpatterns]

/-! ### Catalogs -/

private theorem catalogPaths_filter {fs : FileSystem} {options : MixinOptions} {paths : List Path}
    (keep : Path → Bool)
    (hspelled : ∀ p ∈ paths, ∀ q ∈ paths, p.components = q.components → p = q) :
    fs.catalogPaths options (paths.filter keep) =
      (fs.catalogPaths options paths).filter fun entry => keep entry.path := by
  have hentries : (fs.catalogEach options (paths.filter keep)).filterMap (fun r => r.2.toOption) =
      ((fs.catalogEach options paths).filterMap fun r => r.2.toOption).filter
        fun entry => keep entry.path := by
    rw [catalogEach, catalogEach, List.filterMap_map, List.filterMap_map, List.filterMap_filter,
      List.filter_filterMap]
    refine List.filterMap_congr fun p _ => ?_
    cases hfile : (fs.catalogFile options p).toOption with
    | none => simp [hfile]
    | some entry =>
      -- an entry is kept by its path, which is that of its file
      obtain ⟨text, _, rfl⟩ := toOption_catalogFile_eq_some_iff.mp hfile
      simp [hfile, catalogSource, Option.filter_some]
  rw [catalogPaths, catalogPaths, sortedEntries, sortedEntries, hentries]
  exact Path.sortOn_filter _ (entry_eq_of_components_eq hspelled)

private theorem lookup_of_visibleFiles_eq_ok {fs : FileSystem} {root : Path} {files : List Path}
    (hroot : fs.isFile root = false) (hfiles : fs.visibleFiles root = .ok files) :
    fs.lookup root = .ok .directory := by
  unfold visibleFiles at hfiles
  unfold isFile lookup at hroot
  unfold lookup
  cases hplace : fs.resolve root with
  | error e => simp [hplace] at hfiles
  | ok place =>
    cases hentry : fs.get? place with
    | none => simp [hplace, hentry] at hfiles
    | some entry =>
      cases entry with
      | file bytes => simp [hplace, hentry] at hroot
      | directory => simp [hentry]

private theorem exists_files_of_catalogProject {fs : FileSystem} {root : Path}
    {options : CatalogOptions} {catalog : Catalog}
    (h : fs.catalogProject root options = .ok catalog) :
    ∃ paths, fs.projectFiles root options = .ok paths ∧
      catalog = catalogOf root (fs.catalogPaths options.mixins paths) := by
  unfold catalogProject at h
  cases hpaths : fs.projectFiles root options with
  | error e => simp [hpaths, Except.map] at h
  | ok paths => exact ⟨paths, rfl, by simpa [hpaths, Except.map, eq_comm] using h⟩

private theorem canBeWalked_of_catalogProject {fs : FileSystem} {root : Path}
    {options : CatalogOptions} {catalog : Catalog}
    (h : fs.catalogProject root options = .ok catalog) : CanBeWalked fs root options := by
  obtain ⟨paths, hpaths, _⟩ := exists_files_of_catalogProject h
  cases hroot : fs.isFile root with
  | true => exact .inl hroot
  | false =>
    simp only [projectFiles, hroot, Bool.false_eq_true, if_false] at hpaths
    have hpatterns := allPatterns_of_walk_eq_ok hpaths
    refine .inr ⟨hpatterns, ?_⟩
    rw [walk_eq hpatterns] at hpaths
    cases hfiles : fs.visibleFiles root with
    | error e => simp [hfiles, Except.mapError, Except.map] at hpaths
    | ok files => exact ⟨files, rfl⟩

private theorem files_of_more_patterns {fs : FileSystem} {root : Path} {options : CatalogOptions}
    {more patterns : List String} (hpatterns : ∀ pattern,
      pattern ∈ patterns ↔ pattern ∈ options.ignorePatterns ∨ pattern ∈ more)
    {catalog catalog' : Catalog} (h : fs.catalogProject root options = .ok catalog)
    (h' : fs.catalogProject root { options with ignorePatterns := patterns } = .ok catalog') :
    catalog'.files =
      if fs.isFile root then catalog.files
      else catalog.files.filter fun entry => !isIgnored more entry.path := by
  have hwalked := canBeWalked_of_catalogProject h'
  obtain ⟨paths, hpaths, rfl⟩ := exists_files_of_catalogProject h
  obtain ⟨paths', hpaths', rfl⟩ := exists_files_of_catalogProject h'
  cases hroot : fs.isFile root with
  | true =>
    simp only [projectFiles, hroot, if_true, Except.ok.injEq] at hpaths hpaths'
    simp only [← hpaths, ← hpaths', if_true]
  | false =>
    obtain hfile | ⟨hall, files, hfiles⟩ := hwalked
    · simp [hroot] at hfile
    have hdirectory := lookup_of_visibleFiles_eq_ok hroot hfiles
    have hbase : AllPatterns options.ignorePatterns :=
      fun pattern hp => hall pattern ((hpatterns pattern).mpr (.inl hp))
    have hmore : AllPatterns more :=
      fun pattern hp => hall pattern ((hpatterns pattern).mpr (.inr hp))
    obtain ⟨paths₀, hpaths₀, hdistinct, _⟩ := projectFiles_of_directory hdirectory hbase
    obtain rfl : paths₀ = paths := Except.ok.inj (hpaths₀.symm.trans hpaths)
    simp only [projectFiles, hroot, Bool.false_eq_true, if_false] at hpaths hpaths'
    have hfewer := walk_append_patterns hdirectory hmore hpaths
    have hsame := walk_congr (fun _ _ => Iff.rfl)
      (fun pattern => (hpatterns pattern).trans List.mem_append.symm) hfewer
    obtain rfl := Except.ok.inj (hsame.symm.trans hpaths')
    apply catalogPaths_filter
    intro p hp q hq
    exact eq_of_components_eq hdistinct hp hq

/-- A walk of a directory with more patterns keeps the paths that none of them matches, in the order
in which they were. A walk with more languages gives the sorted union of the walks with each of
them. Order and repetitions in a list are not seen, and neither is an unknown language. So patterns
that are added on the command line, wherever they stand there, take entries out of the catalog and
do nothing else: they leave a catalog where there was one as long as they are patterns. -/
theorem settings_select_as_sets (fs : FileSystem) :
    (∀ (root : Path) (languages more : List Language) (patterns extra : List String),
      fs.lookup root = .ok .directory → AllPatterns patterns → AllPatterns extra →
      ∃ paths paths', fs.walk root languages patterns = .ok paths ∧
        fs.walk root more patterns = .ok paths' ∧
        fs.walk root languages (patterns ++ extra) =
          .ok (paths.filter fun p => !isIgnored extra p) ∧
        (∃ union, fs.walk root (languages ++ more) patterns = .ok union ∧
          union.Pairwise Path.Precedes ∧ union.Nodup ∧
          ∀ p, p ∈ union ↔ p ∈ paths ∨ p ∈ paths') ∧
        ∀ languages' patterns', (∀ l, l ≠ .unknown → (l ∈ languages' ↔ l ∈ languages)) →
          (∀ pattern, pattern ∈ patterns' ↔ pattern ∈ patterns) →
          fs.walk root languages' patterns' = .ok paths) ∧
    ∀ (flags : AnalyzeFlags) (config : Config) (extra ignore : List String),
      (∀ pattern, pattern ∈ ignore ↔ pattern ∈ flags.ignore.getD [] ∨ pattern ∈ extra) →
      (AllPatterns extra → ∀ catalog,
        fs.catalogProject flags.path (flags.options config) = .ok catalog →
        ∃ catalog', fs.catalogProject flags.path
          ({ flags with ignore := some ignore }.options config) = .ok catalog') ∧
      ∀ catalog', fs.catalogProject flags.path
          ({ flags with ignore := some ignore }.options config) = .ok catalog' →
        ∃ catalog, fs.catalogProject flags.path (flags.options config) = .ok catalog ∧
          catalog'.projectPath = catalog.projectPath ∧
          catalog'.filesAnalyzed = catalog'.files.length ∧
          catalog'.files.Sublist catalog.files ∧
          catalog'.files =
            if fs.isFile flags.path then catalog.files
            else catalog.files.filter fun entry => !isIgnored extra entry.path := by
  constructor
  · intro root languages more patterns extra hroot hpatterns hextra
    obtain ⟨files, _, hwalks⟩ := walk_of_directory hroot
    have hwalk := hwalks languages patterns hpatterns
    have hwalk' := hwalks more patterns hpatterns
    refine ⟨_, _, hwalk, hwalk', ?_, ?_, ?_⟩
    · exact walk_append_patterns hroot hextra hwalk
    · exact walk_append_languages hroot hwalk hwalk'
    · intro languages' patterns' hlanguages hsame
      exact walk_congr hlanguages hsame hwalk
  · intro flags config extra ignore hignore
    have hpatterns (pattern : String) : pattern ∈ config.ignorePatterns ++ ignore ↔
        pattern ∈ (flags.options config).ignorePatterns ∨ pattern ∈ extra := by
      simp only [AnalyzeFlags.options, List.mem_append, hignore, or_assoc]
    constructor
    · intro hextra catalog hcatalog
      apply exists_catalog_of_canBeWalked
      obtain hfile | ⟨hall, hfiles⟩ := canBeWalked_of_catalogProject hcatalog
      · exact .inl hfile
      · refine .inr ⟨?_, hfiles⟩
        intro pattern hp
        obtain hold | hnew := (hpatterns pattern).mp hp
        · exact hall pattern hold
        · exact hextra pattern hnew
    · intro catalog' hcatalog'
      have hbase : CanBeWalked fs flags.path (flags.options config) := by
        obtain hfile | ⟨hall, hfiles⟩ := canBeWalked_of_catalogProject hcatalog'
        · exact .inl hfile
        · exact .inr ⟨fun pattern hp => hall pattern ((hpatterns pattern).mpr (.inl hp)), hfiles⟩
      obtain ⟨catalog, hcatalog⟩ := exists_catalog_of_canBeWalked hbase
      have hfiles := files_of_more_patterns hpatterns hcatalog hcatalog'
      refine ⟨catalog, hcatalog, ?_, ?_, ?_, hfiles⟩
      · obtain ⟨_, _, rfl⟩ := exists_files_of_catalogProject hcatalog
        obtain ⟨_, _, rfl⟩ := exists_files_of_catalogProject hcatalog'
        rfl
      · obtain ⟨_, _, rfl⟩ := exists_files_of_catalogProject hcatalog'
        rfl
      · rw [hfiles]
        split
        · exact List.Sublist.refl _
        · exact List.filter_sublist

/-- In the sample, a pattern takes the file of declarations out, and nothing else changes. -/
theorem sampleProject_selection :
    sampleProject.lookup ⟨"src"⟩ = .ok .directory ∧ AllPatterns [] ∧ AllPatterns ["*.d.ts"] ∧
    (∃ typed scripts both, sampleProject.walk ⟨"src"⟩ [.typeScript] [] = .ok typed ∧
      sampleProject.walk ⟨"src"⟩ [.javaScript] [] = .ok scripts ∧
      sampleProject.walk ⟨"src"⟩ [.typeScript, .javaScript] [] = .ok both ∧
      both.Pairwise Path.Precedes ∧ (∀ p, p ∈ both ↔ p ∈ typed ∨ p ∈ scripts) ∧
      ⟨"src/a.d.ts"⟩ ∈ both ∧ ⟨"src/a.js"⟩ ∈ both ∧
      sampleProject.walk ⟨"src"⟩ [.typeScript, .unknown, .typeScript] [] = .ok typed ∧
      sampleProject.walk ⟨"src"⟩ [.typeScript] ["*.d.ts"] =
        .ok (typed.filter fun p => !isIgnored ["*.d.ts"] p) ∧
      isIgnored ["*.d.ts"] ⟨"src/a.d.ts"⟩ = true) ∧
    ∃ catalog catalog', sampleProject.catalogProject ⟨"src"⟩ {} = .ok catalog ∧
      sampleProject.catalogProject ⟨"src"⟩ { ignorePatterns := ["*.d.ts"] } = .ok catalog' ∧
      catalog'.files.Sublist catalog.files ∧
      catalog'.files = catalog.files.filter fun entry => !isIgnored ["*.d.ts"] entry.path := by
  have hroot : sampleProject.lookup ⟨"src"⟩ = .ok .directory := rfl
  have hnone : AllPatterns [] := by simp [AllPatterns]
  have hpattern : Glob.parse "*.d.ts" = .ok ⟨.anyText :: ".d.ts".toList.map .char⟩ := by cbv
  have hpatterns : AllPatterns ["*.d.ts"] := List.forall_mem_singleton.mpr ⟨_, hpattern⟩
  obtain ⟨hwalks, hflags⟩ := settings_select_as_sets sampleProject
  refine ⟨hroot, hnone, hpatterns, ?_, ?_⟩
  · obtain ⟨typed, scripts, htyped, hscripts, hfewer, ⟨both, hboth, hsorted, -, hunion⟩, hsame⟩ :=
      hwalks ⟨"src"⟩ [.typeScript] [.javaScript] [] ["*.d.ts"] hroot hnone hpatterns
    obtain rfl : _ = typed := Except.ok.inj htyped
    obtain rfl : _ = scripts := Except.ok.inj hscripts
    refine ⟨_, _, both, htyped, hscripts, hboth, hsorted, hunion, ?_, ?_, ?_, hfewer, ?_⟩
    · refine (hunion _).mpr (.inl ((Path.sortOn_perm _ _).mem_iff.mpr ?_))
      decide
    · refine (hunion _).mpr (.inr ((Path.sortOn_perm _ _).mem_iff.mpr ?_))
      decide
    · refine hsame _ _ ?_ fun _ => .rfl
      intro l hknown
      simp [hknown]
    · rw [isIgnored_eq_true_iff]
      exact ⟨_, List.mem_singleton_self _, _, hpattern, by decide⟩
  · obtain ⟨hleft, honly⟩ := hflags { path := ⟨"src"⟩ } {} ["*.d.ts"] ["*.d.ts"] (by simp)
    obtain ⟨catalog, hcatalog⟩ := exists_catalog_of_canBeWalked
      (.inr ⟨hnone, _, rfl⟩ : CanBeWalked sampleProject ⟨"src"⟩ {})
    obtain ⟨catalog', hcatalog'⟩ := hleft hpatterns catalog hcatalog
    obtain ⟨before, hbefore, -, -, hsub, hfiles⟩ := honly catalog' hcatalog'
    exact ⟨before, catalog', hbefore, hcatalog', hsub, hfiles⟩

end FileSystem

end MixinCatalog
