import MixinCatalog.Command.Analyze
import MixinCatalog.Proofs.ProjectCatalog

/-!
# How an analysis ends

An analysis fails for the first of four reasons that applies: no language is selected, an ignore
pattern is none, the root cannot be walked, or the output file cannot be opened. Opening the output
file is the first step that changes anything and nothing fails behind it. So a failed analysis
leaves the file system as it was, and a report shows the files as they were before, also if the
report takes the place of one of them.
-/

namespace MixinCatalog

namespace FileSystem

/-! ### Written files -/

private theorem insert_insert (fs : FileSystem) (place : Place) (a b : Entry) :
    (fs.insert place a).insert place b = fs.insert place b := by
  simp [insert, List.filter_filter]

theorem append_insert (fs : FileSystem) {place : Place} (h : place ≠ []) (a b : ByteArray) :
    (fs.insert place (.file a)).append place b = fs.insert place (.file (a ++ b)) := by
  rw [append, get?_insert_self fs _ h]
  exact fs.insert_insert place _ _

theorem resolve_of_target {fs : FileSystem} {p : Path} {place : Place}
    (h : fs.target p = .ok place) :
    fs.resolve p = .ok place ∧ fs.get? place ≠ some .directory := by
  unfold target at h
  by_cases hempty : p.text.isEmpty
  · simp [hempty] at h
  · have hsegments : (p.segments.reverse.dropWhile List.isEmpty).reverse <+: p.segments := by
      simpa using (List.dropWhile_suffix (p := List.isEmpty) (l := p.segments.reverse)).reverse
    simp only [hempty, Bool.false_eq_true, if_false] at h
    split at h
    next => simp at h
    next place' hfold =>
      have hwhole : place' = place ∧ fs.get? place' ≠ some .directory ∧
          ¬(p.segments.reverse.dropWhile List.isEmpty).reverse.length < p.segments.length := by
        split at h
        next => simp at h
        next hfile =>
          split at h
          next => simp at h
          next hslash => exact ⟨Except.ok.inj h, by simp [hfile], hslash⟩
        next hnone =>
          split at h
          next => simp at h
          next hslash => exact ⟨Except.ok.inj h, by simp [hnone], hslash⟩
      obtain ⟨rfl, hplace, hslash⟩ := hwhole
      rw [hsegments.eq_of_length_le (by omega)] at hfold
      exact ⟨by simp [resolve, hempty, hfold], hplace⟩

theorem ne_nil_of_target {fs : FileSystem} {p : Path} {place : Place}
    (h : fs.target p = .ok place) : place ≠ [] := by
  rintro rfl
  exact (resolve_of_target h).2 rfl

private theorem get?_of_step {fs : FileSystem} {dir next : Place} {segment : List Char}
    (h : fs.step dir segment = .ok next) : fs.get? dir = some .directory := by
  unfold step at h
  split at h
  next => simp at h
  next => simp at h
  next hdir => exact hdir

private theorem foldlM_step_insert {fs : FileSystem} {place dir : Place}
    {segments : List (List Char)} (bytes : ByteArray) (hplace : fs.get? place ≠ some .directory)
    (h : segments.foldlM fs.step dir = .ok place) :
    segments.foldlM (fs.insert place (.file bytes)).step dir = .ok place := by
  induction segments generalizing dir with
  | nil => exact h
  | cons segment segments ih =>
    rw [List.foldlM_cons] at h ⊢
    cases hstep : fs.step dir segment with
    | error e => simp [hstep, bind, Except.bind] at h
    | ok next =>
      have hne : dir ≠ place := by
        rintro rfl
        exact hplace (get?_of_step hstep)
      have hsame : (fs.insert place (.file bytes)).step dir segment = .ok next := by
        rw [← hstep, step, step, get?_insert_of_ne fs _ hne]
      rw [hsame]
      exact ih (by simpa [hstep, bind, Except.bind] using h)

private theorem fromUTF8?_toUTF8 (s : String) : String.fromUTF8? s.toUTF8 = some s := by
  rw [String.fromUTF8?, String.toUTF8_eq_toByteArray, dif_pos s.isValidUTF8]
  rfl

/-- What is put where a path opens a file is read at that path. -/
theorem read_insert_of_target {fs : FileSystem} {p : Path} {place : Place}
    (h : fs.target p = .ok place) (text : String) :
    (fs.insert place (.file text.toUTF8)).read p = .ok text := by
  obtain ⟨hresolve, hplace⟩ := resolve_of_target h
  have hsame : (fs.insert place (.file text.toUTF8)).resolve p = .ok place := by
    unfold resolve at hresolve ⊢
    split at hresolve
    next => simp at hresolve
    next hempty =>
      rw [if_neg hempty]
      exact foldlM_step_insert _ hplace hresolve
  simp only [read, lookup, hsame, get?_insert_self fs _ (ne_nil_of_target h), fromUTF8?_toUTF8]

theorem receives_openFile (fs : FileSystem) {place : Place} (h : place ≠ []) (full : Bool) :
    (openFile full place).Receives fun content written =>
      written = fs.insert place (.file content.toUTF8) where
  write := by
    rintro content t _ written rfl hwrite
    cases full with
    | true => simp [openFile] at hwrite
    | false =>
      obtain rfl := Except.ok.inj hwrite
      simp only [append_insert fs h, String.toUTF8_eq_toByteArray, String.toByteArray_append]
  flush := by
    rintro content _ written rfl hflush
    exact (Except.ok.inj hflush).symm

private theorem exists_take_openFile (place : Place) (step : Report.Step) (fs : FileSystem) :
    ∃ written, (openFile false place).take step fs = .ok written := by
  cases step with
  | write t => exact ⟨_, rfl⟩
  | flush => exact ⟨fs, rfl⟩

private theorem deliver_of_create_error {fs : FileSystem} {path : Path} {cause : IoError}
    (h : fs.create path = .error cause) (full : Place → Bool) (report : List Report.Step) :
    fs.deliver full (some path) report = ⟨.error (.output path cause), fs⟩ := by
  simp only [deliver, h]

/-- Steps that are written to a file with room for them leave their text in it. -/
theorem deliver_of_target {fs : FileSystem} {path : Path} {place : Place}
    (h : fs.target path = .ok place) (report : List Report.Step) :
    fs.deliver (fun _ => false) (some path) report =
      ⟨.ok "", fs.insert place (.file (Report.text report).toUTF8)⟩ := by
  have hreceives := receives_openFile fs (ne_nil_of_target h) false
  obtain ⟨written, hrun⟩ := Report.Sink.exists_run_eq_ok
    (Report.Sink.exists_take_buffered_eq_ok (exists_take_openFile place) bufferSize) report
    ⟨fs.insert place (.file .empty), ""⟩
  have hopened : fs.insert place (.file .empty) = fs.insert place (.file "".toUTF8) := rfl
  obtain ⟨content, hcontent, htext⟩ := hreceives.run_buffered hopened hrun
  have hclosed := hreceives.close (fun t => exists_take_openFile place (.write t)) hcontent
  rw [htext, String.empty_append, String.empty_append] at hclosed
  simp only [deliver, create, h, hrun, hclosed]

/-! ### Reasons to fail -/

/-- The ignore patterns of the settings are patterns. -/
def PatternsCompile (options : CatalogOptions) : Prop :=
  ∀ pattern ∈ options.ignorePatterns, ∃ g, Glob.parse pattern = .ok g

/-- The files of a root can be found: it is a file itself, or the patterns are patterns and the walk
gets through. -/
def CanBeWalked (fs : FileSystem) (root : Path) (options : CatalogOptions) : Prop :=
  fs.isFile root = true ∨ PatternsCompile options ∧ ∃ files, fs.visibleFiles root = .ok files

/-- Something stands in the way of an analysis: no language is selected, or the path is no file and
a pattern is none or the walk fails, or the output file cannot be opened. -/
def Obstructed (fs : FileSystem) (flags : AnalyzeFlags) (options : CatalogOptions) : Prop :=
  options.languages = [] ∨
  (fs.isFile flags.path = false ∧
    ((∃ pattern ∈ options.ignorePatterns, ∃ cause, Glob.parse pattern = .error cause) ∨
      ∃ cause, fs.visibleFiles flags.path = .error cause)) ∨
  ∃ path cause, flags.output = some path ∧ fs.create path = .error cause

/-- The failure that is reported: the first that applies, in the order of the constructors. -/
inductive Reported (fs : FileSystem) (flags : AnalyzeFlags) (options : CatalogOptions) :
    Failure → Prop
  | noLanguages (h : options.languages = []) : Reported fs flags options .noLanguages
  | pattern {good rest : List String} {bad : String} {cause : Glob.Error}
      (hlanguages : options.languages ≠ []) (hfile : fs.isFile flags.path = false)
      (hpatterns : options.ignorePatterns = good ++ bad :: rest)
      (hgood : ∀ pattern ∈ good, ∃ g, Glob.parse pattern = .ok g)
      (hbad : Glob.parse bad = .error cause) :
      Reported fs flags options (.analysis flags.path (.pattern cause))
  | walk {cause : IoError} (hlanguages : options.languages ≠ [])
      (hfile : fs.isFile flags.path = false) (hpatterns : PatternsCompile options)
      (hwalk : fs.visibleFiles flags.path = .error cause) :
      Reported fs flags options (.analysis flags.path (.walk flags.path cause))
  | output {path : Path} {cause : IoError} (hlanguages : options.languages ≠ [])
      (hwalked : CanBeWalked fs flags.path options) (houtput : flags.output = some path)
      (hcreate : fs.create path = .error cause) :
      Reported fs flags options (.output path cause)

theorem mapM_parse_of_bad {good : List String} {bad : String} {cause : Glob.Error}
    (hgood : ∀ pattern ∈ good, ∃ g, Glob.parse pattern = .ok g)
    (hbad : Glob.parse bad = .error cause) (rest : List String) :
    (good ++ bad :: rest).mapM Glob.parse = .error cause := by
  induction good with
  | nil =>
    rw [List.nil_append, List.mapM_cons, hbad]
    rfl
  | cons pattern good ih =>
    obtain ⟨⟨g, hg⟩, hgood⟩ := List.forall_mem_cons.mp hgood
    rw [List.cons_append, List.mapM_cons, hg, ih hgood]
    rfl

theorem exists_first_bad {patterns : List String}
    (h : ¬∀ pattern ∈ patterns, ∃ g, Glob.parse pattern = .ok g) :
    ∃ good bad rest cause, patterns = good ++ bad :: rest ∧
      (∀ pattern ∈ good, ∃ g, Glob.parse pattern = .ok g) ∧ Glob.parse bad = .error cause := by
  induction patterns with
  | nil => exact absurd (by simp) h
  | cons pattern patterns ih =>
    cases hp : Glob.parse pattern with
    | error cause => exact ⟨[], pattern, patterns, cause, rfl, by simp, hp⟩
    | ok g =>
      have hrest : ¬∀ p ∈ patterns, ∃ g, Glob.parse p = .ok g := by
        intro hall
        exact h (List.forall_mem_cons.mpr ⟨⟨g, hp⟩, hall⟩)
      obtain ⟨good, bad, rest, cause, hsplit, hgood, hbad⟩ := ih hrest
      exact ⟨pattern :: good, bad, rest, cause, by rw [hsplit, List.cons_append],
        List.forall_mem_cons.mpr ⟨⟨g, hp⟩, hgood⟩, hbad⟩

theorem exists_catalog_of_canBeWalked {fs : FileSystem} {root : Path} {options : CatalogOptions}
    (h : CanBeWalked fs root options) :
    ∃ catalog, fs.catalogProject root options = .ok catalog := by
  unfold catalogProject projectFiles
  rcases h with hfile | ⟨hpatterns, files, hfiles⟩
  · exact ⟨_, by rw [if_pos hfile]; rfl⟩
  · split
    next => exact ⟨_, rfl⟩
    next =>
      obtain ⟨globs, hglobs, _⟩ := exists_mapM_parse_eq_ok hpatterns
      exact ⟨_, by simp only [walk, hglobs, hfiles]; rfl⟩

private theorem exists_reported_or (fs : FileSystem) (flags : AnalyzeFlags)
    (options : CatalogOptions) :
    (∃ f, Reported fs flags options f) ∨
      options.languages ≠ [] ∧ CanBeWalked fs flags.path options ∧
        ∀ path, flags.output = some path → ∃ place, fs.target path = .ok place := by
  by_cases hlanguages : options.languages = []
  · exact .inl ⟨_, .noLanguages hlanguages⟩
  by_cases hwalked : CanBeWalked fs flags.path options
  · by_cases houtput : ∀ path, flags.output = some path → ∃ place, fs.target path = .ok place
    · exact .inr ⟨hlanguages, hwalked, houtput⟩
    · simp only [not_forall] at houtput
      obtain ⟨path, hpath, hnone⟩ := houtput
      cases htarget : fs.target path with
      | ok place => exact absurd ⟨place, htarget⟩ hnone
      | error cause =>
        have hcreate : fs.create path = .error cause := by simp only [create, htarget]
        exact .inl ⟨_, .output hlanguages hwalked hpath hcreate⟩
  · simp only [CanBeWalked, not_or, Bool.not_eq_true, not_and] at hwalked
    obtain ⟨hfile, hwalked⟩ := hwalked
    by_cases hpatterns : PatternsCompile options
    · cases hfiles : fs.visibleFiles flags.path with
      | ok files => exact absurd ⟨files, hfiles⟩ (hwalked hpatterns)
      | error cause => exact .inl ⟨_, .walk hlanguages hfile hpatterns hfiles⟩
    · obtain ⟨good, bad, rest, cause, hsplit, hgood, hbad⟩ := exists_first_bad hpatterns
      exact .inl ⟨_, .pattern hlanguages hfile hsplit hgood hbad⟩

private theorem Reported.obstructed {fs : FileSystem} {flags : AnalyzeFlags}
    {options : CatalogOptions} {f : Failure} (h : Reported fs flags options f) :
    Obstructed fs flags options := by
  cases h with
  | noLanguages h => exact .inl h
  | @pattern good rest bad cause _ hfile hpatterns _ hbad =>
    exact .inr (.inl ⟨hfile, .inl ⟨bad, by simp [hpatterns], cause, hbad⟩⟩)
  | walk _ hfile _ hwalk => exact .inr (.inl ⟨hfile, .inr ⟨_, hwalk⟩⟩)
  | output _ _ houtput hcreate => exact .inr (.inr ⟨_, _, houtput, hcreate⟩)

theorem Obstructed.exists_reported {fs : FileSystem} {flags : AnalyzeFlags}
    {options : CatalogOptions} (h : Obstructed fs flags options) :
    ∃ f, Reported fs flags options f := by
  rcases exists_reported_or fs flags options with hreported | ⟨hlanguages, hwalked, houtput⟩
  · exact hreported
  rcases h with hnone | ⟨hfile, hfails⟩ | ⟨path, cause, hpath, hcreate⟩
  · exact absurd hnone hlanguages
  · rcases hwalked with hisFile | ⟨hpatterns, files, hfiles⟩
    · simp [hfile] at hisFile
    rcases hfails with ⟨pattern, hmem, cause, hbad⟩ | ⟨cause, hwalk⟩
    · obtain ⟨g, hg⟩ := hpatterns pattern hmem
      simp [hg] at hbad
    · simp [hfiles] at hwalk
  · obtain ⟨place, htarget⟩ := houtput path hpath
    simp [create, htarget] at hcreate

/-! ### Ends -/

theorem analyzeLogged_fst (fs : FileSystem) (full : Place → Bool) (color : Bool)
    (flags : AnalyzeFlags) (config : Config) (h : (flags.options config).languages ≠ []) :
    (fs.analyzeLogged full color flags config).1 =
      match fs.catalogProject flags.path (flags.options config) with
      | .error cause => ⟨.error (.analysis flags.path cause), fs⟩
      | .ok catalog => fs.deliver full flags.output (Report.steps flags.format color catalog) := by
  rw [analyzeLogged, ← map_catalogProjectLogged]
  simp only [List.isEmpty_iff, h, if_false]
  cases fs.catalogProjectLogged flags.path (flags.options config) <;> rfl

theorem analyze_eq (fs : FileSystem) (color : Bool) (flags : AnalyzeFlags) (config : Config)
    (h : (flags.options config).languages ≠ []) :
    fs.analyze color flags config =
      match fs.catalogProject flags.path (flags.options config) with
      | .error cause => ⟨.error (.analysis flags.path cause), fs⟩
      | .ok catalog =>
        fs.deliver (fun _ => false) flags.output (Report.steps flags.format color catalog) :=
  fs.analyzeLogged_fst _ color flags config h

private theorem analyze_of_reported {fs : FileSystem} {flags : AnalyzeFlags} {config : Config}
    {f : Failure} (h : Reported fs flags (flags.options config) f) (color : Bool) :
    fs.analyze color flags config = ⟨.error f, fs⟩ := by
  cases h with
  | noLanguages h => simp [analyze, analyzeLogged, h]
  | @pattern good rest bad cause hlanguages hfile hpatterns hgood hbad =>
    have hmapM := mapM_parse_of_bad hgood hbad rest
    rw [← hpatterns] at hmapM
    simp [analyze_eq fs color flags config hlanguages, catalogProject, projectFiles, hfile, walk,
      hmapM, Except.map]
  | walk hlanguages hfile hpatterns hwalk =>
    obtain ⟨globs, hglobs, _⟩ := exists_mapM_parse_eq_ok hpatterns
    simp [analyze_eq fs color flags config hlanguages, catalogProject, projectFiles, hfile, walk,
      hglobs, hwalk, Except.map]
  | output hlanguages hwalked houtput hcreate =>
    obtain ⟨catalog, hcatalog⟩ := exists_catalog_of_canBeWalked hwalked
    simp only [analyze_eq fs color flags config hlanguages, hcatalog, houtput,
      deliver_of_create_error hcreate]

/-- File systems that differ at most in what stands at a place. -/
def SameExcept (place : Place) (before after : FileSystem) : Prop :=
  after.current = before.current ∧ ∀ other, other ≠ place → after.get? other = before.get? other

theorem sameExcept_insert (fs : FileSystem) (place : Place) (entry : Entry) :
    SameExcept place fs (fs.insert place entry) := by
  refine ⟨rfl, ?_⟩
  intro other hother
  exact get?_insert_of_ne fs entry hother

private theorem analyze_of_not_reported {fs : FileSystem} {flags : AnalyzeFlags} {config : Config}
    (h : ∀ f, ¬Reported fs flags (flags.options config) f) (color : Bool) :
    (∀ path, flags.output = some path → ∃ place, fs.target path = .ok place) ∧
    ∃ catalog, fs.catalogProject flags.path (flags.options config) = .ok catalog ∧
      fs.analyze color flags config =
        fs.deliver (fun _ => false) flags.output
          (Report.steps flags.format color catalog) := by
  rcases exists_reported_or fs flags (flags.options config) with
    ⟨f, hf⟩ | ⟨hlanguages, hwalked, houtput⟩
  · exact absurd hf (h f)
  obtain ⟨catalog, hcatalog⟩ := exists_catalog_of_canBeWalked hwalked
  refine ⟨houtput, catalog, hcatalog, ?_⟩
  rw [analyze_eq fs color flags config hlanguages, hcatalog]

theorem result_eq_error_iff (fs : FileSystem) (color : Bool) (flags : AnalyzeFlags)
    (config : Config) (f : Failure) :
    (fs.analyze color flags config).result = .error f ↔
      Reported fs flags (flags.options config) f := by
  constructor
  · intro h
    by_cases hreported : ∃ f', Reported fs flags (flags.options config) f'
    · obtain ⟨f', hf'⟩ := hreported
      rw [analyze_of_reported hf' color] at h
      obtain rfl : f' = f := Except.error.inj h
      exact hf'
    · obtain ⟨houtput, catalog, _, hanalyze⟩ :=
        analyze_of_not_reported (not_exists.mp hreported) color
      rw [hanalyze] at h
      cases hpath : flags.output with
      | none => simp [hpath, deliver] at h
      | some path =>
        obtain ⟨place, htarget⟩ := houtput path hpath
        simp [hpath, deliver_of_target htarget] at h
  · intro h
    rw [analyze_of_reported h color]

/-- An analysis fails if and only if something stands in its way. It reports the first thing that
does and leaves the file system as it was. Otherwise it shows the catalog of the file system as it
was before: it prints the report and changes nothing, or it leaves the report in the output file
and everything else as it was. -/
theorem analyze_ends (fs : FileSystem) (color : Bool) (flags : AnalyzeFlags) (config : Config) :
    ((∃ f, (fs.analyze color flags config).result = .error f) ↔
      Obstructed fs flags (flags.options config)) ∧
    (∀ f, (fs.analyze color flags config).result = .error f ↔
      Reported fs flags (flags.options config) f) ∧
    (∀ f, (fs.analyze color flags config).result = .error f →
      (fs.analyze color flags config).fileSystem = fs) ∧
    ∀ printed, (fs.analyze color flags config).result = .ok printed →
      ∃ catalog, fs.catalogProject flags.path (flags.options config) = .ok catalog ∧
        (flags.output = none → printed = Report.render flags.format color catalog ∧
          (fs.analyze color flags config).fileSystem = fs) ∧
        ∀ path, flags.output = some path → printed = "" ∧ ∃ place, fs.target path = .ok place ∧
          SameExcept place fs (fs.analyze color flags config).fileSystem ∧
          (fs.analyze color flags config).fileSystem.get? place =
            some (.file (Report.render flags.format color catalog).toUTF8) ∧
          (fs.analyze color flags config).fileSystem.read path =
            .ok (Report.render flags.format color catalog) := by
  have hfails := fs.result_eq_error_iff color flags config
  refine ⟨?_, hfails, ?_, ?_⟩
  · simp only [hfails]
    exact ⟨fun ⟨f, hf⟩ => hf.obstructed, Obstructed.exists_reported⟩
  · intro f h
    rw [analyze_of_reported ((hfails f).mp h) color]
  · intro printed h
    have hnone : ∀ f, ¬Reported fs flags (flags.options config) f := by
      intro f hf
      simp [(hfails f).mpr hf] at h
    obtain ⟨houtput, catalog, hcatalog, hanalyze⟩ := analyze_of_not_reported hnone color
    rw [hanalyze] at h ⊢
    refine ⟨catalog, hcatalog, ?_, ?_⟩
    · intro hpath
      rw [hpath] at h ⊢
      exact ⟨(Except.ok.inj h).symm, rfl⟩
    · intro path hpath
      obtain ⟨place, htarget⟩ := houtput path hpath
      rw [hpath, deliver_of_target htarget] at h ⊢
      refine ⟨(Except.ok.inj h).symm, place, htarget, sameExcept_insert fs place _, ?_, ?_⟩
      · exact get?_insert_self fs _ (ne_nil_of_target htarget)
      · exact read_insert_of_target htarget _

/-- Catalogue the directory of the sample and write the report to a file. -/
def sampleFlags (output : Path) : AnalyzeFlags where
  path := ⟨"src"⟩
  output := some output

/-- A report that replaces a catalogued file shows what was in it; one that cannot be written leaves
everything as it was. -/
theorem sampleProject_analyze :
    (∃ catalog, sampleProject.catalogProject ⟨"src"⟩ {} = .ok catalog ∧
      (sampleProject.analyze false (sampleFlags ⟨"src/a.js"⟩) {}).fileSystem.read ⟨"src/a.js"⟩ =
        .ok (Report.render .terminal false catalog)) ∧
    (sampleProject.analyze false (sampleFlags ⟨"src"⟩) {}).result =
      .error (.output ⟨"src"⟩ .isDirectory) ∧
    (sampleProject.analyze false (sampleFlags ⟨"src"⟩) {}).fileSystem = sampleProject := by
  constructor
  · obtain ⟨hfails, _, _, hreport⟩ :=
      analyze_ends sampleProject false (sampleFlags ⟨"src/a.js"⟩) {}
    have hfree : ¬Obstructed sampleProject (sampleFlags ⟨"src/a.js"⟩)
        ((sampleFlags ⟨"src/a.js"⟩).options {}) := by
      rintro (hnone | ⟨_, ⟨_, hmem, _⟩ | ⟨_, hwalk⟩⟩ | ⟨_, _, houtput, hcreate⟩)
      · exact absurd hnone (by decide)
      · exact absurd hmem (by simp [sampleFlags, AnalyzeFlags.options, Config.ignorePatterns])
      · exact absurd hwalk (by rintro ⟨⟩)
      · obtain rfl := Option.some.inj houtput
        exact absurd hcreate (by rintro ⟨⟩)
    cases hresult : (sampleProject.analyze false (sampleFlags ⟨"src/a.js"⟩) {}).result with
    | error f => exact absurd (hfails.mp ⟨f, hresult⟩) hfree
    | ok printed =>
      obtain ⟨catalog, hcatalog, _, hwritten⟩ := hreport printed hresult
      obtain ⟨_, _, _, _, _, hread⟩ := hwritten ⟨"src/a.js"⟩ rfl
      exact ⟨catalog, hcatalog, hread⟩
  · obtain ⟨_, hreported, hkept, _⟩ := analyze_ends sampleProject false (sampleFlags ⟨"src"⟩) {}
    have hwalked : CanBeWalked sampleProject ⟨"src"⟩ {} :=
      .inr ⟨by simp [PatternsCompile], _, rfl⟩
    have hfailed : (sampleProject.analyze false (sampleFlags ⟨"src"⟩) {}).result =
        .error (.output ⟨"src"⟩ .isDirectory) :=
      (hreported _).mpr (.output (by decide) hwalked rfl rfl)
    exact ⟨hfailed, hkept _ hfailed⟩

end FileSystem

end MixinCatalog
