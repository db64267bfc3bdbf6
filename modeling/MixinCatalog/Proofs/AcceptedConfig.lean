import MixinCatalog.Proofs.AnalysisOutcome

/-!
# Accepted configurations

A configuration that was accepted names known languages alone and has patterns alone to ignore. Its
check, the reading of its settings, the merging with the command line and the walk each look at the
names or the patterns anew, and they all come to the same answer. So an accepted configuration
takes nothing away that an analysis needs: one that fails with it fails in the same way without it.
-/

namespace MixinCatalog

namespace Config

/-! ### The check -/

/-- The names of a configuration are those of languages, and its patterns are patterns. -/
structure IsValid (c : Config) : Prop where
  names : ∀ name ∈ c.languages.getD [], Language.ofName name ≠ .unknown
  patterns : ∀ pattern ∈ c.ignorePatterns, ∃ g, Glob.parse pattern = .ok g

theorem isKnown_iff {name : String} : isKnown name = true ↔ Language.ofName name ≠ .unknown := by
  simp [isKnown]

theorem badPattern?_eq_none_iff {c : Config} :
    c.badPattern? = none ↔ ∀ pattern ∈ c.ignorePatterns, ∃ g, Glob.parse pattern = .ok g := by
  unfold badPattern?
  rw [List.findSome?_eq_none_iff]
  apply forall₂_congr
  intro pattern _
  cases Glob.parse pattern <;> simp

theorem validate_eq_ok_iff {c c' : Config} :
    c.validate = .ok c' ↔
      (∀ pattern ∈ c.ignorePatterns, ∃ g, Glob.parse pattern = .ok g) ∧ c' = c.keepKnown := by
  rw [← badPattern?_eq_none_iff]
  unfold validate
  cases c.badPattern? with
  | none => simp [eq_comm]
  | some e => simp

/-- A text is accepted if it can be decoded and its patterns are patterns. What is accepted is what
was decoded, without the names of unknown languages. -/
theorem parse_eq_ok_iff {text : String} {c : Config} :
    parse text = .ok c ↔ ∃ decoded, ofToml? text = some decoded ∧
      (∀ pattern ∈ decoded.ignorePatterns, ∃ g, Glob.parse pattern = .ok g) ∧
      c = { decoded with
        languages := decoded.languages.map (·.filter (Language.ofName · ≠ .unknown)) } := by
  have hkeep (decoded : Config) : decoded.keepKnown = { decoded with
      languages := decoded.languages.map (·.filter (Language.ofName · ≠ .unknown)) } := by
    have hknown : isKnown = fun name => decide (Language.ofName name ≠ .unknown) := by
      funext name
      cases hname : Language.ofName name <;> simp [isKnown, hname]
    rw [keepKnown, hknown]
  unfold parse ofToml?
  cases fromToml text with
  | error detail => simp [Except.toOption]
  | ok decoded => simp [Except.toOption, validate_eq_ok_iff, hkeep]

private theorem isValid_of_parse {text : String} {c : Config} (h : parse text = .ok c) :
    c.IsValid := by
  obtain ⟨decoded, _, hpatterns, rfl⟩ := parse_eq_ok_iff.mp h
  refine ⟨?_, hpatterns⟩
  intro name hname
  cases hlanguages : decoded.languages with
  | none => simp [hlanguages] at hname
  | some names =>
    simp only [hlanguages, Option.map_some, Option.getD_some, List.mem_filter,
      decide_eq_true_eq] at hname
    exact hname.2

private theorem isValid_default : IsValid {} := ⟨by simp, by simp [ignorePatterns]⟩

namespace IsValid

variable {c : Config}

theorem validate_eq (h : c.IsValid) : c.validate = .ok c := by
  refine validate_eq_ok_iff.mpr ⟨h.patterns, ?_⟩
  obtain ⟨mixins, languages, ignore⟩ := c
  cases languages with
  | none => rfl
  | some names =>
    have hfilter : names.filter isKnown = names := by
      apply List.filter_eq_self.mpr
      intro name hname
      exact isKnown_iff.mpr (h.names name hname)
    simp [keepKnown, hfilter]

theorem unknownNames_eq (h : c.IsValid) : c.unknownNames = [] := by
  apply List.filter_eq_nil_iff.mpr
  intro name hname
  simp [isKnown_iff.mpr (h.names name hname)]

end IsValid

/-! ### The settings of a run -/

theorem knownLanguages_eq_nil_iff {names : List String} :
    knownLanguages names = [] ↔ ∀ name ∈ names, Language.ofName name = .unknown := by
  simp [knownLanguages]

private theorem unknown_notMem_knownLanguages (names : List String) :
    .unknown ∉ knownLanguages names := by
  simp [knownLanguages]

private theorem unknown_notMem_enabledLanguages (c : Config) : .unknown ∉ c.enabledLanguages := by
  unfold enabledLanguages
  split
  · exact unknown_notMem_knownLanguages _
  · decide

private theorem IsValid.enabledLanguages_ne_nil {c : Config} (h : c.IsValid) :
    c.enabledLanguages ≠ [] := by
  have hnames := h.names
  unfold enabledLanguages
  split
  next name names hlanguages =>
    intro hnil
    have hunknown := knownLanguages_eq_nil_iff.mp hnil name List.mem_cons_self
    exact hnames name (by simp [hlanguages]) hunknown
  next => simp

end Config

open FileSystem

theorem AnalyzeFlags.languages_eq_nil_iff {flags : AnalyzeFlags} {c : Config} (h : c.IsValid) :
    (flags.options c).languages = [] ↔
      ∃ names, flags.languages = some names ∧ ∀ name ∈ names, Language.ofName name = .unknown := by
  unfold options
  cases flags.languages with
  | none => simp [h.enabledLanguages_ne_nil]
  | some names => simp [Config.knownLanguages_eq_nil_iff]

private theorem AnalyzeFlags.patternsCompile {flags : AnalyzeFlags} {c : Config} (h : c.IsValid)
    (hflags : flags.ignore = none) : PatternsCompile (flags.options c) := by
  have hpatterns : (flags.options c).ignorePatterns = c.ignorePatterns := by
    simp [options, hflags]
  intro pattern hpattern
  rw [hpatterns] at hpattern
  exact h.patterns pattern hpattern

namespace FileSystem

private theorem walk_ne_pattern {fs : FileSystem} {patterns : List String}
    (h : ∀ pattern ∈ patterns, ∃ g, Glob.parse pattern = .ok g) (root : Path)
    (languages : List Language) (cause : Glob.Error) :
    fs.walk root languages patterns ≠ .error (.pattern cause) := by
  obtain ⟨globs, hglobs, _⟩ := exists_mapM_parse_eq_ok h
  unfold walk
  rw [hglobs]
  cases fs.visibleFiles root <;> simp

private theorem Reported.of_selecting {fs : FileSystem} {flags : AnalyzeFlags}
    {options options' : CatalogOptions} {f : Failure} (h : Reported fs flags options f)
    (hlanguages : options.languages ≠ []) (hpatterns : PatternsCompile options)
    (hlanguages' : options'.languages ≠ []) (hpatterns' : PatternsCompile options') :
    Reported fs flags options' f := by
  cases h with
  | noLanguages hnone => exact absurd hnone hlanguages
  | @pattern good rest bad cause _ _ hsplit _ hbad =>
    obtain ⟨g, hg⟩ := hpatterns bad (by simp [hsplit])
    simp [hg] at hbad
  | walk _ hfile _ hwalk => exact .walk hlanguages' hfile hpatterns' hwalk
  | output _ hwalked houtput hcreate =>
    have hwalked' : CanBeWalked fs flags.path options' := by
      rcases hwalked with hfile | ⟨_, hfiles⟩
      · exact .inl hfile
      · exact .inr ⟨hpatterns', hfiles⟩
    exact .output hlanguages' hwalked' houtput hcreate

end FileSystem

/-! ### Runs -/

private theorem FileSystem.Reported.eq_noLanguages {fs : FileSystem} {flags : AnalyzeFlags}
    {options : CatalogOptions} {f : Failure} (h : Reported fs flags options f)
    (htext : "No supported languages selected".toList <+: f.message.toList) : f = .noLanguages := by
  -- the texts of the other failures begin with another letter
  have hletter : f.message.toList.head? = some 'N' := by
    obtain ⟨rest, hrest⟩ := htext
    rw [← hrest]
    rfl
  cases h with
  | noLanguages => rfl
  | pattern | walk =>
    change ("Failed to analyze " ++ _ ++ ": " ++ _).toList.head? = some 'N' at hletter
    simp at hletter
  | output =>
    change ("Failed to create output file: " ++ _ ++ ": " ++ _).toList.head? = some 'N' at hletter
    simp at hletter

theorem exists_noLanguages_iff (fs : FileSystem) (color : Bool) (flags : AnalyzeFlags)
    {c : Config} (h : c.IsValid) :
    (∃ f, (fs.analyze color flags c).result = .error f ∧
        "No supported languages selected".toList <+: f.message.toList) ↔
      ∃ names, flags.languages = some names ∧ ∀ name ∈ names, Language.ofName name = .unknown := by
  rw [← AnalyzeFlags.languages_eq_nil_iff h]
  constructor
  · rintro ⟨f, hf, htext⟩
    have hreported := (fs.result_eq_error_iff color flags c f).mp hf
    obtain rfl := hreported.eq_noLanguages htext
    cases hreported with
    | noLanguages hnone => exact hnone
  · intro hnone
    refine ⟨.noLanguages, (fs.result_eq_error_iff color flags c _).mpr (.noLanguages hnone), ?_⟩
    decide

private theorem result_eq_error_of_isValid {fs : FileSystem} {color : Bool} {flags : AnalyzeFlags}
    {c c' : Config} {f : Failure} (hlanguages : flags.languages = none)
    (hignore : flags.ignore = none) (h : c.IsValid) (h' : c'.IsValid)
    (hf : (fs.analyze color flags c).result = .error f) :
    (fs.analyze color flags c').result = .error f := by
  have hselects {d : Config} (hd : d.IsValid) : (flags.options d).languages ≠ [] := by
    intro hnil
    obtain ⟨names, hnames, _⟩ := (AnalyzeFlags.languages_eq_nil_iff hd).mp hnil
    simp [hlanguages] at hnames
  rw [fs.result_eq_error_iff color flags] at hf ⊢
  exact hf.of_selecting (hselects h) (AnalyzeFlags.patternsCompile h hignore) (hselects h')
    (AnalyzeFlags.patternsCompile h' hignore)

/-- What an accepted configuration brings into a run whose command line names no languages and no
patterns: languages to look for, none of them unknown, and patterns that no walk refuses. The run
fails as it would fail with the default configuration. -/
structure Config.IsHarmless (c : Config) (flags : AnalyzeFlags) : Prop where
  selects : (flags.options c).languages ≠ []
  known : .unknown ∉ (flags.options c).languages
  walks : ∀ (fs : FileSystem) (root : Path) (cause : Glob.Error),
    fs.walk root (flags.options c).languages (flags.options c).ignorePatterns ≠
      .error (.pattern cause)
  fails_iff : ∀ (fs : FileSystem) (color : Bool) (f : Failure),
    (fs.analyze color flags c).result = .error f ↔ (fs.analyze color flags {}).result = .error f

private theorem Config.IsValid.isHarmless {c : Config} (h : c.IsValid) {flags : AnalyzeFlags}
    (hlanguages : flags.languages = none) (hignore : flags.ignore = none) :
    c.IsHarmless flags where
  selects := by
    simpa [AnalyzeFlags.options, hlanguages] using h.enabledLanguages_ne_nil
  known := by
    simpa [AnalyzeFlags.options, hlanguages] using c.unknown_notMem_enabledLanguages
  walks := by
    intro fs root cause
    exact walk_ne_pattern (AnalyzeFlags.patternsCompile h hignore) root _ cause
  fails_iff := by
    intro fs color f
    exact ⟨result_eq_error_of_isValid hlanguages hignore h isValid_default,
      result_eq_error_of_isValid hlanguages hignore isValid_default h⟩

/-- An accepted configuration has the known names of what was decoded, in their order, and patterns
alone. A second check keeps all of it, and it makes no run fail. Whatever the command line says,
with an accepted configuration or the default one a run reports missing languages if and only if
the command line lists names of which none is known. -/
theorem accepted_config_makes_no_run_fail :
    (∀ (text : String) (c : Config), Config.parse text = .ok c →
      (∃ decoded, Config.ofToml? text = some decoded ∧ c.mixins = decoded.mixins ∧
        c.languages = decoded.languages.map (·.filter (Language.ofName · ≠ .unknown)) ∧
        c.ignore = decoded.ignore) ∧
      c.validate = .ok c ∧ c.unknownNames = [] ∧
      (∀ pattern ∈ c.ignorePatterns, ∃ g, Glob.parse pattern = .ok g) ∧
      ∀ flags : AnalyzeFlags, flags.languages = none → flags.ignore = none →
        c.IsHarmless flags) ∧
    ∀ c : Config, c = {} ∨ (∃ text, Config.parse text = .ok c) →
      ∀ (fs : FileSystem) (color : Bool) (flags : AnalyzeFlags),
        (∃ f, (fs.analyze color flags c).result = .error f ∧
            "No supported languages selected".toList <+: f.message.toList) ↔
          ∃ names, flags.languages = some names ∧
            ∀ name ∈ names, Language.ofName name = .unknown := by
  constructor
  · intro text c h
    have hvalid := Config.isValid_of_parse h
    obtain ⟨decoded, hdecoded, _, hc⟩ := Config.parse_eq_ok_iff.mp h
    refine ⟨⟨decoded, hdecoded, ?_⟩, hvalid.validate_eq, hvalid.unknownNames_eq, hvalid.patterns,
      fun flags => hvalid.isHarmless⟩
    rw [hc]
    exact ⟨rfl, rfl, rfl⟩
  · intro c hc fs color flags
    apply exists_noLanguages_iff
    rcases hc with rfl | ⟨text, htext⟩
    · exact Config.isValid_default
    · exact Config.isValid_of_parse htext

/-- The only language that this configuration names is unknown. -/
def sampleSettings : String := "languages.enabled=['ruby']\nignore.patterns=['*.d.ts']"

/-- The sample is accepted without its only name, and then enables both languages. A run fails for
its languages only if the name is given on the command line. -/
theorem sampleSettings_harmless :
    Config.parse sampleSettings = .ok { languages := some [], ignore := some ["*.d.ts"] } ∧
    Config.IsHarmless { languages := some [], ignore := some ["*.d.ts"] } { path := ⟨"src"⟩ } ∧
    ∃ f, (FileSystem.empty.analyze false { path := ⟨"src"⟩, languages := some ["ruby"] }
      { languages := some [], ignore := some ["*.d.ts"] }).result = .error f ∧
        "No supported languages selected".toList <+: f.message.toList := by
  obtain ⟨haccepted, hreported⟩ := accepted_config_makes_no_run_fail
  have hpattern : Glob.parse "*.d.ts" = .ok ⟨.anyText :: ".d.ts".toList.map .char⟩ := by cbv
  have hdecoded : Config.ofToml? sampleSettings =
      some { languages := some ["ruby"], ignore := some ["*.d.ts"] } := rfl
  have hparse : Config.parse sampleSettings =
      .ok { languages := some [], ignore := some ["*.d.ts"] } := by
    refine Config.parse_eq_ok_iff.mpr ⟨_, hdecoded, ?_, rfl⟩
    intro pattern h
    obtain rfl := List.mem_singleton.mp h
    exact ⟨_, hpattern⟩
  obtain ⟨_, _, _, _, hharmless⟩ := haccepted _ _ hparse
  refine ⟨hparse, hharmless _ rfl rfl, ?_⟩
  exact (hreported _ (.inr ⟨_, hparse⟩) _ _ _).mpr ⟨["ruby"], rfl, by decide⟩

end MixinCatalog
