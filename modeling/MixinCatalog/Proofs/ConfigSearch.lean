import MixinCatalog.Config.Search

/-!
# The search for a configuration

The search ends at the nearest file that offers a configuration. Files in front of it leave reports
behind and nothing else, and files behind it are not looked at: a search depends on no more than
what is read at the paths up to the one where it ends. A file that is refused counts as a missing
one, so a configuration further up is taken although the refusal announces the defaults.
-/

namespace MixinCatalog

private theorem Path.take_ancestors (p : Path) {m n : Nat} (h : m ≤ n) :
    (p.ancestors n).take m = p.ancestors m := by
  induction n generalizing p m with
  | zero =>
    obtain rfl : m = 0 := by omega
    rfl
  | succ n ih =>
    cases m with
    | zero => rfl
    | succ m =>
      cases hparent : p.parent? with
      | none => simp [Path.ancestors, hparent]
      | some q => simp [Path.ancestors, hparent, ih q (show m ≤ n by omega)]

namespace Config

/-! ### Files -/

/-- The file at a path can be read, and what it says is accepted as a configuration. -/
def Offers (fs : FileSystem) (path : Path) (c : Config) : Prop :=
  ∃ text, fs.read path = .ok text ∧ parse text = .ok c

/-- The file at a path can be read, and what it says is not accepted. -/
def Refused (fs : FileSystem) (path : Path) (cause : Error) : Prop :=
  ∃ text, fs.read path = .ok text ∧ parse text = .error cause

private theorem Refused.not_offers {fs : FileSystem} {path : Path} {cause : Error}
    (h : Refused fs path cause) (c : Config) : ¬Offers fs path c := by
  rintro ⟨text, hread, hparse⟩
  obtain ⟨text', hread', hparse'⟩ := h
  obtain rfl : text = text' := Except.ok.inj (hread.symm.trans hread')
  simp [hparse] at hparse'

/-- The warnings about the languages in a file: one for each name that no language has, if the file
can be read and decoded. -/
def languageWarnings (fs : FileSystem) (path : Path) : List Event :=
  match fs.read path with
  | .ok text =>
    let names := ((ofToml? text).bind (·.languages)).getD []
    (names.filter (Language.ofName · = .unknown)).map .unknownLanguage
  | .error _ => []

/-- The warning about a file that is there and cannot be used. -/
def complaint? (fs : FileSystem) (path : Path) : Option Event :=
  match fs.read path with
  | .ok text =>
    match parse text with
    | .ok _ => none
    | .error cause => some (.configRejected cause)
  | .error e => if e = .notFound then none else some (.configUnreadable path e)

/-- All that is reported about a file that the search passes over. -/
def reportsOn (fs : FileSystem) (path : Path) : List Event :=
  languageWarnings fs path ++ (complaint? fs path).toList

theorem map_unknownNamesIn {fs : FileSystem} {path : Path} {text : String}
    (h : fs.read path = .ok text) :
    (unknownNamesIn text).map Event.unknownLanguage = languageWarnings fs path := by
  have hunknown : (!isKnown ·) = (decide <| Language.ofName · = .unknown) := by
    funext name
    cases hname : Language.ofName name <;> simp [isKnown, hname]
  simp only [languageWarnings, h, unknownNamesIn]
  cases ofToml? text with
  | none => rfl
  | some c => simp [unknownNames, hunknown]

private theorem tryFile_of_offers {fs : FileSystem} {path : Path} {c : Config}
    (h : Offers fs path c) :
    tryFile fs path = (some c, languageWarnings fs path ++ [.configLoaded path]) := by
  obtain ⟨text, hread, hparse⟩ := h
  simp only [tryFile, hread, hparse, map_unknownNamesIn hread]

private theorem tryFile_of_not_offers {fs : FileSystem} {path : Path} (h : ∀ c, ¬Offers fs path c) :
    tryFile fs path = (none, reportsOn fs path) := by
  unfold tryFile reportsOn complaint?
  cases hread : fs.read path with
  | error e => cases e <;> simp [languageWarnings, hread]
  | ok text =>
    cases hparse : parse text with
    | ok c => exact absurd ⟨text, hread, hparse⟩ (h c)
    | error cause => simp [hparse, map_unknownNamesIn hread]

/-! ### Searches -/

/-- A path is the first of some paths whose file offers a configuration; `before` are the paths in
front of it. -/
structure IsNearest (fs : FileSystem) (paths before : List Path) (path : Path) (c : Config) :
    Prop where
  split : ∃ after, paths = before ++ path :: after
  offers : Offers fs path c
  none_before : ∀ q ∈ before, ∀ c', ¬Offers fs q c'

theorem firstIn_append {fs : FileSystem} {before : List Path}
    (h : ∀ q ∈ before, ∀ c, ¬Offers fs q c) (paths : List Path) :
    firstIn fs (before ++ paths) =
      ((firstIn fs paths).1, before.flatMap (reportsOn fs) ++ (firstIn fs paths).2) := by
  induction before with
  | nil => rfl
  | cons q before ih =>
    have hq := tryFile_of_not_offers (h q List.mem_cons_self)
    rw [List.cons_append, firstIn, hq, ih fun q' hq' => h q' (List.mem_cons_of_mem q hq'),
      List.flatMap_cons, List.append_assoc]

private theorem firstIn_cons_of_offers {fs : FileSystem} {path : Path} {c : Config}
    (h : Offers fs path c) (paths : List Path) :
    firstIn fs (path :: paths) = (some c, languageWarnings fs path ++ [.configLoaded path]) := by
  rw [firstIn, tryFile_of_offers h]

theorem load_of_isNearest {fs : FileSystem} {start path : Path} {before : List Path} {c : Config}
    (h : IsNearest fs (searchPath start) before path c) :
    load fs start = (c, before.flatMap (reportsOn fs) ++ languageWarnings fs path ++
      [.configLoaded path]) := by
  obtain ⟨after, hsplit⟩ := h.split
  rw [load, hsplit, firstIn_append h.none_before, firstIn_cons_of_offers h.offers,
    List.append_assoc]

private theorem load_of_none {fs : FileSystem} {start : Path}
    (h : ∀ q ∈ searchPath start, ∀ c, ¬Offers fs q c) :
    load fs start =
      ({}, (searchPath start).flatMap (reportsOn fs) ++ [.noConfig maxSearched]) := by
  have hnone := firstIn_append h []
  rw [List.append_nil, firstIn, List.append_nil] at hnone
  rw [load, hnone]

private theorem exists_isNearest (fs : FileSystem) (paths : List Path) :
    (∃ before path c, IsNearest fs paths before path c) ∨ ∀ q ∈ paths, ∀ c, ¬Offers fs q c := by
  induction paths with
  | nil => exact .inr (by simp)
  | cons p paths ih =>
    by_cases hp : ∃ c, Offers fs p c
    · obtain ⟨c, hc⟩ := hp
      exact .inl ⟨[], p, c, ⟨paths, rfl⟩, hc, by simp⟩
    · have hp' : ∀ c, ¬Offers fs p c := fun c hc => hp ⟨c, hc⟩
      rcases ih with ⟨before, path, c, ⟨after, hsplit⟩, hoffers, hbefore⟩ | hnone
      · refine .inl ⟨p :: before, path, c, ⟨after, by rw [hsplit, List.cons_append]⟩, hoffers, ?_⟩
        exact List.forall_mem_cons.mpr ⟨hp', hbefore⟩
      · exact .inr (List.forall_mem_cons.mpr ⟨hp', hnone⟩)

theorem IsNearest.unique {fs : FileSystem} {paths before before' : List Path} {path path' : Path}
    {c c' : Config} (h : IsNearest fs paths before path c)
    (h' : IsNearest fs paths before' path' c') : before = before' ∧ path = path' := by
  obtain ⟨after, hsplit⟩ := h.split
  obtain ⟨after', hsplit'⟩ := h'.split
  rcases List.append_eq_append_iff.mp (hsplit.symm.trans hsplit') with
    ⟨m, hm, hrest⟩ | ⟨m, hm, hrest⟩
  · cases m with
    | nil => simp_all
    | cons x m =>
      obtain rfl : path = x := (List.cons.inj hrest).1
      exact absurd h.offers (h'.none_before path (by simp [hm]) c)
  · cases m with
    | nil => simp_all
    | cons x m =>
      obtain rfl : path' = x := (List.cons.inj hrest).1
      exact absurd h'.offers (h.none_before path' (by simp [hm]) c')

/-! ### What a search depends on -/

section Agreement

variable {fs fs' : FileSystem} {path : Path}

private theorem offers_congr (h : fs'.read path = fs.read path) (c : Config) :
    Offers fs' path c ↔ Offers fs path c := by
  simp only [Offers, h]

private theorem languageWarnings_congr (h : fs'.read path = fs.read path) :
    languageWarnings fs' path = languageWarnings fs path := by
  simp only [languageWarnings, h]

private theorem reportsOn_congr (h : fs'.read path = fs.read path) :
    reportsOn fs' path = reportsOn fs path := by
  simp only [reportsOn, languageWarnings_congr h, complaint?, h]

private theorem flatMap_reportsOn_congr {paths : List Path}
    (h : ∀ q ∈ paths, fs'.read q = fs.read q) :
    paths.flatMap (reportsOn fs') = paths.flatMap (reportsOn fs) := by
  rw [List.flatMap_def, List.flatMap_def, List.map_congr_left fun q hq => reportsOn_congr (h q hq)]

theorem IsNearest.congr {paths before : List Path} {c : Config}
    (hnearest : IsNearest fs paths before path c)
    (h : ∀ q ∈ before ++ [path], fs'.read q = fs.read q) :
    IsNearest fs' paths before path c where
  split := hnearest.split
  offers := (offers_congr (h path (by simp)) c).mpr hnearest.offers
  none_before := by
    intro q hq c' hoffers
    exact hnearest.none_before q hq c' ((offers_congr (h q (by simp [hq])) c').mp hoffers)

end Agreement

/-! ### The log of a search -/

private theorem level_of_mem_languageWarnings {fs : FileSystem} {path : Path} {e : Event}
    (h : e ∈ languageWarnings fs path) : e.level = .warn := by
  unfold languageWarnings at h
  split at h
  · obtain ⟨name, _, rfl⟩ := List.mem_map.mp h
    rfl
  · simp at h

private theorem level_of_mem_reportsOn {fs : FileSystem} {path : Path} {e : Event}
    (h : e ∈ reportsOn fs path) : e.level = .warn := by
  rcases List.mem_append.mp h with h | h
  · exact level_of_mem_languageWarnings h
  · unfold complaint? at h
    split at h
    · split at h
      · simp at h
      · obtain rfl : e = _ := by simpa using h
        rfl
    · split at h
      · simp at h
      · obtain rfl : e = _ := by simpa using h
        rfl

/-- A search looks at the first ten of the directories from its start upwards and gives the
configuration that the nearest of their files offers, or the default one if none does. Its log has
the warnings about the files in front, in their order, the warnings about the languages in the file
it takes, and one last entry about how it ended. Nothing else is read: file systems that agree on
the files up to there give the same. -/
theorem load_takes_nearest (fs : FileSystem) (start : Path) :
    (∀ n, 10 ≤ n →
      searchPath start = ((start.ancestors n).take 10).map (·.join ".mixinmap.toml")) ∧
    ((∃ before path c, IsNearest fs (searchPath start) before path c ∧
        load fs start = (c, before.flatMap (reportsOn fs) ++ languageWarnings fs path ++
          [.configLoaded path]) ∧
        ∀ fs' : FileSystem, (∀ q ∈ before ++ [path], fs'.read q = fs.read q) →
          load fs' start = load fs start) ∨
      ((∀ q ∈ searchPath start, ∀ c, ¬Offers fs q c) ∧
        load fs start = ({}, (searchPath start).flatMap (reportsOn fs) ++ [.noConfig 10]) ∧
        ∀ fs' : FileSystem, (∀ q ∈ searchPath start, fs'.read q = fs.read q) →
          load fs' start = load fs start)) ∧
    ∃ warnings last, (load fs start).2 = warnings ++ [last] ∧
      (∀ e ∈ warnings, e.level = .warn) ∧ last.level = .debug := by
  refine ⟨?_, ?_, ?_⟩
  · intro n hn
    rw [Path.take_ancestors start hn]
    rfl
  · rcases exists_isNearest fs (searchPath start) with ⟨before, path, c, hnearest⟩ | hnone
    · refine .inl ⟨before, path, c, hnearest, load_of_isNearest hnearest, ?_⟩
      intro fs' hagree
      rw [load_of_isNearest hnearest, load_of_isNearest (hnearest.congr hagree),
        flatMap_reportsOn_congr fun q hq => hagree q (by simp [hq]),
        languageWarnings_congr (hagree path (by simp))]
    · refine .inr ⟨hnone, load_of_none hnone, ?_⟩
      intro fs' hagree
      have hnone' : ∀ q ∈ searchPath start, ∀ c, ¬Offers fs' q c := by
        intro q hq c hoffers
        exact hnone q hq c ((offers_congr (hagree q hq) c).mp hoffers)
      rw [load_of_none hnone, load_of_none hnone', flatMap_reportsOn_congr hagree]
  · have hreports {paths : List Path} {e : Event} (he : e ∈ paths.flatMap (reportsOn fs)) :
        e.level = .warn := by
      obtain ⟨q, _, he⟩ := List.mem_flatMap.mp he
      exact level_of_mem_reportsOn he
    rcases exists_isNearest fs (searchPath start) with ⟨before, path, c, hnearest⟩ | hnone
    · refine ⟨_, _, congrArg Prod.snd (load_of_isNearest hnearest), ?_, rfl⟩
      intro e he
      rcases List.mem_append.mp he with he | he
      · exact hreports he
      · exact level_of_mem_languageWarnings he
    · exact ⟨_, _, congrArg Prod.snd (load_of_none hnone), fun e he => hreports he, rfl⟩

/-- A tree with a file that is refused, above it one that is accepted, and one that is no text at
the top. -/
def sampleTree : FileSystem where
  entries :=
    [([⟨".mixinmap.toml", by decide⟩], .file ⟨#[0xff]⟩),
      ([⟨"lib", by decide⟩], .directory),
      ([⟨"lib", by decide⟩, ⟨".mixinmap.toml", by decide⟩],
        .file "mixins.implicit_return=false".toUTF8),
      ([⟨"lib", by decide⟩, ⟨"ui", by decide⟩], .directory),
      ([⟨"lib", by decide⟩, ⟨"ui", by decide⟩, ⟨".mixinmap.toml", by decide⟩],
        .file "ignore.patterns=['[']".toUTF8)]
  distinct := by decide
  current := []

/-- The sample without the file at its top. -/
def sampleTreeBelow : FileSystem := sampleTree.remove [⟨".mixinmap.toml", by decide⟩]

private theorem sampleTree_refused :
    Refused sampleTree ⟨"lib/ui/.mixinmap.toml"⟩ (.pattern "[" ⟨0, .invalidRange⟩) := by
  have hdecoded : fromToml "ignore.patterns=['[']" = .ok { ignore := some ["["] } := rfl
  have hpattern : Glob.parse "[" = .error ⟨0, .invalidRange⟩ := by
    simp [Glob.parse, Glob.readTokens, Except.map]
  refine ⟨"ignore.patterns=['[']", rfl, ?_⟩
  simp [parse, hdecoded, validate, badPattern?, ignorePatterns, hpattern]

private theorem sampleTree_offers :
    Offers sampleTree ⟨"lib/.mixinmap.toml"⟩ { mixins := some ⟨false⟩ } :=
  ⟨"mixins.implicit_return=false", rfl, rfl⟩

private theorem sampleTree_searchPath : searchPath ⟨"lib/ui"⟩ =
    [⟨"lib/ui/.mixinmap.toml"⟩, ⟨"lib/.mixinmap.toml"⟩, ⟨".mixinmap.toml"⟩] := rfl

private theorem sampleTree_isNearest : IsNearest sampleTree (searchPath ⟨"lib/ui"⟩)
    [⟨"lib/ui/.mixinmap.toml"⟩] ⟨"lib/.mixinmap.toml"⟩ { mixins := some ⟨false⟩ } where
  split := ⟨[⟨".mixinmap.toml"⟩], rfl⟩
  offers := sampleTree_offers
  none_before := by
    intro q hq c hoffers
    obtain rfl := List.mem_singleton.mp hq
    exact sampleTree_refused.not_offers c hoffers

/-- What stands at the top of the sample does not matter: the search ends below it. -/
theorem sampleTree_load :
    10 ≤ 12 ∧
    searchPath ⟨"lib/ui"⟩ =
      ((Path.ancestors ⟨"lib/ui"⟩ 12).take 10).map (·.join ".mixinmap.toml") ∧
    (load sampleTree ⟨"lib/ui"⟩).1 = { mixins := some ⟨false⟩ } ∧
    sampleTreeBelow.read ⟨".mixinmap.toml"⟩ ≠ sampleTree.read ⟨".mixinmap.toml"⟩ ∧
    (∀ q ∈ [⟨"lib/ui/.mixinmap.toml"⟩, ⟨"lib/.mixinmap.toml"⟩],
      sampleTreeBelow.read q = sampleTree.read q) ∧
    load sampleTreeBelow ⟨"lib/ui"⟩ = load sampleTree ⟨"lib/ui"⟩ := by
  have hsame : ∀ q ∈ [⟨"lib/ui/.mixinmap.toml"⟩, ⟨"lib/.mixinmap.toml"⟩],
      sampleTreeBelow.read q = sampleTree.read q := by
    simp only [List.forall_mem_cons]
    exact ⟨rfl, rfl, by simp⟩
  have htop : sampleTreeBelow.read ⟨".mixinmap.toml"⟩ = .error .notFound := rfl
  have htop' : sampleTree.read ⟨".mixinmap.toml"⟩ = .error .notUtf8 := rfl
  obtain ⟨hpath, hends, _⟩ := load_takes_nearest sampleTree ⟨"lib/ui"⟩
  refine ⟨by decide, hpath 12 (by decide), ?_, by simp [htop, htop'], hsame, ?_⟩
  · rw [load_of_isNearest sampleTree_isNearest]
  · rcases hends with ⟨before, path, c, hnearest, _, hagree⟩ | ⟨hnone, _⟩
    · obtain ⟨rfl, rfl⟩ := hnearest.unique sampleTree_isNearest
      exact hagree sampleTreeBelow hsame
    · exact absurd sampleTree_offers (hnone _ (by rw [sampleTree_searchPath]; simp) _)

/-! ### Refused files -/

theorem suffix_of_suffix_append {s : List Char} {front tail : String}
    (h : s <:+ (front ++ tail).toList) (hlength : s.length ≤ tail.toList.length) :
    s <:+ tail.toList := by
  rw [String.toList_append] at h
  exact List.suffix_of_suffix_length_le h (List.suffix_append _ _) hlength

private theorem not_suffix_message (cause : IoError) (front : String) :
    ¬['s', '.'] <:+ (front ++ cause.message).toList := by
  intro h
  cases cause <;> exact absurd (suffix_of_suffix_append h (by decide)) (by decide)

private theorem exists_eq_configRejected {e : Event} (hwarn : e.level = .warn)
    (h : "Using defaults.".toList <:+ e.text.toList) : ∃ cause, e = .configRejected cause := by
  -- two letters are enough to tell the texts apart
  have hends : ['s', '.'] <:+ e.text.toList := List.IsSuffix.trans (by decide) h
  cases e with
  | configRejected cause => exact ⟨cause, rfl⟩
  | unknownLanguage name =>
    change ['s', '.'] <:+ (_ ++ "' in config").toList at hends
    exact absurd (suffix_of_suffix_append hends (by decide)) (by decide)
  | configUnreadable path cause =>
    change ['s', '.'] <:+ (_ ++ cause.message).toList at hends
    exact absurd hends (not_suffix_message cause _)
  | noWorkingDirectory cause =>
    change ['s', '.'] <:+ (_ ++ ". Using default config.").toList at hends
    exact absurd (suffix_of_suffix_append hends (by decide)) (by decide)
  | syntaxErrors file =>
    change ['s', '.'] <:+ "Source has syntax errors; catalog may be incomplete".toList at hends
    exact absurd hends (by decide)
  | fileSkipped file cause =>
    change ['s', '.'] <:+ ("Skipping file: " ++ (_ ++ cause.message)).toList at hends
    rw [← String.append_assoc] at hends
    exact absurd hends (not_suffix_message cause _)
  | configLoaded | noConfig | configCreated | catalogued | discovered | completed =>
    simp [Event.level] at hwarn

private theorem refused_of_mem_reportsOn {fs : FileSystem} {path : Path} {cause : Error}
    (h : .configRejected cause ∈ reportsOn fs path) : Refused fs path cause := by
  unfold reportsOn languageWarnings complaint? at h
  cases hread : fs.read path with
  | error e => cases e <;> simp [hread] at h
  | ok text =>
    cases hparse : parse text with
    | ok c => simp [hread, hparse] at h
    | error cause' =>
      obtain rfl : cause = cause' := by simpa [hread, hparse] using h
      exact ⟨text, hread, hparse⟩

private theorem exists_refused_of_mem_load {fs : FileSystem} {start : Path} {cause : Error}
    (h : .configRejected cause ∈ (load fs start).2) :
    ∃ before path after, searchPath start = before ++ path :: after ∧ Refused fs path cause ∧
      ∀ q ∈ before, ∀ c, ¬Offers fs q c := by
  have hsplit {passed rest : List Path} (hpaths : searchPath start = passed ++ rest)
      (hpassed : ∀ q ∈ passed, ∀ c, ¬Offers fs q c)
      (hmem : .configRejected cause ∈ passed.flatMap (reportsOn fs)) :
      ∃ before path after, searchPath start = before ++ path :: after ∧ Refused fs path cause ∧
        ∀ q ∈ before, ∀ c, ¬Offers fs q c := by
    obtain ⟨path, hpath, hreport⟩ := List.mem_flatMap.mp hmem
    obtain ⟨before, after, rfl⟩ := List.append_of_mem hpath
    refine ⟨before, path, after ++ rest, by simpa using hpaths,
      refused_of_mem_reportsOn hreport, ?_⟩
    intro q hq
    exact hpassed q (by simp [hq])
  rcases exists_isNearest fs (searchPath start) with ⟨before, path, c, hnearest⟩ | hnone
  · rw [load_of_isNearest hnearest] at h
    obtain ⟨after, hpaths⟩ := hnearest.split
    have hmem : .configRejected cause ∈ before.flatMap (reportsOn fs) ∨
        .configRejected cause ∈ languageWarnings fs path := by simpa using h
    rcases hmem with hmem | hmem
    · exact hsplit hpaths hnearest.none_before hmem
    · have hrefused := refused_of_mem_reportsOn (List.mem_append_left _ hmem)
      exact absurd hnearest.offers (hrefused.not_offers c)
  · rw [load_of_none hnone] at h
    exact hsplit (List.append_nil _).symm hnone (by simpa using h)

/-- A search that announces the defaults has passed over a file that it refused, and ends as if
that file were missing: with the defaults if no file behind it offers a configuration, but with the
configuration that the nearest such file offers if there is one. -/
theorem load_after_refusal (fs : FileSystem) (start : Path) (e : Event)
    (hlogged : e ∈ (load fs start).2) (hwarn : e.level = .warn)
    (htext : "Using defaults.".toList <:+ e.text.toList) :
    ∃ cause before path after, e = .configRejected cause ∧
      searchPath start = before ++ path :: after ∧ Refused fs path cause ∧
      ((∀ q ∈ after, ∀ c, ¬Offers fs q c) → (load fs start).1 = {}) ∧
      ∀ between further c, IsNearest fs after between further c → (load fs start).1 = c := by
  obtain ⟨cause, rfl⟩ := exists_eq_configRejected hwarn htext
  obtain ⟨before, path, after, hpaths, hrefused, hbefore⟩ := exists_refused_of_mem_load hlogged
  refine ⟨cause, before, path, after, rfl, hpaths, hrefused, ?_, ?_⟩
  · intro hafter
    rw [load_of_none]
    rw [hpaths, List.forall_mem_append, List.forall_mem_cons]
    exact ⟨hbefore, hrefused.not_offers, hafter⟩
  · intro between further c hnearest
    have hwhole : IsNearest fs (searchPath start) (before ++ path :: between) further c := by
      obtain ⟨rest, hrest⟩ := hnearest.split
      refine ⟨⟨rest, by simp [hpaths, hrest]⟩, hnearest.offers, ?_⟩
      rw [List.forall_mem_append, List.forall_mem_cons]
      exact ⟨hbefore, hrefused.not_offers, hnearest.none_before⟩
    rw [load_of_isNearest hwhole]

/-- The refusal that the search through the sample logs. -/
def sampleRefusal : Event := .configRejected (.pattern "[" ⟨0, .invalidRange⟩)

private theorem sampleRefusal_logged : sampleRefusal ∈ (load sampleTree ⟨"lib/ui"⟩).2 := by
  obtain ⟨text, hread, hparse⟩ := sampleTree_refused
  rw [load_of_isNearest sampleTree_isNearest]
  simp [reportsOn, complaint?, hread, hparse, sampleRefusal]

private theorem sampleRefusal_announces :
    "Using defaults.".toList <:+ sampleRefusal.text.toList := by
  change _ <:+ (_ ++ ". Using defaults.").toList
  rw [String.toList_append]
  exact List.IsSuffix.trans (by decide) (List.suffix_append _ _)

/-- The search through the sample announces the defaults and takes a configuration further up. -/
theorem load_sampleTree_announces_other :
    ∃ e ∈ (load sampleTree ⟨"lib/ui"⟩).2, e.level = .warn ∧
      "Using defaults.".toList <:+ e.text.toList ∧ (load sampleTree ⟨"lib/ui"⟩).1 ≠ {} := by
  refine ⟨sampleRefusal, sampleRefusal_logged, rfl, sampleRefusal_announces, ?_⟩
  rw [load_of_isNearest sampleTree_isNearest]
  decide

theorem sampleTree_after_refusal :
    sampleRefusal ∈ (load sampleTree ⟨"lib/ui"⟩).2 ∧ sampleRefusal.level = .warn ∧
    "Using defaults.".toList <:+ sampleRefusal.text.toList ∧
    ∃ cause before path after, sampleRefusal = .configRejected cause ∧
      searchPath ⟨"lib/ui"⟩ = before ++ path :: after ∧ Refused sampleTree path cause ∧
      ∀ between further c, IsNearest sampleTree after between further c →
        (load sampleTree ⟨"lib/ui"⟩).1 = c := by
  obtain ⟨cause, before, path, after, hcause, hpaths, hrefused, _, hfurther⟩ :=
    load_after_refusal sampleTree ⟨"lib/ui"⟩ sampleRefusal sampleRefusal_logged rfl
      sampleRefusal_announces
  exact ⟨sampleRefusal_logged, rfl, sampleRefusal_announces, cause, before, path, after, hcause,
    hpaths, hrefused, hfurther⟩

end Config

end MixinCatalog
