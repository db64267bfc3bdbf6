import MixinCatalog.Command.Init
import MixinCatalog.Proofs.AcceptedConfig
import MixinCatalog.Proofs.ConfigSearch

/-!
# Configurations that `init` writes

A call of `init` ends in one of four ways: it finds something at the path of the configuration and
is not told to replace it, it cannot open a file there, it opens one and has no room for the text,
or it writes the default text. Only the last two change anything, and only at one place. So whatever
else happens to a file system, what stands at a place stays there until the user changes it or a
forced call opens it.
-/

namespace MixinCatalog

namespace Config

/-! ### The default text -/

/-- What the text that `init` writes says. -/
def template : Config where
  mixins := some ⟨true⟩
  languages := some ["javascript", "typescript"]
  ignore := some ["**/node_modules/**", "**/dist/**", "**/*.min.js"]

private theorem ofToml?_eq (text : String) :
    ofToml? text = (Toml.readDocument text.toList).toOption.bind fun ms => (decode ms).toOption := by
  unfold ofToml? fromToml
  cases Toml.readDocument text.toList with
  | ok ms => rfl
  | error fault => rfl

private theorem ofToml?_defaultText : ofToml? defaultText = some template := by
  rw [ofToml?_eq]
  -- the pieces of the text are cheaper to take apart than the whole
  delta defaultText
  simp only [String.toList_append]
  decide +kernel

private theorem exists_glob_of_template : ∀ pattern ∈ template.ignorePatterns,
    ∃ g, Glob.parse pattern = .ok g := by
  have hmodules : (Glob.parse "**/node_modules/**").isOk := by cbv
  have hdist : (Glob.parse "**/dist/**").isOk := by cbv
  have hminified : (Glob.parse "**/*.min.js").isOk := by cbv
  have hok {pattern : String} (h : (Glob.parse pattern).isOk) :
      ∃ g, Glob.parse pattern = .ok g := by
    cases hparse : Glob.parse pattern with
    | ok g => exact ⟨g, rfl⟩
    | error e => simp [hparse, Except.isOk, Except.toBool] at h
  simp only [template, ignorePatterns, Option.getD_some, List.forall_mem_cons]
  exact ⟨hok hmodules, hok hdist, hok hminified, by simp⟩

private theorem parse_defaultText : parse defaultText = .ok template := by
  refine parse_eq_ok_iff.mpr ⟨template, ofToml?_defaultText, exists_glob_of_template, ?_⟩
  decide

private theorem load_of_read_defaultText {fs : FileSystem} {dir : Path}
    (h : fs.read (dir.join fileName) = .ok defaultText) :
    load fs dir = (template, [.configLoaded (dir.join fileName)]) := by
  have hfirst : ∃ above, searchPath dir = dir.join fileName :: above := by
    unfold searchPath maxSearched Path.ancestors
    cases dir.parent? with
    | none => exact ⟨[], rfl⟩
    | some q => exact ⟨_, rfl⟩
  obtain ⟨above, habove⟩ := hfirst
  have hnearest : IsNearest fs (searchPath dir) [] (dir.join fileName) template :=
    ⟨⟨above, habove⟩, ⟨defaultText, h, parse_defaultText⟩, by simp⟩
  have hquiet : languageWarnings fs (dir.join fileName) = [] := by
    rw [← map_unknownNamesIn h, unknownNamesIn, ofToml?_defaultText]
    decide
  rw [load_of_isNearest hnearest, hquiet]
  rfl

end Config

namespace FileSystem

/-! ### One call -/

theorem contains_iff (fs : FileSystem) (path : Path) :
    fs.contains path = true ↔ ∃ entry, fs.lookup path = .ok entry := by
  unfold contains
  cases fs.lookup path with
  | ok entry => simp [Except.isOk, Except.toBool]
  | error e => simp [Except.isOk, Except.toBool]

theorem writeFile_cases (fs : FileSystem) (full : Place → Bool) (path : Path) (text : String) :
    (∃ cause, fs.target path = .error cause ∧ fs.writeFile full path text = (.error cause, fs)) ∨
    ∃ place, fs.target path = .ok place ∧
      (full place = true ∧
          fs.writeFile full path text = (.error .noSpace, fs.insert place (.file .empty)) ∨
        full place = false ∧
          fs.writeFile full path text = (.ok (), fs.insert place (.file text.toUTF8))) := by
  cases htarget : fs.target path with
  | error cause => exact .inl ⟨cause, rfl, by simp [writeFile, create, htarget]⟩
  | ok place =>
    refine .inr ⟨place, rfl, ?_⟩
    cases hfull : full place with
    | true => exact .inl ⟨rfl, by simp [writeFile, create, htarget, openFile, hfull]⟩
    | false =>
      have hwritten : (fs.insert place (.file .empty)).append place text.toUTF8 =
          fs.insert place (.file text.toUTF8) := by
        rw [append_insert fs (ne_nil_of_target htarget), ByteArray.empty_append]
      refine .inr ⟨rfl, ?_⟩
      simp only [writeFile, create, htarget, openFile, hfull, hwritten, Bool.false_eq_true,
        if_false]

/-- A call may write if nothing is in its way, or if it is told to replace what is there. -/
def MayInit (fs : FileSystem) (dir : Path) (force : Bool) : Prop :=
  force = true ∨ ¬∃ entry, fs.lookup (dir.join ".mixinmap.toml") = .ok entry

/-- What a call comes to. -/
theorem initConfig_cases (fs : FileSystem) (full : Place → Bool) (dir : Path) (force : Bool) :
    (¬MayInit fs dir force ∧
      fs.initConfig full dir force = ⟨.error (.configExists (dir.join Config.fileName)), fs⟩) ∨
    MayInit fs dir force ∧
      ((∃ cause, fs.target (dir.join Config.fileName) = .error cause ∧
          fs.initConfig full dir force = ⟨.error (.write cause), fs⟩) ∨
        ∃ place, fs.target (dir.join Config.fileName) = .ok place ∧
          (full place = true ∧ fs.initConfig full dir force =
              ⟨.error (.write .noSpace), fs.insert place (.file .empty)⟩ ∨
            full place = false ∧ fs.initConfig full dir force =
              ⟨.ok "", fs.insert place (.file Config.defaultText.toUTF8)⟩)) := by
  by_cases hmay : MayInit fs dir force
  · have hgoes : (fs.contains (dir.join Config.fileName) && !force) = false := by
      rcases hmay with rfl | hnone
      · simp
      · have hnot : fs.contains (dir.join Config.fileName) = false :=
          Bool.eq_false_iff.mpr (mt (contains_iff fs _).mp hnone)
        rw [hnot, Bool.false_and]
    refine .inr ⟨hmay, ?_⟩
    simp only [initConfig, initConfigLogged, hgoes, Bool.false_eq_true, if_false]
    rcases fs.writeFile_cases full (dir.join Config.fileName) Config.defaultText with
      ⟨cause, htarget, hwrite⟩ | ⟨place, htarget, ⟨hfull, hwrite⟩ | ⟨hroom, hwrite⟩⟩
    · exact .inl ⟨cause, htarget, by rw [hwrite]⟩
    · exact .inr ⟨place, htarget, .inl ⟨hfull, by rw [hwrite]⟩⟩
    · exact .inr ⟨place, htarget, .inr ⟨hroom, by rw [hwrite]⟩⟩
  · obtain ⟨hforce, hthere⟩ := not_or.mp hmay
    have hcontains := (contains_iff fs _).mpr (not_not.mp hthere)
    refine .inl ⟨hmay, ?_⟩
    simp only [initConfig, initConfigLogged, Config.fileName, hcontains,
      Bool.eq_false_iff.mpr hforce, Bool.not_false, Bool.and_self, if_true]

private theorem get?_of_target_of_lookup {fs : FileSystem} {path : Path} {place : Place}
    (htarget : fs.target path = .ok place) (h : ¬∃ entry, fs.lookup path = .ok entry) :
    fs.get? place = none := by
  obtain ⟨hresolve, -⟩ := resolve_of_target htarget
  cases hentry : fs.get? place with
  | none => rfl
  | some entry => exact absurd ⟨entry, by simp [lookup, hresolve, hentry]⟩ h

/-! ### Histories -/

/-- Something that happens to a file system: a call of `init`, with room at some places and none at
others, or the user puts something at a place or takes away what stands there. -/
inductive Action where
  | init (full : Place → Bool) (dir : Path) (force : Bool)
  | put (place : Place) (entry : Entry)
  | remove (place : Place)

def after (fs : FileSystem) : Action → FileSystem
  | .init full dir force => (fs.initConfig full dir force).fileSystem
  | .put place entry => fs.insert place entry
  | .remove place => fs.remove place

def afterAll (fs : FileSystem) (actions : List Action) : FileSystem := actions.foldl after fs

/-- An action does not ask for a change of what stands at a place: it is neither a forced call that
opens a file there nor done by the user to it. -/
def Spares (place : Place) (fs : FileSystem) : Action → Prop
  | .init _ dir force => force = true → fs.target (dir.join Config.fileName) ≠ .ok place
  | .put other _ => other ≠ place
  | .remove other => ¬other <+: place

/-- No action of a history asks for a change of what stands at a place. -/
def SparesAll (place : Place) : FileSystem → List Action → Prop
  | _, [] => True
  | fs, action :: actions => Spares place fs action ∧ SparesAll place (fs.after action) actions

private theorem get?_remove_of_not_prefix (fs : FileSystem) {dir place : Place}
    (h : ¬dir <+: place) : (fs.remove dir).get? place = fs.get? place := by
  have hkept : (Place.below? dir place).isNone = true := by
    cases hbelow : Place.below? dir place with
    | none => rfl
    | some names => exact absurd ⟨names, (Place.below?_eq_some_iff.mp hbelow).symm⟩ h
  cases place with
  | nil => rfl
  | cons name names =>
    simp only [get?, remove, List.find?_filter]
    congr 2
    funext e
    by_cases he : e.1 = name :: names
    · simp [he, hkept]
    · simp [he]

/-- What stands at a place outlives every action that spares it. -/
theorem get?_after {fs : FileSystem} {place : Place} {entry : Entry} {action : Action}
    (h : fs.get? place = some entry) (hspares : Spares place fs action) :
    (fs.after action).get? place = some entry := by
  cases action with
  | put other new =>
    have hne : place ≠ other := Ne.symm hspares
    rw [after, get?_insert_of_ne fs new hne, h]
  | remove other => rw [after, get?_remove_of_not_prefix fs hspares, h]
  | init full dir force =>
    -- a call that is not forced opens no file where something stands
    have hne {opened : Place} (hmay : MayInit fs dir force)
        (htarget : fs.target (dir.join Config.fileName) = .ok opened) : place ≠ opened := by
      rintro rfl
      cases force with
      | true => exact hspares rfl htarget
      | false =>
        have hnone := get?_of_target_of_lookup htarget (hmay.resolve_left Bool.false_ne_true)
        simp [hnone] at h
    rcases fs.initConfig_cases full dir force with
      ⟨-, hended⟩ | ⟨hmay, ⟨cause, -, hended⟩ | ⟨opened, htarget, ⟨-, hended⟩ | ⟨-, hended⟩⟩⟩
    · rw [after, hended, h]
    · rw [after, hended, h]
    · rw [after, hended, get?_insert_of_ne fs _ (hne hmay htarget), h]
    · rw [after, hended, get?_insert_of_ne fs _ (hne hmay htarget), h]

private theorem get?_afterAll {fs : FileSystem} {place : Place} {entry : Entry}
    {actions : List Action} (h : fs.get? place = some entry)
    (hspares : SparesAll place fs actions) :
    (fs.afterAll actions).get? place = some entry := by
  induction actions generalizing fs with
  | nil => exact h
  | cons action actions ih => exact ih (get?_after h hspares.1) hspares.2

/-- What a call has left behind that wrote the default text: one changed file, and the default
settings for its directory, whatever configurations there are further up. -/
structure IsInitialized (dir : Path) (before left : FileSystem) : Prop where
  writes : ∃ place, before.target (dir.join ".mixinmap.toml") = .ok place ∧
    SameExcept place before left ∧ left.get? place = some (.file Config.defaultText.toUTF8)
  reads : left.read (dir.join ".mixinmap.toml") = .ok Config.defaultText
  loads : ∃ c, Config.parse Config.defaultText = .ok c ∧
    Config.load left dir = (c, [.configLoaded (dir.join ".mixinmap.toml")]) ∧
    c.mixinOptions = Config.mixinOptions {} ∧ c.enabledLanguages = Config.enabledLanguages {}

private theorem isInitialized_insert {fs : FileSystem} {dir : Path} {place : Place}
    (h : fs.target (dir.join Config.fileName) = .ok place) :
    IsInitialized dir fs (fs.insert place (.file Config.defaultText.toUTF8)) := by
  have hread := read_insert_of_target h Config.defaultText
  have hplace := get?_insert_self fs (.file Config.defaultText.toUTF8) (ne_nil_of_target h)
  refine ⟨⟨place, h, sameExcept_insert fs place _, hplace⟩, hread, ?_⟩
  refine ⟨Config.template, Config.parse_defaultText, Config.load_of_read_defaultText hread, ?_, ?_⟩
  · rfl
  · decide

/-- A call opens a file that it has no room for. -/
def FindsNoRoom (fs : FileSystem) (full : Place → Bool) (dir : Path) (force : Bool) : Prop :=
  MayInit fs dir force ∧
    ∃ place, fs.target (dir.join ".mixinmap.toml") = .ok place ∧ full place = true

/-- What a call has left behind that had no room for the text: the file that it opened, with nothing
in it, and everything else as it was. -/
def IsCutOff (dir : Path) (before left : FileSystem) : Prop :=
  ∃ place, before.target (dir.join ".mixinmap.toml") = .ok place ∧
    SameExcept place before left ∧ left.get? place = some (.file .empty)

private theorem isCutOff_insert {fs : FileSystem} {dir : Path} {place : Place}
    (h : fs.target (dir.join Config.fileName) = .ok place) :
    IsCutOff dir fs (fs.insert place (.file .empty)) :=
  ⟨place, h, sameExcept_insert fs place _, get?_insert_self fs _ (ne_nil_of_target h)⟩

variable {fs : FileSystem} {full : Place → Bool} {dir : Path} {force : Bool}

private theorem fileSystem_of_initConfig_error {f : Failure}
    (h : (fs.initConfig full dir force).result = .error f)
    (hroom : ¬FindsNoRoom fs full dir force) : (fs.initConfig full dir force).fileSystem = fs := by
  rcases fs.initConfig_cases full dir force with
    ⟨-, hended⟩ | ⟨hmay, ⟨cause, -, hended⟩ | ⟨place, htarget, ⟨hfull, -⟩ | ⟨-, hended⟩⟩⟩
  · rw [hended]
  · rw [hended]
  · exact absurd ⟨hmay, place, htarget, hfull⟩ hroom
  · simp [hended] at h

private theorem initConfig_of_findsNoRoom (h : FindsNoRoom fs full dir force) :
    (fs.initConfig full dir force).result = .error (.write .noSpace) ∧
      IsCutOff dir fs (fs.initConfig full dir force).fileSystem := by
  obtain ⟨hmay, place, htarget, hfull⟩ := h
  rcases fs.initConfig_cases full dir force with
    ⟨hrefused, -⟩ | ⟨-, ⟨cause, herror, -⟩ | ⟨other, hother, ⟨-, hended⟩ | ⟨hroom, -⟩⟩⟩
  · exact absurd hmay hrefused
  · exact nomatch herror.symm.trans htarget
  · rw [hended]
    exact ⟨rfl, isCutOff_insert hother⟩
  · obtain rfl : place = other := Except.ok.inj (htarget.symm.trans hother)
    simp [hfull] at hroom

private theorem isInitialized_of_initConfig {printed : String}
    (h : (fs.initConfig full dir force).result = .ok printed) :
    IsInitialized dir fs (fs.initConfig full dir force).fileSystem := by
  rcases fs.initConfig_cases full dir force with
    ⟨-, hended⟩ | ⟨-, ⟨cause, -, hended⟩ | ⟨place, htarget, ⟨-, hended⟩ | ⟨-, hended⟩⟩⟩
  · simp [hended] at h
  · simp [hended] at h
  · simp [hended] at h
  · rw [hended]
    exact isInitialized_insert htarget

theorem exists_initConfig_eq_ok_iff :
    (∃ printed, (fs.initConfig full dir force).result = .ok printed) ↔
      MayInit fs dir force ∧
        ∃ place, fs.target (dir.join Config.fileName) = .ok place ∧ full place = false := by
  rcases fs.initConfig_cases full dir force with
    ⟨hrefused, hended⟩ | ⟨hmay, ⟨cause, htarget, hended⟩ | ⟨place, htarget, hwrite⟩⟩
  · simp [hended, hrefused]
  · simp [hended, htarget]
  · simp only [htarget, Except.ok.injEq, exists_eq_left']
    rcases hwrite with ⟨hfull, hended⟩ | ⟨hroom, hended⟩
    · simp [hended, hfull]
    · simp [hended, hroom, hmay]

/-- After every history, a call without force fails if anything stands where the configuration
goes. A call that fails changes nothing, unless it had no room for the text: then the file it opened
is left empty. A call succeeds if and only if it may write, can open the file and has room; then it
has changed this file alone, which has the default text, and a search from the directory finds the
default settings. What stands at a place is changed by nothing but forced calls and the user. -/
theorem init_keeps_what_is_there (start : FileSystem) (actions : List Action) :
    let fs := start.afterAll actions
    (∀ (full : Place → Bool) (dir : Path),
      (∃ entry, fs.lookup (dir.join ".mixinmap.toml") = .ok entry) →
        fs.initConfig full dir false =
          ⟨.error (.configExists (dir.join ".mixinmap.toml")), fs⟩) ∧
    (∀ (full : Place → Bool) (dir : Path) (force : Bool) (f : Failure),
      (fs.initConfig full dir force).result = .error f → ¬FindsNoRoom fs full dir force →
        (fs.initConfig full dir force).fileSystem = fs) ∧
    (∀ (full : Place → Bool) (dir : Path) (force : Bool), FindsNoRoom fs full dir force →
      (fs.initConfig full dir force).result = .error (.write .noSpace) ∧
        IsCutOff dir fs (fs.initConfig full dir force).fileSystem) ∧
    (∀ (full : Place → Bool) (dir : Path) (force : Bool),
      (∃ printed, (fs.initConfig full dir force).result = .ok printed) ↔
        MayInit fs dir force ∧
          ∃ place, fs.target (dir.join ".mixinmap.toml") = .ok place ∧ full place = false) ∧
    (∀ (full : Place → Bool) (dir : Path) (force : Bool) (printed : String),
      (fs.initConfig full dir force).result = .ok printed →
        IsInitialized dir fs (fs.initConfig full dir force).fileSystem) ∧
    ∀ (place : Place) (entry : Entry), start.get? place = some entry →
      SparesAll place start actions → fs.get? place = some entry := by
  intro fs
  refine ⟨?_, fun full dir force f => fileSystem_of_initConfig_error,
    fun full dir force => initConfig_of_findsNoRoom,
    fun full dir force => exists_initConfig_eq_ok_iff,
    fun full dir force printed => isInitialized_of_initConfig, fun place entry => get?_afterAll⟩
  intro full dir hthere
  rcases fs.initConfig_cases full dir false with ⟨-, hended⟩ | ⟨hmay, -⟩
  · exact hended
  · rcases hmay with hforce | hnone
    · exact nomatch hforce
    · exact absurd hthere hnone

def placeOf (names : List String) : Place := names.filterMap fun s => Name.ofChars? s.toList

/-- The place of the refused configuration in the sample. -/
def sampleRefusedPlace : Place := placeOf ["lib", "ui", ".mixinmap.toml"]

/-- There is room everywhere but at the place of the refused configuration. -/
def sampleFull (place : Place) : Bool := place == sampleRefusedPlace

/-- A call that is refused, a change elsewhere, and the removal of another configuration. -/
def sampleHistory : List Action :=
  [.init sampleFull ⟨"lib/ui"⟩ false, .put (placeOf ["notes"]) (.file .empty),
    .remove (placeOf [".mixinmap.toml"])]

/-- The refused configuration of the sample outlives a call that is not forced. A forced one
replaces it, or empties it where there is no room. A directory that is not there gets none. -/
theorem sampleTree_init :
    let fs := Config.sampleTree.afterAll sampleHistory
    SparesAll sampleRefusedPlace Config.sampleTree sampleHistory ∧
    fs.get? sampleRefusedPlace = some (.file "ignore.patterns=['[']".toUTF8) ∧
    fs.initConfig sampleFull ⟨"lib/ui"⟩ false =
      ⟨.error (.configExists ⟨"lib/ui/.mixinmap.toml"⟩), fs⟩ ∧
    IsInitialized ⟨"lib/ui"⟩ fs (fs.initConfig (fun _ => false) ⟨"lib/ui"⟩ true).fileSystem ∧
    (FindsNoRoom fs sampleFull ⟨"lib/ui"⟩ true ∧
      IsCutOff ⟨"lib/ui"⟩ fs (fs.initConfig sampleFull ⟨"lib/ui"⟩ true).fileSystem) ∧
    (fs.initConfig sampleFull ⟨"nowhere"⟩ true).result = .error (.write .notFound) ∧
    (fs.initConfig sampleFull ⟨"nowhere"⟩ true).fileSystem = fs := by
  intro fs
  obtain ⟨hrefuses, hfails, hstops, hsucceeds, hwrites, hkeeps⟩ :=
    init_keeps_what_is_there Config.sampleTree sampleHistory
  have hnotes : placeOf ["notes"] ≠ sampleRefusedPlace := by decide
  have hconfig : ¬placeOf [".mixinmap.toml"] <+: sampleRefusedPlace := by decide
  have hspares : SparesAll sampleRefusedPlace Config.sampleTree sampleHistory :=
    ⟨by simp [Spares], by simpa [Spares] using hnotes, by simpa [Spares] using hconfig, trivial⟩
  have htarget : fs.target ⟨"lib/ui/.mixinmap.toml"⟩ = .ok sampleRefusedPlace := rfl
  obtain ⟨printed, hprinted⟩ :=
    (hsucceeds (fun _ => false) ⟨"lib/ui"⟩ true).mpr ⟨.inl rfl, sampleRefusedPlace, htarget, rfl⟩
  have hnoRoom : FindsNoRoom fs sampleFull ⟨"lib/ui"⟩ true :=
    ⟨.inl rfl, sampleRefusedPlace, htarget, by decide⟩
  have hmissing : (fs.initConfig sampleFull ⟨"nowhere"⟩ true).result = .error (.write .notFound) :=
    rfl
  have hnowhere : ¬FindsNoRoom fs sampleFull ⟨"nowhere"⟩ true := by
    intro ⟨_, place, hplace, _⟩
    exact nomatch hplace
  exact ⟨hspares, hkeeps _ _ rfl hspares, hrefuses sampleFull ⟨"lib/ui"⟩ ⟨_, rfl⟩,
    hwrites _ ⟨"lib/ui"⟩ true printed hprinted, ⟨hnoRoom, (hstops _ _ _ hnoRoom).2⟩, hmissing,
    hfails _ ⟨"nowhere"⟩ true _ hmissing hnowhere⟩

/-- A forced call that has no room for the text fails and does not leave the sample as it was: the
configuration it was to replace is emptied. -/
theorem sampleTree_init_without_room :
    (¬∀ (full : Place → Bool) (dir : Path) (force : Bool) (f : Failure),
      (Config.sampleTree.initConfig full dir force).result = .error f →
        (Config.sampleTree.initConfig full dir force).fileSystem = Config.sampleTree) ∧
    let ended := Config.sampleTree.initConfig sampleFull ⟨"lib/ui"⟩ true
    ended.result = .error (.write .noSpace) ∧
    Config.sampleTree.get? sampleRefusedPlace = some (.file "ignore.patterns=['[']".toUTF8) ∧
    ended.fileSystem.get? sampleRefusedPlace = some (.file .empty) := by
  have hresult : (Config.sampleTree.initConfig sampleFull ⟨"lib/ui"⟩ true).result =
      .error (.write .noSpace) := rfl
  have hbefore : Config.sampleTree.get? sampleRefusedPlace =
      some (.file "ignore.patterns=['[']".toUTF8) := rfl
  have hafter : (Config.sampleTree.initConfig sampleFull ⟨"lib/ui"⟩ true).fileSystem.get?
      sampleRefusedPlace = some (.file .empty) := rfl
  refine ⟨?_, hresult, hbefore, hafter⟩
  intro hunchanged
  rw [hunchanged sampleFull ⟨"lib/ui"⟩ true _ hresult, hbefore] at hafter
  exact absurd hafter (by decide)

end FileSystem

end MixinCatalog
