import MixinCatalog.Proofs.Selection

/-!
# How a root is spelled

Two spellings of a directory lead to the same files in the same order, but an ignore pattern is
matched against a path as it is spelled, the root in front included. So a walk can tell `src` from
`./src`, and it does so exactly where a pattern does. A pattern that starts with `**/` does not, as
long as what follows does not ask for a dot and a slash.
-/

namespace MixinCatalog

namespace Path

/-! ### A dot in front -/

/-- A path with the current directory spelled in front of it. -/
def dotted (p : Path) : Path := ⟨"./" ++ p.text⟩

private theorem toList_dotted (p : Path) : p.dotted.text.toList = '.' :: '/' :: p.text.toList := by
  simp [dotted]

private theorem isAbsolute_dotted (p : Path) : p.dotted.isAbsolute = false := by
  simp [isAbsolute, toList_dotted]

private theorem segments_of_relative {p : Path} (h : p.isAbsolute = false) :
    p.segments = Text.split '/' p.text.toList := by
  unfold segments
  split
  · rename_i cs hcs
    simp [isAbsolute, hcs] at h
  · rfl

private theorem segments_dotted {p : Path} (h : p.isAbsolute = false) :
    p.dotted.segments = ['.'] :: p.segments := by
  rw [segments_of_relative p.isAbsolute_dotted, segments_of_relative h, toList_dotted]
  exact Text.split_append_separator (s := ['.']) (by simp) _

private theorem segments_ne_nil (p : Path) : p.segments ≠ [] := by
  unfold segments
  split
  · exact Text.split_ne_nil _ _
  · exact Text.split_ne_nil _ _

private theorem components_of_relative {p : Path} (h : p.isAbsolute = false) :
    p.components = p.segments.filterMap componentOf ∨
      p.components = .current :: p.segments.filterMap componentOf := by
  unfold components
  simp only [h, Bool.false_eq_true, if_false]
  split
  · rename_i ss hss
    rw [hss]
    exact .inr rfl
  · exact .inl rfl

/-- The name that a component is. -/
def Component.name? : Component → Option (List Char)
  | .normal name => some name
  | _ => none

theorem fileName?_eq (p : Path) : p.fileName? = p.components.getLast?.bind Component.name? := by
  unfold fileName?
  cases p.components.getLast? with
  | none => rfl
  | some c => cases c <;> rfl

private theorem fileName?_of_relative {p : Path} (h : p.isAbsolute = false) :
    p.fileName? = (p.segments.filterMap componentOf).getLast?.bind Component.name? := by
  rw [fileName?_eq]
  obtain hnone | hdot := components_of_relative h
  · rw [hnone]
  · rw [hdot, List.getLast?_cons]
    cases (p.segments.filterMap componentOf).getLast? with
    | none => rfl
    | some c => rfl

private theorem fileName?_dotted {p : Path} (h : p.isAbsolute = false) :
    p.dotted.fileName? = p.fileName? := by
  rw [fileName?_of_relative p.isAbsolute_dotted, fileName?_of_relative h, segments_dotted h]
  rfl

theorem dotted_join {p : Path} (hp : p.text.toList ≠ []) {name : String} (h : IsName name.toList) :
    p.dotted.join name = (p.join name).dotted := by
  have htext : (p.dotted.join name).text = (p.join name).dotted.text := by
    apply String.toList_injective
    rw [toList_join _ h, toList_dotted, toList_dotted, toList_join _ h]
    simp [hp, List.getLast?_cons, List.getLast?_eq_some_getLast hp]
  exact congrArg Path.mk htext

/-! ### The order below a root -/

private theorem compareComponents_append_left (front a b : List Component) :
    compareComponents (front ++ a) (front ++ b) = compareComponents a b := by
  induction front with
  | nil => rfl
  | cons c front ih =>
    have hself : c.order c = .eq := Std.ReflCmp.compare_self
    rw [List.cons_append, List.cons_append, compareComponents, hself, ih]
    rfl

end Path

private theorem Language.ofPath_dotted {p : Path} (h : p.isAbsolute = false) :
    Language.ofPath p.dotted = Language.ofPath p := by
  rw [Language.ofPath, Language.ofPath, Path.extension?, Path.extension?, Path.fileName?_dotted h]

private theorem isEnabled_dotted {p : Path} (h : p.isAbsolute = false) (languages : List Language) :
    isEnabled languages p.dotted = isEnabled languages p := by
  rw [isEnabled, isEnabled, Language.ofPath_dotted h]

/-! ### Walks of a dotted root -/

namespace FileSystem

private theorem foldlM_step_dot (fs : FileSystem) (place : Place) {segments : List (List Char)}
    (h : segments ≠ []) :
    (['.'] :: segments).foldlM fs.step place = segments.foldlM fs.step place := by
  cases segments with
  | nil => exact absurd rfl h
  | cons segment segments =>
    rw [List.foldlM_cons, List.foldlM_cons]
    unfold step
    cases hentry : fs.get? place with
    | none => rfl
    | some entry =>
      cases entry with
      | file bytes => rfl
      | directory => simp [bind, Except.bind, hentry]

private theorem resolve_dotted (fs : FileSystem) {p : Path} (hp : p.text.toList ≠ [])
    (h : p.isAbsolute = false) : fs.resolve p.dotted = fs.resolve p := by
  have hdotted : p.dotted.text.toList ≠ [] := by simp [Path.toList_dotted]
  have hstart : fs.start p.dotted = fs.start p := by
    simp only [start, p.isAbsolute_dotted, h]
  unfold resolve
  simp only [String.isEmpty_iff, ← String.toList_eq_nil_iff, hp, hdotted, if_false, hstart,
    Path.segments_dotted h]
  exact fs.foldlM_step_dot _ p.segments_ne_nil

private theorem pathBelow_dotted {root : Path} (hroot : root.text.toList ≠ []) (names : Place) :
    pathBelow root.dotted names = (pathBelow root names).dotted := by
  induction names generalizing root with
  | nil => rfl
  | cons name names ih =>
    have hjoin : (root.join name.text).text.toList ≠ [] := by
      simp [Path.toList_join root name.isName, hroot]
    have hstep (p : Path) : pathBelow p (name :: names) = pathBelow (p.join name.text) names := rfl
    rw [hstep, hstep, Path.dotted_join hroot name.isName, ih hjoin]

private theorem isAbsolute_pathBelow (root : Path) (names : Place) :
    (pathBelow root names).isAbsolute = root.isAbsolute := by
  induction names generalizing root with
  | nil => rfl
  | cons name names ih =>
    have hstep : pathBelow root (name :: names) = pathBelow (root.join name.text) names := rfl
    rw [hstep, ih, Path.isAbsolute_join root name.isName]

private theorem sortOn_pathBelow (root root' : Path) (files : List Place) :
    Path.sortOn (pathBelow root) files = Path.sortOn (pathBelow root') files := by
  have hle (root : Path) (a b : Place) : (pathBelow root a).le (pathBelow root b) =
      (Path.compareComponents (a.map fun name => .normal name.text.toList)
        (b.map fun name => .normal name.text.toList)).isLE := by
    rw [Path.le, components_pathBelow, components_pathBelow, Path.compareComponents_append_left]
  unfold Path.sortOn
  simp only [hle]

/-- All spellings of a directory lead to the same names in the same order. What is selected depends
on the spelling. -/
theorem walk_of_spellings {fs : FileSystem} {root : Path}
    (hroot : fs.lookup root = .ok .directory) :
    ∃ found : List Place, (∀ names, names ∈ found ↔ ∃ bytes, fs.Yields root names bytes) ∧
      ∀ root' languages patterns, fs.resolve root' = fs.resolve root → AllPatterns patterns →
        fs.walk root' languages patterns =
          .ok ((found.filter fun names => isSelected languages patterns (pathBelow root' names)).map
            (pathBelow root')) := by
  obtain ⟨place, hplace, hentry⟩ := exists_place_of_lookup hroot
  let below := (fs.filesBelow place).filter (fs.isVisible place)
  have hdistinct (root' : Path) : ∀ a ∈ below, ∀ b ∈ below,
      (pathBelow root' a).components = (pathBelow root' b).components → a = b :=
    fun a _ b _ h => pathBelow_components_injective h
  refine ⟨Path.sortOn (pathBelow root) below, ?_, ?_⟩
  · intro names
    simp only [below, (Path.sortOn_perm _ _).mem_iff, List.mem_filter, mem_filesBelow, Yields]
    constructor
    · rintro ⟨⟨bytes, hfile⟩, hvisible⟩
      exact ⟨bytes, place, hplace, hfile, hvisible⟩
    · rintro ⟨bytes, place', hplace', hfile, hvisible⟩
      obtain rfl : place = place' := Except.ok.inj (hplace.symm.trans hplace')
      exact ⟨⟨bytes, hfile⟩, hvisible⟩
  · intro root' languages patterns hspelled hpatterns
    have hfiles : fs.visibleFiles root' = .ok (below.map (pathBelow root')) := by
      simp only [visibleFiles, hspelled, hplace, hentry, below]
    have hsorted (files : List Place) : Path.sortOn id (files.map (pathBelow root')) =
        (Path.sortOn (pathBelow root') files).map (pathBelow root') :=
      Path.sortOn_map (fun _ => rfl) files
    rw [walk_of_visibleFiles hpatterns hfiles, sortOn_pathBelow root root',
      ← Path.sortOn_filter _ (hdistinct _), ← hsorted]
    simp only [List.filter_map, Function.comp_def]

end FileSystem

/-! ### Patterns that can stand anywhere -/

/-- A pattern that starts with any components, where what follows accepts a text behind a dot and a
slash only if it accepts the text alone. -/
def Glob.IsFloating (g : Glob) : Prop :=
  ∃ ts, g.tokens = .anyComponents :: ts ∧
    ∀ cs, accepts ts ('.' :: '/' :: cs) = true → accepts ts cs = true

private theorem Glob.IsFloating.isMatch_dotted {g : Glob} (h : g.IsFloating) (p : Path) :
    g.isMatch p.dotted.text = g.isMatch p.text := by
  obtain ⟨ts, htokens, hdot⟩ := h
  -- the text behind the new slash is the old text, which was tried already
  have hbehind (cs : List Char) : behindSlashes ('.' :: '/' :: cs) = cs :: behindSlashes cs := rfl
  have hkept := hdot p.text.toList
  simp only [isMatch, htokens, Path.toList_dotted, accepts, hbehind, List.cons_append,
    List.any_cons]
  cases hfirst : accepts ts ('.' :: '/' :: p.text.toList) with
  | false => simp
  | true => simp [hkept hfirst]

theorem filter_eq_filter_iff {α : Type} {keep keep' : α → Bool} {xs : List α} :
    xs.filter keep = xs.filter keep' ↔ ∀ a ∈ xs, keep a = keep' a := by
  constructor
  · intro h a ha
    have hmem : a ∈ xs.filter keep ↔ a ∈ xs.filter keep' := by rw [h]
    simp only [List.mem_filter, ha, true_and] at hmem
    exact Bool.eq_iff_iff.mpr hmem
  · exact List.filter_congr

private theorem isIgnored_dotted {patterns : List String}
    (h : ∀ pattern ∈ patterns, ∀ g, Glob.parse pattern = .ok g → g.IsFloating) (p : Path) :
    isIgnored patterns p.dotted = isIgnored patterns p := by
  rw [Bool.eq_iff_iff, isIgnored_eq_true_iff, isIgnored_eq_true_iff]
  refine exists_congr fun pattern => and_congr_right fun hpattern => exists_congr fun g =>
    and_congr_right fun hparse => ?_
  rw [(h pattern hpattern g hparse).isMatch_dotted]

namespace FileSystem

/-- Whether a directory is spelled with a dot in front or not, the walk finds the same files in the
same order, by the names that lead to them from the root; only the patterns see the dot. So the two
walks select the same names exactly if the patterns agree on the two spellings of every file that
is found in an enabled language, as they do if they can all stand anywhere. -/
theorem dotted_root_selects_same_iff (fs : FileSystem) (root : Path) (languages : List Language)
    (patterns : List String) (hroot : fs.lookup root = .ok .directory)
    (hrelative : root.isAbsolute = false) (hpatterns : AllPatterns patterns) :
    ∃ found names names' : List Place,
      fs.walk root languages patterns = .ok (names.map (pathBelow root)) ∧
      fs.walk root.dotted languages patterns = .ok (names'.map (pathBelow root.dotted)) ∧
      (∀ place, pathBelow root.dotted place = (pathBelow root place).dotted) ∧
      (∀ place, place ∈ found ↔ (∃ bytes, fs.Yields root place bytes) ∧
        isEnabled languages (pathBelow root place) = true) ∧
      names = found.filter (fun place => !isIgnored patterns (pathBelow root place)) ∧
      names' = found.filter (fun place => !isIgnored patterns (pathBelow root place).dotted) ∧
      (names' = names ↔ ∀ place ∈ found,
        isIgnored patterns (pathBelow root place).dotted =
          isIgnored patterns (pathBelow root place)) ∧
      ((∀ pattern ∈ patterns, ∀ g, Glob.parse pattern = .ok g → g.IsFloating) →
        names' = names) := by
  obtain ⟨all, hall, hwalks⟩ := walk_of_spellings hroot
  have hspelled : root.text.toList ≠ [] := by
    intro hempty
    simp [lookup, resolve, String.isEmpty_iff, ← String.toList_eq_nil_iff, hempty] at hroot
  have hbelow (place : Place) := pathBelow_dotted hspelled place
  let found := all.filter fun place => isEnabled languages (pathBelow root place)
  have hselected : (all.filter fun place => isSelected languages patterns (pathBelow root place)) =
      found.filter fun place => !isIgnored patterns (pathBelow root place) := by
    rw [List.filter_filter]
    refine List.filter_congr fun place _ => ?_
    rw [isSelected, Bool.and_comm]
  have hselected' : (all.filter fun place =>
        isSelected languages patterns (pathBelow root.dotted place)) =
      found.filter fun place => !isIgnored patterns (pathBelow root place).dotted := by
    rw [List.filter_filter]
    refine List.filter_congr fun place _ => ?_
    have hplace : (pathBelow root place).isAbsolute = false := by
      rw [isAbsolute_pathBelow, hrelative]
    rw [isSelected, hbelow, isEnabled_dotted hplace, Bool.and_comm]
  refine ⟨found, _, _, ?_, ?_, hbelow, ?_, rfl, rfl, ?_, ?_⟩
  · rw [hwalks root languages patterns rfl hpatterns, hselected]
  · rw [hwalks root.dotted languages patterns (fs.resolve_dotted hspelled hrelative) hpatterns,
      hselected']
  · intro place
    simp only [found, List.mem_filter, hall]
  · simp only [filter_eq_filter_iff, Bool.not_inj_iff]
  · intro hfloating
    refine List.filter_congr fun place _ => ?_
    rw [isIgnored_dotted hfloating]

/-- Patterns that can stand anywhere leave out the same files below both spellings. -/
theorem sampleProject_selects_same :
    sampleProject.lookup ⟨"src"⟩ = .ok .directory ∧ Path.isAbsolute ⟨"src"⟩ = false ∧
    AllPatterns ["**/a/**", "**/*.min.js"] ∧
    ∃ names : List Place,
      sampleProject.walk ⟨"src"⟩ [.javaScript] ["**/a/**", "**/*.min.js"] =
        .ok (names.map (pathBelow ⟨"src"⟩)) ∧
      sampleProject.walk ⟨"./src"⟩ [.javaScript] ["**/a/**", "**/*.min.js"] =
        .ok (names.map (pathBelow ⟨"./src"⟩)) := by
  have hroot : sampleProject.lookup ⟨"src"⟩ = .ok .directory := rfl
  have hdirectory : Glob.parse "**/a/**" =
      .ok ⟨.anyComponents :: "a/".toList.map .char ++ [.anyComponents]⟩ := by cbv
  have hsuffix : Glob.parse "**/*.min.js" =
      .ok ⟨.anyComponents :: .anyText :: ".min.js".toList.map .char⟩ := by cbv
  have hpatterns : AllPatterns ["**/a/**", "**/*.min.js"] := by
    simp [AllPatterns, hdirectory, hsuffix]
  have hfloating : ∀ pattern ∈ ["**/a/**", "**/*.min.js"], ∀ g,
      Glob.parse pattern = .ok g → g.IsFloating := by
    simp only [List.forall_mem_cons, hdirectory, hsuffix, Except.ok.injEq, forall_eq']
    refine ⟨⟨_, rfl, ?_⟩, ⟨_, rfl, ?_⟩, by simp⟩
    · intro cs
      simp [Glob.accepts]
    · intro cs
      simp [Glob.accepts, Glob.suffixes]
  obtain ⟨_, names, names', hwalk, hwalk', _, _, _, _, _, hsame⟩ :=
    dotted_root_selects_same_iff sampleProject ⟨"src"⟩ [.javaScript] _ hroot rfl hpatterns
  rw [hsame hfloating] at hwalk'
  exact ⟨hroot, rfl, hpatterns, names, hwalk, hwalk'⟩

/-- A pattern that spells the root out leaves a file out below one spelling and not below the
other. -/
theorem sampleProject_sees_dot :
    sampleProject.lookup ⟨"src"⟩ = .ok .directory ∧ Path.isAbsolute ⟨"src"⟩ = false ∧
    AllPatterns ["src/a/*"] ∧
    sampleProject.walk ⟨"src"⟩ [.javaScript] ["src/a/*"] = .ok [⟨"src/a.js"⟩, ⟨"src/c.js"⟩] ∧
    sampleProject.walk ⟨"./src"⟩ [.javaScript] ["src/a/*"] =
      .ok [⟨"./src/a/b.js"⟩, ⟨"./src/a.js"⟩, ⟨"./src/c.js"⟩] := by
  have hpattern : Glob.parse "src/a/*" = .ok ⟨"src/a/".toList.map .char ++ [.anyText]⟩ := by cbv
  have hpatterns : AllPatterns ["src/a/*"] := by simp [AllPatterns, hpattern]
  have hselected : isSelected [.javaScript] ["src/a/*"] = fun p => isEnabled [.javaScript] p &&
      !Glob.isMatch ⟨"src/a/".toList.map .char ++ [.anyText]⟩ p.text := by
    funext p
    simp [isSelected, isIgnored, hpattern]
  have hfiles : sampleProject.visibleFiles ⟨"src"⟩ =
      .ok [⟨"src/a.d.ts"⟩, ⟨"src/a.js"⟩, ⟨"src/a/b.js"⟩, ⟨"src/c.js"⟩] := rfl
  have hfiles' : sampleProject.visibleFiles ⟨"./src"⟩ =
      .ok [⟨"./src/a.d.ts"⟩, ⟨"./src/a.js"⟩, ⟨"./src/a/b.js"⟩, ⟨"./src/c.js"⟩] := rfl
  refine ⟨rfl, rfl, hpatterns, ?_, ?_⟩
  · rw [walk_of_visibleFiles hpatterns hfiles, hselected]
    refine congrArg Except.ok (Path.sortOn_eq_of_pairwise ?_ ?_ ?_) <;> decide
  · rw [walk_of_visibleFiles hpatterns hfiles', hselected]
    refine congrArg Except.ok (Path.sortOn_eq_of_pairwise ?_ ?_ ?_) <;> decide

end FileSystem

end MixinCatalog
