import Mathlib.Data.List.Nodup
import MixinCatalog.FileSystem.Walk
import MixinCatalog.Proofs.PathOrder

/-!
# Files below a root

A file below a root is spelled by joining names to the root, and each name adds one component. So
two files that a walk yields never have the same components, however the root is spelled.
-/

namespace MixinCatalog

namespace Path

/-! ### Joined paths -/

/-- The characters behind a slash in front. -/
def behindRoot : List Char → List Char
  | '/' :: cs => cs
  | cs => cs

theorem segments_eq_split (p : Path) :
    p.segments = Text.split '/' (behindRoot p.text.toList) := by
  unfold segments behindRoot
  split <;> simp_all

private theorem behindRoot_append {cs : List Char} (h : cs ≠ []) (xs : List Char) :
    behindRoot (cs ++ xs) = behindRoot cs ++ xs := by
  cases cs with
  | nil => exact absurd rfl h
  | cons c cs =>
    by_cases hc : c = '/'
    · subst hc
      rfl
    · simp [behindRoot, hc]

private theorem behindRoot_name {name : List Char} (h : IsName name) : behindRoot name = name := by
  obtain ⟨hne, _, _, hslash⟩ := h
  cases name with
  | nil => exact absurd rfl hne
  | cons c cs =>
    have hc : c ≠ '/' := fun e => hslash (by simp [e])
    simp [behindRoot, hc]

private theorem head?_name {name : List Char} (h : IsName name) : name.head? ≠ some '/' := by
  intro hhead
  exact h.2.2.2 (List.mem_of_mem_head? hhead)

theorem toList_join (p : Path) {name : String} (h : IsName name.toList) :
    (p.join name).text.toList =
      p.text.toList ++
        (if p.text.toList = [] ∨ p.text.toList.getLast? = some '/' then [] else ['/']) ++
        name.toList := by
  have hhead := head?_name h
  unfold join
  by_cases hsep : p.text.toList = [] ∨ p.text.toList.getLast? = some '/'
  · simp_all [String.isEmpty_iff]
  · simp_all [String.isEmpty_iff]

private theorem behindRoot_of_getLast? {cs : List Char} (h : cs.getLast? = some '/') :
    behindRoot cs = [] ∨ ∃ front, behindRoot cs = front ++ ['/'] := by
  obtain ⟨front, rfl⟩ := List.getLast?_eq_some_iff.mp h
  by_cases hfront : front = []
  · subst hfront
    exact .inl rfl
  · exact .inr ⟨behindRoot front, behindRoot_append hfront _⟩

theorem segments_join (p : Path) {name : String} (h : IsName name.toList) :
    ∃ ss, (p.segments = ss ∧ ss ≠ [] ∨ p.segments = ss ++ [[]]) ∧
      (p.join name).segments = ss ++ [name.toList] := by
  have hname : Text.split '/' name.toList = [name.toList] := Text.split_of_notMem h.2.2.2
  rw [segments_eq_split, segments_eq_split, toList_join p h]
  by_cases hempty : p.text.toList = []
  · simp only [hempty, true_or, if_true, List.append_nil, List.nil_append, behindRoot_name h,
      hname]
    exact ⟨[], .inr rfl, rfl⟩
  · simp only [hempty, false_or]
    by_cases hlast : p.text.toList.getLast? = some '/'
    · simp only [hlast, if_true, List.append_nil, behindRoot_append hempty]
      rcases behindRoot_of_getLast? hlast with hroot | ⟨front, hfront⟩
      · rw [hroot, List.nil_append, hname]
        exact ⟨[], .inr rfl, rfl⟩
      · rw [hfront, List.append_assoc, List.singleton_append, Text.split_append,
          Text.split_append, hname]
        exact ⟨Text.split '/' front, .inr rfl, rfl⟩
    · simp only [hlast, if_false, List.append_assoc, behindRoot_append hempty]
      rw [List.singleton_append, Text.split_append, hname]
      exact ⟨_, .inl ⟨rfl, Text.split_ne_nil '/' _⟩, rfl⟩

theorem isAbsolute_join (p : Path) {name : String} (h : IsName name.toList) :
    (p.join name).isAbsolute = p.isAbsolute := by
  unfold isAbsolute
  rw [toList_join p h]
  cases hp : p.text.toList with
  | nil => simpa using head?_name h
  | cons c cs => simp

/-- The component that a path starts with if it does not start with a name. -/
def lead (absolute : Bool) (ss : List (List Char)) : List Component :=
  if absolute then [.root] else if ss.head? = some ['.'] then [.current] else []

theorem components_eq_lead (p : Path) :
    p.components = lead p.isAbsolute p.segments ++ p.segments.filterMap componentOf := by
  unfold components lead
  by_cases habs : p.isAbsolute
  · simp [habs]
  · simp only [habs, Bool.false_eq_true, if_false]
    split
    · rename_i ss hss
      simp [hss, componentOf]
    · rename_i ss hss
      have hhead : p.segments.head? ≠ some ['.'] := by
        intro hdot
        obtain ⟨rest, hrest⟩ := List.head?_eq_some_iff.mp hdot
        exact hss rest hrest
      simp [hhead]

private theorem componentOf_name {name : List Char} (h : IsName name) :
    componentOf name = some (.normal name) := by
  simp [componentOf, h.1, h.2.1, h.2.2.1]

theorem components_join (p : Path) {name : String} (h : IsName name.toList) :
    (p.join name).components = p.components ++ [.normal name.toList] := by
  obtain ⟨ss, hp, hjoin⟩ := segments_join p h
  have hlead : lead p.isAbsolute (ss ++ [name.toList]) = lead p.isAbsolute p.segments := by
    cases ss with
    | nil =>
      obtain ⟨_, hne⟩ | hempty := hp
      · exact absurd rfl hne
      · simp [lead, hempty, h.2.1]
    | cons s ss =>
      obtain ⟨hsame, _⟩ | hempty := hp
      · simp [lead, hsame]
      · simp [lead, hempty]
  have hkept : p.segments.filterMap componentOf = ss.filterMap componentOf := by
    obtain ⟨hsame, _⟩ | hempty := hp
    · rw [hsame]
    · rw [hempty]
      simp [componentOf]
  rw [components_eq_lead, components_eq_lead, isAbsolute_join p h, hjoin, hlead, hkept,
    List.filterMap_append, List.append_assoc]
  simp [componentOf_name h]

end Path

namespace FileSystem

/-! ### Names below a root -/

theorem components_pathBelow (root : Path) (names : Place) :
    (pathBelow root names).components =
      root.components ++ names.map fun name => .normal name.text.toList := by
  induction names generalizing root with
  | nil => simp [pathBelow]
  | cons name names ih =>
    have hstep : pathBelow root (name :: names) = pathBelow (root.join name.text) names := rfl
    rw [hstep, ih, Path.components_join root name.isName]
    simp

/-- Different names lead to paths with different components. -/
theorem pathBelow_components_injective {root : Path} {names names' : Place}
    (h : (pathBelow root names).components = (pathBelow root names').components) :
    names = names' := by
  rw [components_pathBelow, components_pathBelow, List.append_cancel_left_eq] at h
  refine (List.map_inj_right ?_).mp h
  intro a b hab
  exact Name.ext (String.toList_injective (Path.Component.normal.inj hab))

private theorem below?_file_eq_some {dir names : Place} {e : Place × Entry}
    (h : (match e with
      | (place, .file _) => Place.below? dir place
      | (_, .directory) => none) = some names) :
    ∃ bytes, e = (dir ++ names, .file bytes) := by
  obtain ⟨place, entry⟩ := e
  cases entry with
  | file bytes =>
    obtain rfl := Place.below?_eq_some_iff.mp h
    exact ⟨bytes, rfl⟩
  | directory => simp at h

theorem mem_filesBelow {fs : FileSystem} {dir names : Place} :
    names ∈ fs.filesBelow dir ↔ ∃ bytes, (dir ++ names, .file bytes) ∈ fs.entries := by
  unfold filesBelow
  rw [List.mem_filterMap]
  constructor
  · rintro ⟨e, he, hnames⟩
    obtain ⟨bytes, rfl⟩ := below?_file_eq_some hnames
    exact ⟨bytes, he⟩
  · rintro ⟨bytes, he⟩
    exact ⟨_, he, Place.below?_eq_some_iff.mpr rfl⟩

theorem filesBelow_nodup (fs : FileSystem) (dir : Place) : (fs.filesBelow dir).Nodup := by
  have hplaces : fs.entries.Pairwise fun a b => a.1 ≠ b.1 := List.pairwise_map.mp fs.distinct
  refine hplaces.filterMap _ ?_
  intro a b hab names ha names' hb hnames
  obtain ⟨bytes, rfl⟩ := below?_file_eq_some ha
  obtain ⟨bytes', rfl⟩ := below?_file_eq_some hb
  exact hab (by rw [hnames])

/-! ### Following joined paths -/

private theorem step_empty_bind (fs : FileSystem) (place : Place) (name : List Char) :
    (fs.step place [] >>= fun place => fs.step place name) = fs.step place name := by
  unfold step
  cases hentry : fs.get? place with
  | none => rfl
  | some entry =>
    cases entry with
    | file bytes => rfl
    | directory => simp [bind, Except.bind, hentry]

theorem resolve_join (fs : FileSystem) {p : Path} (hp : p.text.toList ≠ []) (name : Name) :
    fs.resolve (p.join name.text) =
      (fs.resolve p >>= fun place => fs.step place name.text.toList) := by
  have hjoin : (p.join name.text).text.toList ≠ [] := by simp [Path.toList_join p name.isName, hp]
  have hstart : fs.start (p.join name.text) = fs.start p := by
    simp only [start, Path.isAbsolute_join p name.isName]
  obtain ⟨ss, hss, hsegments⟩ := Path.segments_join p name.isName
  unfold resolve
  rw [hstart, hsegments, List.foldlM_append]
  simp only [String.isEmpty_iff, ← String.toList_eq_nil_iff, hp, hjoin, if_false]
  obtain ⟨hsame, _⟩ | hempty := hss
  · rw [hsame]
    simp
  · rw [hempty, List.foldlM_append, bind_assoc]
    simp [step_empty_bind]

private theorem resolve_pathBelow (fs : FileSystem) {root : Path} (hroot : root.text.toList ≠ [])
    (names : Place) :
    fs.resolve (pathBelow root names) =
      (fs.resolve root >>= fun place =>
        names.foldlM (fun place name => fs.step place name.text.toList) place) := by
  induction names generalizing root with
  | nil => simp [pathBelow]
  | cons name names ih =>
    have hstep : pathBelow root (name :: names) = pathBelow (root.join name.text) names := rfl
    have hjoin : (root.join name.text).text.toList ≠ [] := by
      simp [Path.toList_join root name.isName, hroot]
    rw [hstep, ih hjoin, fs.resolve_join hroot, bind_assoc]
    rfl

private theorem eq_append_of_step_eq_ok {fs : FileSystem} {place place' : Place} {name : Name}
    (h : fs.step place name.text.toList = .ok place') : place' = place ++ [name] := by
  obtain ⟨hne, hdot, hdots, _⟩ := name.isName
  unfold step at h
  cases hentry : fs.get? place with
  | none => simp [hentry] at h
  | some entry =>
    cases entry with
    | file bytes => simp [hentry] at h
    | directory =>
      simp only [hentry, hne, hdot, hdots, Name.ofChars?_toList, decide_false, Bool.or_self,
        Bool.false_eq_true, if_false, Except.ok.injEq] at h
      exact h.symm

private theorem eq_append_of_foldlM_step_eq_ok {fs : FileSystem} {place place' names : Place}
    (h : names.foldlM (fun place name => fs.step place name.text.toList) place = .ok place') :
    place' = place ++ names := by
  induction names generalizing place with
  | nil =>
    obtain rfl : place = place' := Except.ok.inj h
    simp
  | cons name names ih =>
    rw [List.foldlM_cons] at h
    cases hstep : fs.step place name.text.toList with
    | error e => simp [hstep, bind, Except.bind] at h
    | ok next =>
      obtain rfl := eq_append_of_step_eq_ok hstep
      have hrest := ih (by simpa [hstep, bind, Except.bind] using h)
      rw [hrest]
      simp

private theorem get?_of_mem {fs : FileSystem} {place : Place} {entry : Entry} (hne : place ≠ [])
    (h : (place, entry) ∈ fs.entries) : fs.get? place = some entry := by
  have hget : fs.get? place = (fs.entries.find? (·.1 == place)).map (·.2) := by
    cases place with
    | nil => exact absurd rfl hne
    | cons name names => rfl
  cases hfind : fs.entries.find? (·.1 == place) with
  | none =>
    have hnone := List.find?_eq_none.mp hfind _ h
    simp at hnone
  | some e =>
    have hplace : e.1 = place := by simpa using List.find?_some hfind
    have heq := List.inj_on_of_nodup_map fs.distinct (List.mem_of_find?_eq_some hfind) h hplace
    rw [hget, hfind, heq]
    rfl

theorem exists_place_of_lookup {fs : FileSystem} {p : Path} {entry : Entry}
    (h : fs.lookup p = .ok entry) :
    ∃ place, fs.resolve p = .ok place ∧ fs.get? place = some entry := by
  unfold lookup at h
  cases hplace : fs.resolve p with
  | error e => simp [hplace] at h
  | ok place =>
    cases hentry : fs.get? place with
    | none => simp [hplace, hentry] at h
    | some found =>
      obtain rfl : found = entry := by simpa [hplace, hentry] using h
      exact ⟨place, rfl, hentry⟩

private theorem fromUTF8?_of_read_pathBelow {fs : FileSystem} {root : Path} {place names : Place}
    {bytes : ByteArray} {text : String} (hroot : fs.resolve root = .ok place)
    (hfile : (place ++ names, .file bytes) ∈ fs.entries)
    (hread : fs.read (pathBelow root names) = .ok text) :
    String.fromUTF8? bytes = some text := by
  have hspelled : root.text.toList ≠ [] := by
    intro hempty
    simp [resolve, String.isEmpty_iff, ← String.toList_eq_nil_iff, hempty] at hroot
  unfold read at hread
  cases hlookup : fs.lookup (pathBelow root names) with
  | error e => simp [hlookup] at hread
  | ok entry =>
    obtain ⟨target, htarget, hentry⟩ := exists_place_of_lookup hlookup
    rw [fs.resolve_pathBelow hspelled, hroot] at htarget
    obtain rfl := eq_append_of_foldlM_step_eq_ok htarget
    cases entry with
    | directory => simp [hlookup] at hread
    | file found =>
      have hne : place ++ names ≠ [] := by
        intro htop
        simp [htop, get?] at hentry
      have hsame := hentry.symm.trans (get?_of_mem hne hfile)
      obtain rfl : found = bytes := by simpa using hsame
      simp only [hlookup] at hread
      split at hread
      · rename_i decoded hdecoded
        obtain rfl : decoded = text := by simpa using hread
        exact hdecoded
      · simp at hread

/-! ### The files of a walk -/

/-- The walk of a root yields the file that some names lead to: it stands below the root, and
neither the file nor a directory on the way to it is hidden. -/
def Yields (fs : FileSystem) (root : Path) (names : Place) (bytes : ByteArray) : Prop :=
  ∃ place, fs.resolve root = .ok place ∧ (place ++ names, .file bytes) ∈ fs.entries ∧
    fs.isVisible place names = true

theorem Yields.fromUTF8?_of_read {fs : FileSystem} {root : Path} {names : Place}
    {bytes : ByteArray} {text : String} (h : fs.Yields root names bytes)
    (hread : fs.read (pathBelow root names) = .ok text) : String.fromUTF8? bytes = some text := by
  obtain ⟨place, hroot, hfile, _⟩ := h
  exact fromUTF8?_of_read_pathBelow hroot hfile hread

/-- The walk of a directory succeeds. It yields each visible file once, and no two of them have the
same components. -/
theorem visibleFiles_of_directory {fs : FileSystem} {root : Path}
    (hroot : fs.lookup root = .ok .directory) :
    ∃ files, fs.visibleFiles root = .ok files ∧
      (∀ p, p ∈ files ↔ ∃ names bytes, fs.Yields root names bytes ∧ p = pathBelow root names) ∧
      files.Pairwise fun p q => p.components ≠ q.components := by
  obtain ⟨place, hplace, hentry⟩ := exists_place_of_lookup hroot
  refine ⟨((fs.filesBelow place).filter (fs.isVisible place)).map (pathBelow root), ?_, ?_, ?_⟩
  · simp only [visibleFiles, hplace, hentry]
  · intro p
    simp only [Yields, List.mem_map, List.mem_filter, mem_filesBelow]
    constructor
    · rintro ⟨names, ⟨⟨bytes, he⟩, hvisible⟩, rfl⟩
      exact ⟨names, bytes, ⟨place, hplace, he, hvisible⟩, rfl⟩
    · rintro ⟨names, bytes, ⟨place', hplace', he, hvisible⟩, rfl⟩
      obtain rfl : place = place' := Except.ok.inj (hplace.symm.trans hplace')
      exact ⟨names, ⟨⟨bytes, he⟩, hvisible⟩, rfl⟩
  · rw [List.pairwise_map]
    have hnodup := (fs.filesBelow_nodup place).filter (fs.isVisible place)
    exact hnodup.imp fun hne heq => hne (pathBelow_components_injective heq)

end FileSystem

end MixinCatalog
