import Mathlib.Data.List.Chain
import Mathlib.Data.List.Infix
import Mathlib.Data.Set.List
import MixinCatalog.Proofs.Walk

/-!
# The way up from a path

Going up takes the last component away and leaves the shortest beginning of the spelling that has
all the others. Each step has one component less, so the way up is finite however long it may be,
and a bounded search sees its first paths. From an absolute path it passes every directory above
and ends at the root.
-/

namespace MixinCatalog

namespace Path

variable {p q r : Path}

/-! ### What segments denote -/

theorem componentOf_eq_none_iff (s : List Char) : componentOf s = none ↔ s = [] ∨ s = ['.'] := by
  by_cases hidle : s = [] ∨ s = ['.']
  · simp [componentOf, hidle]
  · by_cases hparent : s = ['.', '.']
    · simp [componentOf, hparent]
    · simp_all [componentOf]

theorem componentOf_injective {s t : List Char} {c : Component} (hs : componentOf s = some c)
    (ht : componentOf t = some c) : s = t := by
  unfold componentOf at hs ht
  grind

/-- A component that a segment can denote, wherever it stands. -/
def Component.isInner : Component → Bool
  | .root => false
  | .current => false
  | .parent => true
  | .normal _ => true

private theorem isInner_of_componentOf {s : List Char} {c : Component}
    (h : componentOf s = some c) : c.isInner = true := by
  unfold componentOf at h
  grind [Component.isInner]

private theorem isInner_of_mem {ss : List (List Char)} {c : Component}
    (h : c ∈ ss.filterMap componentOf) : c.isInner = true := by
  obtain ⟨s, _, hs⟩ := List.mem_filterMap.mp h
  exact isInner_of_componentOf hs

/-- The components that segments denote. -/
def denoted (absolute : Bool) (ss : List (List Char)) : List Component :=
  lead absolute ss ++ ss.filterMap componentOf

private theorem components_eq_denoted (p : Path) : p.components = denoted p.isAbsolute p.segments :=
  p.components_eq_lead

private theorem filter_isInner_lead (absolute : Bool) (ss : List (List Char)) :
    (lead absolute ss).filter Component.isInner = [] := by
  unfold lead
  split
  · rfl
  · split <;> rfl

private theorem filter_isInner_components (p : Path) :
    p.components.filter Component.isInner = p.segments.filterMap componentOf := by
  rw [components_eq_lead, List.filter_append, filter_isInner_lead, List.nil_append,
    List.filter_eq_self]
  intro c hc
  exact isInner_of_mem hc

theorem root_mem_components_iff (p : Path) : .root ∈ p.components ↔ p.isAbsolute = true := by
  have hinner : .root ∉ p.segments.filterMap componentOf := by
    intro hroot
    exact absurd (isInner_of_mem hroot) (by simp [Component.isInner])
  rw [components_eq_lead, List.mem_append, or_iff_left hinner]
  unfold lead
  cases p.isAbsolute with
  | true => simp
  | false => by_cases hdot : p.segments.head? = some ['.'] <;> simp [hdot]

theorem lead_append {ss : List (List Char)} (h : ss ≠ []) (absolute : Bool)
    (ts : List (List Char)) : lead absolute (ss ++ ts) = lead absolute ss := by
  cases ss with
  | nil => exact absurd rfl h
  | cons s ss => simp [lead]

theorem isIdle_iff (absolute first : Bool) (s : List Char) :
    isIdle absolute first s = true ↔
      componentOf s = none ∧ (s = ['.'] → absolute = true ∨ first = false) := by
  rw [componentOf_eq_none_iff]
  by_cases hempty : s = []
  · simp [isIdle, hempty]
  · by_cases hdot : s = ['.']
    · simp [isIdle, hdot]
    · simp [isIdle, hempty, hdot]

private theorem componentOf_of_not_isIdle {absolute : Bool} {ss : List (List Char)} {s : List Char}
    (h : isIdle absolute ss.isEmpty s = false) :
    componentOf s ≠ none ∨ s = ['.'] ∧ absolute = false ∧ ss = [] := by
  by_cases hs : componentOf s = none
  · right
    have hidle := (isIdle_iff absolute ss.isEmpty s).not.mp (by simp [h])
    simpa [hs] using hidle
  · exact .inl hs

private theorem denoted_concat_of_isIdle {absolute : Bool} {ss : List (List Char)} {s : List Char}
    (h : isIdle absolute ss.isEmpty s = true) :
    denoted absolute (ss ++ [s]) = denoted absolute ss := by
  obtain ⟨hnone, hdot⟩ := (isIdle_iff _ _ _).mp h
  have hlead : lead absolute (ss ++ [s]) = lead absolute ss := by
    cases ss with
    | nil => by_cases hs : s = ['.'] <;> simp_all [lead]
    | cons t ss => exact lead_append (by simp) _ _
  simp [denoted, hlead, hnone]

private theorem exists_denoted_concat {absolute : Bool} {ss : List (List Char)} {s : List Char}
    (h : isIdle absolute ss.isEmpty s = false) :
    ∃ c, c ≠ .root ∧ denoted absolute (ss ++ [s]) = denoted absolute ss ++ [c] := by
  rcases componentOf_of_not_isIdle h with hs | ⟨rfl, rfl, rfl⟩
  · obtain ⟨c, hc⟩ := Option.ne_none_iff_exists'.mp hs
    have hroot : c ≠ .root := by
      intro hroot
      simpa [hroot, Component.isInner] using isInner_of_componentOf hc
    have hdot : s ≠ ['.'] := by
      intro hdot
      simp [hdot, componentOf] at hc
    have hlead : lead absolute (ss ++ [s]) = lead absolute ss := by
      cases ss with
      | nil => simp [lead, hdot]
      | cons t ss => exact lead_append (by simp) _ _
    exact ⟨c, hroot, by simp [denoted, hlead, hc]⟩
  · exact ⟨.current, by simp, rfl⟩

/-! ### Segments at the end that denote nothing -/

private theorem trimIdle_concat (absolute : Bool) (ss : List (List Char)) (s : List Char) :
    trimIdle absolute (ss ++ [s]) =
      if isIdle absolute ss.isEmpty s then trimIdle absolute ss else ss ++ [s] := by
  cases ss with
  | nil => simp [trimIdle]
  | cons t ss =>
    by_cases hidle : isIdle absolute false s = true
    · simp [trimIdle, hidle]
    · simp [trimIdle, hidle]

private theorem trimIdle_isPrefix (absolute : Bool) (ss : List (List Char)) :
    trimIdle absolute ss <+: ss := by
  induction ss using List.reverseRecOn with
  | nil => simp [trimIdle]
  | append_singleton ss s ih =>
    rw [trimIdle_concat]
    split
    · exact ih.trans (List.prefix_append ss [s])
    · exact List.prefix_rfl

private theorem denoted_trimIdle (absolute : Bool) (ss : List (List Char)) :
    denoted absolute (trimIdle absolute ss) = denoted absolute ss := by
  induction ss using List.reverseRecOn with
  | nil => rfl
  | append_singleton ss s ih =>
    rw [trimIdle_concat]
    split
    · rename_i hidle
      rw [ih, denoted_concat_of_isIdle hidle]
    · rfl

/-- Segments that do not end in an idle one. -/
def IsTrimmed (absolute : Bool) (ss : List (List Char)) : Prop :=
  ss = [] ∨ ∃ front s, ss = front ++ [s] ∧ isIdle absolute front.isEmpty s = false

private theorem isTrimmed_trimIdle (absolute : Bool) (ss : List (List Char)) :
    IsTrimmed absolute (trimIdle absolute ss) := by
  induction ss using List.reverseRecOn with
  | nil => exact .inl rfl
  | append_singleton ss s ih =>
    rw [trimIdle_concat]
    split
    · exact ih
    · rename_i hidle
      exact .inr ⟨ss, s, rfl, by simpa using hidle⟩

/-! ### Spelling segments -/

private theorem toList_text (p : Path) :
    p.text.toList = (if p.isAbsolute then ['/'] else []) ++ behindRoot p.text.toList := by
  unfold isAbsolute
  cases p.text.toList with
  | nil => rfl
  | cons c cs =>
    by_cases hc : c = '/'
    · simp [hc, behindRoot]
    · simp [hc, behindRoot]

private theorem toList_ofSegments (absolute : Bool) (ss : List (List Char)) :
    (ofSegments absolute ss).text.toList =
      (if absolute then ['/'] else []) ++ Text.join '/' ss := by
  simp [ofSegments]

private theorem isAbsolute_of_isPrefix (h : q.text.toList <+: p.text.toList)
    (hq : q.isAbsolute = true) : p.isAbsolute = true := by
  obtain ⟨rest, hrest⟩ := h
  simp only [isAbsolute, beq_iff_eq] at hq ⊢
  simp [← hrest, List.head?_append, hq]

section FirstSegments

variable {ss : List (List Char)} (h : ss <+: p.segments)
include h

private theorem ofSegments_isPrefix :
    (ofSegments p.isAbsolute ss).text.toList <+: p.text.toList := by
  rw [toList_ofSegments, toList_text p, List.prefix_append_right_inj,
    ← Text.join_split '/' (behindRoot p.text.toList), ← segments_eq_split]
  exact Text.join_isPrefix '/' h

private theorem isAbsolute_ofSegments : (ofSegments p.isAbsolute ss).isAbsolute = p.isAbsolute := by
  have hbegin := ofSegments_isPrefix h
  cases habs : p.isAbsolute with
  | true => simp [isAbsolute, toList_ofSegments]
  | false =>
    rw [habs] at hbegin
    cases hroot : (ofSegments false ss).isAbsolute with
    | false => rfl
    | true => exact absurd (isAbsolute_of_isPrefix hbegin hroot) (by simp [habs])

private theorem segments_ofSegments :
    (ofSegments p.isAbsolute ss).segments = if ss = [] then [[]] else ss := by
  have hroot := toList_text (ofSegments p.isAbsolute ss)
  rw [isAbsolute_ofSegments h, toList_ofSegments, List.append_cancel_left_eq] at hroot
  rw [segments_eq_split, toList_ofSegments, ← hroot]
  by_cases hss : ss = []
  · simp [hss, Text.join, Text.split]
  · rw [if_neg hss]
    apply Text.split_join hss
    intro s hs
    rw [segments_eq_split] at h
    exact Text.notMem_of_mem_split (h.subset hs)

private theorem components_ofSegments :
    (ofSegments p.isAbsolute ss).components = denoted p.isAbsolute ss := by
  rw [components_eq_denoted, isAbsolute_ofSegments h, segments_ofSegments h]
  by_cases hss : ss = []
  · have hidle : isIdle p.isAbsolute ([] : List (List Char)).isEmpty [] = true := by simp [isIdle]
    simpa [hss] using denoted_concat_of_isIdle hidle
  · rw [if_neg hss]

end FirstSegments

/-! ### Spellings that cannot be cut -/

theorem eq_of_toList_eq (h : p.text.toList = q.text.toList) : p = q :=
  congrArg Path.mk (String.toList_injective h)

private theorem componentOf_append_ne_none {s : List Char} (hs : componentOf s ≠ none)
    (t : List Char) : componentOf (s ++ t) ≠ none := by
  rw [ne_eq, componentOf_eq_none_iff, not_or] at hs ⊢
  refine ⟨by simp [hs.1], ?_⟩
  intro hdot
  obtain ⟨hempty, _⟩ | ⟨hsingle, _⟩ := List.append_eq_singleton_iff.mp hdot
  · exact hs.1 hempty
  · exact hs.2 hsingle

private theorem eq_nil_of_filterMap_split {cs ds s : List Char}
    (hsame : (Text.split '/' cs).filterMap componentOf =
      (Text.split '/' (cs ++ ds)).filterMap componentOf)
    (hlast : (Text.split '/' (cs ++ ds)).getLast? = some s) (hs : componentOf s ≠ none) :
    ds = [] := by
  obtain ⟨front, t, u, rest, hcs, hds, hboth⟩ := Text.exists_split_append '/' cs ds
  rw [hboth, List.getLast?_append_of_ne_nil _ (by simp)] at hlast
  rw [hcs, hboth, List.filterMap_append, List.filterMap_append, List.append_cancel_left_eq] at hsame
  -- `t` is the piece that the cut shortens to, `t ++ u` the piece that stands there without it
  cases ht : componentOf t with
  | none =>
    simp only [List.filterMap_cons_none ht, List.filterMap_nil] at hsame
    exact absurd (List.filterMap_eq_nil_iff.mp hsame.symm s (List.mem_of_getLast? hlast)) hs
  | some c =>
    have htu : componentOf (t ++ u) ≠ none := componentOf_append_ne_none (by simp [ht]) u
    obtain ⟨d, hd⟩ := Option.ne_none_iff_exists'.mp htu
    rw [List.filterMap_cons_some ht, List.filterMap_cons_some hd, List.filterMap_nil,
      List.cons.injEq] at hsame
    have hu : u = [] := by
      have hsegment := componentOf_injective ht (hsame.1 ▸ hd)
      simpa using hsegment
    have hrest : rest = [] := by
      cases rest with
      | nil => rfl
      | cons first rest =>
        rw [List.getLast?_cons_cons] at hlast
        exact absurd (List.filterMap_eq_nil_iff.mp hsame.2.symm s (List.mem_of_getLast? hlast)) hs
    rw [← Text.join_split '/' ds, hds, hu, hrest]
    rfl

private theorem eq_of_isPrefix_of_getLast? {s : List Char}
    (hbegin : r.text.toList <+: q.text.toList) (hcomponents : r.components = q.components)
    (hlast : q.segments.getLast? = some s) (hs : componentOf s ≠ none) : r = q := by
  have habs : r.isAbsolute = q.isAbsolute := by
    rw [Bool.eq_iff_iff, ← root_mem_components_iff, ← root_mem_components_iff, hcomponents]
  have hsame : r.segments.filterMap componentOf = q.segments.filterMap componentOf := by
    rw [← filter_isInner_components, ← filter_isInner_components, hcomponents]
  rw [toList_text r, toList_text q, habs, List.prefix_append_right_inj] at hbegin
  obtain ⟨rest, hrest⟩ := hbegin
  rw [segments_eq_split, segments_eq_split, ← hrest] at hsame
  rw [segments_eq_split, ← hrest] at hlast
  have hnil := eq_nil_of_filterMap_split hsame hlast hs
  apply eq_of_toList_eq
  rw [toList_text r, toList_text q, habs, ← hrest, hnil, List.append_nil]

private theorem eq_of_isPrefix_singleton {c : Char} (hbegin : r.text.toList <+: q.text.toList)
    (hq : q.text.toList = [c]) (hne : r.components ≠ []) : r = q := by
  have hr : r.text.toList ≠ [] := by
    intro hempty
    obtain rfl : r = ⟨""⟩ := eq_of_toList_eq hempty
    exact hne rfl
  apply eq_of_toList_eq
  rw [hq] at hbegin ⊢
  have hpos : 0 < r.text.toList.length := List.length_pos_iff.mpr hr
  have hle : r.text.toList.length ≤ 1 := hbegin.length_le
  apply hbegin.eq_of_length
  show r.text.toList.length = 1
  omega

private theorem eq_of_isPrefix_ofSegments {ss : List (List Char)} (hss : ss <+: p.segments)
    (htrimmed : IsTrimmed p.isAbsolute ss)
    (hbegin : r.text.toList <+: (ofSegments p.isAbsolute ss).text.toList)
    (hcomponents : r.components = (ofSegments p.isAbsolute ss).components) :
    r = ofSegments p.isAbsolute ss := by
  have hdenoted := hcomponents.trans (components_ofSegments hss)
  have htext := toList_ofSegments p.isAbsolute ss
  rcases htrimmed with rfl | ⟨front, s, rfl, hidle⟩
  · cases habs : p.isAbsolute with
    | true =>
      simp only [habs] at hbegin hdenoted htext
      exact eq_of_isPrefix_singleton hbegin htext (by simp [hdenoted, denoted, lead])
    | false =>
      rw [htext, habs] at hbegin
      apply eq_of_toList_eq
      rw [← habs, htext, habs]
      exact List.prefix_nil.mp hbegin
  · rcases componentOf_of_not_isIdle hidle with hs | ⟨rfl, habs, rfl⟩
    · have hlast : (ofSegments p.isAbsolute (front ++ [s])).segments.getLast? = some s := by
        simp [segments_ofSegments hss]
      exact eq_of_isPrefix_of_getLast? hbegin hcomponents hlast hs
    · rw [habs] at hbegin hdenoted htext ⊢
      exact eq_of_isPrefix_singleton hbegin htext (by simp [hdenoted, denoted, lead])

/-! ### Parents -/

/-- One path is the other without its last component: the shortest beginning of the spelling that
has all the other components. The root is not taken away. -/
structure IsPopped (p q : Path) : Prop where
  beginning : q.text.toList <+: p.text.toList
  removed : ∃ c, c ≠ .root ∧ p.components = q.components ++ [c]
  shortest : ∀ r : Path, r.text.toList <+: p.text.toList → r.components = q.components →
    q.text.toList <+: r.text.toList

private theorem IsPopped.length_lt (h : p.IsPopped q) :
    q.components.length < p.components.length := by
  obtain ⟨c, _, hc⟩ := h.removed
  simp [hc]

private theorem IsPopped.components_ne_root (h : p.IsPopped q) : p.components ≠ [.root] := by
  obtain ⟨c, hroot, hc⟩ := h.removed
  intro hsingle
  have hlast := congrArg List.getLast? (hsingle.symm.trans hc)
  exact hroot (by simpa using hlast.symm)

theorem IsPopped.unique (hq : p.IsPopped q) (hr : p.IsPopped r) : q = r := by
  obtain ⟨c, _, hc⟩ := hq.removed
  obtain ⟨d, _, hd⟩ := hr.removed
  have hsame : q.components = r.components := (List.append_inj' (hc.symm.trans hd) rfl).1
  have hqr := hq.shortest r hr.beginning hsame.symm
  have hrq := hr.shortest q hq.beginning hsame
  exact eq_of_toList_eq (hqr.eq_of_length (Nat.le_antisymm hqr.length_le hrq.length_le))

theorem parent?_cases (p : Path) :
    (p.parent? = none ∧ (p.components = [] ∨ p.components = [.root])) ∨
      ∃ q, p.parent? = some q ∧ p.IsPopped q := by
  have hkept := trimIdle_isPrefix p.isAbsolute p.segments
  have hdenoted : p.components = denoted p.isAbsolute (trimIdle p.isAbsolute p.segments) := by
    rw [denoted_trimIdle, components_eq_denoted]
  rcases isTrimmed_trimIdle p.isAbsolute p.segments with hnil | ⟨front, s, htrim, hidle⟩
  · left
    refine ⟨by simp [parent?, hnil], ?_⟩
    rw [hdenoted, hnil]
    cases p.isAbsolute with
    | true => exact .inr rfl
    | false => exact .inl rfl
  · right
    have hparent : p.parent? = some (ofSegments p.isAbsolute (trimIdle p.isAbsolute front)) := by
      unfold parent?
      rw [htrim]
      split
      · rename_i hnil
        simp at hnil
      · rw [List.dropLast_concat]
    rw [htrim] at hkept hdenoted
    have hfront : trimIdle p.isAbsolute front <+: p.segments :=
      (trimIdle_isPrefix p.isAbsolute front).trans ((List.prefix_append front [s]).trans hkept)
    have hcomponents := components_ofSegments hfront
    rw [denoted_trimIdle] at hcomponents
    refine ⟨_, hparent, ofSegments_isPrefix hfront, ?_, ?_⟩
    · obtain ⟨c, hc, hconcat⟩ := exists_denoted_concat hidle
      exact ⟨c, hc, by rw [hdenoted, hconcat, hcomponents]⟩
    · -- of two beginnings one begins the other, and the parent cannot be cut
      intro r hr hsame
      rcases List.prefix_or_prefix_of_prefix (ofSegments_isPrefix hfront) hr with hle | hle
      · exact hle
      · rw [eq_of_isPrefix_ofSegments hfront (isTrimmed_trimIdle _ _) hle hsame]

theorem parent?_eq_some_iff : p.parent? = some q ↔ p.IsPopped q := by
  rcases parent?_cases p with ⟨hnone, htop⟩ | ⟨q', hparent, hpopped⟩
  · have hstays : ¬p.IsPopped q := by
      intro h
      rcases htop with hempty | hroot
      · have hlt := h.length_lt
        simp [hempty] at hlt
      · exact h.components_ne_root hroot
    simp [hnone, hstays]
  · rw [hparent, Option.some.injEq]
    constructor
    · intro h
      exact h ▸ hpopped
    · intro h
      exact hpopped.unique h

theorem parent?_eq_none_iff : p.parent? = none ↔ ∀ q, ¬p.IsPopped q := by
  simp only [Option.eq_none_iff_forall_ne_some, ne_eq, parent?_eq_some_iff]

private theorem components_of_forall_not_isPopped (h : ∀ q, ¬p.IsPopped q) :
    p.components = [] ∨ p.components = [.root] := by
  rcases parent?_cases p with ⟨_, htop⟩ | ⟨q, _, hpopped⟩
  · exact htop
  · exact absurd hpopped (h q)

theorem IsPopped.isAbsolute_eq (h : p.IsPopped q) : q.isAbsolute = p.isAbsolute := by
  obtain ⟨c, hroot, hc⟩ := h.removed
  rw [Bool.eq_iff_iff, ← root_mem_components_iff, ← root_mem_components_iff, hc]
  simp [hroot.symm]

private theorem IsPopped.eq_root (h : p.IsPopped q) (hq : q.components = [.root]) : q = ⟨"/"⟩ := by
  have habs : p.isAbsolute = true := by
    rw [← h.isAbsolute_eq, ← root_mem_components_iff, hq]
    simp
  have hslash : ['/'] <+: p.text.toList := by
    rw [toList_text p, habs]
    exact List.prefix_append _ _
  have hshort := h.shortest ⟨"/"⟩ hslash (by rw [hq]; rfl)
  exact eq_of_isPrefix_singleton hshort rfl (by simp [hq])

/-! ### The way up -/

private theorem ancestors_of_parent? (h : p.parent? = some q) (n : Nat) :
    p.ancestors (n + 1) = p :: q.ancestors n := by
  simp [ancestors, h]

private theorem ancestors_of_none (h : p.parent? = none) (n : Nat) : p.ancestors (n + 1) = [p] := by
  simp [ancestors, h]

/-- The whole way up from a path, nearest first. It ends where no component can be taken away. -/
inductive Climbs : Path → List Path → Prop
  | top {p : Path} : (∀ q, ¬p.IsPopped q) → Climbs p [p]
  | step {p q : Path} {above : List Path} :
      p.IsPopped q → Climbs q above → Climbs p (p :: above)

/-- Every way up ends, after at most as many steps as there are components. -/
theorem exists_climbs (p : Path) :
    ∃ all, p.Climbs all ∧ all.length ≤ p.components.length + 1 := by
  induction hn : p.components.length using Nat.strongRecOn generalizing p with
  | ind n ih =>
    cases hparent : p.parent? with
    | none =>
      exact ⟨[p], .top (parent?_eq_none_iff.mp hparent), by simp⟩
    | some q =>
      have hpopped := parent?_eq_some_iff.mp hparent
      have hlt := hpopped.length_lt
      obtain ⟨above, habove, hlength⟩ := ih q.components.length (by omega) q rfl
      exact ⟨p :: above, .step hpopped habove, by simp only [List.length_cons]; omega⟩

namespace Climbs

variable {all : List Path}

/-- A bounded search sees the first paths of the way up. -/
theorem ancestors_eq_take (h : p.Climbs all) (n : Nat) : p.ancestors n = all.take n := by
  induction h generalizing n with
  | top hstays =>
    cases n with
    | zero => rfl
    | succ n =>
      rw [ancestors_of_none (parent?_eq_none_iff.mpr hstays), List.take_succ_cons, List.take_nil]
  | step hpopped _ ih =>
    cases n with
    | zero => rfl
    | succ n => rw [ancestors_of_parent? (parent?_eq_some_iff.mpr hpopped), ih, List.take_succ_cons]

theorem head?_eq (h : p.Climbs all) : all.head? = some p := by
  cases h with
  | top => rfl
  | step => rfl

private theorem isChain (h : p.Climbs all) : all.IsChain IsPopped := by
  induction h with
  | top => exact List.isChain_singleton _
  | step hpopped habove ih =>
    refine List.isChain_cons.mpr ⟨?_, ih⟩
    intro q hq
    rw [habove.head?_eq] at hq
    cases hq
    exact hpopped

private theorem map_components {names : List (List Char)} (h : p.Climbs all)
    (hp : p.components = .root :: names.map .normal) :
    all.map Path.components = names.inits.reverse.map fun above => .root :: above.map .normal := by
  induction h generalizing names with
  | top hstays =>
    rcases components_of_forall_not_isPopped hstays with hempty | hroot
    · simp [hempty] at hp
    · obtain rfl : names = [] := by simpa [hroot] using hp
      simp [hroot]
  | @step p q above hpopped habove ih =>
    obtain ⟨c, _, hc⟩ := hpopped.removed
    rcases List.eq_nil_or_concat' names with rfl | ⟨front, name, rfl⟩
    · exact absurd hp hpopped.components_ne_root
    · have hconcat : (.root :: front.map .normal) ++ [.normal name] = q.components ++ [c] := by
        simpa using hp.symm.trans hc
      have hfront := (List.append_inj' hconcat rfl).1
      rw [List.map_cons, ih hfront.symm, hp, List.inits_append]
      simp

private theorem exists_getLast? (h : p.Climbs all) (hp : p.isAbsolute = true) :
    ∃ top, all.getLast? = some top ∧ top.components = [.root] ∧ (top = p ∨ top = ⟨"/"⟩) := by
  induction h with
  | top hstays =>
    rcases components_of_forall_not_isPopped hstays with hempty | hroot
    · simp [← root_mem_components_iff, hempty] at hp
    · exact ⟨_, rfl, hroot, .inl rfl⟩
  | step hpopped habove ih =>
    obtain ⟨top, hlast, hroot, hspelled⟩ := ih (hpopped.isAbsolute_eq.trans hp)
    refine ⟨top, by simp [List.getLast?_cons, hlast], hroot, .inr ?_⟩
    rcases hspelled with rfl | hslash
    · exact hpopped.eq_root hroot
    · exact hslash

end Climbs

/-! ### What a bounded search sees -/

private theorem exists_names (habs : p.isAbsolute = true) (hparent : .parent ∉ p.components) :
    ∃ names : List (List Char), p.components = .root :: names.map .normal := by
  have hcomponents : p.components = .root :: p.segments.filterMap componentOf := by
    rw [components_eq_lead, habs]
    rfl
  have hnormal : p.segments.filterMap componentOf ∈ Set.range (List.map Component.normal) := by
    rw [Set.range_list_map]
    intro c hc
    have hinner := isInner_of_mem hc
    cases c with
    | root => simp [Component.isInner] at hinner
    | current => simp [Component.isInner] at hinner
    | parent => exact absurd (hcomponents ▸ List.mem_cons_of_mem _ hc) hparent
    | normal name => exact ⟨name, rfl⟩
  obtain ⟨names, hnames⟩ := hnormal
  exact ⟨names, by rw [hcomponents, hnames]⟩

/-- A search upwards from a path sees the first paths of a way up that always ends. It starts with
the path as it is spelled, each further path is the one before without its last component, a longer
search goes on where a shorter one stops, and the rest of a search is the search from the parent.
From an absolute path without `..`, whose components are names below the root, it sees the path
itself and the nearest directories above it, up to the root. Paths are compared by their components;
the root is spelled `/` unless the search starts there. -/
theorem ancestors_are_successive_parents (p : Path) :
    ∃ all : List Path, p.Climbs all ∧ all.length ≤ p.components.length + 1 ∧
      (∀ n, p.ancestors n = all.take n) ∧
      (∀ n, 1 ≤ n → (p.ancestors n).head? = some p) ∧
      (∀ n, (p.ancestors n).IsChain fun a b =>
        a.parent? = some b ∧ a.IsPopped b ∧ b.components.length < a.components.length) ∧
      (∀ m n, m ≤ n → p.ancestors m <+: p.ancestors n) ∧
      (∀ q n, p.parent? = some q → p.ancestors (n + 1) = p :: q.ancestors n) ∧
      (p.isAbsolute = true → .parent ∉ p.components →
        ∃ names : List (List Char), p.components = .root :: names.map .normal ∧
          ∀ n, (p.ancestors n).length = min n (names.length + 1) ∧
            (p.ancestors n).map components =
              (names.inits.reverse.take n).map (fun above => .root :: above.map .normal) ∧
            (names.length < n → ∃ top, (p.ancestors n).getLast? = some top ∧
              top.components = components ⟨"/"⟩ ∧ (names ≠ [] → top = ⟨"/"⟩))) := by
  obtain ⟨all, hall, hlength⟩ := p.exists_climbs
  refine ⟨all, hall, hlength, hall.ancestors_eq_take, ?_, ?_, ?_, ?_, ?_⟩
  · intro n hn
    rw [hall.ancestors_eq_take, List.head?_take, if_neg (by omega), hall.head?_eq]
  · intro n
    rw [hall.ancestors_eq_take]
    refine (hall.isChain.take n).imp ?_
    intro a b hpopped
    exact ⟨parent?_eq_some_iff.mpr hpopped, hpopped, hpopped.length_lt⟩
  · intro m n hmn
    rw [hall.ancestors_eq_take, hall.ancestors_eq_take]
    exact List.take_prefix_take_left hmn
  · intro q n hparent
    exact ancestors_of_parent? hparent n
  · intro habs hparent
    obtain ⟨names, hnames⟩ := exists_names habs hparent
    have hcomponents := hall.map_components hnames
    have hcount : all.length = names.length + 1 := by
      simpa using congrArg List.length hcomponents
    refine ⟨names, hnames, ?_⟩
    intro n
    rw [hall.ancestors_eq_take]
    refine ⟨by rw [List.length_take, hcount], by rw [List.map_take, hcomponents, List.map_take], ?_⟩
    intro hn
    obtain ⟨top, hlast, hroot, hspelled⟩ := hall.exists_getLast? habs
    refine ⟨top, by rw [List.take_of_length_le (by omega), hlast], hroot, ?_⟩
    intro hne
    rcases hspelled with rfl | hslash
    · simp [hroot, hne] at hnames
    · exact hslash

def samplePath : Path := ⟨"/lib//ui/./forms/"⟩

/-- Slashes at the end, repeated slashes and dots inside are no directories of their own. -/
theorem samplePath_ancestors :
    samplePath.isAbsolute = true ∧ .parent ∉ samplePath.components ∧
    samplePath.parent? = some ⟨"/lib//ui"⟩ ∧
    (samplePath.ancestors 2).head? = some samplePath ∧
    samplePath.ancestors 2 <+: samplePath.ancestors 9 ∧
    samplePath.ancestors 9 = samplePath :: ancestors ⟨"/lib//ui"⟩ 8 ∧
    (samplePath.ancestors 2).map components =
      [[.root, .normal "lib".toList, .normal "ui".toList, .normal "forms".toList],
        [.root, .normal "lib".toList, .normal "ui".toList]] ∧
    (samplePath.ancestors 9).length = 4 ∧ (samplePath.ancestors 9).getLast? = some ⟨"/"⟩ := by
  have hparent : samplePath.parent? = some ⟨"/lib//ui"⟩ := by decide
  have hnone : .parent ∉ samplePath.components := by decide
  have hspelled : samplePath.components =
      .root :: ["lib".toList, "ui".toList, "forms".toList].map .normal := by decide
  obtain ⟨_, _, _, _, hhead, _, hbegin, hrest, hbelow⟩ :=
    ancestors_are_successive_parents samplePath
  obtain ⟨names, hnames, habove⟩ := hbelow (by decide) hnone
  obtain rfl : names = ["lib".toList, "ui".toList, "forms".toList] := by
    have hsame := (List.cons.inj (hnames.symm.trans hspelled)).2
    exact (List.map_inj_right (by simp)).mp hsame
  obtain ⟨hlength, _, htop⟩ := habove 9
  obtain ⟨top, hlast, _, hslash⟩ := htop (by decide)
  refine ⟨by decide, hnone, hparent, hhead 2 (by decide), hbegin 2 9 (by decide),
    hrest _ 8 hparent, (habove 2).2.1, hlength, ?_⟩
  rw [hlast, hslash (by simp)]

/-- A relative path leads up to the empty one, past a dot in front. -/
example : (ancestors ⟨"./a//b/."⟩ 9).map text = ["./a//b/.", "./a", ".", ""] := by decide

end Path

end MixinCatalog
