import MixinCatalog.Path

/-!
# The order of paths

Paths are compared by their components, and names by their characters. This is a total order of the
components: two paths that come out equal have the same components. So a sorted list does not depend
on the order in which its elements came, as long as elements with the same components are equal.
-/

namespace MixinCatalog.Path

/-! ### Components -/

private def compareChars (a b : Char) : Ordering := compare a.toNat b.toNat

private instance : Std.TransCmp compareChars where
  eq_swap := Std.OrientedOrd.eq_swap
  isLE_trans := Std.TransOrd.isLE_trans

private instance : Std.LawfulEqCmp compareChars where
  compare_self := Std.ReflOrd.compare_self
  eq_of_compare h := Char.toNat_inj.mp (Std.LawfulEqOrd.eq_of_compare h)

private theorem compareNames_eq : compareNames = List.compareLex compareChars := by
  funext a b
  induction a generalizing b with
  | nil => cases b <;> rfl
  | cons x xs ih =>
    cases b with
    | nil => rfl
    | cons y ys => rw [compareNames, ih, List.compareLex_cons_cons, compareChars]

instance : Std.TransCmp compareNames := by
  rw [compareNames_eq]
  infer_instance

instance : Std.LawfulEqCmp compareNames := by
  rw [compareNames_eq]
  infer_instance

/-- The characters of a component that is a name. -/
private def Component.chars : Component → List Char
  | .normal name => name
  | _ => []

private theorem Component.order_eq :
    Component.order =
      compareLex (compareOn Component.rank) (fun a b => compareNames a.chars b.chars) := by
  funext a b
  cases a <;> cases b <;> simp [Component.order, compareLex, compareOn, Component.rank,
    Component.chars] <;> rfl

private instance : Std.TransCmp (compareOn Component.rank) where
  eq_swap := Std.OrientedOrd.eq_swap
  isLE_trans := Std.TransOrd.isLE_trans

private instance : Std.TransCmp (fun a b : Component => compareNames a.chars b.chars) where
  eq_swap := Std.OrientedCmp.eq_swap
  isLE_trans := Std.TransCmp.isLE_trans

instance : Std.TransCmp Component.order := by
  rw [Component.order_eq]
  infer_instance

instance : Std.LawfulEqCmp Component.order where
  compare_self := Std.ReflCmp.compare_self
  eq_of_compare {a b} h := by
    rw [Component.order_eq, compareLex_eq_eq] at h
    obtain ⟨hrank, hchars⟩ := h
    have hc : a.chars = b.chars := Std.LawfulEqCmp.eq_of_compare hchars
    cases a <;> cases b <;> simp_all [compareOn, Component.rank, Component.chars]

private theorem compareComponents_eq : compareComponents = List.compareLex Component.order := by
  funext a b
  induction a generalizing b with
  | nil => cases b <;> rfl
  | cons x xs ih =>
    cases b with
    | nil => rfl
    | cons y ys => rw [compareComponents, ih, List.compareLex_cons_cons]

instance : Std.TransCmp compareComponents := by
  rw [compareComponents_eq]
  infer_instance

instance : Std.LawfulEqCmp compareComponents := by
  rw [compareComponents_eq]
  infer_instance

/-! ### Paths -/

/-- One path comes strictly before another. -/
def Precedes (p q : Path) : Prop := compareComponents p.components q.components = .lt

theorem le_trans {p q r : Path} (hpq : p.le q = true) (hqr : q.le r = true) : p.le r = true :=
  Std.TransCmp.isLE_trans hpq hqr

private theorem le_total (p q : Path) : p.le q = true ∨ q.le p = true := by
  have hswap : compareComponents q.components p.components =
      (compareComponents p.components q.components).swap := Std.OrientedCmp.eq_swap
  unfold le
  rw [hswap]
  cases compareComponents p.components q.components <;> simp

private theorem components_eq_of_le_of_le {p q : Path} (hpq : p.le q = true) (hqp : q.le p = true) :
    p.components = q.components :=
  Std.LawfulEqCmp.eq_of_compare (Std.OrientedCmp.isLE_antisymm hpq hqp)

private theorem precedes_of_le_of_ne {p q : Path} (hle : p.le q = true)
    (hne : p.components ≠ q.components) : p.Precedes q := by
  unfold Precedes
  cases hc : compareComponents p.components q.components with
  | lt => rfl
  | eq => exact absurd (Std.LawfulEqCmp.eq_of_compare hc) hne
  | gt => simp [le, hc] at hle

/-! ### Sorting -/

section Sorting

variable {α : Type} {path : α → Path} {xs ys : List α}

theorem sortOn_perm (path : α → Path) (xs : List α) : (sortOn path xs).Perm xs :=
  List.mergeSort_perm xs _

private theorem sortOn_pairwise (path : α → Path) (xs : List α) :
    (sortOn path xs).Pairwise fun a b => (path a).le (path b) = true := by
  apply List.pairwise_mergeSort
  · intro a b c
    exact le_trans
  · intro a b
    simpa using le_total (path a) (path b)

/-- Where elements with the same components are equal, sorting does not see the order in which
they come. -/
theorem sortOn_eq_of_perm (hperm : xs.Perm ys)
    (hinj : ∀ a ∈ xs, ∀ b ∈ xs, (path a).components = (path b).components → a = b) :
    sortOn path xs = sortOn path ys := by
  have hsorted : (sortOn path xs).Perm (sortOn path ys) :=
    (sortOn_perm path xs).trans (hperm.trans (sortOn_perm path ys).symm)
  refine hsorted.eq_of_pairwise ?_ (sortOn_pairwise path xs) (sortOn_pairwise path ys)
  intro a b ha hb hab hba
  have ha' : a ∈ xs := (sortOn_perm path xs).mem_iff.mp ha
  have hb' : b ∈ xs := hperm.mem_iff.mpr ((sortOn_perm path ys).mem_iff.mp hb)
  exact hinj a ha' b hb' (components_eq_of_le_of_le hab hba)

theorem sortOn_eq_of_pairwise (hperm : xs.Perm ys)
    (hsorted : ys.Pairwise fun a b => (path a).le (path b) = true)
    (hinj : ∀ a ∈ xs, ∀ b ∈ xs, (path a).components = (path b).components → a = b) :
    sortOn path xs = ys := by
  have hsame : sortOn path ys = ys := List.mergeSort_of_pairwise hsorted
  rw [sortOn_eq_of_perm hperm hinj, hsame]

theorem sortOn_map {β : Type} {path' : β → Path} {f : α → β} (h : ∀ a, path' (f a) = path a)
    (xs : List α) : sortOn path' (xs.map f) = (sortOn path xs).map f := by
  unfold sortOn
  rw [List.map_mergeSort]
  intro a ha b hb
  rw [h, h]

/-- What is left out may be left out before or after sorting. -/
theorem sortOn_filter (keep : α → Bool)
    (hinj : ∀ a ∈ xs, ∀ b ∈ xs, (path a).components = (path b).components → a = b) :
    sortOn path (xs.filter keep) = (sortOn path xs).filter keep := by
  apply sortOn_eq_of_pairwise
  · exact ((sortOn_perm path xs).filter keep).symm
  · exact (sortOn_pairwise path xs).filter keep
  · intro a ha b hb
    exact hinj a (List.mem_filter.mp ha).1 b (List.mem_filter.mp hb).1

/-- Elements with distinct components are sorted strictly. -/
theorem sortOn_pairwise_precedes
    (hdistinct : xs.Pairwise fun a b => (path a).components ≠ (path b).components) :
    (sortOn path xs).Pairwise fun a b => (path a).Precedes (path b) := by
  have hne : (sortOn path xs).Pairwise fun a b => (path a).components ≠ (path b).components :=
    (sortOn_perm path xs).symm.pairwise hdistinct fun h => h.symm
  refine (sortOn_pairwise path xs).imp₂ ?_ hne
  intro a b hle hab
  exact precedes_of_le_of_ne hle hab

end Sorting

end MixinCatalog.Path
