import MixinCatalog.Proofs.MatchedNodes

/-!
# Names under wrappers

Parentheses and type assertions around a name do not hide it from the textual reading. The search
under them goes from a wrapper to its operand until it comes to something else; it ends on every
tree, and what is read at its end is the same for every number of wrappers.
-/

namespace MixinCatalog

open Syntax Syntax.Node

namespace NameReader

/-! ### One wrapper -/

/-- `w` is a wrapper around `e`, in one of the forms that the grammars give to it. Comments may
stand between the parts, but not behind the operand of a prefix assertion. -/
inductive Wraps (w e : Node) : Prop
  -- `(e)`, `e!`, `e as T`, `e satisfies T`
  | first {types : List Node} : w.kind ∈ [.parenthesizedExpression, .nonNullExpression,
      .asExpression, .satisfiesExpression] → w.parts = e :: types → Wraps w e
  -- `<T>e`
  | last {before : List Node} : w.kind = .typeAssertion → w.namedChildren = before ++ [e] →
      e.kind ≠ .comment → Wraps w e

def isWrapper (k : Kind) : Bool := wrapsFirst k || k == .typeAssertion

/-- Where the search goes from a wrapper. -/
def operand? (w : Node) : Option Node :=
  if wrapsFirst w.kind then w.parts.head? else w.namedChildren.getLast?

theorem wrapsFirst_iff {k : Kind} : wrapsFirst k = true ↔ k ∈ [.parenthesizedExpression,
    .nonNullExpression, .asExpression, .satisfiesExpression] := by
  cases k <;> simp [wrapsFirst]

theorem mem_children_of_operand? {w e : Node} (h : operand? w = some e) : e ∈ w.children := by
  have hnamed : e ∈ w.namedChildren := by
    unfold operand? at h
    split at h
    · exact (List.mem_filter.mp (List.mem_of_head? h)).1
    · exact List.mem_of_getLast? h
  exact (mem_children_of_mem_namedChildren hnamed).1

private theorem Wraps.isWrapper_and_operand? {w e : Node} (h : Wraps w e) :
    isWrapper w.kind = true ∧ operand? w = some e := by
  cases h with
  | first hkind hparts =>
    have hfirst := wrapsFirst_iff.mpr hkind
    simp [isWrapper, operand?, hfirst, hparts]
  | last hkind hnamed _ => simp [isWrapper, operand?, wrapsFirst, hkind, hnamed]

private theorem wraps_of_operand? {w e : Node} (hkind : isWrapper w.kind = true)
    (hoperand : operand? w = some e) (he : e.kind ≠ .comment) : Wraps w e := by
  unfold operand? at hoperand
  split at hoperand
  · rename_i hfirst
    obtain ⟨types, hparts⟩ := List.head?_eq_some_iff.mp hoperand
    exact .first (wrapsFirst_iff.mp hfirst) hparts
  · rename_i hfirst
    obtain ⟨before, hnamed⟩ := List.getLast?_eq_some_iff.mp hoperand
    have hassertion : w.kind = .typeAssertion := by simpa [isWrapper, hfirst] using hkind
    exact .last hassertion hnamed he

/-! ### The search -/

theorem unwrapFirst_eq (cs : List Node) :
    unwrapFirst cs = (((cs.filter named).filter (!·.isComment)).head?).bind unwrap := by
  induction cs with
  | nil => rfl
  | cons c cs ih =>
    rw [unwrapFirst]
    by_cases hnamed : c.named
    · by_cases hcomment : c.isComment <;> simp [hnamed, hcomment, ih]
    · simp [hnamed, ih]

theorem unwrapLast_eq (cs : List Node) :
    unwrapLast cs = ((cs.filter named).getLast?).bind unwrap := by
  induction cs with
  | nil => rfl
  | cons c cs ih =>
    rw [unwrapLast]
    cases hrest : cs.filter named with
    | nil =>
      have hnone : cs.any named = false := by
        rw [← Bool.not_eq_true, List.any_eq_true]
        rintro ⟨x, hx, hnamed⟩
        exact List.filter_eq_nil_iff.mp hrest x hx hnamed
      by_cases hnamed : c.named <;> simp [hnone, hnamed, hrest]
    | cons x xs =>
      have hx : x ∈ cs.filter named := hrest ▸ List.mem_cons_self
      have hsome : cs.any named = true :=
        List.any_eq_true.mpr ⟨x, (List.mem_filter.mp hx).1, (List.mem_filter.mp hx).2⟩
      by_cases hnamed : c.named <;> simp [hsome, hnamed, ih, hrest]

/-- The search goes from a wrapper to its operand and stops at anything else. -/
theorem unwrap_eq (n : Node) :
    unwrap n = if isWrapper n.kind then (operand? n).bind unwrap else some n := by
  match n with
  | .mk kind named field start stop children =>
    rw [unwrap, unwrapFirst_eq, unwrapLast_eq]
    by_cases hfirst : wrapsFirst kind
    · simp [isWrapper, operand?, hfirst, Node.kind, parts, namedChildren, Node.children]
    · by_cases hassertion : kind = .typeAssertion
      · simp [isWrapper, operand?, wrapsFirst, hassertion, Node.kind, namedChildren, Node.children]
      · simp [isWrapper, hfirst, hassertion, Node.kind]

private theorem unwrap_of_not_isWrapper {n : Node} (h : isWrapper n.kind = false) :
    unwrap n = some n := by
  rw [unwrap_eq, h]
  rfl

/-- The search as it runs: `none` as long as the turns do not suffice. -/
def search : Nat → Node → Option (Option Node)
  | 0, _ => none
  | turns + 1, n =>
    if isWrapper n.kind then
      match operand? n with
      | some e => search turns e
      | none => some none
    else some (some n)

/-- The search ends on every tree, since an operand is a child of its wrapper. -/
theorem exists_search (n : Node) : ∃ turns, ∀ more, search (turns + more) n = some (unwrap n) := by
  induction n using induction_on_children with
  | step n ih =>
    rw [unwrap_eq]
    by_cases hwrapper : isWrapper n.kind
    · cases hoperand : operand? n with
      | none =>
        refine ⟨1, fun more => ?_⟩
        simp [Nat.add_comm 1, search, hwrapper, hoperand]
      | some e =>
        obtain ⟨turns, hturns⟩ := ih e (mem_children_of_operand? hoperand)
        refine ⟨turns + 1, fun more => ?_⟩
        rw [Nat.add_right_comm, search]
        simp [hwrapper, hoperand, hturns]
    · refine ⟨1, fun more => ?_⟩
      simp [Nat.add_comm 1, search, hwrapper]

private theorem unwrap_of_wraps {w e : Node} (h : Wraps w e) : unwrap w = unwrap e := by
  obtain ⟨hwrapper, hoperand⟩ := h.isWrapper_and_operand?
  rw [unwrap_eq, hwrapper, hoperand]
  rfl

/-- `e` stands in `w` under some number of wrappers, possibly none. -/
abbrev IsUnder (w e : Node) : Prop := Relation.ReflTransGen Wraps w e

private theorem unwrap_of_isUnder {w e : Node} (h : IsUnder w e) : unwrap w = unwrap e := by
  induction h with
  | refl => rfl
  | tail _ hwraps ih => rw [ih, unwrap_of_wraps hwraps]

private theorem isUnder_of_unwrap {w e : Node} (h : unwrap w = some e) (he : e.kind ≠ .comment) :
    IsUnder w e := by
  induction w using induction_on_children with
  | step w ih =>
    rw [unwrap_eq] at h
    split at h
    · rename_i hwrapper
      obtain ⟨x, hoperand, hx⟩ := Option.bind_eq_some_iff.mp h
      have hunder := ih x (mem_children_of_operand? hoperand) hx
      -- a comment in the place of the operand would be what the search finds
      have hcomment : x.kind ≠ .comment := by
        intro hkind
        have hbare : isWrapper x.kind = false := by simp [hkind, isWrapper, wrapsFirst]
        rw [unwrap_of_not_isWrapper hbare] at hx
        exact he (Option.some.inj hx ▸ hkind)
      exact .head (wraps_of_operand? hwrapper hoperand hcomment) hunder
    · obtain rfl : w = e := Option.some.inj h
      exact .refl

/-! ### The name that is read -/

def IsName (e : Node) : Prop := e.kind = .identifier ∨ e.kind = .typeIdentifier

instance (e : Node) : Decidable (IsName e) := inferInstanceAs (Decidable (_ ∨ _))

theorem role_eq_identifier_iff {e : Node} : e.role = .identifier ↔ IsName e := by
  unfold Node.role IsName
  cases e.kind <;> simp [Kind.role]

private theorem unwrap_eq_some_iff_isUnder {w e : Node} (he : IsName e) :
    unwrap w = some e ↔ IsUnder w e := by
  constructor
  · intro h
    apply isUnder_of_unwrap h
    rcases he with hkind | hkind <;> simp [hkind]
  · intro h
    rw [unwrap_of_isUnder h]
    apply unwrap_of_not_isWrapper
    rcases he with hkind | hkind <;> simp [hkind, isWrapper, wrapsFirst]

variable {source : String} {r e : Node}

theorem textual_eq (source : String) (r : Node) : textual r source =
    if r.role = .returnStatement then
      (r.returned?.bind unwrap).bind fun e => if IsName e then some (e.text source) else none
    else none := by
  unfold textual
  cases r.returned?.bind unwrap with
  | none => rfl
  | some e => simp only [role_eq_identifier_iff, Option.bind_some]

private theorem textual_of_handsBack (hr : r.role = .returnStatement) (he : HandsBack r e) :
    textual r source =
      (unwrap e).bind fun e => if IsName e then some (e.text source) else none := by
  rw [textual_eq, if_pos hr, returned?_eq_some_iff.mpr he, Option.bind_some]

private theorem textual_of_bare (hnone : ∀ e, ¬HandsBack r e) : textual r source = none := by
  have hreturned : r.returned? = none := by
    apply Option.eq_none_iff_forall_ne_some.mpr
    intro e he
    exact hnone e (returned?_eq_some_iff.mp he)
  simp [textual_eq, hreturned]

theorem textual_eq_some_iff {x : String} : textual r source = some x ↔
    r.role = .returnStatement ∧
      ∃ w e, HandsBack r w ∧ IsUnder w e ∧ IsName e ∧ x = e.text source := by
  simp only [textual_eq, Option.ite_none_right_eq_some, Option.bind_eq_some_iff,
    returned?_eq_some_iff, Option.some.injEq]
  apply and_congr_right
  intro _
  constructor
  · rintro ⟨e, ⟨w, hw, hunwrap⟩, he, hx⟩
    exact ⟨w, e, hw, (unwrap_eq_some_iff_isUnder he).mp hunwrap, he, hx.symm⟩
  · rintro ⟨w, e, hw, hunder, he, hx⟩
    exact ⟨e, ⟨w, hw, (unwrap_eq_some_iff_isUnder he).mpr hunder⟩, he, hx.symm⟩

/-- Wrappers do not change the name that a return statement hands back. The search under them ends,
a return of a wrapped expression is read as a return of the expression itself, and a name is read
exactly where one stands under some number of wrappers. -/
theorem wrapped_name_is_read (source : String) :
    (∀ n, ∃ turns, ∀ more, search (turns + more) n = some (unwrap n)) ∧
    (∀ r r' w e, r.role = .returnStatement → r'.role = .returnStatement → HandsBack r w →
      HandsBack r' e → IsUnder w e → textual r source = textual r' source) ∧
    (∀ r e, r.role = .returnStatement → HandsBack r e → isWrapper e.kind = false →
      textual r source = if IsName e then some (e.text source) else none) ∧
    (∀ r x, textual r source = some x ↔ r.role = .returnStatement ∧
      ∃ w e, HandsBack r w ∧ IsUnder w e ∧ IsName e ∧ x = e.text source) ∧
    (∀ r, r.role ≠ .returnStatement ∨ (∀ e, ¬HandsBack r e) → textual r source = none) := by
  refine ⟨exists_search, ?_, ?_, fun r x => textual_eq_some_iff, ?_⟩
  · intro r r' w e hr hr' hw he hunder
    rw [textual_of_handsBack hr hw, textual_of_handsBack hr' he, unwrap_of_isUnder hunder]
  · intro r e hr he hbare
    rw [textual_of_handsBack hr he, unwrap_of_not_isWrapper hbare, Option.bind_some]
  · rintro r (hr | hnone)
    · rw [textual_eq, if_neg hr]
    · exact textual_of_bare hnone

example : (Source.parse .typeScript "function f(){return<T>(C!)}").root.preorder.filterMap
    (textual · "function f(){return<T>(C!)}") = ["C"] := by
  decide +kernel

def sampleWrapped : String := "return <T>(/**/C!)"

def sampleName : Node := sampleNode .identifier none 15 16 []

def sampleNonNull : Node := sampleNode .nonNullExpression none 15 17 [sampleName]

def sampleParentheses : Node :=
  sampleNode .parenthesizedExpression none 10 18
    [sampleNode .comment none 11 15 [], sampleNonNull]

def sampleAssertion : Node :=
  sampleNode .typeAssertion none 7 18
    [sampleNode (.other "type_arguments") none 7 10 [], sampleParentheses]

def sampleReturning (e : Node) : Node := sampleNode .returnStatement none 0 18 [e]

theorem sampleAssertion_read :
    IsUnder sampleAssertion sampleName ∧ isWrapper sampleName.kind = false ∧
    textual (sampleReturning sampleAssertion) sampleWrapped =
      textual (sampleReturning sampleName) sampleWrapped ∧
    textual (sampleReturning sampleName) sampleWrapped = some "C" ∧
    textual (sampleReturning sampleAssertion) sampleWrapped = some "C" ∧
    textual sampleAssertion sampleWrapped = none := by
  have hunder : IsUnder sampleAssertion sampleName := by
    have hnamed : sampleAssertion.namedChildren =
        [sampleNode (.other "type_arguments") none 7 10 []] ++ [sampleParentheses] := rfl
    have hassertion : Wraps sampleAssertion sampleParentheses := .last rfl hnamed (by decide)
    have hparentheses : Wraps sampleParentheses sampleNonNull := .first (by decide) rfl
    have hnonNull : Wraps sampleNonNull sampleName := .first (by decide) rfl
    exact .head hassertion (.head hparentheses (.single hnonNull))
  have hreturns (e : Node) (hnamed : e.named = true) (he : e.kind ≠ .comment) :
      HandsBack (sampleReturning e) e := by
    have hchildren : (sampleReturning e).namedChildren = [] ++ e :: [] := by
      simp [sampleReturning, sampleNode, namedChildren, Node.children, hnamed]
    exact ⟨[], [], hchildren, he, by simp⟩
  have hwrapped := hreturns sampleAssertion rfl (by decide)
  have hbare := hreturns sampleName rfl (by decide)
  obtain ⟨_, hsame, hread, hiff, hnone⟩ := wrapped_name_is_read sampleWrapped
  have heq := hsame _ _ _ _ rfl rfl hwrapped hbare hunder
  have hname : textual (sampleReturning sampleName) sampleWrapped = some "C" :=
    hread _ _ rfl hbare rfl
  exact ⟨hunder, rfl, heq, hname, heq.trans hname, hnone _ (.inl (by decide))⟩

end NameReader

end MixinCatalog
