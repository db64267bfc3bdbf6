import Mathlib.Logic.Relation
import MixinCatalog.Proofs.Binding

/-!
# Where the nodes of a mixin lie

The function and the class of a mixin are parts of the declaration that was looked at. Whatever way
a shape takes to its class, the class is a construct of its own and no keyword, it lies below the
function, and the function is the declaration or lies below it. In a tree in which no node reaches
beyond its parent the three stretches of source are nested in the same order.
-/

namespace MixinCatalog

open Syntax

/-! ### Subtrees -/

namespace Syntax.Node

def IsBelow : Node → Node → Prop := Relation.TransGen fun c n => c ∈ n.children

theorem isBelow_of_mem_children {c n : Node} (h : c ∈ n.children) : c.IsBelow n :=
  Relation.TransGen.single h

theorem IsBelow.trans {c m n : Node} (hc : c.IsBelow m) (hm : m.IsBelow n) : c.IsBelow n :=
  Relation.TransGen.trans hc hm

theorem isBelow_iff {c n : Node} :
    c.IsBelow n ↔ ∃ m ∈ n.children, c = m ∨ c.IsBelow m := by
  constructor
  · intro h
    cases h with
    | single hc => exact ⟨c, hc, .inl rfl⟩
    | tail hc hm => exact ⟨_, hm, .inr hc⟩
  · rintro ⟨m, hm, rfl | hc⟩
    · exact isBelow_of_mem_children hm
    · exact hc.trans (isBelow_of_mem_children hm)

theorem preorderAll_eq (ns : List Node) : preorderAll ns = ns.flatMap preorder := by
  induction ns with
  | nil => rfl
  | cons n ns ih => rw [preorderAll, ih, List.flatMap_cons]

/-- The listing of a tree has the node itself and all that lies below it. -/
theorem mem_preorder_iff {c n : Node} : c ∈ n.preorder ↔ c = n ∨ c.IsBelow n := by
  match n with
  | .mk kind named field start stop ns =>
    rw [preorder, preorderAll_eq, List.mem_cons, List.mem_flatMap, isBelow_iff]
    apply or_congr_right
    apply exists_congr
    intro m
    apply and_congr_right
    intro hm
    exact mem_preorder_iff
termination_by n
decreasing_by
  have hlt := List.sizeOf_lt_of_mem hm
  simp only [Node.mk.sizeOf_spec]
  omega

theorem mem_preorder_trans {c m n : Node} (hc : c ∈ m.preorder) (hm : m ∈ n.preorder) :
    c ∈ n.preorder := by
  rw [mem_preorder_iff] at hc hm ⊢
  rcases hc with rfl | hc
  · exact hm
  · rcases hm with rfl | hm
    · exact .inr hc
    · exact .inr (hc.trans hm)

/-- What passes from the children of a node to the node holds of every tree. -/
@[elab_as_elim]
theorem induction_on_children {motive : Node → Prop}
    (step : ∀ n : Node, (∀ c ∈ n.children, motive c) → motive n) (n : Node) : motive n := by
  match n with
  | .mk kind named field start stop ns =>
    apply step
    intro c hc
    exact induction_on_children step c
termination_by n
decreasing_by
  have hlt := List.sizeOf_lt_of_mem hc
  simp only [Node.children, Node.mk.sizeOf_spec] at hlt ⊢
  omega

def Everywhere (P : Node → Prop) (root : Node) : Prop := ∀ n ∈ root.preorder, P n

instance (P : Node → Prop) [DecidablePred P] (root : Node) : Decidable (root.Everywhere P) :=
  inferInstanceAs (Decidable (∀ _ ∈ _, _))

theorem Everywhere.here {P : Node → Prop} {n : Node} (h : n.Everywhere P) : P n :=
  h n (mem_preorder_iff.mpr (.inl rfl))

theorem Everywhere.of_mem {P : Node → Prop} {c n : Node} (h : n.Everywhere P)
    (hc : c ∈ n.preorder) : c.Everywhere P := by
  intro m hm
  exact h m (mem_preorder_trans hm hc)

theorem Everywhere.of_isBelow {P : Node → Prop} {c n : Node} (h : n.Everywhere P)
    (hc : c.IsBelow n) : c.Everywhere P :=
  h.of_mem (mem_preorder_iff.mpr (.inr hc))

/-! ### Spans -/

/-- The stretch of source that a node covers is part of what another one covers. -/
def Within (c n : Node) : Prop := n.start.offset ≤ c.start.offset ∧ c.stop.offset ≤ n.stop.offset

instance (c n : Node) : Decidable (c.Within n) := inferInstanceAs (Decidable (_ ∧ _))

theorem Within.refl (n : Node) : n.Within n := ⟨Nat.le_refl _, Nat.le_refl _⟩

theorem Within.trans {c m n : Node} (hc : c.Within m) (hm : m.Within n) : c.Within n :=
  ⟨Nat.le_trans hm.1 hc.1, Nat.le_trans hc.2 hm.2⟩

/-- What holds of the children of a node in the trees that the grammars give: none reaches beyond
the node, and what stands in the fields `body` and `value` is no bare token. -/
structure IsFitting (n : Node) : Prop where
  within : ∀ c ∈ n.children, c.Within n
  named : ∀ f ∈ [Field.body, Field.value], ∀ c ∈ n.child? f, c.named = true

instance (n : Node) : Decidable n.IsFitting :=
  decidable_of_iff ((∀ c ∈ n.children, c.Within n) ∧
      ∀ f ∈ [Field.body, Field.value], ∀ c ∈ n.child? f, c.named = true)
    ⟨fun h => ⟨h.1, h.2⟩, fun h => ⟨h.within, h.named⟩⟩

/-- A tree all of whose nodes have fitting children. -/
def IsSound (root : Node) : Prop := ∀ n ∈ root.preorder, n.IsFitting

instance (root : Node) : Decidable root.IsSound := inferInstanceAs (Decidable (∀ _ ∈ _, _))

theorem IsSound.of_mem {root n : Node} (h : root.IsSound) (hn : n ∈ root.preorder) :
    n.IsSound := by
  intro m hm
  exact h m (mem_preorder_trans hm hn)

private theorem IsSound.isFitting {n : Node} (h : n.IsSound) : n.IsFitting :=
  h n (mem_preorder_iff.mpr (.inl rfl))

theorem IsSound.of_isBelow {c n : Node} (h : n.IsSound) (hc : c.IsBelow n) : c.IsSound :=
  h.of_mem (mem_preorder_iff.mpr (.inr hc))

theorem IsSound.within {c n : Node} (h : n.IsSound) (hc : c.IsBelow n) : c.Within n := by
  -- along the path upwards: soundness passes from the end of the path to the node before it
  induction hc with
  | single hmem => exact h.isFitting.within _ hmem
  | @tail m n _ hm ih =>
    have hwithin := h.isFitting.within m hm
    exact (ih (h.of_isBelow (isBelow_of_mem_children hm))).trans hwithin

/-! ### Children by field and by role -/

theorem isBelow_of_child? {n c : Node} {f : Field} (h : n.child? f = some c) : c.IsBelow n :=
  isBelow_of_mem_children (List.mem_of_find?_eq_some h)

theorem mem_children_of_mem_namedChildren {n c : Node} (h : c ∈ n.namedChildren) :
    c ∈ n.children ∧ c.named = true :=
  List.mem_filter.mp h

theorem isBelow_of_mem_namedChildren {n c : Node} (h : c ∈ n.namedChildren) : c.IsBelow n :=
  isBelow_of_mem_children (mem_children_of_mem_namedChildren h).1

theorem isBelow_of_mem_parts {n c : Node} (h : c ∈ n.parts) : c.IsBelow n :=
  isBelow_of_mem_namedChildren (List.mem_filter.mp h).1

end Syntax.Node

open Syntax.Node

theorem IsFirst.mem {α : Type} {P : α → Prop} {xs : List α} {x : α} (h : IsFirst P xs x) :
    x ∈ xs := by
  obtain ⟨before, after, rfl, _⟩ := h
  simp

/-! ### Functions and classes -/

private theorem Decides.mem_declarators {statement d name f : Node}
    (h : Decides statement d name f) : d ∈ statement.declarators := by
  obtain ⟨hfirst, hkind, _⟩ := h
  exact List.mem_filter.mpr ⟨hfirst.mem, by simpa using hkind⟩

private theorem Decides.declarator_isBelow {statement d name f : Node}
    (h : Decides statement d name f) : d.IsBelow statement := by
  obtain ⟨hfirst, _⟩ := h
  exact isBelow_of_mem_children (mem_children_of_mem_namedChildren hfirst.mem).1

theorem Decides.isBelow {statement d name f : Node} (h : Decides statement d name f) :
    f.IsBelow statement := by
  have hd := h.declarator_isBelow
  obtain ⟨_, _, _, _, hvalue, _⟩ := h
  exact (isBelow_of_child? hvalue).trans hd

theorem ProducesClass.isBelow {f c : Node} (h : ProducesClass f c) : c.IsBelow f := by
  cases h with
  | body hbody => exact isBelow_of_child? hbody
  | returned hbody hr hc =>
    have hret := isBelow_of_mem_children (mem_children_of_mem_namedChildren hr.mem).1
    have hclass := isBelow_of_mem_children (mem_children_of_mem_namedChildren hc.mem).1
    exact hclass.trans (hret.trans (isBelow_of_child? hbody))
  | declared hbody hc =>
    have hclass := isBelow_of_mem_children (mem_children_of_mem_namedChildren hc.mem).1
    exact hclass.trans (isBelow_of_child? hbody)

theorem ProducesClass.named {f c : Node} (hf : f.IsFitting) (h : ProducesClass f c) :
    c.named = true := by
  cases h with
  | body hbody => exact hf.named .body (by simp) c hbody
  | returned _ _ hc => exact (mem_children_of_mem_namedChildren hc.mem).2
  | declared _ hc => exact (mem_children_of_mem_namedChildren hc.mem).2

/-! ### Matches -/

/-- Whether a mixin of this shape has a class expression. The other shapes declare their class. -/
def Shape.hasClassExpression : Shape → Bool
  | expressionBody | blockReturnExpression | functionReturnExpression => true
  | blockClassDeclaration _ | functionClassDeclaration _ => false

/-- How a mixin is found from its declaration: through a callable `f`, which is the declaration or
lies below it, to the class that the callable produces. -/
structure ReachedThrough (declaration f : Node) (m : MixinNodes) : Prop where
  callable : f = declaration ∨ f.IsBelow declaration
  function : m.function = declaration ∨ m.function = f
  produces : ProducesClass f m.classNode
  role : m.classNode.role =
    if m.shape.hasClassExpression then .classExpression else .classDeclaration

namespace ReachedThrough

variable {declaration f : Node} {m : MixinNodes}

private theorem class_below (h : ReachedThrough declaration f m) :
    m.classNode.IsBelow declaration := by
  rcases h.callable with rfl | hf
  · exact h.produces.isBelow
  · exact h.produces.isBelow.trans hf

theorem class_below_function (h : ReachedThrough declaration f m) :
    m.classNode.IsBelow m.function := by
  rcases h.function with hfunction | hfunction
  · rw [hfunction]
    exact h.class_below
  · rw [hfunction]
    exact h.produces.isBelow

private theorem function_sound (h : ReachedThrough declaration f m) (hsound : declaration.IsSound) :
    m.function.IsSound ∧ m.function.Within declaration := by
  rcases h.function with hfunction | hfunction
  · rw [hfunction]
    exact ⟨hsound, .refl declaration⟩
  · rw [hfunction]
    rcases h.callable with rfl | hf
    · exact ⟨hsound, .refl f⟩
    · exact ⟨hsound.of_isBelow hf, hsound.within hf⟩

private theorem class_named (h : ReachedThrough declaration f m) (hsound : declaration.IsSound) :
    m.classNode.named = true := by
  rcases h.callable with rfl | hf
  · exact h.produces.named hsound.isFitting
  · exact h.produces.named (hsound.of_isBelow hf).isFitting

private theorem class_role (h : ReachedThrough declaration f m) :
    (m.classNode.role = .classExpression ∨ m.classNode.role = .classDeclaration) ∧
      (m.classNode.role = .classExpression ↔ m.shape.hasClassExpression = true) := by
  have hrole := h.role
  cases hshape : m.shape.hasClassExpression with
  | true =>
    rw [hshape, if_pos rfl] at hrole
    simp [hrole]
  | false =>
    rw [hshape, if_neg (by decide)] at hrole
    simp [hrole]

end ReachedThrough

theorem VariableMixin.exists_reachedThrough {names : NameReader} {options : MixinOptions}
    {source : String} {statement : Node} {m : MixinNodes}
    (h : VariableMixin names options source statement m) :
    ∃ d name f, Decides statement d name f ∧ ReachedThrough statement f m ∧
      m.function = (if m.shape = .blockReturnExpression then f else statement) ∧
      m.shape.isVariableForm = true := by
  cases h with
  | @expressionBody d name f body hd hbody hrole =>
    have hreached : ReachedThrough statement f ⟨statement, body, .expressionBody⟩ :=
      ⟨.inr hd.isBelow, .inl rfl, .body hbody, hrole⟩
    exact ⟨d, name, f, hd, hreached, rfl, rfl⟩
  | @returnExpression d name f block c hd hbody _ hret =>
    obtain ⟨r, hr, hc, hrole⟩ := hret
    have hreached : ReachedThrough statement f ⟨f, c, .blockReturnExpression⟩ :=
      ⟨.inr hd.isBelow, .inr rfl, .returned hbody hr hc, hrole⟩
    exact ⟨d, name, f, hd, hreached, rfl, rfl⟩
  | @classDeclaration d name f block c explicit hd hbody _ _ hdecl =>
    have hclass := hdecl.isFirstClass
    have hreached : ReachedThrough statement f ⟨statement, c, .blockClassDeclaration explicit⟩ :=
      ⟨.inr hd.isBelow, .inl rfl, .declared hbody hclass, hclass.holds⟩
    exact ⟨d, name, f, hd, hreached, rfl, rfl⟩

theorem FunctionMixin.reachedThrough {names : NameReader} {options : MixinOptions}
    {source : String} {function : Node} {m : MixinNodes}
    (h : FunctionMixin names options source function m) :
    ReachedThrough function function m ∧ m.function = function ∧
      m.shape.isVariableForm = false := by
  cases h with
  | @returnExpression block c hbody _ hret =>
    obtain ⟨r, hr, hc, hrole⟩ := hret
    exact ⟨⟨.inl rfl, .inl rfl, .returned hbody hr hc, hrole⟩, rfl, rfl⟩
  | @classDeclaration block c explicit hbody _ _ hdecl =>
    have hclass := hdecl.isFirstClass
    exact ⟨⟨.inl rfl, .inl rfl, .declared hbody hclass, hclass.holds⟩, rfl, rfl⟩

/-- Where the nodes of a mixin lie in its declaration. -/
structure LiesIn (declaration : Node) (m : MixinNodes) : Prop where
  class_named : m.classNode.named = true
  class_role : m.classNode.role = .classExpression ∨ m.classNode.role = .classDeclaration
  class_expression_iff : m.classNode.role = .classExpression ↔ m.shape.hasClassExpression = true
  class_below : m.classNode.IsBelow declaration
  class_below_function : m.classNode.IsBelow m.function
  function_eq : m.shape ≠ .blockReturnExpression → m.function = declaration
  function_value : m.shape = .blockReturnExpression → ∃ d ∈ declaration.declarators,
    d.child? .value = some m.function ∧ m.function.role = .functionLike ∧ m.function.named = true
  variable_iff : m.shape.isVariableForm = true ↔ declaration.role = .variableStatement
  class_within : m.classNode.Within m.function
  function_within : m.function.Within declaration

private theorem ReachedThrough.liesIn {declaration f : Node} {m : MixinNodes}
    (h : ReachedThrough declaration f m) (hsound : declaration.IsSound)
    (hfunction : m.shape ≠ .blockReturnExpression → m.function = declaration)
    (hvalue : m.shape = .blockReturnExpression → ∃ d ∈ declaration.declarators,
      d.child? .value = some m.function ∧ m.function.role = .functionLike ∧
        m.function.named = true)
    (hvariable : m.shape.isVariableForm = true ↔ declaration.role = .variableStatement) :
    LiesIn declaration m where
  class_named := h.class_named hsound
  class_role := h.class_role.1
  class_expression_iff := h.class_role.2
  class_below := h.class_below
  class_below_function := h.class_below_function
  function_eq := hfunction
  function_value := hvalue
  variable_iff := hvariable
  class_within := (h.function_sound hsound).1.within h.class_below_function
  function_within := (h.function_sound hsound).2

/-- In a sound tree the classifier reports nodes of the declaration it looked at: a class that is a
construct of the tree and lies below the reported function, and a function that is the declaration
or what one of its declarators holds. Their spans are nested in this order. -/
theorem mixin_liesIn_declaration (root declaration : Node) (names : NameReader)
    (options : MixinOptions) (source : String) (m : MixinNodes) (hsound : root.IsSound)
    (hmem : declaration ∈ root.preorder)
    (h : mixinNodes? names options source declaration = some m) : LiesIn declaration m := by
  have hdeclaration : declaration.IsSound := hsound.of_mem hmem
  unfold mixinNodes? at h
  split at h
  next hrole =>
    obtain ⟨d, name, f, hd, hreached, hfunction, hvariable⟩ :=
      (variableForms_eq_some_iff.mp h).exists_reachedThrough
    refine hreached.liesIn hdeclaration ?_ ?_ (by simp [hvariable, hrole])
    · intro hshape
      rw [hfunction, if_neg hshape]
    · intro hshape
      rw [hfunction, if_pos hshape]
      have hd_fitting := (hdeclaration.of_isBelow hd.declarator_isBelow).isFitting
      have hd_mem := hd.mem_declarators
      obtain ⟨_, _, _, _, hvalue, hf⟩ := hd
      exact ⟨d, hd_mem, hvalue, hf, hd_fitting.named .value (by simp) f hvalue⟩
  next hrole =>
    obtain ⟨hreached, hfunction, hvariable⟩ :=
      (functionForms_eq_some_iff.mp h).reachedThrough
    refine hreached.liesIn hdeclaration ?_ ?_ (by simp [hvariable, hrole])
    · intro _
      exact hfunction
    · intro hshape
      simp [hshape, Shape.isVariableForm] at hvariable
  next => simp at h

/-- A function whose block returns a class expression. The keyword in front of the class has the
kind of a class. -/
def sampleReturn : String := "let M=B=>{return class{}}"

def sampleReturnTree : Node := (Source.parse .javaScript sampleReturn).root

theorem sampleReturn_liesIn :
    sampleReturnTree.IsSound ∧ ∃ declaration ∈ sampleReturnTree.preorder, ∃ m,
      mixinNodes? NameReader.textual {} sampleReturn declaration = some m ∧
        m.shape = .blockReturnExpression ∧ LiesIn declaration m := by
  have hsound : sampleReturnTree.IsSound := by decide +kernel
  have hfound : (sampleReturnTree.children.findSome?
      (mixinNodes? NameReader.textual {} sampleReturn)).map MixinNodes.shape =
        some .blockReturnExpression := by decide +kernel
  obtain ⟨m, hm, hshape⟩ := Option.map_eq_some_iff.mp hfound
  obtain ⟨declaration, hchild, hmixin⟩ := List.exists_of_findSome?_eq_some hm
  have hmem : declaration ∈ sampleReturnTree.preorder :=
    mem_preorder_iff.mpr (.inr (isBelow_of_mem_children hchild))
  exact ⟨hsound, declaration, hmem, m, hmixin, hshape,
    mixin_liesIn_declaration sampleReturnTree declaration _ _ _ m hsound hmem hmixin⟩

end MixinCatalog
