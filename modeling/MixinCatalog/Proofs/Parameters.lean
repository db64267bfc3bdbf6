import MixinCatalog.Catalog.File

/-!
# The parameters of a callable

The plain dialects write a formal parameter as its binding, or as an assignment of a default to it.
The typed ones put the binding into a node of its own, together with a type, a question mark and the
default. Both list the parameters of a callable among comments. What is recorded is the text of each
binding, so the two trees of one list of parameters are recorded alike.
-/

namespace MixinCatalog

open Syntax

/-! ### Formal parameters -/

/-- What a formal parameter can bind: a name, a destructured value, or the rest of the arguments. -/
def Syntax.Kind.isBinding : Kind → Bool
  | .identifier => true
  | .other name => ["object_pattern", "array_pattern", "rest_pattern"].contains name
  | _ => false

/-- A formal parameter as it is written: the binding, and the default if there is one. -/
structure Formal where
  kind : Kind
  isBinding : kind.isBinding = true := by decide
  text : String
  default : Option String := none

/-- A node is the only child in a field. -/
def Syntax.Node.HasOnly (n : Node) (field : Field) (child : Node) : Prop :=
  n.children.filter (·.field == some field) = [child]

/-- A node is the binding of a parameter. -/
def Formal.BoundBy (p : Formal) (source : String) (n : Node) : Prop :=
  n.kind = p.kind ∧ n.text source = p.text

/-- The trees of a parameter in the plain dialects: the binding itself, or an assignment of the
default to it. -/
inductive Formal.Plain (source : String) (p : Formal) (n : Node) : Prop
  | bare : p.default = none → p.BoundBy source n → p.Plain source n
  | assigned : n.kind = .assignmentPattern →
      (∃ binding, n.HasOnly .left binding ∧ p.BoundBy source binding) → n.parts.length = 2 →
      p.default = n.parts.getLast?.map (·.text source) → p.Plain source n

/-- The trees of a parameter in the typed dialects. Whatever else stands in them (decorators and
modifiers, a question mark, a type, comments) is left open. -/
structure Formal.Typed (source : String) (p : Formal) (n : Node) : Prop where
  kind : n.kind = .requiredParameter ∨ n.kind = .optionalParameter
  bound : ∃ binding, n.HasOnly .pattern binding ∧ p.BoundBy source binding
  assigned : p.default = (n.child? .value).map (·.text source)

/-- Some nodes are the trees of some parameters, in order and with comments among them. -/
inductive Listed (Tree : Formal → Node → Prop) : List Formal → List Node → Prop
  | nil : Listed Tree [] []
  | comment {c : Node} {ps : List Formal} {ns : List Node} : c.kind = .comment →
      Listed Tree ps ns → Listed Tree ps (c :: ns)
  | formal {p : Formal} {n : Node} {ps : List Formal} {ns : List Node} : Tree p n →
      Listed Tree ps ns → Listed Tree (p :: ps) (n :: ns)

/-- A callable lists some parameters between parentheses. -/
def Takes (Tree : Formal → Node → Prop) (callable : Node) (ps : List Formal) : Prop :=
  (∀ c ∈ callable.children, c.field ≠ some .parameter) ∧
    ∃ list, callable.HasOnly .parameters list ∧ Listed Tree ps list.namedChildren

section

variable {n : Node} {field : Field} {P : Node → Prop} [DecidablePred P]

instance : Decidable (∃ child, n.HasOnly field child ∧ P child) :=
  match h : n.children.filter fun c : Node => c.field == some field with
  | [c] => decidable_of_iff (P c)
    ⟨fun hc => ⟨c, h, hc⟩, fun ⟨_, hd, hP⟩ => List.singleton_inj.mp (h.symm.trans hd) ▸ hP⟩
  | [] => isFalse fun ⟨_, hd, _⟩ => List.cons_ne_nil _ _ (hd.symm.trans h)
  | _ :: _ :: _ => isFalse fun ⟨_, hd, _⟩ =>
    List.cons_ne_nil _ _ (List.cons.inj (h.symm.trans hd)).2

end

section

variable {source : String} {p : Formal} {n : Node}

instance : Decidable (p.BoundBy source n) := inferInstanceAs (Decidable (_ ∧ _))

instance : Decidable (p.Plain source n) :=
  decidable_of_iff ((p.default = none ∧ p.BoundBy source n) ∨
      n.kind = .assignmentPattern ∧
        (∃ binding, n.HasOnly .left binding ∧ p.BoundBy source binding) ∧ n.parts.length = 2 ∧
        p.default = n.parts.getLast?.map (·.text source))
    ⟨fun h => h.elim (fun h => .bare h.1 h.2) fun h => .assigned h.1 h.2.1 h.2.2.1 h.2.2.2,
      fun
      | .bare hnone hbound => .inl ⟨hnone, hbound⟩
      | .assigned hkind hbound hlength hdefault => .inr ⟨hkind, hbound, hlength, hdefault⟩⟩

instance : Decidable (p.Typed source n) :=
  decidable_of_iff ((n.kind = .requiredParameter ∨ n.kind = .optionalParameter) ∧
      (∃ binding, n.HasOnly .pattern binding ∧ p.BoundBy source binding) ∧
      p.default = (n.child? .value).map (·.text source))
    ⟨fun h => ⟨h.1, h.2.1, h.2.2⟩, fun h => ⟨h.kind, h.bound, h.assigned⟩⟩

end

section

variable {Tree : Formal → Node → Prop} [∀ p n, Decidable (Tree p n)]

instance Listed.decide : (ps : List Formal) → (ns : List Node) → Decidable (Listed Tree ps ns)
  | [], [] => isTrue .nil
  | _ :: _, [] => isFalse nofun
  | [], n :: ns =>
    let _ := Listed.decide [] ns
    decidable_of_iff (n.kind = .comment ∧ Listed Tree [] ns)
      ⟨fun h => .comment h.1 h.2, fun | .comment hkind hrest => ⟨hkind, hrest⟩⟩
  | p :: ps, n :: ns =>
    let _ := Listed.decide (p :: ps) ns
    let _ := Listed.decide ps ns
    decidable_of_iff
      ((n.kind = .comment ∧ Listed Tree (p :: ps) ns) ∨ Tree p n ∧ Listed Tree ps ns)
      ⟨fun h => h.elim (fun h => .comment h.1 h.2) fun h => .formal h.1 h.2,
        fun
        | .comment hkind hrest => .inl ⟨hkind, hrest⟩
        | .formal htree hrest => .inr ⟨htree, hrest⟩⟩

instance (callable : Node) (ps : List Formal) : Decidable (Takes Tree callable ps) :=
  inferInstanceAs (Decidable (_ ∧ _))

end

/-! ### What is recorded -/

theorem Syntax.Node.HasOnly.child?_eq {n child : Node} {field : Field} (h : n.HasOnly field child) :
    n.child? field = some child := by
  rw [Node.child?, ← List.head?_filter, h]
  rfl

private theorem Syntax.Node.child?_eq_none {n : Node} {field : Field}
    (h : ∀ c ∈ n.children, c.field ≠ some field) : n.child? field = none := by
  apply List.find?_eq_none.mpr
  intro c hc
  simpa using h c hc

private theorem Syntax.Kind.ne_of_isBinding {k : Kind} (h : k.isBinding = true) :
    k ≠ .requiredParameter ∧ k ≠ .optionalParameter ∧ k ≠ .assignmentPattern ∧ k ≠ .comment := by
  refine ⟨?_, ?_, ?_, ?_⟩ <;>
  · rintro rfl
    exact absurd h (by decide)

private theorem Formal.Plain.kind_ne_comment {source : String} {p : Formal} {n : Node}
    (h : p.Plain source n) : n.kind ≠ .comment := by
  cases h with
  | bare _ hbound =>
    rw [hbound.1]
    exact (Kind.ne_of_isBinding p.isBinding).2.2.2
  | assigned hkind => simp [hkind]

private theorem Formal.Typed.kind_ne_comment {source : String} {p : Formal} {n : Node}
    (h : p.Typed source n) : n.kind ≠ .comment := by
  rcases h.kind with hkind | hkind <;> simp [hkind]

private theorem Formal.Plain.text_parameterBinding {source : String} {p : Formal} {n : Node}
    (h : p.Plain source n) : (parameterBinding n).text source = p.text := by
  cases h with
  | bare _ hbound =>
    have hkind := Kind.ne_of_isBinding p.isBinding
    rw [← hbound.1] at hkind
    have hself : parameterBinding n = n := by
      unfold parameterBinding
      split <;> simp_all
    rw [hself, hbound.2]
  | assigned hkind hbinding _ _ =>
    obtain ⟨binding, honly, hbound⟩ := hbinding
    rw [parameterBinding, hkind, honly.child?_eq]
    exact hbound.2

private theorem Formal.Typed.text_parameterBinding {source : String} {p : Formal} {n : Node}
    (h : p.Typed source n) : (parameterBinding n).text source = p.text := by
  obtain ⟨binding, honly, hbound⟩ := h.bound
  have hbinding : parameterBinding n = binding := by
    rcases h.kind with hkind | hkind <;> rw [parameterBinding, hkind, honly.child?_eq] <;> rfl
  rw [hbinding, hbound.2]

section

variable {Tree : Formal → Node → Prop} {source : String}
  (hcomment : ∀ p n, Tree p n → n.kind ≠ .comment)
  (htext : ∀ p n, Tree p n → (parameterBinding n).text source = p.text)

include hcomment htext

private theorem Listed.map_text {ps : List Formal} {ns : List Node} (h : Listed Tree ps ns) :
    (ns.filter (!·.isComment)).map (fun n => (parameterBinding n).text source) =
      ps.map Formal.text := by
  induction h with
  | nil => rfl
  | comment hc _ ih =>
    rw [List.filter_cons_of_neg (by simp [Node.isComment, hc]), ih]
  | @formal p n ps ns htree _ ih =>
    have hkept : (!n.isComment) = true := by simpa [Node.isComment] using hcomment p n htree
    rw [List.filter_cons, if_pos hkept, List.map_cons, List.map_cons, ih, htext p n htree]

theorem Takes.parameterNames_eq {callable : Node} {ps : List Formal} (h : Takes Tree callable ps) :
    parameterNames callable source = ps.map Formal.text := by
  obtain ⟨hnone, list, honly, hlisted⟩ := h
  rw [parameterNames, Node.child?_eq_none hnone, honly.child?_eq]
  exact hlisted.map_text hcomment htext

end

private theorem Takes.parameterNames_plain {callable : Node} {ps : List Formal} {source : String}
    (h : Takes (Formal.Plain source) callable ps) :
    parameterNames callable source = ps.map Formal.text :=
  h.parameterNames_eq (fun _ _ => Formal.Plain.kind_ne_comment)
    fun _ _ => Formal.Plain.text_parameterBinding

private theorem Takes.parameterNames_typed {callable : Node} {ps : List Formal} {source : String}
    (h : Takes (Formal.Typed source) callable ps) :
    parameterNames callable source = ps.map Formal.text :=
  h.parameterNames_eq (fun _ _ => Formal.Typed.kind_ne_comment)
    fun _ _ => Formal.Typed.text_parameterBinding

private theorem mixinRecord_parameters {declaration : TopLevel} {callable : Node}
    (h : (mixinBinding declaration.node).2 = some callable) (path : Path) (source : String)
    (nodes : MixinNodes) :
    (mixinRecord path source declaration nodes).parameters = parameterNames callable source := by
  simp only [mixinRecord, h, Option.map_some, Option.getD_some]

/-- The trees that a list of parameters has in the plain and in the typed dialects are read alike,
each in its own source: one text for each parameter, in order, which is the binding without default,
type and question mark. They stand in the record of the callable. A bare parameter is its own text,
and without parameters there is nothing to read. -/
theorem dialects_name_parameters_alike :
    (∀ (ps : List Formal) (plain typed : Node) (source source' : String),
      Takes (Formal.Plain source) plain ps → Takes (Formal.Typed source') typed ps →
      parameterNames plain source = ps.map Formal.text ∧
      parameterNames typed source' = ps.map Formal.text ∧
      ∀ (path path' : Path) (d d' : TopLevel) (nodes nodes' : MixinNodes),
        (mixinBinding d.node).2 = some plain → (mixinBinding d'.node).2 = some typed →
        (mixinRecord path source d nodes).parameters =
          (mixinRecord path' source' d' nodes').parameters) ∧
    (∀ (callable bare : Node) (source : String), callable.HasOnly .parameter bare →
      parameterNames callable source = [bare.text source]) ∧
    ∀ (callable : Node) (source : String),
      (∀ c ∈ callable.children, c.field ≠ some .parameter ∧ c.field ≠ some .parameters) →
      parameterNames callable source = [] := by
  refine ⟨?_, ?_, ?_⟩
  · intro ps plain typed source source' hplain htyped
    have hnames := hplain.parameterNames_plain
    have hnames' := htyped.parameterNames_typed
    refine ⟨hnames, hnames', ?_⟩
    intro path path' d d' nodes nodes' hd hd'
    rw [mixinRecord_parameters hd, mixinRecord_parameters hd', hnames, hnames']
  · intro callable bare source honly
    rw [parameterNames, honly.child?_eq]
  · intro callable source hnone
    rw [parameterNames, Node.child?_eq_none fun c hc => (hnone c hc).1,
      Node.child?_eq_none fun c hc => (hnone c hc).2]

/-! ### Parameters in source texts -/

def samplePlainList : String := "function f(a,/**/\x7bb\x7d=c,...d)\x7b\x7d"

def sampleTypedList : String := "function f(a?:T,/**/\x7bb\x7d:U=c,...d:V)\x7b\x7d"

/-- The first construct of a source text. -/
def firstConstruct (dialect : Dialect) (text : String) : Node :=
  (Source.parse dialect text).root.namedChildren.head?.getD default

def sampleFormals : List Formal :=
  [{ kind := .identifier, text := "a" },
    { kind := .other "object_pattern", text := "\x7bb\x7d", default := some "c" },
    { kind := .other "rest_pattern", text := "...d" }]

def sampleBare : Node :=
  .mk .arrowFunction true none {} ⟨4, 0, 4⟩
    [.mk .identifier true (some .parameter) {} ⟨1, 0, 1⟩ [],
      .mk .identifier true (some .body) ⟨3, 0, 3⟩ ⟨4, 0, 4⟩ []]

theorem sampleFormals_alike :
    Takes (Formal.Plain samplePlainList) (firstConstruct .javaScript samplePlainList)
      sampleFormals ∧
    Takes (Formal.Typed sampleTypedList) (firstConstruct .typeScript sampleTypedList)
      sampleFormals ∧
    parameterNames (firstConstruct .javaScript samplePlainList) samplePlainList =
      ["a", "\x7bb\x7d", "...d"] ∧
    parameterNames (firstConstruct .typeScript sampleTypedList) sampleTypedList =
      ["a", "\x7bb\x7d", "...d"] ∧
    (∀ nodes nodes' : MixinNodes,
      (mixinRecord ⟨"f.js"⟩ samplePlainList ⟨firstConstruct .javaScript samplePlainList, false⟩
        nodes).parameters =
      (mixinRecord ⟨"f.ts"⟩ sampleTypedList ⟨firstConstruct .typeScript sampleTypedList, false⟩
        nodes').parameters) ∧
    parameterNames sampleBare "b=>b" = ["b"] ∧
    parameterNames (.mk .functionSignature true none {} {} []) "" = [] := by
  have hplain : Takes (Formal.Plain samplePlainList) (firstConstruct .javaScript samplePlainList)
      sampleFormals := by decide +kernel
  have htyped : Takes (Formal.Typed sampleTypedList) (firstConstruct .typeScript sampleTypedList)
      sampleFormals := by decide +kernel
  have hrole : (firstConstruct .javaScript samplePlainList).role = .functionDeclaration := by
    decide +kernel
  have hrole' : (firstConstruct .typeScript sampleTypedList).role = .functionDeclaration := by
    decide +kernel
  obtain ⟨hlists, hbare, hnone⟩ := dialects_name_parameters_alike
  obtain ⟨hnames, hnames', hrecords⟩ := hlists _ _ _ _ _ hplain htyped
  refine ⟨hplain, htyped, hnames, hnames', ?_, ?_, hnone _ _ (by decide)⟩
  · intro nodes nodes'
    apply hrecords
    · simp only [mixinBinding, hrole]
    · simp only [mixinBinding, hrole']
  · rw [hbare sampleBare _ "b=>b" rfl]
    decide +kernel

end MixinCatalog
