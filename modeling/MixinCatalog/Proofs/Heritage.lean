import MixinCatalog.Catalog.File

/-!
# The superclass of a class

The plain dialects write the expression behind `extends` directly into the heritage of a class, the
typed ones write it into a clause of its own, which a clause of interfaces may follow or stand in
for. The superclass of a record is what the heritage begins with, or the value of a clause that it
begins with. That is the extended expression unless the heritage begins with a comment or lists
nothing but interfaces: these two are recorded as if they were a superclass.
-/

namespace MixinCatalog

open Syntax

/-! ### What a class extends -/

def Syntax.Kind.implementsClause : Kind := .other "implements_clause"

/-- An expression is no comment and no clause of a heritage. -/
def IsOperand (e : Node) : Prop :=
  e.kind ≠ .comment ∧ e.kind ≠ .extendsClause ∧ e.kind ≠ .implementsClause

/-- The forms that the grammars give to a heritage, with the expression that it extends. Comments
may stand anywhere: only the other parts are looked at. -/
inductive HeritageExtends (heritage : Node) : Option Node → Prop
  -- the plain dialects
  | plain {e : Node} : heritage.parts = [e] → IsOperand e → HeritageExtends heritage (some e)
  -- the typed dialects, possibly with interfaces behind the clause
  | typed {clause e : Node} {interfaces : List Node} : heritage.parts = clause :: interfaces →
      clause.kind = .extendsClause → interfaces.length ≤ 1 →
      (∀ n ∈ interfaces, n.kind = .implementsClause) → clause.child? .value = some e →
      IsOperand e → HeritageExtends heritage (some e)
  -- interfaces alone, which only the typed dialects have
  | interfaces {clause : Node} : heritage.parts = [clause] → clause.kind = .implementsClause →
      HeritageExtends heritage none

/-- The heritage of a class is its only child of that kind. -/
def IsHeritage (c heritage : Node) : Prop :=
  c.namedChildren.filter (·.kind == .classHeritage) = [heritage]

/-- A class extends an expression, or none. -/
inductive ClassExtends (c : Node) : Option Node → Prop
  | bare : c.role = .classExpression ∨ c.role = .classDeclaration →
      (∀ n ∈ c.namedChildren, n.kind ≠ .classHeritage) → ClassExtends c none
  | heritage {h : Node} {e : Option Node} : c.role = .classExpression ∨ c.role = .classDeclaration →
      IsHeritage c h → HeritageExtends h e → ClassExtends c e

/-- What the heritage of a class begins with, comments included. -/
def HeritageBegins (c first : Node) : Prop :=
  ∃ heritage, IsHeritage c heritage ∧ heritage.namedChildren.head? = some first

/-- A node that is recorded in the place of a superclass without being one. -/
def IsMisread (n : Node) : Prop := n.kind = .comment ∨ n.kind = .implementsClause

/-! ### What is recorded -/

private theorem superclass?_of_bare {c : Node}
    (h : ∀ n ∈ c.namedChildren, n.kind ≠ .classHeritage) : superclass? c = none := by
  have hnone : c.namedChildren.find? (·.kind == .classHeritage) = none := by
    apply List.find?_eq_none.mpr
    intro n hn
    simpa using h n hn
  simp only [superclass?, hnone]

private theorem superclass?_of_begins {c first : Node} (h : HeritageBegins c first) :
    superclass? c = if first.kind = .extendsClause then first.child? .value else some first := by
  obtain ⟨heritage, hheritage, hfirst⟩ := h
  have hfound : c.namedChildren.find? (·.kind == .classHeritage) = some heritage := by
    rw [← List.head?_filter, hheritage]
    rfl
  simp only [superclass?, hfound, hfirst]

private theorem superclass?_of_isMisread {c first : Node} (h : HeritageBegins c first)
    (hfirst : IsMisread first) : superclass? c = some first := by
  rw [superclass?_of_begins h, if_neg]
  rcases hfirst with hkind | hkind <;> simp [hkind, Kind.implementsClause]

theorem HeritageBegins.unique {c a b : Node} (ha : HeritageBegins c a) (hb : HeritageBegins c b) :
    a = b := by
  obtain ⟨heritage, hheritage, hfirst⟩ := ha
  obtain ⟨heritage', hheritage', hfirst'⟩ := hb
  obtain rfl : heritage = heritage' := List.singleton_inj.mp (hheritage.symm.trans hheritage')
  exact Option.some.inj (hfirst.symm.trans hfirst')

private theorem exists_head?_namedChildren {heritage part : Node} {rest : List Node}
    (h : heritage.parts = part :: rest) :
    ∃ first, heritage.namedChildren.head? = some first ∧
      (first.kind = .comment ∨ first = part) := by
  unfold Node.parts at h
  cases hchildren : heritage.namedChildren with
  | nil => simp [hchildren] at h
  | cons first others =>
    refine ⟨first, rfl, ?_⟩
    by_cases hcomment : first.kind = .comment
    · exact .inl hcomment
    · have hkept : first.isComment = false := by simpa [Node.isComment] using hcomment
      rw [hchildren, List.filter_cons, hkept] at h
      exact .inr (List.cons.inj h).1

private theorem IsOperand.not_isMisread {e : Node} (h : IsOperand e) : ¬IsMisread e := by
  rintro (hcomment | hclause)
  · exact h.1 hcomment
  · exact h.2.2 hclause

private theorem ClassExtends.isOperand {c e : Node} (h : ClassExtends c (some e)) :
    IsOperand e := by
  cases h with
  | heritage _ _ hextends =>
    cases hextends with
    | plain _ he => exact he
    | typed _ _ _ _ _ he => exact he

theorem HeritageExtends.superclass?_eq {c heritage : Node} {e : Option Node}
    (hc : IsHeritage c heritage) (h : HeritageExtends heritage e)
    (hread : ∀ first, HeritageBegins c first → ¬IsMisread first) : superclass? c = e := by
  -- once a comment in front is excluded, the first part is what the heritage begins with
  have hpart {part : Node} {rest : List Node} (hparts : heritage.parts = part :: rest) :
      HeritageBegins c part := by
    obtain ⟨first, hhead, hfirst⟩ := exists_head?_namedChildren hparts
    have hbegins : HeritageBegins c first := ⟨heritage, hc, hhead⟩
    rcases hfirst with hcomment | rfl
    · exact absurd (.inl hcomment) (hread first hbegins)
    · exact hbegins
  cases h with
  | plain hparts he => rw [superclass?_of_begins (hpart hparts), if_neg he.2.1]
  | typed hparts hkind _ _ hvalue _ =>
    rw [superclass?_of_begins (hpart hparts), if_pos hkind, hvalue]
  | interfaces hparts hkind => exact absurd (.inr hkind) (hread _ (hpart hparts))

theorem ClassExtends.superclass?_eq {c : Node} {e : Option Node} (h : ClassExtends c e)
    (hread : ∀ first, HeritageBegins c first → ¬IsMisread first) : superclass? c = e := by
  cases h with
  | bare _ hnone => exact superclass?_of_bare hnone
  | heritage _ hc hextends => exact hextends.superclass?_eq hc hread

private theorem ClassExtends.ne_of_isMisread {c first : Node} {e : Option Node}
    (h : ClassExtends c e) (hfirst : IsMisread first) : e ≠ some first := by
  rintro rfl
  exact h.isOperand.not_isMisread hfirst

/-- The superclass that is recorded is the expression that the class extends, and none if it
extends none, if and only if the heritage does not begin with a comment or a list of interfaces. If
it does, this beginning is what is recorded. -/
theorem superclass_is_extended_iff (c : Node) (e : Option Node) (h : ClassExtends c e) :
    (superclass? c = e ↔ ∀ first, HeritageBegins c first → ¬IsMisread first) ∧
    (∀ first, HeritageBegins c first → IsMisread first → superclass? c = some first) ∧
    ∀ (path : Path) (source : String) (d : TopLevel) (function : Node) (shape : Shape),
      (∀ first, HeritageBegins c first → ¬IsMisread first) →
      (mixinRecord path source d ⟨function, c, shape⟩).superclass = e.map (·.text source) := by
  refine ⟨⟨?_, h.superclass?_eq⟩, ?_, ?_⟩
  · intro heq first hbegins hfirst
    have hmisread := superclass?_of_isMisread hbegins hfirst
    exact h.ne_of_isMisread hfirst (heq.symm.trans hmisread)
  · intro first hbegins hfirst
    exact superclass?_of_isMisread hbegins hfirst
  · intro path source d function shape hread
    rw [← h.superclass?_eq hread]
    rfl

/-! ### Classes in source texts -/

def firstClass (dialect : Dialect) (text : String) : Node :=
  (((Source.parse dialect text).root.children.findSome?
    (mixinNodes? NameReader.textual {} text)).map MixinNodes.classNode).getD default

/-- The role of a class, and for each heritage the kinds of its named children and of what stands
in their field `value`. -/
def outline (c : Node) : Role × List (List (Kind × Option Kind)) :=
  (c.role, (c.namedChildren.filter (·.kind == .classHeritage)).map
    (·.namedChildren.map fun n => (n.kind, (n.child? .value).map Node.kind)))

private theorem exists_heritage_of_outline {c : Node} {role : Role}
    {kinds : List (Kind × Option Kind)} (h : outline c = (role, [kinds])) :
    c.role = role ∧ ∃ heritage, IsHeritage c heritage ∧
      heritage.namedChildren.map (fun n => (n.kind, (n.child? .value).map Node.kind)) = kinds := by
  obtain ⟨hrole, hkinds⟩ := Prod.mk.inj h
  obtain ⟨heritage, hfilter, hchildren⟩ := List.map_eq_singleton_iff.mp hkinds
  exact ⟨hrole, heritage, hfilter, hchildren⟩

def sampleCommented : String := "let M=b=>class extends/**/b{}"

private theorem sampleCommented_heritage : ∃ comment e,
    HeritageBegins (firstClass .javaScript sampleCommented) comment ∧ comment.kind = .comment ∧
      ClassExtends (firstClass .javaScript sampleCommented) (some e) := by
  have houtline : outline (firstClass .javaScript sampleCommented) =
      (.classExpression, [[(.comment, none), (.identifier, none)]]) := by decide +kernel
  obtain ⟨hrole, heritage, hheritage, hchildren⟩ := exists_heritage_of_outline houtline
  obtain ⟨comment, rest, hsplit, hcomment, hrest⟩ := List.map_eq_cons_iff.mp hchildren
  obtain ⟨e, rfl, he⟩ := List.map_eq_singleton_iff.mp hrest
  have hcommentKind : comment.kind = .comment := (Prod.mk.inj hcomment).1
  have heKind : e.kind = .identifier := (Prod.mk.inj he).1
  have hparts : heritage.parts = [e] := by
    simp [Node.parts, hsplit, Node.isComment, hcommentKind, heKind]
  have hoperand : IsOperand e := by
    simp [IsOperand, heKind, Kind.implementsClause]
  exact ⟨comment, e, ⟨heritage, hheritage, by rw [hsplit]; rfl⟩, hcommentKind,
    .heritage (.inl hrole) hheritage (.plain hparts hoperand)⟩

def sampleInterface : String := "let M=b=>class implements I{}"

private theorem sampleInterface_heritage : ∃ clause,
    HeritageBegins (firstClass .typeScript sampleInterface) clause ∧
      clause.kind = .implementsClause ∧
      ClassExtends (firstClass .typeScript sampleInterface) none := by
  have houtline : outline (firstClass .typeScript sampleInterface) =
      (.classExpression, [[(.implementsClause, none)]]) := by decide +kernel
  obtain ⟨hrole, heritage, hheritage, hchildren⟩ := exists_heritage_of_outline houtline
  obtain ⟨clause, hsplit, hclause⟩ := List.map_eq_singleton_iff.mp hchildren
  have hkind : clause.kind = .implementsClause := (Prod.mk.inj hclause).1
  have hparts : heritage.parts = [clause] := by
    simp [Node.parts, hsplit, Node.isComment, hkind, Kind.implementsClause]
  exact ⟨clause, ⟨heritage, hheritage, by rw [hsplit]; rfl⟩, hkind,
    .heritage (.inl hrole) hheritage (.interfaces hparts hkind)⟩

/-- The comment and the list of interfaces of the two samples are recorded as superclasses. -/
theorem samples_misread :
    (∃ e, ClassExtends (firstClass .javaScript sampleCommented) (some e) ∧
      superclass? (firstClass .javaScript sampleCommented) ≠ some e) ∧
    (ClassExtends (firstClass .typeScript sampleInterface) none ∧
      superclass? (firstClass .typeScript sampleInterface) ≠ none) ∧
    (catalogSource ⟨"m.js"⟩ sampleCommented {}).mixins.map (·.superclass) = [some "/**/"] ∧
    (catalogSource ⟨"m.ts"⟩ sampleInterface {}).mixins.map (·.superclass) =
      [some "implements I"] := by
  refine ⟨?_, ?_, by decide +kernel, by decide +kernel⟩
  · obtain ⟨comment, e, hbegins, hcomment, hextends⟩ := sampleCommented_heritage
    refine ⟨e, hextends, ?_⟩
    rw [superclass?_of_isMisread hbegins (.inl hcomment)]
    exact (hextends.ne_of_isMisread (.inl hcomment)).symm
  · obtain ⟨clause, hbegins, hclause, hextends⟩ := sampleInterface_heritage
    refine ⟨hextends, ?_⟩
    rw [superclass?_of_isMisread hbegins (.inr hclause)]
    simp

-- here the comment stands inside the clause, so the heritage does not begin with it
def sampleClauses : String := "let M=b=>class extends/**/b implements I{}"

private theorem sampleClauses_heritage : ∃ clause e,
    HeritageBegins (firstClass .typeScript sampleClauses) clause ∧ clause.kind = .extendsClause ∧
      ClassExtends (firstClass .typeScript sampleClauses) (some e) := by
  have houtline : outline (firstClass .typeScript sampleClauses) =
      (.classExpression, [[(.extendsClause, some .identifier), (.implementsClause, none)]]) := by
    decide +kernel
  obtain ⟨hrole, heritage, hheritage, hchildren⟩ := exists_heritage_of_outline houtline
  obtain ⟨clause, rest, hsplit, hclause, hrest⟩ := List.map_eq_cons_iff.mp hchildren
  obtain ⟨interfaces, rfl, hinterfaces⟩ := List.map_eq_singleton_iff.mp hrest
  obtain ⟨hkind, hvalue⟩ := Prod.mk.inj hclause
  have hinterfacesKind : interfaces.kind = .implementsClause := (Prod.mk.inj hinterfaces).1
  obtain ⟨e, he, heKind⟩ := Option.map_eq_some_iff.mp hvalue
  have hparts : heritage.parts = [clause, interfaces] := by
    simp [Node.parts, hsplit, Node.isComment, hkind, hinterfacesKind, Kind.implementsClause]
  have hoperand : IsOperand e := by
    simp [IsOperand, heKind, Kind.implementsClause]
  exact ⟨clause, e, ⟨heritage, hheritage, by rw [hsplit]; rfl⟩, hkind,
    .heritage (.inl hrole) hheritage
      (.typed hparts hkind (by simp) (by simp [hinterfacesKind]) he hoperand)⟩

/-- The extended expression is recorded where the heritage begins with its clause, and a comment
where the heritage begins with one. -/
theorem samples_superclass :
    (∃ e, ClassExtends (firstClass .typeScript sampleClauses) (some e) ∧
      (∀ first, HeritageBegins (firstClass .typeScript sampleClauses) first → ¬IsMisread first) ∧
      superclass? (firstClass .typeScript sampleClauses) = some e ∧
      (mixinRecord ⟨"m.ts"⟩ sampleClauses ⟨default, false⟩
        ⟨default, firstClass .typeScript sampleClauses, .expressionBody⟩).superclass =
          some (e.text sampleClauses)) ∧
    ∃ comment e, ClassExtends (firstClass .javaScript sampleCommented) (some e) ∧
      HeritageBegins (firstClass .javaScript sampleCommented) comment ∧ IsMisread comment ∧
      superclass? (firstClass .javaScript sampleCommented) = some comment := by
  constructor
  · obtain ⟨clause, e, hbegins, hkind, hextends⟩ := sampleClauses_heritage
    have hread : ∀ first, HeritageBegins (firstClass .typeScript sampleClauses) first →
        ¬IsMisread first := by
      intro first hfirst
      obtain rfl := hbegins.unique hfirst
      simp [IsMisread, hkind, Kind.implementsClause]
    obtain ⟨hsuperclass, _, hrecord⟩ := superclass_is_extended_iff _ _ hextends
    exact ⟨e, hextends, hread, hsuperclass.mpr hread,
      hrecord ⟨"m.ts"⟩ sampleClauses ⟨default, false⟩ default .expressionBody hread⟩
  · obtain ⟨comment, e, hbegins, hcomment, hextends⟩ := sampleCommented_heritage
    obtain ⟨_, hmisread, _⟩ := superclass_is_extended_iff _ _ hextends
    exact ⟨comment, e, hextends, hbegins, .inl hcomment, hmisread comment hbegins (.inl hcomment)⟩

end MixinCatalog
