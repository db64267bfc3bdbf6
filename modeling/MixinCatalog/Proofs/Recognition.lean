import MixinCatalog.Mixin.Classifier

/-!
# Recognition as a decision tree

The rules that make a declaration a mixin, said of the children of nodes alone: which declarator
decides, which return and which class declaration of a block take part, and what each case gives.
The classifier answers exactly what these rules allow, for every tree, source text, name reader and
choice of options.
-/

namespace MixinCatalog

open Syntax

/-! ### The rules -/

/-- `x` is the first element of a list with a property. -/
def IsFirst {α : Type} (P : α → Prop) (xs : List α) (x : α) : Prop :=
  ∃ before after, xs = before ++ x :: after ∧ P x ∧ ∀ y ∈ before, ¬P y

/-- A declarator binds a plain name to a function. -/
def BindsFunction (declarator name f : Node) : Prop :=
  declarator.kind = .variableDeclarator ∧ declarator.child? .name = some name ∧
    name.role = .identifier ∧ declarator.child? .value = some f ∧ f.role = .functionLike

/-- The declarator that decides about a variable statement, with the name and the function it
binds: no declarator in front of it binds a name to a function. -/
def Decides (statement declarator name f : Node) : Prop :=
  IsFirst (fun d => ∃ n g, BindsFunction d n g) statement.namedChildren declarator ∧
    BindsFunction declarator name f

def IsFirstReturn (block r : Node) : Prop :=
  IsFirst (fun n => n.role = .returnStatement) block.namedChildren r

def IsFirstClass (block c : Node) : Prop :=
  IsFirst (fun n => n.role = .classDeclaration) block.namedChildren c

def HasNoReturn (block : Node) : Prop := ∀ n ∈ block.namedChildren, n.role ≠ .returnStatement

/-- What a return statement hands back: its first child that is no token and no comment. -/
def HandsBack (r e : Node) : Prop := IsFirst (fun n => n.kind ≠ .comment) r.namedChildren e

/-- The first return of a block hands back a class expression. -/
def ReturnsClass (block c : Node) : Prop :=
  ∃ r, IsFirstReturn block r ∧ HandsBack r c ∧ c.role = .classExpression

/-- The first class declaration of a block is its result: the first return names it, or nothing is
returned and the options accept that. -/
inductive DeclaresClass (names : NameReader) (options : MixinOptions) (source : String)
    (block : Node) : Node → Bool → Prop
  | byName {c r name : Node} : IsFirstClass block c → IsFirstReturn block r →
      c.child? .name = some name → names r source = some (name.text source) →
      DeclaresClass names options source block c true
  | implicit {c : Node} : IsFirstClass block c → HasNoReturn block →
      options.implicitReturn = true → DeclaresClass names options source block c false

/-- The forms of a variable statement that are mixins. -/
inductive VariableMixin (names : NameReader) (options : MixinOptions) (source : String)
    (statement : Node) : MixinNodes → Prop
  | expressionBody {d name f body : Node} : Decides statement d name f →
      f.child? .body = some body → body.role = .classExpression →
      VariableMixin names options source statement ⟨statement, body, .expressionBody⟩
  | returnExpression {d name f block c : Node} : Decides statement d name f →
      f.child? .body = some block → block.role = .block → ReturnsClass block c →
      VariableMixin names options source statement ⟨f, c, .blockReturnExpression⟩
  | classDeclaration {d name f block c : Node} {explicit : Bool} : Decides statement d name f →
      f.child? .body = some block → block.role = .block → (∀ e, ¬ReturnsClass block e) →
      DeclaresClass names options source block c explicit →
      VariableMixin names options source statement
        ⟨statement, c, .blockClassDeclaration explicit⟩

/-- The forms of a function declaration that are mixins. -/
inductive FunctionMixin (names : NameReader) (options : MixinOptions) (source : String)
    (function : Node) : MixinNodes → Prop
  | returnExpression {block c : Node} : function.child? .body = some block →
      block.role = .block → ReturnsClass block c →
      FunctionMixin names options source function ⟨function, c, .functionReturnExpression⟩
  | classDeclaration {block c : Node} {explicit : Bool} : function.child? .body = some block →
      block.role = .block → (∀ e, ¬ReturnsClass block e) →
      DeclaresClass names options source block c explicit →
      FunctionMixin names options source function
        ⟨function, c, .functionClassDeclaration explicit⟩

/-- The declarations that are mixins: some variable statements, some function declarations, and
nothing else. -/
inductive IsMixin (names : NameReader) (options : MixinOptions) (source : String)
    (declaration : Node) (m : MixinNodes) : Prop
  | ofVariable : declaration.role = .variableStatement →
      VariableMixin names options source declaration m →
      IsMixin names options source declaration m
  | ofFunction : declaration.role = .functionDeclaration →
      FunctionMixin names options source declaration m →
      IsMixin names options source declaration m

/-! ### Searches -/

theorem IsFirst.holds {α : Type} {P : α → Prop} {xs : List α} {x : α} (h : IsFirst P xs x) :
    P x := by
  obtain ⟨before, after, hxs, hx, hbefore⟩ := h
  exact hx

private theorem find?_eq_some_iff_isFirst {α : Type} {p : α → Bool} {P : α → Prop} {xs : List α}
    {x : α} (h : ∀ y, p y = true ↔ P y) : xs.find? p = some x ↔ IsFirst P xs x := by
  rw [List.find?_eq_some_iff_append]
  constructor
  · rintro ⟨hx, before, after, hxs, hbefore⟩
    refine ⟨before, after, hxs, (h x).mp hx, ?_⟩
    intro y hy hP
    have hn := hbefore y hy
    simp [(h y).mpr hP] at hn
  · rintro ⟨before, after, hxs, hx, hbefore⟩
    refine ⟨(h x).mpr hx, before, after, hxs, ?_⟩
    intro y hy
    have hn : ¬p y = true := fun hp => hbefore y hy ((h y).mp hp)
    simpa using hn

theorem initializer?_eq_some_iff {declarator f : Node} :
    declarator.initializer? = some f ↔ declarator.kind = .variableDeclarator ∧
      ∃ name, declarator.child? .name = some name ∧ name.role = .identifier ∧
        declarator.child? .value = some f := by
  unfold Node.initializer?
  by_cases hk : declarator.kind = .variableDeclarator
  · cases hn : declarator.child? .name with
    | none => simp [hk]
    | some name => by_cases hr : name.role = .identifier <;> simp [hk, hr]
  · simp [hk]

theorem bindsFunction_iff {declarator f : Node} :
    (∃ name, BindsFunction declarator name f) ↔
      declarator.initializer? = some f ∧ f.role = .functionLike := by
  rw [initializer?_eq_some_iff]
  constructor
  · rintro ⟨name, hk, hn, hr, hv, hf⟩
    exact ⟨⟨hk, name, hn, hr, hv⟩, hf⟩
  · rintro ⟨⟨hk, name, hn, hr, hv⟩, hf⟩
    exact ⟨name, hk, hn, hr, hv, hf⟩

/-- The search for the deciding function stops at the declarator that decides. -/
theorem decidingInitializer?_eq_some_iff {statement f : Node} :
    statement.decidingInitializer? = some f ↔ ∃ d name, Decides statement d name f := by
  have hfits (d : Node) : decide ((d.kind == .variableDeclarator) = true ∧
      d.initializer?.any (·.role == .functionLike) = true) = true ↔
        ∃ n g, BindsFunction d n g := by
    rw [exists_comm]
    simp only [bindsFunction_iff]
    cases hi : d.initializer? with
    | none => simp
    | some g => simpa using fun _ => (initializer?_eq_some_iff.mp hi).1
  rw [Node.decidingInitializer?, Node.declarators, List.find?_filterMap, List.find?_filter,
    Option.bind_eq_some_iff]
  constructor
  · rintro ⟨d, hd, hf⟩
    have hfirst := (find?_eq_some_iff_isFirst hfits).mp hd
    obtain ⟨n, g, hbinds⟩ := hfirst.holds
    have hg := (bindsFunction_iff.mp ⟨n, hbinds⟩).1
    obtain rfl : g = f := by simpa [hf] using hg.symm
    exact ⟨d, n, hfirst, hbinds⟩
  · rintro ⟨d, name, hfirst, hbinds⟩
    exact ⟨d, (find?_eq_some_iff_isFirst hfits).mpr hfirst,
      (bindsFunction_iff.mp ⟨name, hbinds⟩).1⟩

/-! ### One pass over a block -/

theorem BlockScan.step_eq (scan : BlockScan) (statement : Node) :
    scan.step statement =
      ⟨scan.firstReturn?.or ([statement].find? (·.role == .returnStatement)),
        scan.firstClass?.or ([statement].find? (·.role == .classDeclaration))⟩ := by
  unfold BlockScan.step
  cases hr : statement.role <;> simp [hr]

/-- After any number of statements each slot holds what it held before them, or else the first of
them that fits. -/
theorem BlockScan.foldl_step (statements : List Node) (scan : BlockScan) :
    statements.foldl BlockScan.step scan =
      ⟨scan.firstReturn?.or (statements.find? (·.role == .returnStatement)),
        scan.firstClass?.or (statements.find? (·.role == .classDeclaration))⟩ := by
  induction statements generalizing scan with
  | nil => simp
  | cons statement rest ih =>
    rw [List.foldl_cons, ih, BlockScan.step_eq]
    have hsplit : statement :: rest = [statement] ++ rest := rfl
    rw [hsplit, List.find?_append, List.find?_append, Option.or_assoc, Option.or_assoc]

private theorem find?_statements {block : Node} {role : Role} (h : role ≠ .other) :
    block.statements.find? (·.role == role) = block.namedChildren.find? (·.role == role) := by
  simp only [Node.statements, Node.parts, List.find?_filter]
  congr 1
  funext n
  apply Bool.eq_iff_iff.mpr
  by_cases hc : n.kind = .comment
  · simp [Node.isComment, Node.role, Kind.role, hc, h.symm]
  · simp [Node.isComment, hc]

private theorem BlockScan.firstReturn?_ofBlock (block : Node) :
    (BlockScan.ofBlock block).firstReturn? =
      block.namedChildren.find? (·.role == .returnStatement) := by
  rw [BlockScan.ofBlock, BlockScan.foldl_step]
  exact find?_statements (by decide)

private theorem BlockScan.firstClass?_ofBlock (block : Node) :
    (BlockScan.ofBlock block).firstClass? =
      block.namedChildren.find? (·.role == .classDeclaration) := by
  rw [BlockScan.ofBlock, BlockScan.foldl_step]
  exact find?_statements (by decide)

theorem BlockScan.firstReturn?_eq_some_iff {block r : Node} :
    (BlockScan.ofBlock block).firstReturn? = some r ↔ IsFirstReturn block r := by
  rw [BlockScan.firstReturn?_ofBlock]
  exact find?_eq_some_iff_isFirst fun n => by simp

theorem BlockScan.firstReturn?_eq_none_iff {block : Node} :
    (BlockScan.ofBlock block).firstReturn? = none ↔ HasNoReturn block := by
  rw [BlockScan.firstReturn?_ofBlock]
  simp [HasNoReturn]

theorem BlockScan.firstClass?_eq_some_iff {block c : Node} :
    (BlockScan.ofBlock block).firstClass? = some c ↔ IsFirstClass block c := by
  rw [BlockScan.firstClass?_ofBlock]
  exact find?_eq_some_iff_isFirst fun n => by simp

theorem returned?_eq_some_iff {r e : Node} : r.returned? = some e ↔ HandsBack r e := by
  have hhead : r.returned? = r.namedChildren.find? (!·.isComment) := by
    simp [Node.returned?, Node.parts, List.head?_filter]
  rw [hhead]
  exact find?_eq_some_iff_isFirst fun n => by simp [Node.isComment]

theorem BlockScan.returnedClass?_eq_some_iff {block c : Node} :
    (BlockScan.ofBlock block).returnedClass? = some c ↔ ReturnsClass block c := by
  have hbind : (BlockScan.ofBlock block).returnedClass? = some c ↔
      (BlockScan.ofBlock block).firstReturn?.bind Node.returned? = some c ∧
        c.role = .classExpression := by
    unfold BlockScan.returnedClass?
    split
    · rename_i e he
      by_cases hr : e.role = .classExpression
      · simp only [hr, he, if_true, Option.some.injEq, iff_self_and]
        rintro rfl
        exact hr
      · simp only [hr, he, if_false, Option.some.injEq, reduceCtorEq, false_iff, not_and]
        rintro rfl
        exact hr
    · rename_i hn
      simp [hn]
  rw [hbind, Option.bind_eq_some_iff]
  simp only [BlockScan.firstReturn?_eq_some_iff, returned?_eq_some_iff]
  constructor
  · rintro ⟨⟨r, hr, he⟩, hc⟩
    exact ⟨r, hr, he, hc⟩
  · rintro ⟨r, hr, he, hc⟩
    exact ⟨⟨r, hr, he⟩, hc⟩

theorem BlockScan.returnedClass?_eq_none_iff {block : Node} :
    (BlockScan.ofBlock block).returnedClass? = none ↔ ∀ e, ¬ReturnsClass block e := by
  rw [Option.eq_none_iff_forall_ne_some]
  simp only [ne_eq, BlockScan.returnedClass?_eq_some_iff]

/-! ### The rules are what the classifier follows -/

theorem returnsClass_iff {names : NameReader} {source : String} {c r : Node} :
    returnsClass names source c r = true ↔
      ∃ name, c.child? .name = some name ∧ names r source = some (name.text source) := by
  unfold returnsClass
  cases hn : c.child? .name with
  | none => simp
  | some name =>
    cases hr : names r source with
    | none => simp
    | some returned => simpa using eq_comm

theorem classDeclarationRule_eq_some_iff {names : NameReader} {options : MixinOptions}
    {source : String} {block function : Node} {shape : Bool → Shape} {m : MixinNodes} :
    classDeclarationRule names options source (BlockScan.ofBlock block) function shape = some m ↔
      ∃ c explicit, DeclaresClass names options source block c explicit ∧
        m = ⟨function, c, shape explicit⟩ := by
  unfold classDeclarationRule
  constructor
  · intro h
    split at h
    · simp at h
    · rename_i c hc
      have hfirst := BlockScan.firstClass?_eq_some_iff.mp hc
      split at h
      · rename_i r hr
        have hret := BlockScan.firstReturn?_eq_some_iff.mp hr
        simp only [Option.ite_none_right_eq_some, Option.some.injEq] at h
        obtain ⟨name, hname, hreturned⟩ := returnsClass_iff.mp h.1
        exact ⟨c, true, .byName hfirst hret hname hreturned, h.2.symm⟩
      · rename_i hr
        have hnone := BlockScan.firstReturn?_eq_none_iff.mp hr
        simp only [Option.ite_none_right_eq_some, Option.some.injEq] at h
        exact ⟨c, false, .implicit hfirst hnone h.1, h.2.symm⟩
  · rintro ⟨c, explicit, hdecl, rfl⟩
    cases hdecl with
    | byName hc hr hname hreturned =>
      have hmatch := returnsClass_iff.mpr ⟨_, hname, hreturned⟩
      simp [BlockScan.firstClass?_eq_some_iff.mpr hc, BlockScan.firstReturn?_eq_some_iff.mpr hr,
        hmatch]
    | implicit hc hnone himplicit =>
      simp [BlockScan.firstClass?_eq_some_iff.mpr hc, BlockScan.firstReturn?_eq_none_iff.mpr hnone,
        himplicit]

theorem variableForms_eq_some_iff {names : NameReader} {options : MixinOptions} {source : String}
    {statement : Node} {m : MixinNodes} :
    variableForms names options source statement = some m ↔
      VariableMixin names options source statement m := by
  constructor
  · intro h
    unfold variableForms at h
    split at h
    · simp at h
    · rename_i f hf
      obtain ⟨d, name, hd⟩ := decidingInitializer?_eq_some_iff.mp hf
      split at h
      · simp at h
      · rename_i body hbody
        split at h
        · rename_i hrole
          obtain rfl : _ = m := by simpa using h
          exact .expressionBody hd hbody hrole
        · rename_i hrole
          dsimp only at h
          split at h
          · rename_i c hc
            obtain rfl : _ = m := by simpa using h
            exact .returnExpression hd hbody hrole (BlockScan.returnedClass?_eq_some_iff.mp hc)
          · rename_i hnone
            obtain ⟨c, explicit, hdecl, rfl⟩ := classDeclarationRule_eq_some_iff.mp h
            exact .classDeclaration hd hbody hrole
              (BlockScan.returnedClass?_eq_none_iff.mp hnone) hdecl
        · simp at h
  · intro h
    unfold variableForms
    cases h with
    | expressionBody hd hbody hrole =>
      have hf := decidingInitializer?_eq_some_iff.mpr ⟨_, _, hd⟩
      simp [hf, Node.body?, hbody, hrole]
    | returnExpression hd hbody hrole hc =>
      have hf := decidingInitializer?_eq_some_iff.mpr ⟨_, _, hd⟩
      have hret := BlockScan.returnedClass?_eq_some_iff.mpr hc
      simp [hf, Node.body?, hbody, hrole, hret]
    | classDeclaration hd hbody hrole hnone hdecl =>
      have hf := decidingInitializer?_eq_some_iff.mpr ⟨_, _, hd⟩
      have hret := BlockScan.returnedClass?_eq_none_iff.mpr hnone
      simp only [hf, Node.body?, hbody, hrole, hret]
      exact classDeclarationRule_eq_some_iff.mpr ⟨_, _, hdecl, rfl⟩

theorem functionForms_eq_some_iff {names : NameReader} {options : MixinOptions} {source : String}
    {function : Node} {m : MixinNodes} :
    functionForms names options source function = some m ↔
      FunctionMixin names options source function m := by
  constructor
  · intro h
    unfold functionForms at h
    split at h
    · simp at h
    · rename_i body hbody
      split at h
      · rename_i hrole
        dsimp only at h
        split at h
        · rename_i c hc
          obtain rfl : _ = m := by simpa using h
          exact .returnExpression hbody hrole (BlockScan.returnedClass?_eq_some_iff.mp hc)
        · rename_i hnone
          obtain ⟨c, explicit, hdecl, rfl⟩ := classDeclarationRule_eq_some_iff.mp h
          exact .classDeclaration hbody hrole
            (BlockScan.returnedClass?_eq_none_iff.mp hnone) hdecl
      · simp at h
  · intro h
    unfold functionForms
    cases h with
    | returnExpression hbody hrole hc =>
      have hret := BlockScan.returnedClass?_eq_some_iff.mpr hc
      simp [Node.body?, hbody, hrole, hret]
    | classDeclaration hbody hrole hnone hdecl =>
      have hret := BlockScan.returnedClass?_eq_none_iff.mpr hnone
      simp only [Node.body?, hbody, hrole, hret, if_true]
      exact classDeclarationRule_eq_some_iff.mpr ⟨_, _, hdecl, rfl⟩

/-- The classifier is the decision tree: for every node it answers with the nodes that the rules
allow, and with nothing where they allow none. -/
theorem mixinNodes?_eq_some_iff_isMixin (names : NameReader) (options : MixinOptions)
    (source : String) (declaration : Node) (m : MixinNodes) :
    mixinNodes? names options source declaration = some m ↔
      IsMixin names options source declaration m := by
  constructor
  · intro h
    unfold mixinNodes? at h
    split at h
    · rename_i hrole
      exact .ofVariable hrole (variableForms_eq_some_iff.mp h)
    · rename_i hrole
      exact .ofFunction hrole (functionForms_eq_some_iff.mp h)
    · simp at h
  · intro h
    cases h with
    | ofVariable hrole hm =>
      simp only [mixinNodes?, hrole]
      exact variableForms_eq_some_iff.mpr hm
    | ofFunction hrole hm =>
      simp only [mixinNodes?, hrole]
      exact functionForms_eq_some_iff.mpr hm

end MixinCatalog
