import MixinCatalog.Proofs.Binding

/-!
# Functions and variables with the same block

The block of a function declaration and the block of a function that a variable holds are read by
separate rules. Whatever the block contains, both declarations are mixins or neither is, with the
same class and the same way of giving it. A variable has one form more, a body that is the class
itself, which no block can have.
-/

namespace MixinCatalog

open Syntax

/-- What a function declaration and a variable statement that holds `f` report of one class. -/
inductive Mirrors (function statement f : Node) : MixinNodes → MixinNodes → Prop
  | returnExpression (c : Node) : Mirrors function statement f
      ⟨function, c, .functionReturnExpression⟩ ⟨f, c, .blockReturnExpression⟩
  | classDeclaration (c : Node) (explicit : Bool) : Mirrors function statement f
      ⟨function, c, .functionClassDeclaration explicit⟩
      ⟨statement, c, .blockClassDeclaration explicit⟩

section

variable {names : NameReader} {options : MixinOptions} {source : String}
  {function statement d name f block : Node}

theorem Decides.unique {d' name' f' : Node} (h : Decides statement d name f)
    (h' : Decides statement d' name' f') : f = f' := by
  have hf := decidingInitializer?_eq_some_iff.mpr ⟨d, name, h⟩
  have hf' := decidingInitializer?_eq_some_iff.mpr ⟨d', name', h'⟩
  exact Option.some.inj (hf.symm.trans hf')

private theorem FunctionMixin.exists_variableMixin {m : MixinNodes} (hblock : block.role = .block)
    (hbody : function.child? .body = some block) (hd : Decides statement d name f)
    (hf : f.child? .body = some block) (h : FunctionMixin names options source function m) :
    ∃ m', VariableMixin names options source statement m' ∧
      Mirrors function statement f m m' := by
  cases h with
  | @returnExpression block' c hbody' _ hret =>
    obtain rfl : block = block' := Option.some.inj (hbody.symm.trans hbody')
    exact ⟨_, .returnExpression hd hf hblock hret, .returnExpression c⟩
  | @classDeclaration block' c explicit hbody' _ hnone hdecl =>
    obtain rfl : block = block' := Option.some.inj (hbody.symm.trans hbody')
    exact ⟨_, .classDeclaration hd hf hblock hnone hdecl, .classDeclaration c explicit⟩

private theorem VariableMixin.exists_functionMixin {m' : MixinNodes} (hblock : block.role = .block)
    (hbody : function.child? .body = some block) (hd : Decides statement d name f)
    (hf : f.child? .body = some block) (h : VariableMixin names options source statement m') :
    ∃ m, FunctionMixin names options source function m := by
  -- the function that the rules speak of is `f`, and its body is the block
  have hsame {d' name' f' block' : Node} (hd' : Decides statement d' name' f')
      (hbody' : f'.child? .body = some block') : block = block' := by
    obtain rfl := hd.unique hd'
    exact Option.some.inj (hf.symm.trans hbody')
  cases h with
  | expressionBody hd' hbody' hrole =>
    obtain rfl := hsame hd' hbody'
    simp [hblock] at hrole
  | returnExpression hd' hbody' _ hret =>
    obtain rfl := hsame hd' hbody'
    exact ⟨_, .returnExpression hbody hblock hret⟩
  | classDeclaration hd' hbody' _ hnone hdecl =>
    obtain rfl := hsame hd' hbody'
    exact ⟨_, .classDeclaration hbody hblock hnone hdecl⟩

end

/-- A function declaration and a variable statement whose deciding function has the same block are
mixins together. Both then report the same class, and shapes that differ in nothing but the kind of
declaration. -/
theorem function_mirrors_variable (names : NameReader) (options : MixinOptions) (source : String)
    (block function statement f : Node) (hblock : block.role = .block)
    (hfunction : function.role = .functionDeclaration) (hbody : function.body? = some block)
    (hstatement : statement.role = .variableStatement)
    (hdecides : statement.decidingInitializer? = some f) (hf : f.body? = some block) :
    ((∃ m, mixinNodes? names options source function = some m) ↔
      ∃ m', mixinNodes? names options source statement = some m') ∧
    ∀ m m', mixinNodes? names options source function = some m →
      mixinNodes? names options source statement = some m' →
      m.classNode = m'.classNode ∧ Mirrors function statement f m m' := by
  obtain ⟨d, name, hd⟩ := decidingInitializer?_eq_some_iff.mp hdecides
  simp only [mixinNodes?, hfunction, hstatement, functionForms_eq_some_iff,
    variableForms_eq_some_iff]
  refine ⟨⟨?_, ?_⟩, ?_⟩
  · rintro ⟨m, hm⟩
    obtain ⟨m', hm', _⟩ := hm.exists_variableMixin hblock hbody hd hf
    exact ⟨m', hm'⟩
  · rintro ⟨m', hm'⟩
    exact hm'.exists_functionMixin hblock hbody hd hf
  · intro m m' hm hm'
    obtain ⟨m'', hm'', hmirrors⟩ := hm.exists_variableMixin hblock hbody hd hf
    rw [← variableForms_eq_some_iff] at hm' hm''
    obtain rfl : m'' = m' := Option.some.inj (hm''.symm.trans hm')
    refine ⟨?_, hmirrors⟩
    cases hmirrors <;> rfl

/-- The block of `sampleStatement` as the body of a declaration. -/
def sampleBlock : Node := sampleFunction.body?.getD default

def sampleDeclaration : Node :=
  sampleNode .functionDeclaration none 0 55
    [sampleNode .identifier (some .name) 23 24 [], sampleBlock]

theorem sampleDeclaration_mirrors :
    sampleBlock.role = .block ∧ sampleDeclaration.body? = some sampleBlock ∧
    sampleStatement.decidingInitializer? = some sampleFunction ∧
    sampleFunction.body? = some sampleBlock ∧
    ∃ m m', mixinNodes? NameReader.textual {} sampleSource sampleDeclaration = some m ∧
      mixinNodes? NameReader.textual {} sampleSource sampleStatement = some m' ∧
      m.shape = .functionClassDeclaration true ∧ m'.shape = .blockClassDeclaration true ∧
      m.classNode = m'.classNode ∧
      Mirrors sampleDeclaration sampleStatement sampleFunction m m' := by
  have hblock : sampleBlock.role = .block := rfl
  have hbody : sampleDeclaration.body? = some sampleBlock := rfl
  have hdecides : sampleStatement.decidingInitializer? = some sampleFunction := rfl
  have hf : sampleFunction.body? = some sampleBlock := rfl
  have hmixin : mixinNodes? NameReader.textual {} sampleSource sampleDeclaration =
      some ⟨sampleDeclaration, sampleClass, .functionClassDeclaration true⟩ := rfl
  have hmixin' : mixinNodes? NameReader.textual {} sampleSource sampleStatement =
      some ⟨sampleStatement, sampleClass, .blockClassDeclaration true⟩ := rfl
  obtain ⟨_, hmirrors⟩ := function_mirrors_variable NameReader.textual {} sampleSource sampleBlock
    sampleDeclaration sampleStatement sampleFunction hblock rfl hbody rfl hdecides hf
  exact ⟨hblock, hbody, hdecides, hf, _, _, hmixin, hmixin', rfl, rfl,
    hmirrors _ _ hmixin hmixin'⟩

end MixinCatalog
