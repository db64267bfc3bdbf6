import MixinCatalog.Catalog.File
import MixinCatalog.Proofs.Recognition

/-!
# The callable of a record

The name and the parameters of a record are looked up apart from the class it reports. Both searches
stop at the same declarator, so a record always describes one callable: the one whose body produces
the class.
-/

namespace MixinCatalog

open Syntax

/-- Whether a mixin of this shape is a variable statement. -/
def Shape.isVariableForm : Shape → Bool
  | expressionBody | blockReturnExpression | blockClassDeclaration _ => true
  | functionReturnExpression | functionClassDeclaration _ => false

/-- Whether a mixin of this shape returns its class by name. -/
def Shape.isExplicitReturn : Shape → Bool
  | blockClassDeclaration explicit | functionClassDeclaration explicit => explicit
  | expressionBody | blockReturnExpression | functionReturnExpression => false

/-- The callable that a declaration binds and the node of its name: the declaration itself if it is
a function, otherwise what the deciding declarator holds. -/
inductive BindsCallable (declaration : Node) : Option Node → Node → Prop
  | declared : declaration.role = .functionDeclaration →
      BindsCallable declaration (declaration.child? .name) declaration
  | bound {d name f : Node} : declaration.role = .variableStatement →
      declaration.decidingInitializer? = some f → Decides declaration d name f →
      BindsCallable declaration (some name) f

/-- A class is reached through the body of a function: it is the body, the first return of the body
hands it back, or it is the first class that the body declares. -/
inductive ProducesClass (f c : Node) : Prop
  | body : f.child? .body = some c → ProducesClass f c
  | returned {block r : Node} : f.child? .body = some block → IsFirstReturn block r →
      HandsBack r c → ProducesClass f c
  | declared {block : Node} : f.child? .body = some block → IsFirstClass block c →
      ProducesClass f c

/-- The callable `f` that a declaration binds is the one that the classifier looked at when it
accepted the declaration. -/
structure SameCallable (names : NameReader) (source : String) (declaration : Node) (m : MixinNodes)
    (name : Option Node) (f : Node) : Prop where
  lookup : mixinBinding declaration = (name, some f)
  callable : BindsCallable declaration name f
  produces : ProducesClass f m.classNode
  function_eq : m.shape = .blockReturnExpression → m.function = f
  /-- What a variable statement binds has a name. -/
  named : m.shape.isVariableForm = true → name.isSome = true
  /-- A class that is returned by name is the one that the first return names. -/
  returned : m.shape.isExplicitReturn = true → ∃ block ret className,
    f.child? .body = some block ∧ IsFirstReturn block ret ∧
      m.classNode.child? .name = some className ∧ names ret source = some (className.text source)

/-- A record describes a callable of a declaration and the class that this callable produces. -/
structure Describes (source : String) (declaration f : Node) (m : MixinNodes) (r : MixinRecord) :
    Prop where
  name : ∃ name, BindsCallable declaration name f ∧ r.name = name.map (·.text source)
  parameters : r.parameters = parameterNames f source
  produces : ProducesClass f m.classNode
  className : r.className = (m.classNode.child? .name).map (·.text source)
  shape : r.shape = m.shape
  named : r.shape.isVariableForm = true → r.name.isSome = true
  returned : r.shape.isExplicitReturn = true → ∃ block ret name,
    f.child? .body = some block ∧ IsFirstReturn block ret ∧
      NameReader.textual ret source = some name ∧ r.className = some name

/-! ### The binding -/

private theorem mixinBinding_of_decides {statement d name f : Node}
    (hrole : statement.role = .variableStatement) (h : Decides statement d name f) :
    mixinBinding statement = (some name, some f) := by
  obtain ⟨⟨before, after, hsplit, hfits, hbefore⟩, hbinds⟩ := h
  have hinit := (bindsFunction_iff.mp ⟨name, hbinds⟩).1
  obtain ⟨hkind, hname, hident, hvalue, hf⟩ := hbinds
  have hdeclarators : statement.declarators =
      before.filter (·.kind == .variableDeclarator) ++
        d :: after.filter (·.kind == .variableDeclarator) := by
    rw [Node.declarators, hsplit]
    simp [List.filter_append, hkind]
  simp only [mixinBinding, hrole, hdeclarators, List.findSome?_append, List.findSome?_cons, hinit,
    hf, if_true, hname]
  rw [List.findSome?_eq_none_iff.mpr]
  · rfl
  · intro x hx
    -- a declarator in front that the search took would bind a name to a function
    cases hi : x.initializer? with
    | none => rfl
    | some g =>
      have hg : g.role ≠ .functionLike := by
        intro hg
        obtain ⟨n, hn⟩ := bindsFunction_iff.mpr ⟨hi, hg⟩
        exact hbefore x (List.mem_filter.mp hx).1 ⟨n, g, hn⟩
      simp [hg]

theorem DeclaresClass.isFirstClass {names : NameReader} {options : MixinOptions} {source : String}
    {block c : Node} {explicit : Bool} (h : DeclaresClass names options source block c explicit) :
    IsFirstClass block c := by
  cases h with
  | byName hc => exact hc
  | implicit hc => exact hc

private theorem DeclaresClass.exists_return {names : NameReader} {options : MixinOptions}
    {source : String} {f block c : Node} {explicit : Bool} (hbody : f.child? .body = some block)
    (h : DeclaresClass names options source block c explicit) (hexplicit : explicit = true) :
    ∃ block ret className, f.child? .body = some block ∧ IsFirstReturn block ret ∧
      c.child? .name = some className ∧ names ret source = some (className.text source) := by
  cases h with
  | byName hc hr hname hreturned => exact ⟨block, _, _, hbody, hr, hname, hreturned⟩
  | implicit hc hnone himplicit => simp at hexplicit

private theorem sameCallable_of_decides {names : NameReader} {source : String}
    {statement d name f : Node} {m : MixinNodes} (hrole : statement.role = .variableStatement)
    (hd : Decides statement d name f) (hproduces : ProducesClass f m.classNode)
    (hfunction : m.shape = .blockReturnExpression → m.function = f)
    (hreturned : m.shape.isExplicitReturn = true → ∃ block ret className,
      f.child? .body = some block ∧ IsFirstReturn block ret ∧
        m.classNode.child? .name = some className ∧
        names ret source = some (className.text source)) :
    SameCallable names source statement m (some name) f where
  lookup := mixinBinding_of_decides hrole hd
  callable := .bound hrole (decidingInitializer?_eq_some_iff.mpr ⟨d, name, hd⟩) hd
  produces := hproduces
  function_eq := hfunction
  named := fun _ => rfl
  returned := hreturned

private theorem sameCallable_of_variableMixin {names : NameReader} {options : MixinOptions}
    {source : String} {statement : Node} {m : MixinNodes}
    (hrole : statement.role = .variableStatement)
    (h : VariableMixin names options source statement m) :
    ∃ name f, SameCallable names source statement m name f := by
  cases h with
  | @expressionBody d name f body hd hbody =>
    refine ⟨some name, f, sameCallable_of_decides hrole hd (.body hbody) ?_ ?_⟩
    · simp
    · simp [Shape.isExplicitReturn]
  | @returnExpression d name f block c hd hbody hblock hret =>
    obtain ⟨r, hr, hc, hclass⟩ := hret
    refine ⟨some name, f, sameCallable_of_decides hrole hd (.returned hbody hr hc) ?_ ?_⟩
    · simp
    · simp [Shape.isExplicitReturn]
  | @classDeclaration d name f block c explicit hd hbody hblock hnone hdecl =>
    have hproduces : ProducesClass f c := .declared hbody hdecl.isFirstClass
    refine ⟨some name, f, sameCallable_of_decides hrole hd hproduces ?_ ?_⟩
    · simp
    · exact hdecl.exists_return hbody

private theorem sameCallable_of_functionMixin {names : NameReader} {options : MixinOptions}
    {source : String} {function : Node} {m : MixinNodes}
    (hrole : function.role = .functionDeclaration)
    (h : FunctionMixin names options source function m) :
    SameCallable names source function m (function.child? .name) function := by
  have hbinding : mixinBinding function = (function.child? .name, some function) := by
    simp only [mixinBinding, hrole]
  cases h with
  | @returnExpression block c hbody hblock hret =>
    obtain ⟨r, hr, hc, hclass⟩ := hret
    refine ⟨hbinding, .declared hrole, .returned hbody hr hc, ?_, ?_, ?_⟩
    · simp
    · simp [Shape.isVariableForm]
    · simp [Shape.isExplicitReturn]
  | @classDeclaration block c explicit hbody hblock hnone hdecl =>
    refine ⟨hbinding, .declared hrole, .declared hbody hdecl.isFirstClass, ?_, ?_, ?_⟩
    · simp
    · simp [Shape.isVariableForm]
    · exact hdecl.exists_return hbody

/-- What the classifier accepts is bound to the callable that it looked at. -/
theorem exists_sameCallable {names : NameReader} {options : MixinOptions} {source : String}
    {declaration : Node} {m : MixinNodes}
    (h : mixinNodes? names options source declaration = some m) :
    ∃ name f, SameCallable names source declaration m name f := by
  unfold mixinNodes? at h
  split at h
  · rename_i hrole
    exact sameCallable_of_variableMixin hrole (variableForms_eq_some_iff.mp h)
  · rename_i hrole
    exact ⟨_, _, sameCallable_of_functionMixin hrole (functionForms_eq_some_iff.mp h)⟩
  · simp at h

/-! ### The records -/

private theorem SameCallable.describes {source : String} {d : TopLevel} {m : MixinNodes}
    {name : Option Node} {f : Node}
    (h : SameCallable NameReader.textual source d.node m name f) (path : Path) :
    Describes source d.node f m (mixinRecord path source d m) := by
  have hname : (mixinRecord path source d m).name = name.map (·.text source) := by
    simp only [mixinRecord, h.lookup]
  refine ⟨⟨name, h.callable, hname⟩, ?_, h.produces, rfl, rfl, ?_, ?_⟩
  · simp only [mixinRecord, h.lookup, Option.map_some, Option.getD_some]
  · intro hform
    rw [hname, Option.isSome_map]
    exact h.named hform
  · intro hexplicit
    obtain ⟨block, ret, className, hbody, hr, hc, hreturned⟩ := h.returned hexplicit
    refine ⟨block, ret, className.text source, hbody, hr, hreturned, ?_⟩
    simp only [mixinRecord, hc, Option.map_some]

/-- The record and the classifier talk about the same callable. For every accepted declaration the
binding holds the function that was looked at, and every record of a tree takes its name and its
parameters from the callable that produces its class. -/
theorem records_describe_examined_callable :
    (∀ (names : NameReader) (options : MixinOptions) (source : String) (declaration : Node)
        (m : MixinNodes), mixinNodes? names options source declaration = some m →
      ∃ name f, SameCallable names source declaration m name f) ∧
    (∀ (path : Path) (source : String) (root : Node) (options : MixinOptions) (r : MixinRecord),
      r ∈ catalogMixins path source root options →
      ∃ d ∈ topLevels root, ∃ m f,
        mixinNodes? NameReader.textual options source d.node = some m ∧
          Describes source d.node f m r) := by
  refine ⟨fun names options source declaration m h => exists_sameCallable h, ?_⟩
  intro path source root options r hr
  obtain ⟨d, hd, hrecord⟩ := List.mem_filterMap.mp hr
  obtain ⟨m, hm, rfl⟩ := Option.map_eq_some_iff.mp hrecord
  obtain ⟨name, f, hsame⟩ := exists_sameCallable hm
  exact ⟨d, hd, m, f, hm, hsame.describes path⟩

/-- Four declarators, of which only the last binds a name to a function. -/
def sampleSource : String := "let [a] = b, c, d = 1, M = B => { class C {} return C }"

/-- A node of the sample, which has one row. -/
def sampleNode (kind : Kind) (field : Option Field) (start stop : Nat) (children : List Node) :
    Node :=
  .mk kind true field ⟨start, 0, start⟩ ⟨stop, 0, stop⟩ children

def sampleClass : Node :=
  sampleNode .classDeclaration none 34 44 [sampleNode .identifier (some .name) 40 41 []]

def sampleFunction : Node :=
  sampleNode .arrowFunction (some .value) 27 55
    [sampleNode .identifier (some .parameter) 27 28 [],
      sampleNode .statementBlock (some .body) 32 55
        [sampleClass,
          sampleNode .returnStatement none 45 53 [sampleNode .identifier none 52 53 []]]]

def sampleStatement : Node :=
  sampleNode .lexicalDeclaration none 0 55
    [sampleNode .variableDeclarator none 4 11
      [sampleNode (.other "array_pattern") (some .name) 4 7 [],
        sampleNode .identifier (some .value) 10 11 []],
      sampleNode .variableDeclarator none 13 14 [sampleNode .identifier (some .name) 13 14 []],
      sampleNode .variableDeclarator none 16 21
        [sampleNode .identifier (some .name) 16 17 [],
          sampleNode (.other "number") (some .value) 20 21 []],
      sampleNode .variableDeclarator none 23 55
        [sampleNode .identifier (some .name) 23 24 [], sampleFunction]]

def sampleTree : Node := sampleNode .program none 0 55 [sampleStatement]

/-- In the sample the first three declarators are passed over by both searches. -/
theorem sampleStatement_callable :
    mixinNodes? NameReader.textual {} sampleSource sampleStatement =
      some ⟨sampleStatement, sampleClass, .blockClassDeclaration true⟩ ∧
    (∃ name, SameCallable NameReader.textual sampleSource sampleStatement
      ⟨sampleStatement, sampleClass, .blockClassDeclaration true⟩ name sampleFunction) ∧
    ∃ r ∈ catalogMixins ⟨"m.js"⟩ sampleSource sampleTree {},
      r.name = some "M" ∧ r.parameters = ["B"] ∧ r.className = some "C" ∧
        ∃ d ∈ topLevels sampleTree, ∃ m f, Describes sampleSource d.node f m r := by
  have hmixin : mixinNodes? NameReader.textual {} sampleSource sampleStatement =
      some ⟨sampleStatement, sampleClass, .blockClassDeclaration true⟩ := rfl
  have hrecords : catalogMixins ⟨"m.js"⟩ sampleSource sampleTree {} =
      [mixinRecord ⟨"m.js"⟩ sampleSource ⟨sampleStatement, false⟩
        ⟨sampleStatement, sampleClass, .blockClassDeclaration true⟩] := rfl
  obtain ⟨hsame, hdescribes⟩ := records_describe_examined_callable
  obtain ⟨name, f, hcallable⟩ := hsame _ _ _ _ _ hmixin
  have hf : mixinBinding sampleStatement = (name, some f) := hcallable.lookup
  obtain rfl : sampleFunction = f := (Option.some.inj (Prod.mk.inj hf).2)
  have hr := hrecords ▸ List.mem_cons_self
  obtain ⟨d, hd, m, g, _, hdescribed⟩ := hdescribes _ _ _ _ _ hr
  exact ⟨hmixin, ⟨name, hcallable⟩, _, hr, rfl, rfl, rfl, d, hd, m, g, hdescribed⟩

end MixinCatalog
