import MixinCatalog.Mixin.ReturnedName
import MixinCatalog.Mixin.Shape

/-!
# Recognising mixins

A mixin is a callable that takes a base class and returns a class extending it. One declaration is
looked at: a function, or the first declarator of a variable statement that binds a name to a
function. In its body only the first return and the first class declaration take part.
-/

namespace MixinCatalog

open Syntax

/-- How freely class declarations are recognised. -/
structure MixinOptions where
  /-- Accept a block that declares a class and never returns anything. -/
  implicitReturn : Bool := true
deriving DecidableEq, Repr, Inhabited

structure MixinNodes where
  /-- The declaration, or the function itself where its block returns a class expression. -/
  function : Node
  classNode : Node
  shape : Shape

/-- The function that decides whether a variable statement is a mixin. -/
def Syntax.Node.decidingInitializer? (statement : Node) : Option Node :=
  (statement.declarators.filterMap Node.initializer?).find? (·.role == .functionLike)

/-! ### Reading a block -/

/-- The first return and the first class declaration among the statements read so far. -/
structure BlockScan where
  firstReturn? : Option Node := none
  firstClass? : Option Node := none

namespace BlockScan

/-- Read one more statement. What was found before is kept. -/
def step (scan : BlockScan) (statement : Node) : BlockScan :=
  match statement.role with
  | .returnStatement => { scan with firstReturn? := scan.firstReturn?.or (some statement) }
  | .classDeclaration => { scan with firstClass? := scan.firstClass?.or (some statement) }
  | _ => scan

/-- Read the statements of a block once, in source order. -/
def ofBlock (block : Node) : BlockScan := block.statements.foldl step {}

/-- The class expression that the first return hands back. -/
def returnedClass? (scan : BlockScan) : Option Node :=
  match scan.firstReturn?.bind Node.returned? with
  | some e => if e.role = .classExpression then some e else none
  | none => none

end BlockScan

/-! ### The rules -/

/-- Whether the first return of a block hands back the class it declares first. -/
def returnsClass (names : NameReader) (source : String) (classNode ret : Node) : Bool :=
  match classNode.child? .name, names ret source with
  | some a, some b => a.text source == b
  | _, _ => false

/-- The first class declaration of a block, if the block returns it by name or returns nothing. -/
def classDeclarationRule (names : NameReader) (options : MixinOptions) (source : String)
    (scan : BlockScan) (function : Node) (shape : Bool → Shape) : Option MixinNodes :=
  match scan.firstClass? with
  | none => none
  | some c =>
    match scan.firstReturn? with
    | some r => if returnsClass names source c r then some ⟨function, c, shape true⟩ else none
    | none => if options.implicitReturn then some ⟨function, c, shape false⟩ else none

/-- The mixin that a variable statement is, by the function that decides. -/
def variableForms (names : NameReader) (options : MixinOptions) (source : String)
    (statement : Node) : Option MixinNodes :=
  match statement.decidingInitializer? with
  | none => none
  | some f =>
    match f.body? with
    | none => none
    | some body =>
      match body.role with
      | .classExpression => some ⟨statement, body, .expressionBody⟩
      | .block =>
        let scan := BlockScan.ofBlock body
        match scan.returnedClass? with
        | some c => some ⟨f, c, .blockReturnExpression⟩
        | none =>
          classDeclarationRule names options source scan statement .blockClassDeclaration
      | _ => none

/-- The mixin that a function declaration is, by its block. -/
def functionForms (names : NameReader) (options : MixinOptions) (source : String)
    (function : Node) : Option MixinNodes :=
  match function.body? with
  | none => none
  | some body =>
    if body.role = .block then
      let scan := BlockScan.ofBlock body
      match scan.returnedClass? with
      | some c => some ⟨function, c, .functionReturnExpression⟩
      | none =>
        classDeclarationRule names options source scan function .functionClassDeclaration
    else none

/-- The nodes of the mixin that a declaration is, if it is one. -/
def mixinNodes? (names : NameReader) (options : MixinOptions) (source : String)
    (declaration : Node) : Option MixinNodes :=
  match declaration.role with
  | .variableStatement => variableForms names options source declaration
  | .functionDeclaration => functionForms names options source declaration
  | _ => none

end MixinCatalog
