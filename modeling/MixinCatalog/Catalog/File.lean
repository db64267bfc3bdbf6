import MixinCatalog.Catalog.Record
import MixinCatalog.Grammar.Program
import MixinCatalog.Mixin.Classifier

/-!
# Cataloguing one file

Every top-level declaration of a file, exported or not, is looked at once. The name and the
parameters of a record are those of the callable; the position is that of the declaration.
-/

namespace MixinCatalog

open Syntax

structure TopLevel where
  node : Node
  exported : Bool

/-- The top-level declarations below a root. An export without a declaration is left out. -/
def topLevels (root : Node) : List TopLevel :=
  root.namedChildren.filterMap fun n =>
    if n.kind = .exportStatement then (n.child? .declaration).map (⟨·, true⟩)
    else some ⟨n, false⟩

/-- The name a declaration binds and the callable it binds it to. -/
def mixinBinding (declaration : Node) : Option Node × Option Node :=
  match declaration.role with
  | .functionDeclaration => (declaration.child? .name, some declaration)
  | .variableStatement =>
    (declaration.declarators.findSome? fun d =>
      match d.initializer? with
      | some f => if f.role = .functionLike then some (d.child? .name, some f) else none
      | none => none).getD (none, none)
  | _ => (none, none)

/-- The binding of a parameter, without default, type and modifiers. -/
def parameterBinding (parameter : Node) : Node :=
  let binding := match parameter.kind with
    | .requiredParameter | .optionalParameter => parameter.child? .pattern
    | .assignmentPattern => parameter.child? .left
    | _ => none
  binding.getD parameter

def parameterNames (function : Node) (source : String) : List String :=
  match function.child? .parameter with
  | some p => [p.text source]
  | none =>
    match function.child? .parameters with
    | some ps => ps.parts.map fun p => (parameterBinding p).text source
    | none => []

/-- What the heritage of a class begins with: the expression behind `extends` in the plain
dialects, the value of the `extends` clause in the typed ones. -/
def superclass? (classNode : Node) : Option Node :=
  match classNode.namedChildren.find? (·.kind == .classHeritage) with
  | none => none
  | some heritage =>
    match heritage.namedChildren.head? with
    | none => none
    | some first => if first.kind = .extendsClause then first.child? .value else some first

def mixinRecord (path : Path) (source : String) (declaration : TopLevel) (nodes : MixinNodes) :
    MixinRecord :=
  let (name, function) := mixinBinding declaration.node
  { name := name.map (·.text source)
    className := (nodes.classNode.child? .name).map (·.text source)
    shape := nodes.shape
    parameters := (function.map (parameterNames · source)).getD []
    superclass := (superclass? nodes.classNode).map (·.text source)
    exported := declaration.exported
    file := path
    line := nodes.function.start.line
    column := nodes.function.start.columnNumber
    classLine := nodes.classNode.start.line }

/-- The records of a tree, in source order. -/
def catalogMixins (path : Path) (source : String) (root : Node) (options : MixinOptions) :
    List MixinRecord :=
  (topLevels root).filterMap fun d =>
    (mixinNodes? NameReader.textual options source d.node).map (mixinRecord path source d)

def catalogSource (path : Path) (text : String) (options : MixinOptions) : FileMixins :=
  let dialect := Dialect.ofPath path
  let source := Source.parse dialect text
  ⟨path, dialect.language, source.hasErrors, catalogMixins path text source.root options⟩

end MixinCatalog
