import MixinCatalog.Language
import MixinCatalog.Mixin.Shape

/-!
# Catalog entries

What a catalog says about mixins, detached from the trees they were found in.
-/

namespace MixinCatalog

structure MixinRecord where
  name : Option String
  className : Option String
  shape : Shape
  parameters : List String
  superclass : Option String
  exported : Bool
  file : Path
  line : Nat
  column : Nat
  classLine : Nat
deriving DecidableEq, Repr, Inhabited

structure FileMixins where
  path : Path
  language : Language
  hasParseErrors : Bool
  mixins : List MixinRecord
deriving DecidableEq, Repr, Inhabited

structure Catalog where
  projectPath : Path
  filesAnalyzed : Nat
  files : List FileMixins
deriving DecidableEq, Repr, Inhabited

namespace Catalog

/-- All mixins, file by file. -/
def mixins (c : Catalog) : List MixinRecord := c.files.flatMap (·.mixins)

def totalMixins (c : Catalog) : Nat := c.files.foldr (fun f total => f.mixins.length + total) 0

theorem length_mixins (c : Catalog) : c.mixins.length = c.totalMixins := by
  unfold mixins totalMixins
  induction c.files with
  | nil => rfl
  | cons f files ih => rw [List.flatMap_cons, List.length_append, List.foldr_cons, ih]

end Catalog

end MixinCatalog
