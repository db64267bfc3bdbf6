import Mathlib.Data.List.Forall2
import MixinCatalog.Proofs.MatchedNodes

/-!
# The records of a file in source order

A file has one record for each of its top-level constructs that is a mixin or exports one, and no
other record. A record starts inside its construct, wherever the function that it reports stands
there, so the order of the constructs is the order of the records. To export a declaration changes
nothing but the mark that says so.
-/

namespace MixinCatalog

open Syntax

/-! ### Constructs and their records -/

namespace Syntax.Node

/-- The declaration that a top-level construct is or exports. -/
def declaration? (n : Node) : Option Node :=
  if n.kind = .exportStatement then n.child? .declaration else some n

theorem mem_preorder_of_declaration? {n d : Node} (h : n.declaration? = some d) :
    d ∈ n.preorder := by
  rw [mem_preorder_iff]
  unfold declaration? at h
  split at h
  · exact .inr (isBelow_of_child? h)
  · exact .inl (Option.some.inj h).symm

def withChildren : Node → List Node → Node
  | mk kind named field start stop _, children => mk kind named field start stop children

private theorem children_withChildren (n : Node) (cs : List Node) :
    (n.withChildren cs).children = cs := by
  cases n
  rfl

private theorem withChildren_children (n : Node) : n.withChildren n.children = n := by
  cases n
  rfl

end Syntax.Node

open Syntax.Node

section

variable {path : Path} {source : String} {options : MixinOptions}

/-- The record of a top-level construct. -/
def recordOf? (path : Path) (source : String) (options : MixinOptions) (n : Node) :
    Option MixinRecord :=
  n.declaration?.bind fun d =>
    (mixinNodes? NameReader.textual options source d).map
      (mixinRecord path source ⟨d, decide (n.kind = .exportStatement)⟩)

theorem catalogMixins_eq (path : Path) (source : String) (root : Node) (options : MixinOptions) :
    catalogMixins path source root options =
      root.namedChildren.filterMap (recordOf? path source options) := by
  unfold catalogMixins topLevels
  rw [List.filterMap_filterMap]
  congr 1
  funext n
  by_cases hexport : n.kind = .exportStatement
  · cases hd : n.child? .declaration <;> simp [recordOf?, declaration?, hexport, hd]
  · simp [recordOf?, declaration?, hexport]

theorem recordOf?_eq_some_iff {n : Node} {r : MixinRecord} :
    recordOf? path source options n = some r ↔ ∃ d m, n.declaration? = some d ∧
      mixinNodes? NameReader.textual options source d = some m ∧
      r = mixinRecord path source ⟨d, decide (n.kind = .exportStatement)⟩ m := by
  simp only [recordOf?, Option.bind_eq_some_iff, Option.map_eq_some_iff]
  constructor
  · rintro ⟨d, hd, m, hm, hr⟩
    exact ⟨d, m, hd, hm, hr.symm⟩
  · rintro ⟨d, m, hd, hm, hr⟩
    exact ⟨d, hd, m, hm, hr.symm⟩

/-- The classifier accepts the declaration of a construct. -/
def hasMixin (options : MixinOptions) (source : String) (n : Node) : Bool :=
  n.declaration?.any fun d => (mixinNodes? NameReader.textual options source d).isSome

private theorem isSome_recordOf? (n : Node) :
    (recordOf? path source options n).isSome = hasMixin options source n := by
  unfold recordOf? hasMixin
  cases n.declaration? <;> simp

private theorem forall₂_filterMap {α β : Type} {f : α → Option β} {R : α → β → Prop} {xs : List α}
    (h : ∀ a ∈ xs, ∀ b, f a = some b → R a b) :
    List.Forall₂ R (xs.filter fun a => (f a).isSome) (xs.filterMap f) := by
  induction xs with
  | nil => exact .nil
  | cons a xs ih =>
    have hrest := ih fun x hx => h x (List.mem_cons_of_mem a hx)
    cases ha : f a with
    | none => simpa [ha] using hrest
    | some b => simpa [ha] using ⟨h a List.mem_cons_self b ha, hrest⟩

end

/-! ### Places -/

namespace Syntax.Location

/-- In bytes, and in rows and columns alike. -/
def AtOrBefore (a b : Location) : Prop :=
  a.offset ≤ b.offset ∧ (a.row < b.row ∨ a.row = b.row ∧ a.column ≤ b.column)

def Before (a b : Location) : Prop :=
  a.offset < b.offset ∧ (a.row < b.row ∨ a.row = b.row ∧ a.column < b.column)

instance (a b : Location) : Decidable (a.AtOrBefore b) := inferInstanceAs (Decidable (_ ∧ _))

instance (a b : Location) : Decidable (a.Before b) := inferInstanceAs (Decidable (_ ∧ _))

theorem AtOrBefore.refl (a : Location) : a.AtOrBefore a := by
  unfold AtOrBefore
  omega

theorem AtOrBefore.trans {a b c : Location} (hab : a.AtOrBefore b) (hbc : b.AtOrBefore c) :
    a.AtOrBefore c := by
  unfold AtOrBefore at *
  omega

private theorem Before.trans_atOrBefore {a b c : Location} (hab : a.Before b)
    (hbc : b.AtOrBefore c) : a.Before c := by
  unfold Before AtOrBefore at *
  omega

end Syntax.Location

namespace Syntax.Node

/-- How a node lies in the source: its children stand inside it, one behind the other, and it is not
empty if it is a declaration or a function. -/
structure IsLaidOut (n : Node) : Prop where
  within : ∀ c ∈ n.children, n.start.AtOrBefore c.start ∧ c.stop.AtOrBefore n.stop
  ordered : n.children.Pairwise fun a b => a.stop.AtOrBefore b.start
  nonempty : n.role ∈ [.variableStatement, .functionDeclaration, .functionLike] →
    n.start.Before n.stop

instance (n : Node) : Decidable n.IsLaidOut :=
  decidable_of_iff ((∀ c ∈ n.children, n.start.AtOrBefore c.start ∧ c.stop.AtOrBefore n.stop) ∧
      n.children.Pairwise (fun a b => a.stop.AtOrBefore b.start) ∧
      (n.role ∈ [.variableStatement, .functionDeclaration, .functionLike] →
        n.start.Before n.stop))
    ⟨fun h => ⟨h.1, h.2.1, h.2.2⟩, fun h => ⟨h.within, h.ordered, h.nonempty⟩⟩

private theorem span_of_isBelow {c n : Node} (h : n.Everywhere IsLaidOut) (hc : c.IsBelow n) :
    n.start.AtOrBefore c.start ∧ c.stop.AtOrBefore n.stop := by
  induction hc with
  | single hmem => exact h.here.within _ hmem
  | @tail m n _ hm ih =>
    obtain ⟨hstart, hstop⟩ := h.here.within m hm
    obtain ⟨hstart', hstop'⟩ := ih (h.of_isBelow (isBelow_of_mem_children hm))
    exact ⟨hstart.trans hstart', hstop'.trans hstop⟩

private theorem span_of_mem_preorder {c n : Node} (h : n.Everywhere IsLaidOut)
    (hc : c ∈ n.preorder) : n.start.AtOrBefore c.start ∧ c.stop.AtOrBefore n.stop := by
  rcases mem_preorder_iff.mp hc with rfl | hbelow
  · exact ⟨.refl _, .refl _⟩
  · exact span_of_isBelow h hbelow

end Syntax.Node

/-! ### Where a record starts -/

section

variable {names : NameReader} {path : Path} {source : String} {options : MixinOptions}

/-- A mixin is reported with its declaration or with a function inside it, and has its class below
that. -/
theorem exists_reported {d : Node} {m : MixinNodes}
    (h : mixinNodes? names options source d = some m) :
    m.function ∈ d.preorder ∧ m.classNode.IsBelow m.function ∧
      m.function.role ∈ [.variableStatement, .functionDeclaration, .functionLike] := by
  rw [mem_preorder_iff]
  unfold mixinNodes? at h
  split at h
  next hrole =>
    obtain ⟨_, _, f, hd, hreached, hfunction, _⟩ :=
      (variableForms_eq_some_iff.mp h).exists_reachedThrough
    have hclass := hreached.class_below_function
    split at hfunction
    next =>
      have hbelow := hd.isBelow
      obtain ⟨_, _, _, _, _, hf⟩ := hd
      exact ⟨.inr (hfunction ▸ hbelow), hclass, by simp [hfunction, hf]⟩
    next => exact ⟨.inl hfunction, hclass, by simp [hfunction, hrole]⟩
  next hrole =>
    obtain ⟨hreached, hfunction, _⟩ := (functionForms_eq_some_iff.mp h).reachedThrough
    exact ⟨.inl hfunction, hreached.class_below_function, by simp [hfunction, hrole]⟩
  next => simp at h

private theorem exists_start_of_recordOf? {n : Node} {r : MixinRecord} (h : n.Everywhere IsLaidOut)
    (hr : recordOf? path source options n = some r) :
    ∃ start : Location, n.start.AtOrBefore start ∧ start.Before n.stop ∧
      r.line = start.line ∧ r.column = start.columnNumber ∧ r.line ≤ r.classLine := by
  obtain ⟨d, m, hd, hm, rfl⟩ := recordOf?_eq_some_iff.mp hr
  obtain ⟨hfunction, hclass, hrole⟩ := exists_reported hm
  have hmem := mem_preorder_trans hfunction (mem_preorder_of_declaration? hd)
  have hlaid := h.of_mem hmem
  obtain ⟨hstart, hstop⟩ := span_of_mem_preorder h hmem
  have hinside := (hlaid.here.nonempty hrole).trans_atOrBefore hstop
  refine ⟨m.function.start, hstart, hinside, rfl, rfl, ?_⟩
  have hbelow := (span_of_isBelow hlaid hclass).1
  simp only [mixinRecord, Location.line]
  unfold Location.AtOrBefore at hbelow
  omega

/-- A record stands in front of another one. -/
def MixinRecord.StartsBefore (r r' : MixinRecord) : Prop :=
  r.line < r'.line ∨ r.line = r'.line ∧ r.column < r'.column

private theorem startsBefore_of_recordOf? {n n' : Node} {r r' : MixinRecord}
    (h : n.Everywhere IsLaidOut) (h' : n'.Everywhere IsLaidOut)
    (horder : n.stop.AtOrBefore n'.start) (hr : recordOf? path source options n = some r)
    (hr' : recordOf? path source options n' = some r') : r.StartsBefore r' := by
  obtain ⟨start, _, hstop, hline, hcolumn, _⟩ := exists_start_of_recordOf? h hr
  obtain ⟨start', hstart', _, hline', hcolumn', _⟩ := exists_start_of_recordOf? h' hr'
  have hbefore : start.Before start' := hstop.trans_atOrBefore (horder.trans hstart')
  unfold MixinRecord.StartsBefore
  rw [hline, hline', hcolumn, hcolumn']
  unfold Location.Before at hbefore
  simp only [Location.line, Location.columnNumber]
  omega

private theorem catalogMixins_pairwise_startsBefore {root : Node} (h : root.Everywhere IsLaidOut) :
    (catalogMixins path source root options).Pairwise MixinRecord.StartsBefore := by
  rw [catalogMixins_eq]
  apply List.pairwise_filterMap.mpr
  have hordered : root.namedChildren.Pairwise fun a b => a.stop.AtOrBefore b.start :=
    h.here.ordered.sublist List.filter_sublist
  apply hordered.imp_of_mem
  intro n n' hn hn' horder r hr r' hr'
  have hlaid := h.of_isBelow (isBelow_of_mem_namedChildren hn)
  have hlaid' := h.of_isBelow (isBelow_of_mem_namedChildren hn')
  exact startsBefore_of_recordOf? hlaid hlaid' horder hr hr'

end

/-! ### Exports -/

/-- Two nodes agree in all that a record takes from its declaration. -/
structure SameConstruct (n n' : Node) : Prop where
  kind : n'.kind = n.kind
  start : n'.start = n.start
  children : n'.children = n.children

/-- What a record takes from a mixin. -/
def MixinNodes.report (m : MixinNodes) : Location × Node × Shape :=
  (m.function.start, m.classNode, m.shape)

namespace SameConstruct

variable {n n' : Node} {names : NameReader} {options : MixinOptions} {source : String}

theorem withField (n : Node) (f : Field) : SameConstruct n (n.withField f) := by
  cases n
  exact ⟨rfl, rfl, rfl⟩

theorem symm (h : SameConstruct n n') : SameConstruct n' n :=
  ⟨h.kind.symm, h.start.symm, h.children.symm⟩

theorem role (h : SameConstruct n n') : n'.role = n.role := congrArg Kind.role h.kind

theorem child? (h : SameConstruct n n') (f : Field) : n'.child? f = n.child? f := by
  rw [Node.child?, Node.child?, h.children]

theorem namedChildren (h : SameConstruct n n') : n'.namedChildren = n.namedChildren := by
  rw [Node.namedChildren, Node.namedChildren, h.children]

private theorem exists_mixinNodes? (h : SameConstruct n n') {m : MixinNodes}
    (hm : mixinNodes? names options source n = some m) :
    ∃ m', mixinNodes? names options source n' = some m' ∧ m'.report = m.report := by
  have hdecides {d name f : Node} (hd : Decides n d name f) : Decides n' d name f := by
    unfold Decides at *
    rwa [h.namedChildren]
  have hbody {body : Node} (hn : n.child? .body = some body) : n'.child? .body = some body := by
    rwa [h.child?]
  have hreport {c : Node} {shape : Shape} :
      MixinNodes.report ⟨n', c, shape⟩ = MixinNodes.report ⟨n, c, shape⟩ := by
    simp only [MixinNodes.report, h.start]
  unfold mixinNodes? at *
  rw [h.role]
  split at hm
  next =>
    simp only [variableForms_eq_some_iff] at hm ⊢
    cases hm with
    | expressionBody hd hb hc => exact ⟨_, .expressionBody (hdecides hd) hb hc, hreport⟩
    | returnExpression hd hb hblock hret =>
      exact ⟨_, .returnExpression (hdecides hd) hb hblock hret, rfl⟩
    | classDeclaration hd hb hblock hnone hdecl =>
      exact ⟨_, .classDeclaration (hdecides hd) hb hblock hnone hdecl, hreport⟩
  next =>
    simp only [functionForms_eq_some_iff] at hm ⊢
    cases hm with
    | returnExpression hb hblock hret =>
      exact ⟨_, .returnExpression (hbody hb) hblock hret, hreport⟩
    | classDeclaration hb hblock hnone hdecl =>
      exact ⟨_, .classDeclaration (hbody hb) hblock hnone hdecl, hreport⟩
  next => simp at hm

theorem parameterNames_eq (h : SameConstruct n n') (source : String) :
    parameterNames n' source = parameterNames n source := by
  rw [parameterNames, parameterNames, h.child?, h.child?]

private theorem mixinBinding_fst (h : SameConstruct n n') :
    (mixinBinding n').1 = (mixinBinding n).1 := by
  unfold mixinBinding Node.declarators
  rw [h.role, h.namedChildren, h.child?]
  cases n.role <;> rfl

private theorem mixinBinding_snd (h : SameConstruct n n') (source : String) :
    (mixinBinding n').2.map (parameterNames · source) =
      (mixinBinding n).2.map (parameterNames · source) := by
  unfold mixinBinding Node.declarators
  rw [h.role, h.namedChildren]
  cases n.role with
  | functionDeclaration => simp [h.parameterNames_eq]
  | _ => rfl

theorem mixinRecord_eq (h : SameConstruct n n') {m m' : MixinNodes} (hm : m'.report = m.report)
    (path : Path) (source : String) (exported exported' : Bool) :
    mixinRecord path source ⟨n', exported'⟩ m' =
      { mixinRecord path source ⟨n, exported⟩ m with exported := exported' } := by
  simp only [MixinNodes.report, Prod.mk.injEq] at hm
  obtain ⟨hstart, hclass, hshape⟩ := hm
  simp only [mixinRecord, h.mixinBinding_fst, h.mixinBinding_snd, hstart, hclass, hshape]

end SameConstruct

/-- An export statement that has a declaration of its file as its own. -/
structure Exports (wrapper n : Node) : Prop where
  named : wrapper.named = true
  kind : wrapper.kind = .exportStatement
  declaration : wrapper.child? .declaration = some (n.withField .declaration)

def MixinRecord.asExported (r : MixinRecord) : MixinRecord := { r with exported := true }

section

variable {path : Path} {source : String} {options : MixinOptions} {wrapper n root : Node}

private theorem recordOf?_of_not_export (hn : n.kind ≠ .exportStatement) :
    recordOf? path source options n = (mixinNodes? NameReader.textual options source n).map
      (mixinRecord path source ⟨n, false⟩) := by
  simp [recordOf?, declaration?, hn]

private theorem recordOf?_of_exports (hw : Exports wrapper n) (hn : n.kind ≠ .exportStatement) :
    recordOf? path source options wrapper =
      (recordOf? path source options n).map MixinRecord.asExported := by
  have hsame := SameConstruct.withField n .declaration
  have hwrapper : recordOf? path source options wrapper =
      (mixinNodes? NameReader.textual options source (n.withField .declaration)).map
        (mixinRecord path source ⟨n.withField .declaration, true⟩) := by
    simp [recordOf?, declaration?, hw.kind, hw.declaration]
  rw [hwrapper, recordOf?_of_not_export hn]
  cases hm : mixinNodes? NameReader.textual options source n with
  | some m =>
    obtain ⟨m', hm', hreport⟩ := hsame.exists_mixinNodes? hm
    simp only [hm', Option.map_some, MixinRecord.asExported,
      hsame.mixinRecord_eq hreport path source false true]
  | none =>
    cases hm' : mixinNodes? NameReader.textual options source (n.withField .declaration) with
    | none => rfl
    | some m' =>
      obtain ⟨m, hsome, _⟩ := hsame.symm.exists_mixinNodes? hm'
      simp [hm] at hsome

private theorem catalogMixins_withChildren (cs : List Node) :
    catalogMixins path source (root.withChildren cs) options =
      (cs.filter Node.named).filterMap (recordOf? path source options) := by
  rw [catalogMixins_eq, Node.namedChildren, children_withChildren]

theorem catalogMixins_append (cs ds : List Node) :
    catalogMixins path source (root.withChildren (cs ++ ds)) options =
      catalogMixins path source (root.withChildren cs) options ++
        catalogMixins path source (root.withChildren ds) options := by
  simp only [catalogMixins_withChildren, List.filter_append, List.filterMap_append]

private theorem catalogMixins_singleton (hnamed : n.named = true) :
    catalogMixins path source (root.withChildren [n]) options =
      (recordOf? path source options n).toList := by
  rw [catalogMixins_withChildren]
  cases hr : recordOf? path source options n <;> simp [hnamed, hr]

private theorem catalogMixins_of_exports (hw : Exports wrapper n) (hnamed : n.named = true)
    (hn : n.kind ≠ .exportStatement) :
    catalogMixins path source (root.withChildren [wrapper]) options =
      (catalogMixins path source (root.withChildren [n]) options).map MixinRecord.asExported := by
  rw [catalogMixins_singleton hw.named, catalogMixins_singleton hnamed, recordOf?_of_exports hw hn,
    Option.toList_map]

end

/-- A record is that of a top-level construct: it is made from the mixin that the classifier finds
in the declaration of the construct, and marked as exported if the construct is an export. -/
structure IsRecordOf (path : Path) (source : String) (options : MixinOptions) (n : Node)
    (r : MixinRecord) : Prop where
  made : ∃ d m, n.declaration? = some d ∧
    mixinNodes? NameReader.textual options source d = some m ∧
    r = mixinRecord path source ⟨d, decide (n.kind = .exportStatement)⟩ m
  exported_iff : r.exported = true ↔ n.kind = .exportStatement
  file_eq : r.file = path
  line_le : r.line ≤ r.classLine

private theorem isRecordOf_of_recordOf? {path : Path} {source : String} {options : MixinOptions}
    {n : Node} {r : MixinRecord} (h : n.Everywhere IsLaidOut)
    (hr : recordOf? path source options n = some r) :
    IsRecordOf path source options n r := by
  obtain ⟨_, _, _, _, _, hline⟩ := exists_start_of_recordOf? h hr
  obtain ⟨d, m, hd, hm, rfl⟩ := recordOf?_eq_some_iff.mp hr
  exact ⟨⟨d, m, hd, hm, rfl⟩, decide_eq_true_iff, rfl, hline⟩

private theorem forall₂_isRecordOf_catalogMixins (path : Path) (source : String)
    (options : MixinOptions) {root : Node} (h : root.Everywhere IsLaidOut) :
    List.Forall₂ (IsRecordOf path source options)
      (root.namedChildren.filter (hasMixin options source))
      (catalogMixins path source root options) := by
  have hfilter : root.namedChildren.filter (hasMixin options source) =
      root.namedChildren.filter fun n => (recordOf? path source options n).isSome := by
    congr 1
    funext n
    exact (isSome_recordOf? n).symm
  rw [hfilter, catalogMixins_eq]
  apply forall₂_filterMap
  intro n hn r hr
  exact isRecordOf_of_recordOf? (h.of_isBelow (isBelow_of_mem_namedChildren hn)) hr

/-- The catalog of a file whose nodes lie in the source one behind the other. There is one record
for each top-level construct whose declaration is a mixin, and no other; the records come in source
order; and a declaration that gets exported keeps its record but for the mark. -/
theorem catalog_follows_source (path : Path) (source : String) (root : Node)
    (options : MixinOptions) (h : root.Everywhere IsLaidOut) :
    List.Forall₂ (IsRecordOf path source options)
      (root.namedChildren.filter (hasMixin options source))
      (catalogMixins path source root options) ∧
    (catalogMixins path source root options).Pairwise MixinRecord.StartsBefore ∧
    ∀ before n after wrapper, root.children = before ++ n :: after → n.named = true →
      n.kind ≠ .exportStatement → Exports wrapper n →
      let catalog := fun cs => catalogMixins path source (root.withChildren cs) options
      catalogMixins path source root options = catalog before ++ (catalog [n] ++ catalog after) ∧
      catalog (before ++ wrapper :: after) =
        catalog before ++ ((catalog [n]).map MixinRecord.asExported ++ catalog after) ∧
      ∀ r ∈ catalog [n], r.exported = false := by
  refine ⟨forall₂_isRecordOf_catalogMixins path source options h,
    catalogMixins_pairwise_startsBefore h, ?_⟩
  intro before n after wrapper hchildren hnamed hn hw
  dsimp only
  refine ⟨?_, ?_, ?_⟩
  · have hroot : root.withChildren (before ++ ([n] ++ after)) = root := by
      rw [List.singleton_append, ← hchildren, root.withChildren_children]
    rw [← catalogMixins_append, ← catalogMixins_append, hroot]
  · rw [← List.singleton_append, catalogMixins_append, catalogMixins_append,
      catalogMixins_of_exports hw hnamed hn]
  · intro r hr
    rw [catalogMixins_singleton hnamed, recordOf?_of_not_export hn, Option.mem_toList,
      Option.map_eq_some_iff] at hr
    obtain ⟨m, _, rfl⟩ := hr
    rfl

def sampleFile : String := "let M=b=>{return class{}}\nexport let N=b=>class{}"

def sampleFileTree : Node := (Source.parse .javaScript sampleFile).root

/-- Two mixins, the second one exported. The first one is reported where its function starts. -/
theorem sampleFile_in_order :
    sampleFileTree.Everywhere IsLaidOut ∧
    (catalogMixins ⟨"m.js"⟩ sampleFile sampleFileTree {}).map
      (fun r => (r.name, r.line, r.column, r.exported)) =
        [(some "M", 1, 7, false), (some "N", 2, 8, true)] ∧
    (catalogMixins ⟨"m.js"⟩ sampleFile sampleFileTree {}).Pairwise MixinRecord.StartsBefore ∧
    ∃ n after wrapper, sampleFileTree.children = n :: after ∧ Exports wrapper n ∧
      catalogMixins ⟨"m.js"⟩ sampleFile (sampleFileTree.withChildren (wrapper :: after)) {} =
        (catalogMixins ⟨"m.js"⟩ sampleFile (sampleFileTree.withChildren [n]) {}).map
            MixinRecord.asExported ++
          catalogMixins ⟨"m.js"⟩ sampleFile (sampleFileTree.withChildren after) {} := by
  have hsample : sampleFileTree.Everywhere IsLaidOut ∧
      (catalogMixins ⟨"m.js"⟩ sampleFile sampleFileTree {}).map
        (fun r => (r.name, r.line, r.column, r.exported)) =
          [(some "M", 1, 7, false), (some "N", 2, 8, true)] ∧
      sampleFileTree.children.map (fun n => (n.kind, n.named)) =
        [(.lexicalDeclaration, true), (.exportStatement, true)] := by decide +kernel
  obtain ⟨hlaid, hrecords, hkinds⟩ := hsample
  obtain ⟨n, after, hchildren, hn, _⟩ := List.map_eq_cons_iff.mp hkinds
  obtain ⟨hkind, hnamed⟩ := Prod.mk.inj hn
  have hexports : Exports (.mk .exportStatement true none n.start n.stop
      [n.withField .declaration]) n := by
    refine ⟨rfl, rfl, ?_⟩
    cases n
    rfl
  obtain ⟨_, hordered, hexport⟩ :=
    catalog_follows_source ⟨"m.js"⟩ sampleFile sampleFileTree {} hlaid
  obtain ⟨_, hwrapped, _⟩ := hexport [] n after _ hchildren hnamed (by simp [hkind]) hexports
  refine ⟨hlaid, hrecords, hordered, n, after, _, hchildren, hexports, ?_⟩
  have hnil : catalogMixins ⟨"m.js"⟩ sampleFile (sampleFileTree.withChildren []) {} = [] := by
    rw [catalogMixins_withChildren]
    rfl
  simpa only [hnil, List.nil_append] using hwrapped

end MixinCatalog
