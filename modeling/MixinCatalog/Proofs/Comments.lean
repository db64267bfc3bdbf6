import MixinCatalog.Proofs.SourceOrder
import MixinCatalog.Proofs.Wrappers

/-!
# Comments

Comments are children like all others, and every part of the analysis passes over them in its own
way. None of them changes what is found: a tree and the tree without its comments have the same
mixins, with the same names, parameters and places. Only the superclass of a record is read without
regard to comments, so it is left out here.
-/

namespace MixinCatalog

open Syntax

/-! ### Trees without comments -/

namespace Syntax.Node

mutual

/-- The tree less every comment below its root. What stays has its kind, field and span. -/
def withoutComments : Node → Node
  | mk kind named field start stop children =>
    mk kind named field start stop (withoutCommentsAll children)

def withoutCommentsAll : List Node → List Node
  | [] => []
  | c :: cs =>
    if c.isComment then withoutCommentsAll cs else withoutComments c :: withoutCommentsAll cs

end

/-- Comments stand where the grammars put them: in no field, and not behind the operand of a prefix
assertion. -/
structure PlacesComments (n : Node) : Prop where
  field : ∀ f c, n.child? f = some c → c.kind ≠ .comment
  assertion : n.kind = .typeAssertion → ∀ c, n.namedChildren.getLast? = some c → c.kind ≠ .comment

instance (n : Node) : Decidable n.PlacesComments :=
  decidable_of_iff ((∀ f ∈ [Field.name, .value, .body, .declaration, .parameter, .parameters,
      .pattern, .left], ∀ c ∈ n.child? f, c.kind ≠ .comment) ∧
      (n.kind = .typeAssertion → ∀ c ∈ n.namedChildren.getLast?, c.kind ≠ .comment))
    ⟨fun h => ⟨fun f => h.1 f (by cases f <;> decide), h.2⟩,
      fun h => ⟨fun f _ => h.field f, h.assertion⟩⟩

section

variable (n : Node)

@[simp]
theorem kind_withoutComments : n.withoutComments.kind = n.kind := by
  cases n
  simp only [withoutComments, kind]

@[simp]
theorem named_withoutComments : n.withoutComments.named = n.named := by
  cases n
  simp only [withoutComments, named]

@[simp]
theorem field_withoutComments : n.withoutComments.field = n.field := by
  cases n
  simp only [withoutComments, field]

@[simp]
theorem start_withoutComments : n.withoutComments.start = n.start := by
  cases n
  simp only [withoutComments, start]

@[simp]
theorem stop_withoutComments : n.withoutComments.stop = n.stop := by
  cases n
  simp only [withoutComments, stop]

@[simp]
theorem role_withoutComments : n.withoutComments.role = n.role := by
  rw [role, kind_withoutComments, role]

@[simp]
theorem isComment_withoutComments : n.withoutComments.isComment = n.isComment := by
  rw [isComment, kind_withoutComments, isComment]

@[simp]
theorem text_withoutComments (source : String) : n.withoutComments.text source = n.text source := by
  simp only [text, start_withoutComments, stop_withoutComments]

theorem withoutCommentsAll_eq (cs : List Node) :
    withoutCommentsAll cs = (cs.filter (!·.isComment)).map withoutComments := by
  induction cs with
  | nil => simp [withoutCommentsAll]
  | cons c cs ih => by_cases hc : c.isComment <;> simp [withoutCommentsAll, hc, ih]

private theorem children_withoutComments :
    n.withoutComments.children = (n.children.filter (!·.isComment)).map withoutComments := by
  cases n
  simp only [withoutComments, children, withoutCommentsAll_eq]

private theorem namedChildren_withoutComments :
    n.withoutComments.namedChildren = n.parts.map withoutComments := by
  rw [namedChildren, children_withoutComments, List.filter_map, parts, namedChildren,
    List.filter_filter, List.filter_filter]
  simp only [Function.comp_def, named_withoutComments, Bool.and_comm]

private theorem parts_withoutComments : n.withoutComments.parts = n.parts.map withoutComments := by
  rw [parts, namedChildren_withoutComments, List.filter_map]
  simp only [Function.comp_def, isComment_withoutComments, parts, List.filter_filter, Bool.and_self]

private theorem filter_parts {p : Node → Bool} (h : ∀ c, p c = true → c.kind ≠ .comment) :
    n.parts.filter p = n.namedChildren.filter p := by
  rw [parts, List.filter_filter]
  congr 1
  funext c
  cases hp : p c with
  | false => rfl
  | true => simpa [isComment] using h c hp

private theorem getLast?_parts (h : ∀ c, n.namedChildren.getLast? = some c → c.kind ≠ .comment) :
    n.parts.getLast? = n.namedChildren.getLast? := by
  rw [parts]
  cases hlast : n.namedChildren.getLast? with
  | none => simp [List.getLast?_eq_none_iff.mp hlast]
  | some c =>
    obtain ⟨before, hbefore⟩ := List.getLast?_eq_some_iff.mp hlast
    have hkept : c.isComment = false := by simpa [isComment] using h c hlast
    simp [hbefore, List.filter_append, hkept]

end

private theorem find?_filter_of {p q : Node → Bool} {cs : List Node}
    (h : ∀ c, cs.find? p = some c → q c = true) : (cs.filter q).find? p = cs.find? p := by
  induction cs with
  | nil => rfl
  | cons c cs ih =>
    cases hp : p c with
    | true =>
      have hq : q c = true := h c (by simp [hp])
      simp [hp, hq]
    | false =>
      have hrest := ih fun x hx => h x (by simpa [hp] using hx)
      cases hq : q c <;> simp [hp, hq, hrest]

private theorem child?_withoutComments {n : Node} (h : n.PlacesComments) (f : Field) :
    n.withoutComments.child? f = (n.child? f).map withoutComments := by
  have hkept : ∀ c, n.children.find? (·.field == some f) = some c → (!c.isComment) = true := by
    intro c hc
    simpa [isComment] using h.field f c hc
  rw [child?, children_withoutComments, List.find?_map]
  simp only [Function.comp_def, field_withoutComments]
  rw [find?_filter_of hkept, child?]

private theorem exists_of_isBelow_withoutComments {c n : Node} (h : c.IsBelow n.withoutComments) :
    ∃ d : Node, d.IsBelow n ∧ d.kind ≠ .comment ∧ c = d.withoutComments := by
  induction n using induction_on_children with
  | step n ih =>
    obtain ⟨m, hm, hc⟩ := isBelow_iff.mp h
    rw [children_withoutComments, List.mem_map] at hm
    obtain ⟨d, hd, rfl⟩ := hm
    obtain ⟨hmem, hkept⟩ := List.mem_filter.mp hd
    have hbelow := isBelow_of_mem_children hmem
    rcases hc with rfl | hc
    · exact ⟨d, hbelow, by simpa [isComment] using hkept, rfl⟩
    · obtain ⟨e, he, hkind, hc'⟩ := ih d hmem hc
      exact ⟨e, he.trans hbelow, hkind, hc'⟩

end Syntax.Node

open Syntax.Node

/-! ### Names of returns -/

namespace NameReader

private theorem operand?_withoutComments {n : Node} (h : n.PlacesComments)
    (hn : isWrapper n.kind = true) :
    operand? n.withoutComments = (operand? n).map withoutComments := by
  unfold operand?
  rw [kind_withoutComments]
  split
  · rw [parts_withoutComments, List.head?_map]
  · rename_i hfirst
    have hassertion : n.kind = .typeAssertion := by simpa [isWrapper, hfirst] using hn
    rw [namedChildren_withoutComments, List.getLast?_map, getLast?_parts n (h.assertion hassertion)]

private theorem unwrap_withoutComments {n : Node} (h : n.Everywhere PlacesComments) :
    unwrap n.withoutComments = (unwrap n).map withoutComments := by
  induction n using induction_on_children with
  | step n ih =>
    rw [unwrap_eq, unwrap_eq n, kind_withoutComments]
    split
    · rename_i hwrapper
      rw [operand?_withoutComments h.here hwrapper]
      cases hoperand : operand? n with
      | none => rfl
      | some e =>
        have he := mem_children_of_operand? hoperand
        exact ih e he (h.of_isBelow (isBelow_of_mem_children he))
    · rfl

private theorem isName_withoutComments {e : Node} : IsName e.withoutComments ↔ IsName e := by
  unfold IsName
  rw [kind_withoutComments]

private theorem textual_withoutComments {r : Node} (h : r.Everywhere PlacesComments)
    (source : String) : textual r.withoutComments source = textual r source := by
  rw [textual_eq, textual_eq, role_withoutComments]
  split
  · rw [returned?, parts_withoutComments, List.head?_map, returned?]
    cases he : r.parts.head? with
    | none => rfl
    | some e =>
      have hbelow := isBelow_of_mem_parts (List.mem_of_head? he)
      rw [Option.map_some, Option.bind_some, Option.bind_some,
        unwrap_withoutComments (h.of_isBelow hbelow)]
      cases unwrap e with
      | none => rfl
      | some x => simp only [Option.map_some, Option.bind_some, isName_withoutComments,
          text_withoutComments]
  · rfl

end NameReader

/-! ### Mixins -/

/-- The same mixin in the tree without comments. -/
def MixinNodes.withoutComments (m : MixinNodes) : MixinNodes :=
  ⟨m.function.withoutComments, m.classNode.withoutComments, m.shape⟩

namespace BlockScan

def withoutComments (scan : BlockScan) : BlockScan :=
  ⟨scan.firstReturn?.map Node.withoutComments, scan.firstClass?.map Node.withoutComments⟩

private theorem step_withoutComments (scan : BlockScan) (statement : Node) :
    scan.withoutComments.step statement.withoutComments =
      (scan.step statement).withoutComments := by
  unfold step
  rw [role_withoutComments]
  cases statement.role with
  | returnStatement => cases hr : scan.firstReturn? <;> simp [withoutComments, hr]
  | classDeclaration => cases hc : scan.firstClass? <;> simp [withoutComments, hc]
  | _ => rfl

private theorem foldl_step_withoutComments (statements : List Node) (scan : BlockScan) :
    (statements.map Node.withoutComments).foldl step scan.withoutComments =
      (statements.foldl step scan).withoutComments := by
  induction statements generalizing scan with
  | nil => rfl
  | cons statement rest ih =>
    rw [List.map_cons, List.foldl_cons, List.foldl_cons, step_withoutComments, ih]

private theorem ofBlock_withoutComments (block : Node) :
    ofBlock block.withoutComments = (ofBlock block).withoutComments := by
  unfold ofBlock statements
  rw [parts_withoutComments]
  exact foldl_step_withoutComments block.parts {}

private theorem returnedClass?_withoutComments (scan : BlockScan) :
    scan.withoutComments.returnedClass? = scan.returnedClass?.map Node.withoutComments := by
  unfold returnedClass?
  cases hr : scan.firstReturn? with
  | none => simp [withoutComments, hr]
  | some r =>
    simp only [withoutComments, hr, Option.map_some, Option.bind_some, returned?,
      parts_withoutComments, List.head?_map]
    cases r.parts.head? with
    | none => rfl
    | some e => by_cases he : e.role = .classExpression <;> simp [he]

end BlockScan

section

variable {names : NameReader} {options : MixinOptions} {source : String}

private theorem returnsClass_withoutComments {c r : Node} (hc : c.PlacesComments)
    (hr : names r.withoutComments source = names r source) :
    returnsClass names source c.withoutComments r.withoutComments =
      returnsClass names source c r := by
  unfold returnsClass
  rw [hr, child?_withoutComments hc]
  cases c.child? .name with
  | none => rfl
  | some name => cases names r source <;> simp

private theorem classDeclarationRule_withoutComments {scan : BlockScan} {function : Node}
    {shape : Bool → Shape} (hc : ∀ c ∈ scan.firstClass?, c.PlacesComments)
    (hr : ∀ r ∈ scan.firstReturn?, names r.withoutComments source = names r source) :
    classDeclarationRule names options source scan.withoutComments function.withoutComments shape =
      (classDeclarationRule names options source scan function shape).map
        MixinNodes.withoutComments := by
  unfold classDeclarationRule
  cases hclass : scan.firstClass? with
  | none => simp [BlockScan.withoutComments, hclass]
  | some c =>
    cases hret : scan.firstReturn? with
    | none =>
      cases options.implicitReturn <;>
        simp [BlockScan.withoutComments, hclass, hret, MixinNodes.withoutComments]
    | some r =>
      have hsame := returnsClass_withoutComments (hc c hclass) (hr r hret)
      cases hb : returnsClass names source c r <;>
        simp [BlockScan.withoutComments, hclass, hret, hsame, hb, MixinNodes.withoutComments]

private theorem declarators_withoutComments (statement : Node) :
    statement.withoutComments.declarators = statement.declarators.map withoutComments := by
  have hkept : ∀ c : Node, (c.kind == .variableDeclarator) = true → c.kind ≠ .comment := by
    intro c hc
    simp [beq_iff_eq.mp hc]
  rw [declarators, namedChildren_withoutComments, List.filter_map]
  simp only [Function.comp_def, kind_withoutComments]
  rw [filter_parts statement hkept, declarators]

private theorem initializer?_withoutComments {d : Node} (h : d.PlacesComments) :
    d.withoutComments.initializer? = d.initializer?.map withoutComments := by
  unfold initializer?
  rw [kind_withoutComments, child?_withoutComments h, child?_withoutComments h]
  split
  · cases d.child? .name with
    | none => rfl
    | some name => by_cases hname : name.role = .identifier <;> simp [hname]
  · rfl

private theorem isBelow_of_mem_declarators {statement d : Node} (h : d ∈ statement.declarators) :
    d.IsBelow statement :=
  isBelow_of_mem_namedChildren (List.mem_filter.mp h).1

private theorem decidingInitializer?_withoutComments {statement : Node}
    (h : statement.Everywhere PlacesComments) :
    statement.withoutComments.decidingInitializer? =
      statement.decidingInitializer?.map withoutComments := by
  have hinit : ∀ d ∈ statement.declarators,
      d.withoutComments.initializer? = d.initializer?.map withoutComments := by
    intro d hd
    exact initializer?_withoutComments (h.of_isBelow (isBelow_of_mem_declarators hd)).here
  unfold decidingInitializer?
  rw [declarators_withoutComments, List.filterMap_map]
  simp only [Function.comp_def]
  rw [List.filterMap_congr hinit, ← List.map_filterMap, List.find?_map]
  simp only [Function.comp_def, role_withoutComments]

private theorem isBelow_of_decidingInitializer? {statement f : Node}
    (h : statement.decidingInitializer? = some f) : f.IsBelow statement := by
  obtain ⟨_, _, hd⟩ := decidingInitializer?_eq_some_iff.mp h
  exact hd.isBelow

private theorem classDeclarationRule_ofBlock_withoutComments {block function : Node}
    {shape : Bool → Shape} (h : block.Everywhere PlacesComments) :
    classDeclarationRule NameReader.textual options source
        (BlockScan.ofBlock block).withoutComments function.withoutComments shape =
      (classDeclarationRule NameReader.textual options source (BlockScan.ofBlock block) function
        shape).map MixinNodes.withoutComments := by
  have hstatement {n : Node} (hn : n ∈ block.namedChildren) : n.Everywhere PlacesComments :=
    h.of_isBelow (isBelow_of_mem_namedChildren hn)
  apply classDeclarationRule_withoutComments
  · intro c hc
    exact (hstatement (BlockScan.firstClass?_eq_some_iff.mp hc).mem).here
  · intro r hr
    exact NameReader.textual_withoutComments
      (hstatement (BlockScan.firstReturn?_eq_some_iff.mp hr).mem) source

private theorem variableForms_withoutComments {statement : Node}
    (h : statement.Everywhere PlacesComments) :
    variableForms NameReader.textual options source statement.withoutComments =
      (variableForms NameReader.textual options source statement).map
        MixinNodes.withoutComments := by
  unfold variableForms
  rw [decidingInitializer?_withoutComments h]
  cases hf : statement.decidingInitializer? with
  | none => rfl
  | some f =>
    have hplaces := h.of_isBelow (isBelow_of_decidingInitializer? hf)
    simp only [Option.map_some, body?, child?_withoutComments hplaces.here]
    cases hbody : f.child? .body with
    | none => rfl
    | some body =>
      have hblock := hplaces.of_isBelow (isBelow_of_child? hbody)
      simp only [Option.map_some, role_withoutComments, BlockScan.ofBlock_withoutComments,
        BlockScan.returnedClass?_withoutComments]
      cases body.role with
      | classExpression => rfl
      | block =>
        cases (BlockScan.ofBlock body).returnedClass? with
        | some c => rfl
        | none => exact classDeclarationRule_ofBlock_withoutComments hblock
      | _ => rfl

private theorem functionForms_withoutComments {function : Node}
    (h : function.Everywhere PlacesComments) :
    functionForms NameReader.textual options source function.withoutComments =
      (functionForms NameReader.textual options source function).map
        MixinNodes.withoutComments := by
  unfold functionForms
  rw [body?, child?_withoutComments h.here, body?]
  cases hbody : function.child? .body with
  | none => rfl
  | some body =>
    have hblock := h.of_isBelow (isBelow_of_child? hbody)
    simp only [Option.map_some, role_withoutComments, BlockScan.ofBlock_withoutComments,
      BlockScan.returnedClass?_withoutComments]
    split
    · cases (BlockScan.ofBlock body).returnedClass? with
      | some c => rfl
      | none => exact classDeclarationRule_ofBlock_withoutComments hblock
    · rfl

private theorem mixinNodes?_withoutComments {declaration : Node}
    (h : declaration.Everywhere PlacesComments) :
    mixinNodes? NameReader.textual options source declaration.withoutComments =
      (mixinNodes? NameReader.textual options source declaration).map
        MixinNodes.withoutComments := by
  unfold mixinNodes?
  rw [role_withoutComments]
  cases declaration.role with
  | variableStatement => exact variableForms_withoutComments h
  | functionDeclaration => exact functionForms_withoutComments h
  | _ => rfl

end

/-! ### Records -/

section

variable {path : Path} {source : String} {options : MixinOptions}

def MixinRecord.withoutSuperclass (r : MixinRecord) : MixinRecord := { r with superclass := none }

private theorem text_parameterBinding_withoutComments {p : Node} (h : p.PlacesComments) :
    (parameterBinding p.withoutComments).text source = (parameterBinding p).text source := by
  have hbinding (f : Field) : ((p.withoutComments.child? f).getD p.withoutComments).text source =
      ((p.child? f).getD p).text source := by
    rw [child?_withoutComments h]
    cases p.child? f <;> simp
  unfold parameterBinding
  rw [kind_withoutComments]
  cases p.kind with
  | requiredParameter => exact hbinding .pattern
  | optionalParameter => exact hbinding .pattern
  | assignmentPattern => exact hbinding .left
  | _ => exact text_withoutComments p source

private theorem parameterNames_withoutComments {f : Node} (h : f.Everywhere PlacesComments) :
    parameterNames f.withoutComments source = parameterNames f source := by
  unfold parameterNames
  rw [child?_withoutComments h.here, child?_withoutComments h.here]
  cases f.child? .parameter with
  | some p => simp
  | none =>
    cases hps : f.child? .parameters with
    | none => rfl
    | some ps =>
      have hplaces := h.of_isBelow (isBelow_of_child? hps)
      simp only [Option.map_none, Option.map_some, parts_withoutComments, List.map_map]
      apply List.map_congr_left
      intro p hp
      have hp' := hplaces.of_isBelow (isBelow_of_mem_parts hp)
      exact text_parameterBinding_withoutComments hp'.here

/-- What a declarator binds, if it binds a function. -/
def declaratorBinding? (d : Node) : Option (Option Node × Option Node) :=
  match d.initializer? with
  | some f => if f.role = .functionLike then some (d.child? .name, some f) else none
  | none => none

def bindingWithoutComments : Option Node × Option Node → Option Node × Option Node :=
  Prod.map (Option.map withoutComments) (Option.map withoutComments)

private theorem declaratorBinding?_withoutComments {d : Node} (h : d.PlacesComments) :
    declaratorBinding? d.withoutComments = (declaratorBinding? d).map bindingWithoutComments := by
  unfold declaratorBinding?
  rw [initializer?_withoutComments h, child?_withoutComments h]
  cases d.initializer? with
  | none => rfl
  | some f => by_cases hf : f.role = .functionLike <;> simp [hf, bindingWithoutComments]

private theorem mixinBinding_withoutComments {declaration : Node}
    (h : declaration.Everywhere PlacesComments) :
    mixinBinding declaration.withoutComments =
      bindingWithoutComments (mixinBinding declaration) := by
  have hdeclarator : ∀ d ∈ declaration.declarators, declaratorBinding? d.withoutComments =
      (declaratorBinding? d).map bindingWithoutComments := by
    intro d hd
    exact declaratorBinding?_withoutComments (h.of_isBelow (isBelow_of_mem_declarators hd)).here
  unfold mixinBinding
  rw [role_withoutComments]
  cases declaration.role with
  | functionDeclaration => simp [bindingWithoutComments, child?_withoutComments h.here]
  | variableStatement =>
    change (declaration.withoutComments.declarators.findSome? declaratorBinding?).getD _ =
      bindingWithoutComments ((declaration.declarators.findSome? declaratorBinding?).getD _)
    rw [declarators_withoutComments, ← List.head?_filterMap, List.filterMap_map]
    simp only [Function.comp_def]
    rw [List.filterMap_congr hdeclarator, ← List.map_filterMap, List.head?_map,
      List.head?_filterMap]
    cases declaration.declarators.findSome? declaratorBinding? <;> rfl
  | _ => rfl

private theorem mixinRecord_withoutComments {declaration : Node} {m : MixinNodes} {exported : Bool}
    (h : declaration.Everywhere PlacesComments)
    (hm : mixinNodes? NameReader.textual options source declaration = some m) :
    (mixinRecord path source ⟨declaration.withoutComments, exported⟩
        m.withoutComments).withoutSuperclass =
      (mixinRecord path source ⟨declaration, exported⟩ m).withoutSuperclass := by
  obtain ⟨hfunction, hbelow, _⟩ := exists_reported hm
  have hclass := ((h.of_mem hfunction).of_isBelow hbelow).here
  obtain ⟨name, f, hsame⟩ := exists_sameCallable hm
  have hparameters : parameterNames f.withoutComments source = parameterNames f source := by
    cases hsame.callable with
    | declared => exact parameterNames_withoutComments h
    | bound _ _ hd => exact parameterNames_withoutComments (h.of_isBelow hd.isBelow)
  simp [mixinRecord, MixinRecord.withoutSuperclass, MixinNodes.withoutComments,
    mixinBinding_withoutComments h, hsame.lookup, bindingWithoutComments, hparameters,
    child?_withoutComments hclass, Function.comp_def]

private theorem declaration?_withoutComments {n : Node} (h : n.PlacesComments) :
    n.withoutComments.declaration? = n.declaration?.map withoutComments := by
  unfold declaration?
  rw [kind_withoutComments, child?_withoutComments h]
  split <;> rfl

private theorem recordOf?_withoutComments {n : Node} (h : n.Everywhere PlacesComments) :
    (recordOf? path source options n.withoutComments).map MixinRecord.withoutSuperclass =
      (recordOf? path source options n).map MixinRecord.withoutSuperclass := by
  unfold recordOf?
  rw [declaration?_withoutComments h.here, kind_withoutComments]
  cases hd : n.declaration? with
  | none => rfl
  | some d =>
    have hplaces := h.of_mem (mem_preorder_of_declaration? hd)
    rw [Option.map_some, Option.bind_some, Option.bind_some, mixinNodes?_withoutComments hplaces]
    cases hm : mixinNodes? NameReader.textual options source d with
    | none => rfl
    | some m =>
      rw [Option.map_some, Option.map_some, Option.map_some, Option.map_some, Option.map_some,
        mixinRecord_withoutComments hplaces hm]

private theorem recordOf?_of_isComment {n : Node} (h : n.isComment = true) :
    recordOf? path source options n = none := by
  have hkind : n.kind = .comment := by simpa [isComment] using h
  have hrole : n.role = .other := by simp [Node.role, hkind, Kind.role]
  simp [recordOf?, declaration?, hkind, mixinNodes?, hrole]

private theorem catalogMixins_eq_parts (path : Path) (source : String) (root : Node)
    (options : MixinOptions) :
    catalogMixins path source root options =
      root.parts.filterMap (recordOf? path source options) := by
  rw [catalogMixins_eq, parts, List.filterMap_filter]
  congr 1
  funext n
  cases hn : n.isComment with
  | false => rfl
  | true => exact recordOf?_of_isComment hn

end

/-- Comments do not change what is found. A tree whose comments stand where the grammars put them
and the same tree without comments have the same records up to the superclass, and every return
statement is read alike. -/
theorem comments_do_not_matter (path : Path) (source : String) (root : Node)
    (options : MixinOptions) (h : root.Everywhere PlacesComments) :
    (∀ c : Node, c.IsBelow root.withoutComments →
      ∃ d : Node, d.IsBelow root ∧ d.kind ≠ .comment ∧ c = d.withoutComments) ∧
    (catalogMixins path source root.withoutComments options).map MixinRecord.withoutSuperclass =
      (catalogMixins path source root options).map MixinRecord.withoutSuperclass ∧
    ∀ r ∈ root.preorder, r.role = .returnStatement →
      NameReader.textual r.withoutComments source = NameReader.textual r source := by
  refine ⟨fun c => exists_of_isBelow_withoutComments, ?_, ?_⟩
  · have hrecord : ∀ n ∈ root.parts,
        (recordOf? path source options n.withoutComments).map MixinRecord.withoutSuperclass =
          (recordOf? path source options n).map MixinRecord.withoutSuperclass := by
      intro n hn
      exact recordOf?_withoutComments (h.of_isBelow (isBelow_of_mem_parts hn))
    rw [catalogMixins_eq_parts, catalogMixins_eq_parts, parts_withoutComments, List.filterMap_map,
      List.map_filterMap, List.map_filterMap]
    exact List.filterMap_congr hrecord
  · intro r hr _
    exact NameReader.textual_withoutComments (h.of_mem hr) source

def sampleComments : String := "let M=(/**/b)=>{/**/class C{}return(/**/C)}"

def sampleCommentsTree : Node := (Source.parse .javaScript sampleComments).root

theorem sampleComments_do_not_matter :
    sampleCommentsTree.Everywhere PlacesComments ∧
    (sampleCommentsTree.preorder.filter isComment).length = 3 ∧
    (catalogMixins ⟨"m.js"⟩ sampleComments sampleCommentsTree {}).map
      (fun r => (r.name, r.className, r.parameters)) = [(some "M", some "C", ["b"])] ∧
    (catalogMixins ⟨"m.js"⟩ sampleComments sampleCommentsTree.withoutComments {}).map
        MixinRecord.withoutSuperclass =
      (catalogMixins ⟨"m.js"⟩ sampleComments sampleCommentsTree {}).map
        MixinRecord.withoutSuperclass ∧
    ∃ r ∈ sampleCommentsTree.preorder, r.role = .returnStatement ∧
      NameReader.textual r.withoutComments sampleComments = some "C" := by
  have hsample : sampleCommentsTree.Everywhere PlacesComments ∧
      (sampleCommentsTree.preorder.filter isComment).length = 3 ∧
      (catalogMixins ⟨"m.js"⟩ sampleComments sampleCommentsTree {}).map
        (fun r => (r.name, r.className, r.parameters)) = [(some "M", some "C", ["b"])] ∧
      ∃ r ∈ sampleCommentsTree.preorder, r.role = .returnStatement ∧
        NameReader.textual r sampleComments = some "C" := by decide +kernel
  obtain ⟨hplaces, hcount, hrecords, r, hr, hrole, hname⟩ := hsample
  obtain ⟨_, hsame, hread⟩ :=
    comments_do_not_matter ⟨"m.js"⟩ sampleComments sampleCommentsTree {} hplaces
  exact ⟨hplaces, hcount, hrecords, hsame, r, hr, hrole, (hread r hr hrole).trans hname⟩

end MixinCatalog
