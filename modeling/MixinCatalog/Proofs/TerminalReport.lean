import Mathlib.Data.List.Forall2
import MixinCatalog.Report.Writer

/-!
# The terminal report with and without styles

Styles are put on a report piece by piece. Taking every escape sequence out of it again leaves the
report that is written without styles, as long as the catalog brings no escape character of its own.
The plain report shows every mixin of the catalog in the section of its file.
-/

namespace MixinCatalog

def MixinRecord.strings (r : MixinRecord) : List String :=
  r.name.toList ++ r.className.toList ++ r.parameters ++ r.superclass.toList ++ [r.file.text]

def FileMixins.strings (f : FileMixins) : List String :=
  f.path.text :: f.mixins.flatMap MixinRecord.strings

/-- All texts that a catalog holds. -/
def Catalog.strings (c : Catalog) : List String :=
  c.projectPath.text :: c.files.flatMap FileMixins.strings

namespace Report

/-! ### Text without escape characters -/

def EscapeFree (s : String) : Prop := '\x1b' ∉ s.toList

instance (s : String) : Decidable (EscapeFree s) := inferInstanceAs (Decidable (_ ∉ _))

@[simp] theorem escapeFree_append (s t : String) :
    EscapeFree (s ++ t) ↔ EscapeFree s ∧ EscapeFree t := by
  simp [EscapeFree]

private theorem escapeFree_decimal (n : Nat) : EscapeFree (decimal n) := by
  intro h
  rw [decimal, String.toList_ofList] at h
  have hdigit := Nat.isDigit_of_mem_toDigits (by decide) (by decide) h
  exact absurd hdigit (by decide)

private theorem escapeFree_label (shape : Shape) : EscapeFree shape.label := by
  cases shape with
  | blockClassDeclaration explicitReturn => cases explicitReturn <;> decide
  | functionClassDeclaration explicitReturn => cases explicitReturn <;> decide
  | _ => decide

private theorem escapeFree_displayName {name : Option String} (h : ∀ s ∈ name, EscapeFree s) :
    EscapeFree (displayName name) := by
  cases name with
  | none => decide
  | some s => exact h s rfl

private theorem escapeFree_intercalate {separator : String} {ps : List String}
    (hseparator : EscapeFree separator) (h : ∀ p ∈ ps, EscapeFree p) :
    EscapeFree (separator.intercalate ps) := by
  induction ps with
  | nil => simp [EscapeFree]
  | cons p ps ih =>
    obtain ⟨hp, hps⟩ := List.forall_mem_cons.mp h
    cases ps with
    | nil => simpa using hp
    | cons q qs => simp [String.intercalate_cons_cons, hp, hseparator, ih hps]

/-! ### Taking styles out -/

/-- A character of the codes of an escape sequence. -/
def isCode (c : Char) : Bool := c.isDigit || c == ';'

/-- What stands behind the codes at the front of a text and the letter that ends them. -/
def behindCodes? : List Char → Option (List Char)
  | [] => none
  | c :: cs =>
    if c = 'm' then some cs
    else if isCode c then behindCodes? cs
    else none

/-- What stands behind the escape sequence at the front of a text. -/
def behindSequence? : List Char → Option (List Char)
  | '\x1b' :: '[' :: cs => behindCodes? cs
  | _ => none

private theorem length_of_behindCodes? {cs rest : List Char} (h : behindCodes? cs = some rest) :
    rest.length < cs.length := by
  induction cs with
  | nil => simp [behindCodes?] at h
  | cons c cs ih =>
    rw [behindCodes?] at h
    split at h
    · obtain rfl := Option.some.inj h
      exact Nat.lt_add_one _
    · split at h
      · exact Nat.lt_trans (ih h) (Nat.lt_add_one _)
      · cases h

private theorem length_of_behindSequence? {cs rest : List Char}
    (h : behindSequence? cs = some rest) : rest.length < cs.length := by
  unfold behindSequence? at h
  split at h
  · have hcodes := length_of_behindCodes? h
    simp only [List.length_cons]
    omega
  · cases h

/-- The text without its escape sequences. -/
def erase : List Char → List Char
  | [] => []
  | c :: cs =>
    match _h : behindSequence? (c :: cs) with
    | some rest => erase rest
    | none => c :: erase cs
termination_by cs => cs.length
decreasing_by
  · exact length_of_behindSequence? _h
  · exact Nat.lt_add_one _

def eraseStyles (s : String) : String := String.ofList (erase s.toList)

example : eraseStyles "\x1b[1;34mM\x1b[0m(\x1b[x" = "M(\x1b[x" := by cbv

private theorem erase_of_behindSequence? {cs rest : List Char}
    (h : behindSequence? cs = some rest) : erase cs = erase rest := by
  cases cs with
  | nil => simp [behindSequence?] at h
  | cons c cs =>
    rw [erase]
    split
    next hsome => rw [Option.some.inj (hsome.symm.trans h)]
    next hnone => cases hnone.symm.trans h

private theorem erase_cons_of_ne {c : Char} (hc : c ≠ '\x1b') (cs : List Char) :
    erase (c :: cs) = c :: erase cs := by
  have hnone : behindSequence? (c :: cs) = none := behindSequence?.eq_2 _ fun _ heq =>
    hc (List.cons.inj heq).1
  rw [erase]
  split
  next hsome => cases hnone.symm.trans hsome
  next => rfl

theorem behindCodes?_append {codes : List Char} (h : codes.all isCode) (rest : List Char) :
    behindCodes? (codes ++ 'm' :: rest) = some rest := by
  induction codes with
  | nil => simp [behindCodes?]
  | cons c codes ih =>
    rw [List.all_cons, Bool.and_eq_true] at h
    have hm : c ≠ 'm' := by
      rintro rfl
      exact absurd h.1 (by decide)
    rw [List.cons_append, behindCodes?, if_neg hm, if_pos h.1]
    exact ih h.2

theorem erase_sequence_append {codes : String} (h : codes.toList.all isCode) (rest : List Char) :
    erase (sequence codes ++ rest) = erase rest := by
  apply erase_of_behindSequence?
  simpa [sequence, behindSequence?] using behindCodes?_append h rest

private theorem erase_append_of_notMem {cs : List Char} (h : '\x1b' ∉ cs) (rest : List Char) :
    erase (cs ++ rest) = cs ++ erase rest := by
  induction cs with
  | nil => rfl
  | cons c cs ih =>
    have hc : c ≠ '\x1b' := fun heq => h (heq ▸ List.mem_cons_self)
    have hcs := ih fun hmem => h (List.mem_cons_of_mem c hmem)
    rw [List.cons_append, erase_cons_of_ne hc, hcs, List.cons_append]

/-- The styled text loses its escape sequences and nothing else, whatever stands behind it, and no
escape character is left. -/
structure Erases (styled plain : String) : Prop where
  escapeFree : EscapeFree plain
  erase_append : ∀ rest, erase (styled.toList ++ rest) = plain.toList ++ erase rest

namespace Erases

private theorem of_escapeFree {s : String} (h : EscapeFree s) : Erases s s :=
  ⟨h, erase_append_of_notMem h⟩

theorem append {s p s' p' : String} (h : Erases s p) (h' : Erases s' p') :
    Erases (s ++ s') (p ++ p') where
  escapeFree := (escapeFree_append p p').mpr ⟨h.escapeFree, h'.escapeFree⟩
  erase_append rest := by
    rw [String.toList_append, List.append_assoc, h.erase_append, h'.erase_append,
      String.toList_append, List.append_assoc]

theorem paint {t : String} (h : EscapeFree t) (style : Style) :
    Erases (paint true style t) (paint false style t) := by
  have hstyle : style.codes.toList.all isCode := by cases style <;> rfl
  have hreset : "0".toList.all isCode := rfl
  have hpainted : (Report.paint true style t).toList =
      sequence style.codes ++ t.toList ++ sequence "0" := by
    simp [Report.paint, restyle_of_notMem _ h, reset]
  refine ⟨h, fun rest => ?_⟩
  rw [hpainted, List.append_assoc, List.append_assoc, erase_sequence_append hstyle,
    erase_append_of_notMem h, erase_sequence_append hreset]
  rfl

private theorem labelled {word t : String} (hword : EscapeFree word) (h : EscapeFree t)
    (style : Style) :
    Erases ("    " ++ Report.paint true style word ++ " " ++ t)
      ("    " ++ Report.paint false style word ++ " " ++ t) := by
  have hindent : EscapeFree "    " := by decide
  have hblank : EscapeFree " " := by decide
  exact (((of_escapeFree hindent).append (paint hword style)).append (of_escapeFree hblank)).append
    (of_escapeFree h)

private theorem text_line {styled plain : List String} (h : List.Forall₂ Erases styled plain) :
    Erases (text (styled.map .line)) (text (plain.map .line)) := by
  induction h with
  | nil => exact of_escapeFree (by decide)
  | cons hline _ ih =>
    simp only [List.map_cons, text_cons, Step.line, Step.text]
    exact (hline.append (of_escapeFree (by decide))).append ih

theorem eraseStyles_eq {styled plain : String} (h : Erases styled plain) :
    eraseStyles styled = plain := by
  have hnil : erase [] = [] := by rw [erase]
  have hall := h.erase_append []
  rw [List.append_nil, hnil, List.append_nil] at hall
  rw [eraseStyles, hall, String.ofList_toList]

end Erases

/-! ### The two reports side by side -/

variable {c : Catalog} {f : FileMixins} {r : MixinRecord}

private theorem forall₂_erases_terminalMixin (h : ∀ s ∈ r.strings, EscapeFree s) :
    List.Forall₂ Erases (terminalMixin true r) (terminalMixin false r) := by
  simp only [MixinRecord.strings, List.forall_mem_append, Option.mem_toList,
    List.forall_mem_singleton] at h
  obtain ⟨⟨⟨⟨hname, hclass⟩, hparameters⟩, hsuper⟩, hfile⟩ := h
  have hlist : EscapeFree (parameterList r) := escapeFree_intercalate (by decide) hparameters
  have hcolon : EscapeFree ":" := by decide
  have htitle : Erases
      ("  " ++ paint true .bold (displayName r.name) ++ "(" ++ parameterList r ++ ") -> "
        ++ paint true .cyan (displayName r.className))
      ("  " ++ paint false .bold (displayName r.name) ++ "(" ++ parameterList r ++ ") -> "
        ++ paint false .cyan (displayName r.className)) := by
    refine Erases.append (.append (.append (.append (.append (.of_escapeFree ?_) ?_) ?_) ?_) ?_) ?_
    · decide
    · exact .paint (escapeFree_displayName hname) .bold
    · exact .of_escapeFree (by decide)
    · exact .of_escapeFree hlist
    · exact .of_escapeFree (by decide)
    · exact .paint (escapeFree_displayName hclass) .cyan
  have hplace := (Erases.labelled (by decide : EscapeFree "at") hfile .dimmed).append
    (.of_escapeFree hcolon)
  have hposition := ((hplace.append (.of_escapeFree (escapeFree_decimal r.line))).append
    (.of_escapeFree hcolon)).append (.of_escapeFree (escapeFree_decimal r.column))
  have hform := Erases.labelled (by decide : EscapeFree "form") (escapeFree_label r.shape) .dimmed
  unfold terminalMixin
  refine List.rel_append (List.rel_append (.cons htitle (.cons hposition (.cons hform .nil))) ?_) ?_
  · cases hs : r.superclass with
    | none => exact .nil
    | some s =>
      exact .cons (.labelled (by decide : EscapeFree "extends") (hsuper s hs) .dimmed) .nil
  · split
    · have hindent : EscapeFree "    " := by decide
      exact .cons ((Erases.of_escapeFree hindent).append (.paint (by decide) .yellow)) .nil
    · exact .nil

private theorem forall₂_flatMap_erases {α : Type} {l : List α} {styled plain : α → List String}
    (h : ∀ a ∈ l, List.Forall₂ Erases (styled a) (plain a)) :
    List.Forall₂ Erases (l.flatMap styled) (l.flatMap plain) := by
  induction l with
  | nil => exact .nil
  | cons a l ih =>
    obtain ⟨ha, hl⟩ := List.forall_mem_cons.mp h
    exact List.rel_append ha (ih hl)

private theorem forall₂_erases_terminalFile (h : ∀ s ∈ f.strings, EscapeFree s) :
    List.Forall₂ Erases (terminalFile true f) (terminalFile false f) := by
  obtain ⟨hpath, hmixins⟩ := List.forall_mem_cons.mp h
  have hempty : Erases "" "" := .of_escapeFree (by decide)
  have hentries : List.Forall₂ Erases (f.mixins.flatMap (terminalMixin true))
      (f.mixins.flatMap (terminalMixin false)) :=
    forall₂_flatMap_erases fun r hr =>
      forall₂_erases_terminalMixin fun s hs => hmixins s (List.mem_flatMap_of_mem hr hs)
  exact List.rel_append (List.rel_append (.cons (.paint hpath .underline) .nil) hentries)
    (.cons hempty .nil)

-- The same lines with and without styles: what is optional depends on the catalog only.
private theorem forall₂_erases_terminalLines (h : ∀ s ∈ c.strings, EscapeFree s) :
    List.Forall₂ Erases (terminalLines true c) (terminalLines false c) := by
  have hfiles := (List.forall_mem_cons.mp h).2
  have hsections : List.Forall₂ Erases
      ((c.files.filter (!·.mixins.isEmpty)).flatMap (terminalFile true))
      ((c.files.filter (!·.mixins.isEmpty)).flatMap (terminalFile false)) :=
    forall₂_flatMap_erases fun f hf => forall₂_erases_terminalFile fun s hs =>
      hfiles s (List.mem_flatMap_of_mem (List.mem_of_mem_filter hf) hs)
  unfold terminalLines
  refine List.rel_append (List.rel_append (List.rel_append ?_ hsections) ?_) ?_
  · exact .cons (.paint (by decide) .boldBlue) (.cons (.paint (by decide) .blue)
      (.cons (.of_escapeFree (by decide)) .nil))
  · refine .cons (.append (.append (.append (.append ?_ ?_) ?_) ?_) ?_) .nil
    · exact .of_escapeFree (by decide)
    · exact .paint (escapeFree_decimal _) .boldGreen
    · exact .of_escapeFree (by decide)
    · exact .of_escapeFree (escapeFree_decimal _)
    · exact .of_escapeFree (by decide)
  · split
    · have hline : EscapeFree (decimal (c.files.countP (·.hasParseErrors)) ++
          " files had syntax errors") :=
        (escapeFree_append _ _).mpr ⟨escapeFree_decimal _, by decide⟩
      exact .cons (.paint hline .yellow) .nil
    · exact .nil

private theorem render_terminal (color : Bool) (c : Catalog) :
    render .terminal color c = text ((terminalLines color c).map .line) := by
  simp [render, steps, terminal, Step.text]

private theorem erases_render (h : ∀ s ∈ c.strings, EscapeFree s) :
    Erases (render .terminal true c) (render .terminal false c) := by
  rw [render_terminal, render_terminal]
  exact Erases.text_line (forall₂_erases_terminalLines h)

/-! ### What the plain report shows -/

def NeverReturns (shape : Shape) : Prop :=
  shape = .blockClassDeclaration false ∨ shape = .functionClassDeclaration false

theorem isImplicitReturn_iff (shape : Shape) : shape.isImplicitReturn ↔ NeverReturns shape := by
  cases shape with
  | blockClassDeclaration explicitReturn =>
    cases explicitReturn <;> simp [Shape.isImplicitReturn, NeverReturns]
  | functionClassDeclaration explicitReturn =>
    cases explicitReturn <;> simp [Shape.isImplicitReturn, NeverReturns]
  | _ => simp [Shape.isImplicitReturn, NeverReturns]

/-- The lines about a mixin: the line about its superclass is there if one is recorded, and the note
if its class is never returned. -/
def IsEntryOf (r : MixinRecord) (entry : List String) : Prop :=
  ∃ extension note,
    entry =
      ["  " ++ displayName r.name ++ "(" ++ parameterList r ++ ") -> " ++ displayName r.className,
        "    at " ++ r.file.text ++ ":" ++ decimal r.line ++ ":" ++ decimal r.column,
        "    form " ++ r.shape.label] ++ extension ++ note ∧
    (∀ s, extension = ["    extends " ++ s] ↔ r.superclass = some s) ∧
    (extension = [] ↔ r.superclass = none) ∧
    (note = ["    note: class is declared but never returned"] ↔ NeverReturns r.shape) ∧
    (note = [] ↔ ¬NeverReturns r.shape)

/-- The part of a report about a file. -/
structure FileSection where
  heading : String
  entries : List (List String)

def FileSection.lines (s : FileSection) : List String := s.heading :: s.entries.flatten ++ [""]

structure IsSectionOf (f : FileMixins) (s : FileSection) : Prop where
  heading : s.heading = f.path.text
  entries : List.Forall₂ IsEntryOf f.mixins s.entries

/-- The report shows the catalog: its files that have mixins, in order, and the totals. -/
def Shows (c : Catalog) (report : String) : Prop :=
  ∃ (sections : List FileSection) (failures : List String),
    report = text ((["Mixin Catalog", "=============", ""] ++ sections.flatMap FileSection.lines
      ++ ["Found " ++ decimal c.totalMixins ++ " mixins in " ++ decimal c.filesAnalyzed ++ " files"]
      ++ failures).map .line) ∧
    List.Forall₂ IsSectionOf (c.files.filter (!·.mixins.isEmpty)) sections ∧
    (sections.flatMap (·.entries)).length = c.totalMixins ∧
    (failures = [decimal (c.files.filter (·.hasParseErrors)).length ++ " files had syntax errors"] ↔
      ∃ f ∈ c.files, f.hasParseErrors) ∧
    (failures = [] ↔ ∀ f ∈ c.files, ¬f.hasParseErrors)

private theorem isEntryOf_terminalMixin (r : MixinRecord) :
    IsEntryOf r (terminalMixin false r) := by
  refine ⟨r.superclass.toList.map ("    extends " ++ ·),
    if r.shape.isImplicitReturn then ["    note: class is declared but never returned"] else [],
    ?_, ?_, ?_, ?_, ?_⟩
  · have hnote : "    " ++ "note: class is declared but never returned" =
        "    note: class is declared but never returned" := by decide
    cases hs : r.superclass <;> simp [terminalMixin, paint, hnote, hs]
  · intro s
    cases r.superclass <;> simp
  · cases r.superclass <;> simp
  · rw [← isImplicitReturn_iff]
    split <;> simp_all
  · rw [← isImplicitReturn_iff]
    split <;> simp_all

def terminalSection (f : FileMixins) : FileSection :=
  ⟨f.path.text, f.mixins.map (terminalMixin false)⟩

private theorem lines_terminalSection (f : FileMixins) :
    (terminalSection f).lines = terminalFile false f := by
  rw [FileSection.lines, terminalSection, terminalFile, List.flatMap_def]
  rfl

private theorem isSectionOf_terminalSection (f : FileMixins) :
    IsSectionOf f (terminalSection f) where
  heading := rfl
  entries := by
    rw [terminalSection, List.forall₂_map_right_iff, List.forall₂_same]
    exact fun r _ => isEntryOf_terminalMixin r

private theorem length_entries {files : List FileMixins} {sections : List FileSection}
    (h : List.Forall₂ IsSectionOf (files.filter (!·.mixins.isEmpty)) sections) :
    (sections.flatMap (·.entries)).length =
      files.foldr (fun f total => f.mixins.length + total) 0 := by
  induction files generalizing sections with
  | nil =>
    cases h
    rfl
  | cons f files ih =>
    by_cases hf : f.mixins = []
    · rw [List.filter_cons_of_neg (by simp [hf])] at h
      simpa [hf] using ih h
    · rw [List.filter_cons_of_pos (by simp [hf])] at h
      cases h with
      | cons hsection hrest =>
        rw [List.flatMap_cons, List.length_append, ih hrest, ← hsection.entries.length_eq,
          List.foldr_cons]

private theorem shows_render (c : Catalog) : Shows c (render .terminal false c) := by
  have hsections : List.Forall₂ IsSectionOf (c.files.filter (!·.mixins.isEmpty))
      ((c.files.filter (!·.mixins.isEmpty)).map terminalSection) := by
    rw [List.forall₂_map_right_iff, List.forall₂_same]
    exact fun f _ => isSectionOf_terminalSection f
  refine ⟨_, if c.files.countP (·.hasParseErrors) > 0 then
    [decimal (c.files.countP (·.hasParseErrors)) ++ " files had syntax errors"] else [], ?_,
    hsections, length_entries hsections, ?_, ?_⟩
  · rw [render_terminal, terminalLines, List.flatMap_map]
    simp only [lines_terminalSection]
    rfl
  · rw [← List.countP_eq_length_filter, ← List.countP_pos_iff]
    split <;> simp_all
  · rw [← List.countP_eq_zero]
    split <;> simp_all

/-- A report with styles is the report without them, once its escape sequences are taken out. The
report without styles has a section for each file with mixins, in order, and in it an entry for each
mixin, in order; then come the number of mixins and, if there are any, of files with syntax
errors. -/
theorem terminal_report_shows_catalog (c : Catalog) :
    Shows c (render .terminal false c) ∧
    ((∀ s ∈ c.strings, '\x1b' ∉ s.toList) →
      eraseStyles (render .terminal true c) = render .terminal false c ∧
        '\x1b' ∉ (render .terminal false c).toList) := by
  refine ⟨shows_render c, fun h => ?_⟩
  have hreport := erases_render h
  exact ⟨hreport.eraseStyles_eq, hreport.escapeFree⟩

/-- A file with a mixin whose class is never returned, and one that cannot be read as a whole. -/
def sampleListing : Catalog where
  projectPath := ⟨"src"⟩
  filesAnalyzed := 2
  files :=
    [⟨⟨"src/a.js"⟩, .javaScript, false,
        [⟨some "M", some "C", .functionClassDeclaration false, ["base"], some "base", false,
          ⟨"src/a.js"⟩, 1, 1, 2⟩]⟩,
      ⟨⟨"src/b.js"⟩, .javaScript, true, []⟩]

theorem sampleListing_shown :
    (∀ s ∈ sampleListing.strings, '\x1b' ∉ s.toList) ∧
    '\x1b' ∈ (render .terminal true sampleListing).toList ∧
    eraseStyles (render .terminal true sampleListing) =
      "Mixin Catalog\n=============\n\nsrc/a.js\n  M(base) -> C\n    at src/a.js:1:1\n" ++
      "    form function with class declaration (implicit return)\n    extends base\n" ++
      "    note: class is declared but never returned\n\nFound 1 mixins in 2 files\n" ++
      "1 files had syntax errors\n" := by
  have hstrings : ∀ s ∈ sampleListing.strings, '\x1b' ∉ s.toList := by decide
  have hstyled : '\x1b' ∈ (render .terminal true sampleListing).toList := by
    simp [render_terminal, terminalLines, paint, sequence, Step.line, Step.text]
  refine ⟨hstrings, hstyled, ?_⟩
  rw [((terminal_report_shows_catalog sampleListing).2 hstrings).1]
  decide +kernel

end Report

end MixinCatalog
