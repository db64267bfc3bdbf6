import Mathlib.Data.List.Forall2
import MixinCatalog.Catalog.Project
import MixinCatalog.Report.Writer

/-!
# The Markdown report as a table

A row of the table shows texts from source files as they are. A line feed in one of them ends the
row early, and a pipe that no backslash escapes opens one more cell. So the report is the table that
its head announces if and only if no text that it shows has either.
-/

namespace MixinCatalog

namespace Report

/-! ### Lines -/

/-- The lines of a text in which every line is ended. -/
def lines (s : String) : List (List Char) := (Text.split '\n' s.toList).dropLast

private theorem lines_text_line (ls : List String) :
    lines (text (ls.map Step.line)) = ls.flatMap fun l => Text.split '\n' l.toList := by
  have hsplit : Text.split '\n' (text (ls.map Step.line)).toList =
      (ls.flatMap fun l => Text.split '\n' l.toList) ++ [[]] := by
    induction ls with
    | nil => rfl
    | cons l ls ih =>
      rw [List.map_cons, text_cons, Step.line, Step.text, String.toList_append,
        String.toList_append, List.append_assoc, List.flatMap_cons, List.append_assoc, ← ih]
      exact Text.split_append '\n' _ _
  rw [lines, hsplit, List.dropLast_concat]

theorem lines_text_line_eq_iff (ls : List String) :
    lines (text (ls.map Step.line)) = ls.map String.toList ↔ ∀ l ∈ ls, '\n' ∉ l.toList := by
  rw [lines_text_line]
  induction ls with
  | nil => simp
  | cons l ls ih =>
    rw [List.flatMap_cons, List.map_cons, List.forall_mem_cons, ← ih]
    constructor
    · intro h
      -- the first line that is shown is the whole text, so the text is one line
      have hfirst : l.toList ∈ Text.split '\n' l.toList := by
        cases hs : Text.split '\n' l.toList with
        | nil => exact absurd hs (Text.split_ne_nil '\n' _)
        | cons s ss =>
          rw [hs] at h
          simp [(List.cons.inj h).1]
      have hl := Text.notMem_of_mem_split hfirst
      rw [Text.split_of_notMem hl] at h
      exact ⟨hl, (List.cons.inj h).2⟩
    · rintro ⟨hl, hls⟩
      rw [Text.split_of_notMem hl, hls]
      rfl

/-! ### Cells -/

/-- A character in front of the first cell. -/
def ontoFirst (c : Char) : List (List Char) → List (List Char)
  | [] => [[c]]
  | s :: ss => (c :: s) :: ss

/-- The stretches between the pipes of a line. A backslash takes away the meaning of the character
behind it; `escaped` says that one stands in front of the line. -/
def cellsFrom (escaped : Bool) : List Char → List (List Char)
  | [] => [[]]
  | c :: cs =>
    if !escaped && c == '|' then [] :: cellsFrom false cs
    else ontoFirst c (cellsFrom (!escaped && c == '\x5c') cs)

def cells (line : List Char) : List (List Char) := cellsFrom false line

/-- Whether a pipe stands in a text that no backslash escapes. -/
def hasPipeFrom (escaped : Bool) : List Char → Bool
  | [] => false
  | c :: cs => (!escaped && c == '|') || hasPipeFrom (!escaped && c == '\x5c') cs

def hasPipe (cs : List Char) : Bool := hasPipeFrom false cs

/-- A character that neither ends a line nor has a meaning in a row. -/
def IsNeutral (c : Char) : Prop := c ≠ '\n' ∧ c ≠ '|' ∧ c ≠ '\x5c'

instance (c : Char) : Decidable (IsNeutral c) := inferInstanceAs (Decidable (_ ∧ _ ∧ _))

private theorem cellsFrom_ne_nil (escaped : Bool) (cs : List Char) : cellsFrom escaped cs ≠ [] := by
  cases cs with
  | nil => simp [cellsFrom]
  | cons c cs =>
    rw [cellsFrom]
    split
    · simp
    · cases cellsFrom (!escaped && c == '\x5c') cs <;> simp [ontoFirst]

private theorem cellsFrom_of_not_hasPipeFrom {escaped : Bool} {cs : List Char}
    (h : hasPipeFrom escaped cs = false) : cellsFrom escaped cs = [cs] := by
  induction cs generalizing escaped with
  | nil => rfl
  | cons c cs ih =>
    rw [hasPipeFrom, Bool.or_eq_false_iff] at h
    rw [cellsFrom, h.1, ih h.2]
    rfl

private theorem hasPipeFrom_of_cellsFrom {escaped : Bool} {cs first : List Char}
    {rest : List (List Char)} (h : cellsFrom escaped cs = first :: rest) :
    hasPipeFrom escaped first = false ∧ ∀ s ∈ rest, hasPipe s = false := by
  induction cs generalizing escaped first rest with
  | nil =>
    obtain ⟨rfl, rfl⟩ := List.cons.inj h
    simp [hasPipeFrom]
  | cons c cs ih =>
    rw [cellsFrom] at h
    cases hnext : cellsFrom (!escaped && c == '\x5c') cs with
    | nil => exact absurd hnext (cellsFrom_ne_nil _ cs)
    | cons s ss =>
      split at h
      next hpipe =>
        obtain ⟨rfl, rfl⟩ := List.cons.inj h
        refine ⟨rfl, ?_⟩
        intro t ht
        cases hrest : cellsFrom false cs with
        | nil => exact absurd hrest (cellsFrom_ne_nil false cs)
        | cons u us =>
          obtain ⟨hu, hus⟩ := ih hrest
          rw [hrest, List.mem_cons] at ht
          rcases ht with rfl | ht
          · exact hu
          · exact hus t ht
      next hplain =>
        rw [hnext, ontoFirst] at h
        obtain ⟨rfl, rfl⟩ := List.cons.inj h
        obtain ⟨hs, hss⟩ := ih hnext
        refine ⟨?_, hss⟩
        rw [hasPipeFrom, hs, Bool.or_false]
        simpa using hplain

private theorem hasPipe_of_mem_cells {line s : List Char} (h : s ∈ cells line) :
    hasPipe s = false := by
  unfold cells at h
  cases hcells : cellsFrom false line with
  | nil => simp [hcells] at h
  | cons first rest =>
    obtain ⟨hfirst, hrest⟩ := hasPipeFrom_of_cellsFrom hcells
    rw [hcells, List.mem_cons] at h
    rcases h with rfl | h
    · exact hfirst
    · exact hrest s h

theorem hasPipeFrom_append {c : Char} (hc : IsNeutral c) (escaped : Bool) (a b : List Char) :
    hasPipeFrom escaped (a ++ c :: b) = (hasPipeFrom escaped a || hasPipe b) := by
  induction a generalizing escaped with
  | nil =>
    obtain ⟨-, hpipe, hbackslash⟩ := hc
    simp [hasPipeFrom, hasPipe, beq_eq_false_iff_ne.mpr hpipe, beq_eq_false_iff_ne.mpr hbackslash]
  | cons x a ih => rw [List.cons_append, hasPipeFrom, hasPipeFrom, ih, Bool.or_assoc]

theorem cellsFrom_append (escaped : Bool) (a b : List Char) :
    cellsFrom escaped (a ++ ' ' :: '|' :: b) = cellsFrom escaped (a ++ [' ']) ++ cells b := by
  induction a generalizing escaped with
  | nil => cases escaped <;> simp [cellsFrom, ontoFirst, cells]
  | cons x a ih =>
    rw [List.cons_append, List.cons_append, cellsFrom, cellsFrom]
    split
    · rw [ih]
      rfl
    · rw [ih]
      cases hnext : cellsFrom (!escaped && x == '\x5c') (a ++ [' ']) with
      | nil => exact absurd hnext (cellsFrom_ne_nil _ _)
      | cons s ss => rfl

/-! ### Texts that fit into a cell -/

/-- A text neither ends the line nor opens a cell. -/
def Fits (cs : List Char) : Prop := '\n' ∉ cs ∧ hasPipe cs = false

instance (cs : List Char) : Decidable (Fits cs) := inferInstanceAs (Decidable (_ ∧ _))

theorem fits_append_iff {c : Char} (hc : IsNeutral c) (a b : List Char) :
    Fits (a ++ c :: b) ↔ Fits a ∧ Fits b := by
  unfold Fits
  rw [hasPipe, hasPipeFrom_append hc, Bool.or_eq_false_iff, List.mem_append, List.mem_cons, hasPipe]
  have hline := hc.1.symm
  tauto

private theorem fits_of_forall_isNeutral {cs : List Char} (h : ∀ c ∈ cs, IsNeutral c) :
    Fits cs := by
  induction cs with
  | nil => decide
  | cons c cs ih =>
    have hc := h c List.mem_cons_self
    have hcs := ih fun d hd => h d (List.mem_cons_of_mem c hd)
    exact (fits_append_iff hc [] cs).mpr ⟨by decide, hcs⟩

private theorem isNeutral_of_mem_decimal {n : Nat} {c : Char} (h : c ∈ (decimal n).toList) :
    IsNeutral c := by
  have hdigit : c.isDigit = true := by
    rw [decimal, String.toList_ofList] at h
    exact Nat.isDigit_of_mem_toDigits (by decide) (by decide) h
  refine ⟨?_, ?_, ?_⟩ <;>
  · rintro rfl
    exact absurd hdigit (by decide)

/-- A cell of a row, with the blanks around its text. -/
def padded (s : String) : List Char := ' ' :: s.toList ++ [' ']

theorem fits_padded_iff (s : String) : Fits (padded s) ↔ Fits s.toList := by
  have hblank : IsNeutral ' ' := by decide
  have hfront := fits_append_iff hblank [] (s.toList ++ [' '])
  have hback := fits_append_iff hblank s.toList []
  have hempty : Fits [] := by decide
  rw [padded, List.cons_append, ← List.nil_append (' ' :: _), hfront, hback]
  tauto

/-! ### Rows -/

/-- What the five cells of a row show. -/
def rowCells (r : MixinRecord) : List String :=
  [displayName r.name, displayName r.className, r.shape.label, parameterList r,
    r.file.text ++ ":" ++ decimal r.line]

/-- The texts of a record that come from outside and that its row shows. -/
def shownTexts (r : MixinRecord) : List String :=
  r.name.toList ++ r.className.toList ++ r.parameters ++ [r.file.text]

private theorem toList_markdownRow (r : MixinRecord) :
    (markdownRow r).toList = '|' :: (rowCells r).flatMap fun s => padded s ++ ['|'] := by
  have hrow : markdownRow r =
      "| " ++ displayName r.name ++ " | " ++ displayName r.className ++ " | " ++ r.shape.label
        ++ " | " ++ parameterList r ++ " | " ++ r.file.text ++ ":" ++ decimal r.line ++ " |" := rfl
  rw [hrow]
  simp [rowCells, padded]

private theorem cells_flatMap_padded (texts : List String) :
    cells (texts.flatMap fun s => padded s ++ ['|']) =
      texts.flatMap (fun s => cells (padded s)) ++ [[]] := by
  induction texts with
  | nil => rfl
  | cons s texts ih =>
    have hsplit := cellsFrom_append false (' ' :: s.toList)
      (texts.flatMap fun s => padded s ++ ['|'])
    simp only [List.flatMap_cons, padded, List.cons_append, List.append_assoc, List.nil_append,
      cells] at ih hsplit ⊢
    rw [hsplit, ih]

private theorem cells_markdownRow (r : MixinRecord) :
    cells (markdownRow r).toList =
      [] :: (rowCells r).flatMap (fun s => cells (padded s)) ++ [[]] := by
  rw [toList_markdownRow, List.cons_append, ← cells_flatMap_padded]
  rfl

theorem fits_displayName_iff (name : Option String) :
    Fits (displayName name).toList ↔ ∀ s ∈ name, Fits s.toList := by
  cases name with
  | none =>
    have hanonymous : Fits "<anonymous>".toList := by decide
    simpa [displayName] using hanonymous
  | some s => simp [displayName]

private theorem fits_label (shape : Shape) : Fits shape.label.toList := by
  cases shape with
  | blockClassDeclaration explicitReturn => cases explicitReturn <;> decide
  | functionClassDeclaration explicitReturn => cases explicitReturn <;> decide
  | _ => decide

theorem fits_parameterList_iff (ps : List String) :
    Fits (", ".intercalate ps).toList ↔ ∀ p ∈ ps, Fits p.toList := by
  have hcomma : IsNeutral ',' := by decide
  have hblank : IsNeutral ' ' := by decide
  have hempty : Fits [] := by decide
  induction ps with
  | nil => simpa using hempty
  | cons p ps ih =>
    cases ps with
    | nil => simp
    | cons q qs =>
      have hsplit : (", ".intercalate (p :: q :: qs)).toList =
          p.toList ++ ',' :: ([] ++ ' ' :: (", ".intercalate (q :: qs)).toList) := by
        simp
      rw [hsplit, fits_append_iff hcomma, fits_append_iff hblank, List.forall_mem_cons]
      exact and_congr_right' ((and_iff_right hempty).trans ih)

theorem fits_location_iff (file : String) (line : Nat) :
    Fits (file ++ ":" ++ decimal line).toList ↔ Fits file.toList := by
  have hcolon : IsNeutral ':' := by decide
  have hnumber : Fits (decimal line).toList :=
    fits_of_forall_isNeutral fun _ => isNeutral_of_mem_decimal
  have hsplit : (file ++ ":" ++ decimal line).toList =
      file.toList ++ ':' :: (decimal line).toList := by
    simp
  rw [hsplit, fits_append_iff hcolon]
  tauto

theorem fits_rowCells_iff (r : MixinRecord) :
    (∀ s ∈ rowCells r, Fits s.toList) ↔ ∀ t ∈ shownTexts r, Fits t.toList := by
  have hlabel := fits_label r.shape
  simp only [rowCells, shownTexts, List.forall_mem_cons, List.forall_mem_append,
    fits_displayName_iff, fits_location_iff, parameterList, fits_parameterList_iff,
    Option.mem_toList]
  simp [hlabel, and_assoc]

/-- A line is the row of a record: it divides into the five cells. -/
def IsRowOf (r : MixinRecord) (line : List Char) : Prop :=
  line = (markdownRow r).toList ∧ cells line = [] :: (rowCells r).map padded ++ [[]]

theorem isRowOf_iff (r : MixinRecord) :
    IsRowOf r (markdownRow r).toList ∧ '\n' ∉ (markdownRow r).toList ↔
      ∀ t ∈ shownTexts r, Fits t.toList := by
  rw [← fits_rowCells_iff]
  constructor
  · rintro ⟨⟨-, hcells⟩, hline⟩ s hs
    rw [← fits_padded_iff]
    constructor
    · intro hbreak
      refine hline ?_
      rw [toList_markdownRow]
      exact List.mem_cons_of_mem _ (List.mem_flatMap.mpr ⟨s, hs, List.mem_append_left _ hbreak⟩)
    · have hcell : padded s ∈ cells (markdownRow r).toList := by
        rw [hcells]
        simp only [List.cons_append, List.mem_cons, List.mem_append, List.mem_map]
        exact .inr (.inl ⟨s, hs, rfl⟩)
      exact hasPipe_of_mem_cells hcell
  · intro hfits
    have hpadded : ∀ s ∈ rowCells r, Fits (padded s) := by
      intro s hs
      exact (fits_padded_iff s).mpr (hfits s hs)
    refine ⟨⟨rfl, ?_⟩, ?_⟩
    · have hone : (rowCells r).flatMap (fun s => cells (padded s)) = (rowCells r).map padded := by
        rw [List.map_eq_flatMap]
        refine List.flatMap_congr ?_
        intro s hs
        exact cellsFrom_of_not_hasPipeFrom (hpadded s hs).2
      rw [cells_markdownRow, hone]
    · rw [toList_markdownRow, List.mem_cons, List.mem_flatMap]
      rintro (hbar | ⟨s, hs, hmem⟩)
      · exact absurd hbar (by decide)
      · rw [List.mem_append] at hmem
        rcases hmem with hmem | hbar
        · exact (hpadded s hs).1 hmem
        · exact absurd hbar (by decide)

/-! ### The whole report -/

def heading (c : Catalog) : List String :=
  ["# Mixin Catalog", "",
    decimal c.totalMixins ++ " mixins in " ++ decimal c.filesAnalyzed ++ " files under \x60"
      ++ c.projectPath.text ++ "\x60"]

/-- What stands between the heading and the rows. -/
def tableHead : List String :=
  ["", "| Mixin | Class | Form | Parameters | Location |",
    "|-------|-------|------|------------|----------|"]

/-- What is written, line by line. -/
def markdownLines (c : Catalog) : List String :=
  heading c ++ if c.totalMixins = 0 then [] else tableHead ++ c.mixins.map markdownRow

/-- The lines of a report are a heading and a table with one row for each mixin, in order. Without
mixins there is no table. -/
inductive IsTabulated (c : Catalog) : List (List Char) → Prop
  | empty : c.totalMixins = 0 → IsTabulated c ((heading c).map String.toList)
  | table {rows : List (List Char)} : c.totalMixins ≠ 0 → rows.length = c.totalMixins →
      List.Forall₂ IsRowOf c.mixins rows →
      IsTabulated c ((heading c ++ tableHead).map String.toList ++ rows)

private theorem text_markdown (c : Catalog) :
    text (markdown c) = text ((markdownLines c).map Step.line) := by
  have hsteps : markdown c =
      if c.totalMixins = 0 then (heading c).map Step.line
      else (heading c).map Step.line ++ tableHead.map Step.line
        ++ c.mixins.map (fun r => Step.line (markdownRow r)) ++ [.flush] := rfl
  rw [hsteps, markdownLines]
  split
  · rw [List.append_nil]
  · simp [Step.text, Function.comp_def]

theorem notMem_heading_iff (c : Catalog) :
    (∀ l ∈ heading c, '\n' ∉ l.toList) ↔ '\n' ∉ c.projectPath.text.toList := by
  have hnumber (n : Nat) : '\n' ∉ (decimal n).toList := fun h => (isNeutral_of_mem_decimal h).1 rfl
  simp [heading, hnumber]

private theorem notMem_tableHead : ∀ l ∈ tableHead, '\n' ∉ l.toList := by
  decide

theorem forall₂_isRowOf_iff {rs : List MixinRecord} {rows : List (List Char)} :
    List.Forall₂ IsRowOf rs rows ↔
      rows = rs.map (fun r => (markdownRow r).toList) ∧
        ∀ r ∈ rs, IsRowOf r (markdownRow r).toList := by
  induction rs generalizing rows with
  | nil => simp
  | cons r rs ih =>
    rw [List.forall₂_cons_left_iff]
    constructor
    · rintro ⟨row, others, hrow, hothers, rfl⟩
      obtain ⟨rfl, hrs⟩ := ih.mp hothers
      have hline : row = (markdownRow r).toList := hrow.1
      rw [hline] at hrow ⊢
      exact ⟨rfl, List.forall_mem_cons.mpr ⟨hrow, hrs⟩⟩
    · rintro ⟨rfl, hall⟩
      obtain ⟨hr, hrs⟩ := List.forall_mem_cons.mp hall
      exact ⟨_, _, hr, ih.mpr ⟨rfl, hrs⟩, rfl⟩

private theorem IsTabulated.eq_markdownLines {c : Catalog} {report : List (List Char)}
    (h : IsTabulated c report) :
    report = (markdownLines c).map String.toList ∧
      ∀ r ∈ c.mixins, IsRowOf r (markdownRow r).toList := by
  cases h with
  | empty htotal =>
    have hnone : c.mixins = [] := List.length_eq_zero_iff.mp (c.length_mixins.trans htotal)
    simp [markdownLines, htotal, hnone]
  | table htotal _ hrows =>
    obtain ⟨rfl, hall⟩ := forall₂_isRowOf_iff.mp hrows
    refine ⟨?_, hall⟩
    simp [markdownLines, htotal, Function.comp_def]

private theorem isTabulated_markdownLines {c : Catalog}
    (h : ∀ r ∈ c.mixins, IsRowOf r (markdownRow r).toList) :
    IsTabulated c ((markdownLines c).map String.toList) := by
  unfold markdownLines
  split
  next htotal =>
    rw [List.append_nil]
    exact .empty htotal
  next htotal =>
    rw [← List.append_assoc, List.map_append, List.map_map]
    refine .table htotal ?_ (forall₂_isRowOf_iff.mpr ⟨rfl, h⟩)
    rw [List.length_map, c.length_mixins]

theorem notMem_markdownLines_iff (c : Catalog) :
    (∀ l ∈ markdownLines c, '\n' ∉ l.toList) ↔
      '\n' ∉ c.projectPath.text.toList ∧ ∀ r ∈ c.mixins, '\n' ∉ (markdownRow r).toList := by
  rw [markdownLines, List.forall_mem_append, notMem_heading_iff]
  split
  next htotal =>
    have hnone : c.mixins = [] := List.length_eq_zero_iff.mp (c.length_mixins.trans htotal)
    simp [hnone]
  next =>
    rw [List.forall_mem_append, List.forall_mem_map]
    exact and_congr_right' (and_iff_right notMem_tableHead)

/-- The report shows the heading and, if there are mixins, a table whose rows are written in the
order of the mixins. What can be read from it is this table, with one line and five cells for each
mixin, if and only if no text that it shows has a line feed or, in a row, a pipe that is not
escaped. -/
theorem markdown_tabulates_iff_texts_fit (color : Bool) (c : Catalog) :
    render .markdown color c = text ((markdownLines c).map Step.line) ∧
    (IsTabulated c (lines (render .markdown color c)) ↔
      '\n' ∉ c.projectPath.text.toList ∧
        ∀ r ∈ c.mixins, ∀ t ∈ shownTexts r, Fits t.toList) := by
  have hrender : render .markdown color c = text ((markdownLines c).map Step.line) :=
    text_markdown c
  refine ⟨hrender, ?_⟩
  rw [hrender]
  constructor
  · intro htable
    obtain ⟨hlines, hrows⟩ := htable.eq_markdownLines
    have hbreaks := (lines_text_line_eq_iff _).mp hlines
    obtain ⟨hpath, hmixins⟩ := (notMem_markdownLines_iff c).mp hbreaks
    refine ⟨hpath, ?_⟩
    intro r hr
    exact (isRowOf_iff r).mp ⟨hrows r hr, hmixins r hr⟩
  · rintro ⟨hpath, hfits⟩
    have hrows : ∀ r ∈ c.mixins, IsRowOf r (markdownRow r).toList ∧ '\n' ∉ (markdownRow r).toList :=
      fun r hr => (isRowOf_iff r).mpr (hfits r hr)
    have hbreaks := (notMem_markdownLines_iff c).mpr ⟨hpath, fun r hr => (hrows r hr).2⟩
    rw [(lines_text_line_eq_iff _).mpr hbreaks]
    exact isTabulated_markdownLines fun r hr => (hrows r hr).1

/-! ### Reports of source texts -/

/-- A file whose mixin has a parameter with a pipe and a line feed in its default. -/
def samplePiped : FileSystem where
  entries := [([⟨"m.js", by decide⟩], .file "let M=(\x7ba=1|\n2\x7d)=>class\x7b\x7d".toUTF8)]
  distinct := by decide
  current := []

/-- The catalog of a file with one mixin that has one parameter. -/
def sampleCatalogWith (parameter : String) (classLine : Nat) : Catalog :=
  ⟨⟨"m.js"⟩, 1, [⟨⟨"m.js"⟩, .javaScript, false,
    [⟨some "M", none, .expressionBody, [parameter], none, false, ⟨"m.js"⟩, 1, 1, classLine⟩]⟩]⟩

def sampleSplit : Catalog := sampleCatalogWith "\x7ba=1|\n2\x7d" 2

private theorem catalogProject_samplePiped :
    samplePiped.catalogProject ⟨"m.js"⟩ {} = .ok sampleSplit := by
  have hfiles : samplePiped.projectFiles ⟨"m.js"⟩ {} = .ok [⟨"m.js"⟩] := rfl
  have hread : samplePiped.read ⟨"m.js"⟩ = .ok "let M=(\x7ba=1|\n2\x7d)=>class\x7b\x7d" := rfl
  have hsource : catalogSource ⟨"m.js"⟩ "let M=(\x7ba=1|\n2\x7d)=>class\x7b\x7d" {} ∈
      sampleSplit.files := by decide +kernel
  rw [FileSystem.catalogProject, hfiles]
  simp [Except.map, FileSystem.catalogPaths, FileSystem.sortedEntries, FileSystem.catalogEach,
    FileSystem.catalogFile, hread, Path.sortOn, Except.toOption, List.mem_singleton.mp hsource]
  rfl

/-- The report of the sample has a line too many and its row a cell too many. -/
theorem sampleSplit_not_tabulated :
    samplePiped.catalogProject ⟨"m.js"⟩ {} = .ok sampleSplit ∧
    ¬IsTabulated sampleSplit (lines (render .markdown false sampleSplit)) ∧
    sampleSplit.totalMixins = 1 ∧
    (lines (render .markdown false sampleSplit)).length =
      (heading sampleSplit ++ tableHead).length + 2 ∧
    ∀ r ∈ sampleSplit.mixins, (cells (markdownRow r).toList).length = 8 := by
  have hcells : ∀ r ∈ sampleSplit.mixins, (cells (markdownRow r).toList).length = 8 := by
    decide +kernel
  have hrender : render .markdown false sampleSplit =
      text ((markdownLines sampleSplit).map Step.line) := text_markdown sampleSplit
  refine ⟨catalogProject_samplePiped, ?_, rfl, ?_, hcells⟩
  · intro htable
    have hr := List.mem_singleton_self (sampleSplit.mixins.head (by decide))
    have hrow := htable.eq_markdownLines.2 _ hr
    have hlength := hcells _ hr
    rw [hrow.2] at hlength
    exact absurd hlength (by decide)
  · rw [hrender, lines_text_line]
    decide +kernel

/-- An escaped pipe stays inside its cell. -/
theorem sampleEscaped_tabulated :
    (∀ r ∈ (sampleCatalogWith "\x7ba=/\x5c|/\x7d" 1).mixins, ∀ t ∈ shownTexts r, Fits t.toList) ∧
    IsTabulated (sampleCatalogWith "\x7ba=/\x5c|/\x7d" 1)
      (lines (render .markdown false (sampleCatalogWith "\x7ba=/\x5c|/\x7d" 1))) := by
  have hfits : ∀ r ∈ (sampleCatalogWith "\x7ba=/\x5c|/\x7d" 1).mixins,
      ∀ t ∈ shownTexts r, Fits t.toList := by decide +kernel
  exact ⟨hfits, (markdown_tabulates_iff_texts_fit false _).2.mpr ⟨by decide, hfits⟩⟩

end Report

end MixinCatalog
