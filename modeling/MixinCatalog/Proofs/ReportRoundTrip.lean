import MixinCatalog.Proofs.JsonReading
import MixinCatalog.Report.Writer

/-!
# Reports that are read back

A catalog is written as JSON and read again. Each part of a catalog has a plain JSON value, and its
reader takes that value back; together with the reading of printed values this makes the report a
faithful copy of the catalog.
-/

namespace MixinCatalog

/-! ### Numbers and lists -/

namespace Json

private theorem nat?_ofNat {n : Nat} (h : n < UInt64.size) : (ofNat n).nat? = some n := by
  have hdigits : (Nat.toDigits 10 n).all Char.isDigit = true :=
    List.all_eq_true.mpr isDigit_of_mem_toDigits
  have hvalue : (Nat.toDigits 10 n).foldl (fun n d => 10 * n + (d.toNat - '0'.toNat)) 0 = n :=
    Nat.ofDigitChars_eq_foldl.symm.trans Nat.ofDigitChars_ten_toDigits
  have hne : (Nat.toDigits 10 n).isEmpty = false := by simp
  have hlt : n < Nat.pow 2 64 := h
  simp only [nat?, ofNat, String.toList_ofList, hdigits, hne, hvalue, hlt, Bool.not_false,
    Bool.and_self, if_true]

private theorem optionString?_ofOption (s : Option String) :
    (ofOption .string s).optionString? = some s := by
  cases s <;> rfl

private theorem listOf?_map {α : Type} {read : Json → Option α} {write : α → Json} {xs : List α}
    (h : ∀ x ∈ xs, read (write x) = some x) : listOf? read (.array (xs.map write)) = some xs := by
  rw [listOf?]
  induction xs with
  | nil => rfl
  | cons x xs ih =>
    rw [List.map_cons, List.mapM_cons, h x List.mem_cons_self,
      ih fun y hy => h y (List.mem_cons_of_mem x hy)]
    rfl

private theorem isPlain_ofOption (s : Option String) : (ofOption .string s).IsPlain := by
  cases s with
  | none => exact .null
  | some s => exact .string s

private theorem isPlain_array_map {α : Type} {write : α → Json} (h : ∀ x, (write x).IsPlain)
    (xs : List α) : (Json.array (xs.map write)).IsPlain := by
  apply IsPlain.array
  intro j hj
  obtain ⟨x, _, rfl⟩ := List.mem_map.mp hj
  exact h x

end Json

/-! ### Counts -/

/-- All positions of a record are below `2^64`. -/
def MixinRecord.CountsFit (r : MixinRecord) : Prop :=
  r.line < UInt64.size ∧ r.column < UInt64.size ∧ r.classLine < UInt64.size

instance (r : MixinRecord) : Decidable r.CountsFit := inferInstanceAs (Decidable (_ ∧ _ ∧ _))

/-- All numbers in a catalog are below `2^64`. -/
def Catalog.CountsFit (c : Catalog) : Prop :=
  c.filesAnalyzed < UInt64.size ∧ ∀ f ∈ c.files, ∀ r ∈ f.mixins, r.CountsFit

instance (c : Catalog) : Decidable c.CountsFit := inferInstanceAs (Decidable (_ ∧ _))

/-! ### Parts of a catalog -/

private theorem Shape.ofJson?_toJson (s : Shape) : Shape.ofJson? s.toJson = some s := by
  cases s <;> rfl

private theorem Shape.isPlain_toJson (s : Shape) : s.toJson.IsPlain := by
  have hobject {key : String} {j : Json} (hj : j.IsPlain) : (Json.object [(key, j)]).IsPlain := by
    apply Json.IsPlain.object
    simpa using hj
  cases s with
  | expressionBody | blockReturnExpression | functionReturnExpression => exact .string _
  | blockClassDeclaration b | functionClassDeclaration b => exact hobject (hobject (.bool b))

private theorem MixinRecord.ofJson?_toJson {r : MixinRecord} (h : r.CountsFit) :
    MixinRecord.ofJson? r.toJson = some r := by
  obtain ⟨hline, hcolumn, hclassLine⟩ := h
  have hfields : r.toJson.fields? MixinRecord.keys =
      some [.ofOption .string r.name, .ofOption .string r.className, r.shape.toJson,
        .array (r.parameters.map .string), .ofOption .string r.superclass, .bool r.exported,
        .string r.file.text, .ofNat r.line, .ofNat r.column, .ofNat r.classLine] := rfl
  have hparameters : Json.listOf? Json.string? (.array (r.parameters.map .string)) =
      some r.parameters := Json.listOf?_map fun _ _ => rfl
  simp [MixinRecord.ofJson?, hfields, Json.optionString?_ofOption, Shape.ofJson?_toJson,
    hparameters, Json.nat?_ofNat, hline, hcolumn, hclassLine, Json.bool?, Json.path?, Json.string?]

private theorem MixinRecord.isPlain_toJson (r : MixinRecord) : r.toJson.IsPlain := by
  apply Json.IsPlain.object
  have hparameters := Json.isPlain_array_map Json.IsPlain.string r.parameters
  simp only [List.forall_mem_cons]
  exact ⟨Json.isPlain_ofOption _, Json.isPlain_ofOption _, r.shape.isPlain_toJson, hparameters,
    Json.isPlain_ofOption _, .bool _, .string _, .ofNat _, .ofNat _, .ofNat _, by simp⟩

private theorem FileMixins.ofJson?_toJson {f : FileMixins} (h : ∀ r ∈ f.mixins, r.CountsFit) :
    FileMixins.ofJson? f.toJson = some f := by
  have hfields : f.toJson.fields? FileMixins.keys =
      some [.string f.path.text, .string f.language.label, .bool f.hasParseErrors,
        .array (f.mixins.map MixinRecord.toJson)] := rfl
  have hmixins : Json.listOf? MixinRecord.ofJson? (.array (f.mixins.map MixinRecord.toJson)) =
      some f.mixins := Json.listOf?_map fun r hr => MixinRecord.ofJson?_toJson (h r hr)
  simp [FileMixins.ofJson?, hfields, hmixins, Language.ofJson?, Language.ofLabel?_label, Json.bool?,
    Json.path?, Json.string?]

private theorem FileMixins.isPlain_toJson (f : FileMixins) : f.toJson.IsPlain := by
  apply Json.IsPlain.object
  simp only [List.forall_mem_cons]
  exact ⟨.string _, .string _, .bool _,
    Json.isPlain_array_map MixinRecord.isPlain_toJson f.mixins, by simp⟩

private theorem Catalog.ofJson?_toJson {c : Catalog} (h : c.CountsFit) :
    Catalog.ofJson? c.toJson = some c := by
  have hfields : c.toJson.fields? Catalog.keys =
      some [.string c.projectPath.text, .ofNat c.filesAnalyzed,
        .array (c.files.map FileMixins.toJson)] := rfl
  have hfiles : Json.listOf? FileMixins.ofJson? (.array (c.files.map FileMixins.toJson)) =
      some c.files := Json.listOf?_map fun f hf => FileMixins.ofJson?_toJson (h.2 f hf)
  simp [Catalog.ofJson?, hfields, hfiles, Json.nat?_ofNat h.1, Json.path?, Json.string?]

private theorem Catalog.isPlain_toJson (c : Catalog) : c.toJson.IsPlain := by
  apply Json.IsPlain.object
  simp only [List.forall_mem_cons]
  exact ⟨.string _, .ofNat _, Json.isPlain_array_map FileMixins.isPlain_toJson c.files, by simp⟩

/-! ### Reports -/

/-- The report in JSON denotes the catalog that it was made of, and a report made of what it denotes
is the same text. -/
theorem json_report_reads_back (c : Catalog) (h : c.CountsFit) :
    ∃ text, (∀ color, Report.memory.run (Report.steps .json color c) "" = .ok text) ∧
      Catalog.ofText? text = some c ∧
      ∀ c', Catalog.ofText? text = some c' →
        ∀ color, Report.memory.run (Report.steps .json color c') "" = .ok text := by
  have hwritten (color : Bool) : Report.memory.run (Report.steps .json color c) "" =
      .ok (c.toJson.pretty ++ "\n") := by
    simp [Report.run_memory, Report.steps, Report.json, Report.Step.text]
  have hread : Catalog.ofText? (c.toJson.pretty ++ "\n") = some c := by
    rw [Catalog.ofText?, c.isPlain_toJson.parse?_pretty_line, Option.bind_some,
      Catalog.ofJson?_toJson h]
  refine ⟨c.toJson.pretty ++ "\n", hwritten, hread, ?_⟩
  intro c' hc'
  obtain rfl : c = c' := Option.some.inj (hread.symm.trans hc')
  exact hwritten

/-- A catalog with quotes, a backslash, control characters and letters outside ASCII in its texts,
the greatest number, and a file without mixins. -/
def sampleCatalog : Catalog where
  projectPath := ⟨"C:\\src \"x\""⟩
  filesAnalyzed := UInt64.size - 1
  files :=
    [⟨⟨"a\n\x01.js"⟩, .javaScript, true,
      [{ name := some "Größe", className := none, shape := .blockClassDeclaration false,
         parameters := ["base", "\x1f\t\x7f", ""], superclass := some "😀", exported := true,
         file := ⟨"a\n\x01.js"⟩, line := 3, column := 10, classLine := 0 }]⟩,
      ⟨⟨""⟩, .unknown, false, []⟩]

/-- The sample is read back from its report. -/
theorem sampleCatalog_reads_back :
    sampleCatalog.CountsFit ∧ ∃ text,
      (∀ color, Report.memory.run (Report.steps .json color sampleCatalog) "" = .ok text) ∧
      Catalog.ofText? text = some sampleCatalog := by
  have hfit : sampleCatalog.CountsFit := by decide
  obtain ⟨text, hwritten, hread, _⟩ := json_report_reads_back sampleCatalog hfit
  exact ⟨hfit, text, hwritten, hread⟩

end MixinCatalog
