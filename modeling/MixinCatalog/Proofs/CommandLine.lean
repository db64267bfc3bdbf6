import Mathlib.Data.List.Induction
import MixinCatalog.Proofs.Spellings

/-!
# Reading command lines

An analysis can be asked for in many ways: the settings may come in any order, lists may be spread
over several options, and every option has more than one spelling. All of them are read alike.

A value that stands alone is looked at late, so what is stored lags behind what has been read. The
two are compared by settling what is pending.
-/

namespace MixinCatalog.Command

/-! ### Reading what is spelled -/

def Given.set (g : Given) : Setting → Except ArgumentError Given
  | .path p => g.store .path p.text.toList
  | .format f => g.store .format f.name.toList
  | .output p => g.store .output p.text.toList
  | .languages names => g.store .languages (",".intercalate names).toList
  | .ignore patterns => g.store .ignore (",".intercalate patterns).toList
  | .noImplicitReturn => g.turnOn .noImplicitReturn
  | .verbose => g.turnOn .verbose

private theorem Given.set_eq_store {s : Setting} {slot : Slot} {value : String}
    (h : s.value? = some (slot, value)) (g : Given) : g.set s = g.store slot value.toList := by
  cases s with
  | noImplicitReturn => cases h
  | verbose => cases h
  | _ =>
    obtain ⟨rfl, rfl⟩ := Prod.mk.inj (Option.some.inj h)
    rfl

/-- Settings that are given one after the other. -/
def Given.setAll (g : Given) (settings : List Setting) : Except ArgumentError Given :=
  settings.foldlM Given.set g

variable {g now after : Given} {p : Pending}

theorem Given.store_eq_ok_iff (slot : Slot) {value : List Char} :
    g.store slot value = .ok now ↔
      match slot with
      | .path => g.path = none ∧ value ≠ [] ∧ now = { g with path := some ⟨String.ofList value⟩ }
      | .format => g.format = none ∧
        ∃ f, ReportFormat.ofName? (String.ofList value) = some f ∧ now = { g with format := some f }
      | .output => g.output = none ∧ value ≠ [] ∧
        now = { g with output := some ⟨String.ofList value⟩ }
      | .languages => now = { g with languages := some (g.languages.getD [] ++ splitList value) }
      | .ignore => now = { g with ignore := some (g.ignore.getD [] ++ splitList value) } := by
  cases slot with
  | path =>
    cases hpath : g.path with
    | some p => simp [store, hpath]
    | none =>
      cases value <;> simp [store, hpath, pathOf, bind, Except.bind, pure, Except.pure, eq_comm]
  | format =>
    cases hformat : g.format with
    | some f => simp [store, hformat]
    | none => cases hname : ReportFormat.ofName? (String.ofList value) <;>
        simp [store, hformat, hname, eq_comm]
  | output =>
    cases houtput : g.output with
    | some p => simp [store, houtput]
    | none =>
      cases value <;> simp [store, houtput, pathOf, bind, Except.bind, pure, Except.pure, eq_comm]
  | languages => simp [store, eq_comm]
  | ignore => simp [store, eq_comm]

theorem pathSeen_eq (hsettle : g.settle p = .ok now) : pathSeen g p = now.path.isSome := by
  cases p with
  | nothing =>
    obtain rfl := Except.ok.inj hsettle
    rfl
  | waits slot => cases hsettle
  | has slot value =>
    have hstore := (Given.store_eq_ok_iff slot).mp hsettle
    cases slot with
    | path =>
      obtain ⟨-, -, rfl⟩ := hstore
      rfl
    | format =>
      obtain ⟨-, f, -, rfl⟩ := hstore
      rfl
    | output =>
      obtain ⟨-, -, rfl⟩ := hstore
      rfl
    | languages =>
      obtain rfl := hstore
      rfl
    | ignore =>
      obtain rfl := hstore
      rfl

private theorem ne_waits_of_settle (hsettle : g.settle p = .ok now) (slot : Slot) :
    p ≠ .waits slot := by
  rintro rfl
  cases hsettle

private theorem Given.setAll_cons {s : Setting} {settings : List Setting} :
    g.setAll (s :: settings) = .ok now ↔
      ∃ next, g.set s = .ok next ∧ next.setAll settings = .ok now := by
  rw [setAll, List.foldlM_cons]
  cases g.set s <;> simp [bind, Except.bind, setAll]

theorem Given.setAll_append {settings others : List Setting} :
    g.setAll (settings ++ others) = .ok now ↔
      ∃ next, g.setAll settings = .ok next ∧ next.setAll others = .ok now := by
  rw [setAll, List.foldlM_append, ← setAll]
  cases g.setAll settings <;> simp [bind, Except.bind, setAll]

private theorem Given.setAll_singleton (g : Given) (s : Setting) : g.setAll [s] = g.set s := by
  simp [setAll]

/-- Arguments are read as settings, whatever stands in front of them and behind them. The reader
need not have stored the last of them yet, so it is said what it has when it settles. -/
def Reads (settings : List Setting) (args : List String) : Prop :=
  ∀ (rest : List String) ⦃g now after : Given⦄ ⦃p : Pending⦄,
    g.settle p = .ok now → now.setAll settings = .ok after →
      ∃ g' p', g'.settle p' = .ok after ∧
        readArguments g p (args ++ rest) = readArguments g' p' rest

private theorem reads_path {path : Path} (hword : IsWord path.text) :
    Reads [.path path] [path.text] := by
  intro rest g now after p hsettle hset
  rw [Given.setAll_singleton] at hset
  have hstore : now.store .path path.text.toList = .ok after := hset
  have hpath : now.path = none := ((Given.store_eq_ok_iff .path).mp hstore).1
  have hseen : pathSeen g p = false := by rw [pathSeen_eq hsettle, hpath, Option.isSome_none]
  refine ⟨now, .has .path path.text.toList, hset, ?_⟩
  rw [List.singleton_append, readArguments, hword.formOf_eq]
  · simp [readWord, hseen, hsettle, bind, Except.bind, pure, Except.pure]
  · exact ne_waits_of_settle hsettle

variable {s : Setting} {slot : Slot} {value name : String} {letter : Char}

private theorem reads_long (hvalue : s.value? = some (slot, value)) (hname : slot.name? = some name)
    (hword : IsWord value) : Reads [s] ["--" ++ name, value] := by
  intro rest g now after p hsettle hset
  rw [Given.setAll_singleton, Given.set_eq_store hvalue] at hset
  refine ⟨now, .has slot value.toList, hset, ?_⟩
  rw [List.cons_append, readArguments, formOf_long hname]
  · simp only [knownLong?_of_name? hname, hsettle, bind, Except.bind]
    rw [List.singleton_append, readArguments, hword.formOf_eq]
  · exact ne_waits_of_settle hsettle

private theorem reads_longEquals (hvalue : s.value? = some (slot, value))
    (hname : slot.name? = some name) : Reads [s] ["--" ++ name ++ "=" ++ value] := by
  intro rest g now after p hsettle hset
  rw [Given.setAll_singleton, Given.set_eq_store hvalue] at hset
  refine ⟨after, .nothing, rfl, ?_⟩
  rw [List.singleton_append, readArguments, formOf_longEquals hname]
  · simp only [knownLong?_of_name? hname, hsettle, hset, bind, Except.bind]
  · exact ne_waits_of_settle hsettle

private theorem reads_switch {argument : String} {switch : Switch}
    (hform : formOf argument.toList = .long name.toList none)
    (hname : knownLong? name.toList = some (.switch switch))
    (hset : ∀ g : Given, g.set s = g.turnOn switch) : Reads [s] [argument] := by
  intro rest g now after p hsettle hturn
  rw [Given.setAll_singleton, hset] at hturn
  refine ⟨after, .nothing, rfl, ?_⟩
  rw [List.singleton_append, readArguments, hform]
  · simp only [hname, hsettle, hturn, bind, Except.bind]
  · exact ne_waits_of_settle hsettle

private theorem exists_readShorts_replicate {times : Nat} (hsettle : g.settle p = .ok now)
    (hset : now.setAll (List.replicate times .verbose) = .ok after) (letters : List Char) :
    ∃ g' p', g'.settle p' = .ok after ∧
      readShorts g p (List.replicate times 'v' ++ letters) = readShorts g' p' letters := by
  induction times generalizing g p now with
  | zero =>
    obtain rfl := Except.ok.inj hset
    exact ⟨g, p, hsettle, rfl⟩
  | succ times ih =>
    rw [List.replicate_succ, Given.setAll_cons] at hset
    obtain ⟨next, hnext, hrest⟩ := hset
    have hnothing : next.settle .nothing = .ok next := rfl
    obtain ⟨g', p', hsettle', hread⟩ := ih hnothing hrest
    refine ⟨g', p', hsettle', ?_⟩
    have hv : knownShort? 'v' = some (.switch .verbose) := rfl
    have hturn : now.turnOn .verbose = .ok next := hnext
    rw [← hread, List.replicate_succ, List.cons_append, readShorts, hv]
    simp only [hsettle, hturn, bind, Except.bind]

private theorem exists_readArguments_bundle {times : Nat} {letters : List Char} (rest : List String)
    (hne : List.replicate times 'v' ++ letters ≠ []) (hletters : letters.head? ≠ some '-')
    (hsettle : g.settle p = .ok now)
    (hset : now.setAll (List.replicate times .verbose) = .ok after) :
    ∃ g' p', g'.settle p' = .ok after ∧ readArguments g p (bundle times letters :: rest) =
      (readShorts g' p' letters).bind fun read => readArguments read.1 read.2 rest := by
  obtain ⟨g', p', hsettle', hread⟩ := exists_readShorts_replicate hsettle hset letters
  refine ⟨g', p', hsettle', ?_⟩
  rw [readArguments, formOf_bundle hne hletters, ← hread]
  · rfl
  · exact ne_waits_of_settle hsettle

private theorem reads_shortVerbose (times : Nat) :
    Reads (List.replicate (times + 1) .verbose) [bundle (times + 1) []] := by
  intro rest g now after p hsettle hset
  exact exists_readArguments_bundle rest (by simp) (by simp) hsettle hset

private theorem reads_short (times : Nat) (hvalue : s.value? = some (slot, value))
    (hletter : slot.letter? = some letter) (hword : IsWord value) :
    Reads (List.replicate times .verbose ++ [s]) [bundle times [letter], value] := by
  intro rest g now after p hsettle hset
  obtain ⟨next, hverbose, hset⟩ := Given.setAll_append.mp hset
  rw [Given.setAll_singleton, Given.set_eq_store hvalue] at hset
  obtain ⟨hknown, hhyphen⟩ := knownShort?_of_letter? hletter
  obtain ⟨g', p', hsettle', hread⟩ := exists_readArguments_bundle (value :: rest)
    (by simp) (by simpa using hhyphen : [letter].head? ≠ some '-') hsettle hverbose
  refine ⟨next, .has slot value.toList, hset, ?_⟩
  rw [List.cons_append, List.singleton_append, hread, readShorts, hknown]
  simp only [hsettle', bind, Except.bind, pure, Except.pure]
  rw [readArguments, hword.formOf_eq]

private theorem reads_bundle (times : Nat) {letters : List Char}
    (hvalue : s.value? = some (slot, value)) (hletter : slot.letter? = some letter)
    (hletters : letters = '=' :: value.toList ∨
      letters = value.toList ∧ value ≠ "" ∧ value.toList.head? ≠ some '=') :
    Reads (List.replicate times .verbose ++ [s]) [bundle times (letter :: letters)] := by
  intro rest g now after p hsettle hset
  obtain ⟨next, hverbose, hset⟩ := Given.setAll_append.mp hset
  rw [Given.setAll_singleton, Given.set_eq_store hvalue] at hset
  obtain ⟨hknown, hhyphen⟩ := knownShort?_of_letter? hletter
  obtain ⟨g', p', hsettle', hread⟩ := exists_readArguments_bundle rest
    (by simp) (by simpa using hhyphen : (letter :: letters).head? ≠ some '-') hsettle hverbose
  have hstored : readShorts g' p' (letter :: letters) = .ok (after, .nothing) := by
    rcases hletters with rfl | ⟨rfl, hne, hequals⟩
    · rw [readShorts, hknown]
      simp only [hsettle', hset, bind, Except.bind, pure, Except.pure]
    · rw [readShorts, hknown]
      simp only [hsettle', bind, Except.bind]
      split
      next hnil => exact absurd (String.toList_eq_nil_iff.mp hnil) hne
      next hcons => simp [hcons] at hequals
      next => simp only [hset, pure, Except.pure]
  refine ⟨after, .nothing, rfl, ?_⟩
  rw [List.singleton_append, hread, hstored]
  rfl

theorem Reads.append {settings others : List Setting} {args rest : List String}
    (hargs : Reads settings args) (hrest : Reads others rest) :
    Reads (settings ++ others) (args ++ rest) := by
  intro behind g now after p hsettle hset
  obtain ⟨next, hnext, hset⟩ := Given.setAll_append.mp hset
  obtain ⟨g₁, p₁, hsettle₁, hread₁⟩ := hargs (rest ++ behind) hsettle hnext
  obtain ⟨g₂, p₂, hsettle₂, hread₂⟩ := hrest behind hsettle₁ hset
  refine ⟨g₂, p₂, hsettle₂, ?_⟩
  rw [List.append_assoc, hread₁, hread₂]

theorem Spells.reads {settings : List Setting} {args : List String} (h : Spells settings args)
    (hproper : ∀ s ∈ settings, s.IsProper) : Reads settings args := by
  cases h with
  | path p => exact reads_path (hproper (.path p) (by simp))
  | long hvalue hname =>
    have hword := (hproper _ (by simp)).isWord hvalue
    exact reads_long hvalue hname hword
  | longEquals hvalue hname => exact reads_longEquals hvalue hname
  | short times hvalue hletter =>
    have hword := (hproper _ (by simp)).isWord hvalue
    exact reads_short times hvalue hletter hword
  | shortEquals times hvalue hletter => exact reads_bundle times hvalue hletter (.inl rfl)
  | shortAttached times hvalue hletter hequals =>
    have hword := (hproper _ (by simp)).isWord hvalue
    exact reads_bundle times hvalue hletter (.inr ⟨rfl, hword.1, hequals⟩)
  | noImplicitReturn =>
    exact @reads_switch _ "no-implicit-return" _ .noImplicitReturn rfl rfl fun _ => rfl
  | verbose => exact @reads_switch _ "verbose" _ .verbose rfl rfl fun _ => rfl
  | shortVerbose times => exact reads_shortVerbose times

theorem SpellsAll.reads {settings : List Setting} {args : List String} (h : SpellsAll settings args)
    (hproper : ∀ s ∈ settings, s.IsProper) : Reads settings args := by
  induction h with
  | nil =>
    intro rest g now after p hsettle hset
    obtain rfl := Except.ok.inj hset
    exact ⟨g, p, hsettle, rfl⟩
  | append hspells _ ih =>
    obtain ⟨hfirst, hothers⟩ := List.forall_mem_append.mp hproper
    exact (hspells.reads hfirst).append (ih hothers)

private theorem readArguments_of_reads {settings : List Setting} {args : List String}
    (hreads : Reads settings args) (hset : Given.setAll {} settings = .ok now) :
    readArguments {} .nothing args = .ok now := by
  have hnothing : Given.settle {} .nothing = .ok {} := rfl
  obtain ⟨g', p', hsettle, hread⟩ := hreads [] hnothing hset
  rw [← List.append_nil args, hread, readArguments, hsettle]

/-! ### What the settings say together -/

def Setting.path? : Setting → Option Path
  | path p => some p
  | _ => none

def Setting.format? : Setting → Option ReportFormat
  | format f => some f
  | _ => none

def Setting.output? : Setting → Option Path
  | output p => some p
  | _ => none

def Setting.languages? : Setting → Option (List String)
  | languages names => some names
  | _ => none

def Setting.ignore? : Setting → Option (List String)
  | ignore patterns => some patterns
  | _ => none

/-- The items of all occurrences of a list. -/
def gathered : List (List String) → Option (List String)
  | [] => none
  | occurrences => some occurrences.flatten

theorem gathered_append (occurrences : List (List String)) (items : List String) :
    gathered (occurrences ++ [items]) = some ((gathered occurrences).getD [] ++ items) := by
  cases occurrences with
  | nil => simp [gathered]
  | cons first others => simp [gathered]

/-- Settings that can be given together. -/
structure IsAdmissible (settings : List Setting) : Prop where
  path : (settings.filterMap Setting.path?).length ≤ 1
  format : (settings.filterMap Setting.format?).length ≤ 1
  output : (settings.filterMap Setting.output?).length ≤ 1
  noImplicitReturn : settings.count .noImplicitReturn ≤ 1
  verbose : settings.count .verbose ≤ maxVerbosity
  proper : ∀ s ∈ settings, s.IsProper

theorem IsAdmissible.of_append {settings others : List Setting}
    (h : IsAdmissible (settings ++ others)) : IsAdmissible settings := by
  obtain ⟨hpath, hformat, houtput, hstrict, hverbose, hproper⟩ := h
  simp only [List.filterMap_append, List.length_append, List.count_append] at *
  exact ⟨by omega, by omega, by omega, by omega, by omega, (List.forall_mem_append.mp hproper).1⟩

/-- What is given once the settings have been read. -/
def collected (settings : List Setting) : Given where
  path := (settings.filterMap Setting.path?).head?
  format := (settings.filterMap Setting.format?).head?
  output := (settings.filterMap Setting.output?).head?
  languages := gathered (settings.filterMap Setting.languages?)
  ignore := gathered (settings.filterMap Setting.ignore?)
  noImplicitReturn := Setting.noImplicitReturn ∈ settings
  verbosity := settings.count .verbose

private theorem filterMap_concat {α : Type} (f : Setting → Option α) (seen : List Setting)
    (s : Setting) : (seen ++ [s]).filterMap f = seen.filterMap f ++ (f s).toList := by
  rw [List.filterMap_append]
  cases hs : f s <;> simp [hs]

private theorem collected_concat (seen : List Setting) (s : Setting) :
    collected (seen ++ [s]) =
      match s with
      | .path p => { collected seen with path := (collected seen).path.or (some p) }
      | .format f => { collected seen with format := (collected seen).format.or (some f) }
      | .output p => { collected seen with output := (collected seen).output.or (some p) }
      | .languages names =>
        { collected seen with languages := some ((collected seen).languages.getD [] ++ names) }
      | .ignore patterns =>
        { collected seen with ignore := some ((collected seen).ignore.getD [] ++ patterns) }
      | .noImplicitReturn => { collected seen with noImplicitReturn := true }
      | .verbose => { collected seen with verbosity := (collected seen).verbosity + 1 } := by
  cases s <;>
    simp [collected, filterMap_concat, -List.filterMap_append, Setting.path?, Setting.format?,
      Setting.output?, Setting.languages?, Setting.ignore?, gathered_append]

private theorem filterMap_eq_nil_of_concat {α : Type} {f : Setting → Option α}
    {seen : List Setting} {a : α} (h : ((seen ++ [s]).filterMap f).length ≤ 1)
    (hs : f s = some a) : seen.filterMap f = [] := by
  rw [filterMap_concat, hs] at h
  simpa using h

private theorem set_collected {seen : List Setting} (h : IsAdmissible (seen ++ [s])) :
    (collected seen).set s = .ok (collected (seen ++ [s])) := by
  have hproper := h.proper s (by simp)
  cases s with
  | path p =>
    have hnil : seen.filterMap Setting.path? = [] := filterMap_eq_nil_of_concat h.path rfl
    have hnone : (collected seen).path = none := by rw [collected, hnil, List.head?_nil]
    have hne : p.text.toList ≠ [] := by simpa using hproper.1
    refine (Given.store_eq_ok_iff .path).mpr ⟨hnone, hne, ?_⟩
    simp [collected_concat, hnone]
  | output p =>
    have hnil : seen.filterMap Setting.output? = [] := filterMap_eq_nil_of_concat h.output rfl
    have hnone : (collected seen).output = none := by rw [collected, hnil, List.head?_nil]
    have hne : p.text.toList ≠ [] := by simpa using hproper.1
    refine (Given.store_eq_ok_iff .output).mpr ⟨hnone, hne, ?_⟩
    simp [collected_concat, hnone]
  | format f =>
    have hnil : seen.filterMap Setting.format? = [] := filterMap_eq_nil_of_concat h.format rfl
    have hnone : (collected seen).format = none := by rw [collected, hnil, List.head?_nil]
    have hname : ReportFormat.ofName? (String.ofList f.name.toList) = some f := by
      rw [String.ofList_toList, ReportFormat.ofName?_name]
    refine (Given.store_eq_ok_iff .format).mpr ⟨hnone, f, hname, ?_⟩
    simp [collected_concat, hnone]
  | languages names =>
    refine (Given.store_eq_ok_iff .languages).mpr ?_
    rw [collected_concat, splitList_intercalate hproper.1 hproper.2]
  | ignore patterns =>
    refine (Given.store_eq_ok_iff .ignore).mpr ?_
    rw [collected_concat, splitList_intercalate hproper.1 hproper.2]
  | noImplicitReturn =>
    have hone := h.noImplicitReturn
    have hnot : Setting.noImplicitReturn ∉ seen := by
      rw [← List.count_eq_zero]
      simpa using hone
    have hoff : (collected seen).noImplicitReturn = false := by simpa [collected] using hnot
    rw [collected_concat, Given.set, Given.turnOn, hoff]
    rfl
  | verbose =>
    have hmost : (collected seen).verbosity + 1 ≤ maxVerbosity := by
      have hcount := h.verbose
      rw [List.count_append] at hcount
      simpa [collected] using hcount
    rw [collected_concat, Given.set, Given.turnOn, Nat.min_eq_right hmost]

private theorem setAll_eq_collected {settings : List Setting} (h : IsAdmissible settings) :
    Given.setAll {} settings = .ok (collected settings) := by
  -- the last setting is added to those in front of it, which can be given together as well
  induction settings using List.reverseRecOn with
  | nil => rfl
  | append_singleton settings s ih =>
    refine Given.setAll_append.mpr ⟨collected settings, ih h.of_append, ?_⟩
    rw [Given.setAll_singleton, set_collected h]

/-! ### Flags and their spellings -/

/-- Flags that can be spelled: no text in them could be taken for an option, and no item of a list
for two. -/
structure IsSpellable (flags : AnalyzeFlags) : Prop where
  path : IsWord flags.path.text
  output : ∀ path ∈ flags.output, IsWord path.text
  languages : ∀ names ∈ flags.languages, names ≠ [] ∧ ∀ name ∈ names, IsItem name
  ignore : ∀ patterns ∈ flags.ignore, patterns ≠ [] ∧ ∀ pattern ∈ patterns, IsItem pattern

/-- The items of a list are spread, in order, over occurrences that have at least one each. -/
def IsSpread (occurrences : List (List String)) (items : Option (List String)) : Prop :=
  (∀ occurrence ∈ occurrences, occurrence ≠ []) ∧ occurrences.flatten = items.getD []

/-- The settings, in any order, say what the flags and the verbosity are. -/
structure Describes (settings : List Setting) (flags : AnalyzeFlags) (verbosity : Nat) : Prop where
  path : settings.filterMap Setting.path? = [flags.path]
  format : settings.filterMap Setting.format? = [flags.format] ∨
    settings.filterMap Setting.format? = [] ∧ flags.format = .terminal
  output : settings.filterMap Setting.output? = flags.output.toList
  languages : IsSpread (settings.filterMap Setting.languages?) flags.languages
  ignore : IsSpread (settings.filterMap Setting.ignore?) flags.ignore
  noImplicitReturn : settings.count .noImplicitReturn = if flags.noImplicitReturn then 1 else 0
  verbosity : settings.count .verbose = verbosity

theorem IsSpread.gathered_eq {occurrences : List (List String)} {items : Option (List String)}
    (h : IsSpread occurrences items) (hne : ∀ list ∈ items, list ≠ []) :
    gathered occurrences = items := by
  obtain ⟨hoccurrences, hflatten⟩ := h
  cases occurrences with
  | nil =>
    cases items with
    | none => rfl
    | some list => exact absurd hflatten.symm (hne list rfl)
  | cons first others =>
    have hfirst := hoccurrences first List.mem_cons_self
    cases items with
    | none => simp [hfirst] at hflatten
    | some list =>
      have hsome : gathered (first :: others) = some (first :: others).flatten := rfl
      rw [hsome, hflatten, Option.getD_some]

theorem IsSpread.of_mem {occurrences : List (List String)} {items : Option (List String)}
    (h : IsSpread occurrences items) {P : String → Prop} (hitems : ∀ list ∈ items, ∀ s ∈ list, P s)
    {occurrence : List String} (hmem : occurrence ∈ occurrences) :
    occurrence ≠ [] ∧ ∀ s ∈ occurrence, P s := by
  refine ⟨h.1 occurrence hmem, fun s hs => ?_⟩
  have hflat : s ∈ items.getD [] := h.2 ▸ List.mem_flatten_of_mem hmem hs
  cases items with
  | none => cases hflat
  | some list => exact hitems list rfl s hflat

variable {settings : List Setting} {flags : AnalyzeFlags} {verbosity : Nat}

private theorem Describes.isProper (h : Describes settings flags verbosity)
    (hflags : IsSpellable flags) (hmem : s ∈ settings) : s.IsProper := by
  cases s with
  | path p =>
    have hp : p ∈ settings.filterMap Setting.path? := List.mem_filterMap.mpr ⟨_, hmem, rfl⟩
    rw [h.path, List.mem_singleton] at hp
    rw [hp]
    exact hflags.path
  | output p =>
    have hp : p ∈ settings.filterMap Setting.output? := List.mem_filterMap.mpr ⟨_, hmem, rfl⟩
    rw [h.output, Option.mem_toList] at hp
    exact hflags.output p hp
  | languages names =>
    have hnames : names ∈ settings.filterMap Setting.languages? :=
      List.mem_filterMap.mpr ⟨_, hmem, rfl⟩
    exact h.languages.of_mem (fun list hlist => (hflags.languages list hlist).2) hnames
  | ignore patterns =>
    have hpatterns : patterns ∈ settings.filterMap Setting.ignore? :=
      List.mem_filterMap.mpr ⟨_, hmem, rfl⟩
    exact h.ignore.of_mem (fun list hlist => (hflags.ignore list hlist).2) hpatterns
  | _ => trivial

private theorem Describes.isAdmissible (h : Describes settings flags verbosity)
    (hflags : IsSpellable flags) (hverbosity : verbosity ≤ maxVerbosity) :
    IsAdmissible settings where
  path := by simp [h.path]
  format := by rcases h.format with hformat | ⟨hformat, -⟩ <;> simp [hformat]
  output := by
    rw [h.output]
    cases flags.output <;> simp
  noImplicitReturn := by
    rw [h.noImplicitReturn]
    split <;> decide
  verbose := h.verbosity ▸ hverbosity
  proper _ := h.isProper hflags

private theorem Describes.finish_collected (h : Describes settings flags verbosity)
    (hflags : IsSpellable flags) :
    (collected settings).finish none = .ok (.analyze flags verbosity) := by
  have hpath : (collected settings).path = some flags.path := by simp [collected, h.path]
  have hformat : (collected settings).format.getD .terminal = flags.format := by
    rcases h.format with hone | ⟨hnone, hterminal⟩
    · simp [collected, hone]
    · simp [collected, hnone, hterminal]
  have houtput : (collected settings).output = flags.output := by simp [collected, h.output]
  have hlanguages : (collected settings).languages = flags.languages :=
    h.languages.gathered_eq fun list hlist => (hflags.languages list hlist).1
  have hignore : (collected settings).ignore = flags.ignore :=
    h.ignore.gathered_eq fun list hlist => (hflags.ignore list hlist).1
  have hgiven : (collected settings).noImplicitReturn = flags.noImplicitReturn := by
    have hcount := h.noImplicitReturn
    have hmem : Setting.noImplicitReturn ∈ settings ↔ flags.noImplicitReturn := by
      rw [← List.count_pos_iff, hcount]
      split <;> simp_all
    simp [collected, hmem]
  have hstrict : Command.noImplicitReturn (collected settings) none =
      .ok flags.noImplicitReturn := by
    rw [Command.noImplicitReturn, hgiven]
    cases flags.noImplicitReturn <;> rfl
  have hcount : (collected settings).verbosity = verbosity := h.verbosity
  simp only [Given.finish, hstrict, bind, Except.bind, hpath, hformat, houtput, hlanguages, hignore,
    hcount, pure, Except.pure]

/-- Every spelling of flags is read as them: the settings may come in any order and in any of their
spellings, and lists may be spread over any number of occurrences. -/
theorem every_spelling_is_read {args : List String} (hflags : IsSpellable flags)
    (hverbosity : verbosity ≤ 255) (hsettings : Describes settings flags verbosity)
    (hargs : SpellsAll settings args) :
    parse none ("analyze" :: args) = .ok (.analyze flags verbosity) := by
  have hadmissible := hsettings.isAdmissible hflags hverbosity
  have hread := readArguments_of_reads (hargs.reads hadmissible.proper)
    (setAll_eq_collected hadmissible)
  rw [parse, hread]
  exact hsettings.finish_collected hflags

def sampleFlags : AnalyzeFlags where
  path := ⟨"src"⟩
  format := .json
  output := some ⟨"out.json"⟩
  languages := some ["js", "ts"]
  ignore := some ["a/*", "b/*", "c/*"]
  noImplicitReturn := true

def sampleSettings : List Setting :=
  [.languages ["js"], .verbose, .verbose, .format .json, .ignore ["a/*", "b/*"], .path ⟨"src"⟩,
    .noImplicitReturn, .languages ["ts"], .output ⟨"out.json"⟩, .verbose, .ignore ["c/*"]]

def sampleArguments : List String :=
  ["--languages", "js", "-vvf=json", "--ignore=a/*,b/*", "src", "--no-implicit-return",
    "--languages=ts", "-oout.json", "-v", "--ignore", "c/*"]

private theorem sampleArguments_spelled : SpellsAll sampleSettings sampleArguments := by
  have hjs := @Spells.long (.languages ["js"]) .languages "js" "languages" rfl rfl
  have hjson := @Spells.shortEquals (.format .json) .format "json" 'f' 2 rfl rfl
  have hpatterns :=
    @Spells.longEquals (.ignore ["a/*", "b/*"]) .ignore "a/*,b/*" "ignore" rfl rfl
  have hts := @Spells.longEquals (.languages ["ts"]) .languages "ts" "languages" rfl rfl
  have houtput :=
    @Spells.shortAttached (.output ⟨"out.json"⟩) .output "out.json" 'o' 0 rfl rfl (by decide)
  have hlast := @Spells.long (.ignore ["c/*"]) .ignore "c/*" "ignore" rfl rfl
  have hall := SpellsAll.append hjs (.append hjson (.append hpatterns (.append (.path ⟨"src"⟩)
    (.append .noImplicitReturn (.append hts (.append houtput (.append (.shortVerbose 0)
      (.append hlast .nil))))))))
  exact Eq.mp (congrArg (SpellsAll sampleSettings) (by decide)) hall

theorem sampleArguments_read :
    IsSpellable sampleFlags ∧ Describes sampleSettings sampleFlags 3 ∧
    SpellsAll sampleSettings sampleArguments ∧
    parse none ("analyze" :: sampleArguments) = .ok (.analyze sampleFlags 3) := by
  have hflags : IsSpellable sampleFlags := ⟨by decide, by decide, by decide, by decide⟩
  have hsettings : Describes sampleSettings sampleFlags 3 :=
    ⟨rfl, .inl rfl, rfl, ⟨by decide, rfl⟩, ⟨by decide, rfl⟩, by decide, by decide⟩
  exact ⟨hflags, hsettings, sampleArguments_spelled,
    every_spelling_is_read hflags (by decide) hsettings sampleArguments_spelled⟩

end MixinCatalog.Command
