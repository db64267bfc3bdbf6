import MixinCatalog.Command.Arguments

/-!
# Spellings of settings

What an option says does not depend on how it is spelled: by its name or its letter, with its value
in the same argument or in the next one, alone or behind other short options. The spellings come
first, then the forms in which their arguments are seen.
-/

namespace MixinCatalog

def ReportFormat.name : ReportFormat → String
  | json => "json"
  | markdown => "markdown"
  | terminal => "terminal"

theorem ReportFormat.ofName?_name (format : ReportFormat) : ofName? format.name = some format := by
  cases format <;> rfl

namespace Command

/-! ### Settings and their spellings -/

/-- What one option, or the path, says about an analysis. -/
inductive Setting where
  | path (path : Path)
  | format (format : ReportFormat)
  | output (path : Path)
  | languages (names : List String)
  | ignore (patterns : List String)
  | noImplicitReturn
  | verbose
deriving DecidableEq

/-- The slot that a setting fills, and the text that fills it. -/
def Setting.value? : Setting → Option (Slot × String)
  | path p => some (.path, p.text)
  | format f => some (.format, f.name)
  | output p => some (.output, p.text)
  | languages names => some (.languages, ",".intercalate names)
  | ignore patterns => some (.ignore, ",".intercalate patterns)
  | noImplicitReturn | verbose => none

def Slot.name? : Slot → Option String
  | path => none
  | format => some "format"
  | output => some "output"
  | languages => some "languages"
  | ignore => some "ignore"

def Slot.letter? : Slot → Option Char
  | format => some 'f'
  | output => some 'o'
  | path | languages | ignore => none

/-- Short options in one argument, the counted one first. -/
def bundle (times : Nat) (letters : List Char) : String :=
  String.ofList ('-' :: List.replicate times 'v' ++ letters)

/-- The arguments that spell settings: an option with its value, in one argument or two, or an
argument without a value. -/
inductive Spells : List Setting → List String → Prop
  | path (p : Path) : Spells [.path p] [p.text]
  | long {s : Setting} {slot : Slot} {value name : String} :
      s.value? = some (slot, value) → slot.name? = some name → Spells [s] ["--" ++ name, value]
  | longEquals {s : Setting} {slot : Slot} {value name : String} :
      s.value? = some (slot, value) → slot.name? = some name →
      Spells [s] ["--" ++ name ++ "=" ++ value]
  | short {s : Setting} {slot : Slot} {value : String} {letter : Char} (times : Nat) :
      s.value? = some (slot, value) → slot.letter? = some letter →
      Spells (List.replicate times .verbose ++ [s]) [bundle times [letter], value]
  | shortEquals {s : Setting} {slot : Slot} {value : String} {letter : Char} (times : Nat) :
      s.value? = some (slot, value) → slot.letter? = some letter →
      Spells (List.replicate times .verbose ++ [s]) [bundle times (letter :: '=' :: value.toList)]
  -- an equals sign in front of the value would be taken for the one of the option
  | shortAttached {s : Setting} {slot : Slot} {value : String} {letter : Char} (times : Nat) :
      s.value? = some (slot, value) → slot.letter? = some letter → value.toList.head? ≠ some '=' →
      Spells (List.replicate times .verbose ++ [s]) [bundle times (letter :: value.toList)]
  | noImplicitReturn : Spells [.noImplicitReturn] ["--no-implicit-return"]
  | verbose : Spells [.verbose] ["--verbose"]
  | shortVerbose (times : Nat) :
      Spells (List.replicate (times + 1) .verbose) [bundle (times + 1) []]

/-- A line of arguments that spells settings one after the other. -/
inductive SpellsAll : List Setting → List String → Prop
  | nil : SpellsAll [] []
  | append {settings others : List Setting} {args rest : List String} :
      Spells settings args → SpellsAll others rest → SpellsAll (settings ++ others) (args ++ rest)

/-! ### Forms -/

/-- A text that is no option when it stands alone. -/
def IsWord (s : String) : Prop := s ≠ "" ∧ s.toList.head? ≠ some '-'

instance (s : String) : Decidable (IsWord s) := inferInstanceAs (Decidable (_ ∧ _))

theorem IsWord.formOf_eq {s : String} (h : IsWord s) : formOf s.toList = .word := by
  have hhead := h.2
  unfold formOf
  split <;> simp_all

/-- An item of a list, which a comma would divide. -/
def IsItem (s : String) : Prop := IsWord s ∧ ',' ∉ s.toList

instance (s : String) : Decidable (IsItem s) := inferInstanceAs (Decidable (_ ∧ _))

/-- The value of the setting can be written. -/
def Setting.IsProper : Setting → Prop
  | path p | output p => IsWord p.text
  | languages items | ignore items => items ≠ [] ∧ ∀ item ∈ items, IsItem item
  | format _ | noImplicitReturn | verbose => True

private theorem toList_intercalate (items : List String) :
    (",".intercalate items).toList = Text.join ',' (items.map String.toList) := by
  induction items with
  | nil => rfl
  | cons item items ih =>
    cases items with
    | nil => simp [Text.join]
    | cons next items =>
      rw [String.intercalate_cons_cons, String.toList_append, String.toList_append, ih]
      simp [Text.join]

theorem splitList_intercalate {items : List String} (hne : items ≠ [])
    (h : ∀ item ∈ items, IsItem item) : splitList (",".intercalate items).toList = items := by
  have hsplit : Text.split ',' (Text.join ',' (items.map String.toList)) =
      items.map String.toList := by
    apply Text.split_join
    · simpa using hne
    · intro s hs
      obtain ⟨item, hitem, rfl⟩ := List.mem_map.mp hs
      exact (h item hitem).2
  rw [splitList, toList_intercalate, hsplit, List.map_map]
  simp [Function.comp_def]

theorem isWord_append {s : String} (h : IsWord s) (t : String) : IsWord (s ++ t) := by
  obtain ⟨hne, hhead⟩ := h
  cases hs : s.toList with
  | nil => exact absurd (String.toList_eq_nil_iff.mp hs) hne
  | cons c cs => simp_all [IsWord]

private theorem isWord_intercalate {items : List String} (hne : items ≠ [])
    (h : ∀ item ∈ items, IsItem item) : IsWord (",".intercalate items) := by
  cases items with
  | nil => exact absurd rfl hne
  | cons item items =>
    have hword := (h item List.mem_cons_self).1
    cases items with
    | nil => simpa using hword
    | cons next items =>
      rw [String.intercalate_cons_cons, String.append_assoc]
      exact isWord_append hword _

theorem Setting.IsProper.isWord {s : Setting} {slot : Slot} {value : String} (h : s.IsProper)
    (hvalue : s.value? = some (slot, value)) : IsWord value := by
  cases s with
  | noImplicitReturn => cases hvalue
  | verbose => cases hvalue
  | path p =>
    obtain ⟨-, rfl⟩ := Prod.mk.inj (Option.some.inj hvalue)
    exact h
  | output p =>
    obtain ⟨-, rfl⟩ := Prod.mk.inj (Option.some.inj hvalue)
    exact h
  | format f =>
    obtain ⟨-, rfl⟩ := Prod.mk.inj (Option.some.inj hvalue)
    cases f <;> decide
  | languages names =>
    obtain ⟨-, rfl⟩ := Prod.mk.inj (Option.some.inj hvalue)
    exact isWord_intercalate h.1 h.2
  | ignore patterns =>
    obtain ⟨-, rfl⟩ := Prod.mk.inj (Option.some.inj hvalue)
    exact isWord_intercalate h.1 h.2

theorem splitEquals_append {name : List Char} (h : '=' ∉ name) (value : List Char) :
    splitEquals (name ++ '=' :: value) = (name, some value) := by
  induction name with
  | nil => rfl
  | cons c name ih =>
    have hc : c ≠ '=' := fun heq => h (heq ▸ List.mem_cons_self)
    rw [List.cons_append, splitEquals, if_neg hc, ih fun hmem => h (List.mem_cons_of_mem c hmem)]

theorem knownLong?_of_name? {slot : Slot} {name : String} (h : slot.name? = some name) :
    knownLong? name.toList = some (.slot slot) := by
  cases slot with
  | path => cases h
  | _ =>
    obtain rfl := Option.some.inj h
    rfl

theorem formOf_long {slot : Slot} {name : String} (h : slot.name? = some name) :
    formOf ("--" ++ name).toList = .long name.toList none := by
  cases slot with
  | path => cases h
  | _ =>
    obtain rfl := Option.some.inj h
    rfl

theorem formOf_longEquals {slot : Slot} {name : String} (h : slot.name? = some name)
    (value : String) :
    formOf ("--" ++ name ++ "=" ++ value).toList = .long name.toList (some value.toList) := by
  have hname : '=' ∉ name.toList := by
    cases slot with
    | path => cases h
    | _ =>
      obtain rfl := Option.some.inj h
      decide
  have hform : formOf ("--" ++ name ++ "=" ++ value).toList =
      formOf ('-' :: '-' :: (name.toList ++ '=' :: value.toList)) := by
    simp
  rw [hform, formOf]
  · rw [splitEquals_append hname]
  · simp

theorem knownShort?_of_letter? {slot : Slot} {letter : Char} (h : slot.letter? = some letter) :
    knownShort? letter = some (.slot slot) ∧ letter ≠ '-' := by
  cases slot with
  | format =>
    obtain rfl := Option.some.inj h
    decide
  | output =>
    obtain rfl := Option.some.inj h
    decide
  | _ => cases h

theorem formOf_bundle {times : Nat} {letters : List Char}
    (hne : List.replicate times 'v' ++ letters ≠ []) (h : letters.head? ≠ some '-') :
    formOf (bundle times letters).toList = .shorts (List.replicate times 'v' ++ letters) := by
  rw [bundle, String.toList_ofList, List.cons_append]
  cases times with
  | zero =>
    cases letters with
    | nil => exact absurd rfl hne
    | cons c cs =>
      have hc : c ≠ '-' := by simpa using h
      rw [List.replicate_zero, List.nil_append, formOf] <;> simp [hc]
  | succ times =>
    rw [List.replicate_succ, List.cons_append]
    rfl

end Command

end MixinCatalog
