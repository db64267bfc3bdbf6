import MixinCatalog.Json.Reader

/-!
# Reading printed JSON

The reader takes back what the printer writes: a quoted text, the numeral of a natural number, and
a value of any nesting, with whatever follows it left over. Values are followed by a comma, a line
break or nothing, so that no numeral runs on. The nesting that the reader allows is the length of
the text, and every value takes at least one character.
-/

namespace MixinCatalog.Json

/-! ### Quoted texts -/

private theorem hexValue?_digitChar : ∀ n < 16, hexValue? n.digitChar = some n := by decide

private theorem readEscape_unicode {a b c d : Char} {n : Nat} (h : hex4? a b c d = some n)
    (hn : n < 0xd800) (r : List Char) :
    readEscape ('u' :: a :: b :: c :: d :: r) = some (Char.ofNat n, r) := by
  have hvalid : n.isValidChar := Or.inl hn
  simp [readEscape, h, scalar?, hvalid, Nat.not_le.mpr hn]

private theorem readEscape_digits {c : Char} (h : c.toNat < 256) (r : List Char) :
    readEscape ('u' :: '0' :: '0' :: (c.toNat / 16).digitChar :: (c.toNat % 16).digitChar :: r) =
      some (c, r) := by
  have hhigh := hexValue?_digitChar (c.toNat / 16) (by omega)
  have hlow := hexValue?_digitChar (c.toNat % 16) (by omega)
  have hzero : hexValue? '0' = some 0 := rfl
  have hvalue : hex4? '0' '0' (c.toNat / 16).digitChar (c.toNat % 16).digitChar =
      some c.toNat := by
    simp only [hex4?, hzero, hhigh, hlow, Option.some.injEq]
    omega
  rw [readEscape_unicode hvalue (by omega), Char.ofNat_toNat]

theorem escapeChar_cases (c : Char) :
    (escapeChar c = [c] ∧ c ≠ '\x22' ∧ c ≠ '\x5c' ∧ ¬c.toNat < 32) ∨
      ∃ e, escapeChar c = '\x5c' :: e ∧ ∀ r, readEscape (e ++ r) = some (c, r) := by
  by_cases hnamed : c ∈ ['\x22', '\x5c', '\x08', '\x0c', '\n', '\r', '\t']
  · simp only [List.mem_cons, List.not_mem_nil, or_false] at hnamed
    rcases hnamed with rfl | rfl | rfl | rfl | rfl | rfl | rfl <;>
      exact .inr ⟨_, rfl, fun r => rfl⟩
  · simp only [List.mem_cons, List.not_mem_nil, or_false, not_or] at hnamed
    simp only [escapeChar, hnamed, if_false]
    split
    next h =>
      refine .inr ⟨_, rfl, fun r => ?_⟩
      rw [← readEscape_digits (c := c) (by omega) r, Nat.div_eq_of_lt h, Nat.mod_eq_of_lt h,
        hexDigits, Nat.toDigits_of_lt_base h]
      rfl
    next hsmall =>
      split
      next h =>
        have hone : c.toNat / 16 = 1 := by omega
        refine .inr ⟨_, rfl, fun r => ?_⟩
        rw [← readEscape_digits (c := c) (by omega) r, hexDigits,
          Nat.toDigits_of_base_le (by decide) (by omega), hone]
        rfl
      next h => exact .inl ⟨rfl, hnamed.1, hnamed.2.1, h⟩

private theorem readString_escape {x : Char} {cs r : List Char} (h : readEscape cs = some (x, r)) :
    readString ('\x5c' :: cs) = (readString r).map (Prod.map (x :: ·) id) := by
  rw [readString, if_neg (by decide), if_pos rfl]
  split
  next hnone => simp [h] at hnone
  next hsome =>
    obtain ⟨rfl, rfl⟩ : x = _ ∧ r = _ := by simpa [h] using hsome
    rfl

private theorem readString_escapeChar (c : Char) (r : List Char) :
    readString (escapeChar c ++ r) = (readString r).map (Prod.map (c :: ·) id) := by
  rcases escapeChar_cases c with ⟨hself, hquote, hslash, hcontrol⟩ | ⟨e, hescape, hread⟩
  · rw [hself, List.singleton_append, readString, if_neg hquote, if_neg hslash, if_neg hcontrol]
  · rw [hescape, List.cons_append, readString_escape (hread r)]

private theorem readString_flatMap_escapeChar (s rest : List Char) :
    readString (s.flatMap escapeChar ++ '\x22' :: rest) = some (s, rest) := by
  induction s with
  | nil => rw [List.flatMap_nil, List.nil_append, readString, if_pos rfl]
  | cons c s ih =>
    rw [List.flatMap_cons, List.append_assoc, readString_escapeChar, ih]
    rfl

/-! ### Blanks -/

private theorem skipSpace_cons {c : Char} (hc : isSpace c = false) (cs : List Char) :
    skipSpace (c :: cs) = c :: cs := by
  rw [skipSpace, List.dropWhile_cons_of_neg (by simp [hc])]

theorem skipSpace_append {blanks cs : List Char} {c : Char} (hblanks : ∀ b ∈ blanks, isSpace b)
    (hc : isSpace c = false) : skipSpace (blanks ++ c :: cs) = c :: cs := by
  rw [skipSpace, List.dropWhile_append_of_pos hblanks, ← skipSpace, skipSpace_cons hc]

private theorem isSpace_of_mem_newLine (level : Nat) : ∀ c ∈ newLine level, isSpace c := by
  intro c h
  simp only [newLine, List.mem_cons, List.mem_replicate] at h
  rcases h with rfl | ⟨_, rfl⟩ <;> rfl

/-! ### Numbers -/

/-- What can follow a number: no character that the number could go on with. -/
def EndsNumber (rest : List Char) : Prop :=
  ∀ c ∈ rest.head?, c.isDigit = false ∧ c ≠ '.' ∧ c ≠ 'e' ∧ c ≠ 'E'

theorem readDigits_append {digits rest : List Char} (hne : digits ≠ [])
    (hdigits : ∀ d ∈ digits, d.isDigit) (hrest : EndsNumber rest) :
    readDigits (digits ++ rest) = some (digits, rest) := by
  have htake : rest.takeWhile Char.isDigit = [] := by
    cases rest with
    | nil => rfl
    | cons c r => simp [(hrest c rfl).1]
  have hdrop : rest.dropWhile Char.isDigit = rest := by
    cases rest with
    | nil => rfl
    | cons c r => simp [(hrest c rfl).1]
  rw [readDigits, List.takeWhile_append_of_pos hdigits, List.dropWhile_append_of_pos hdigits, htake,
    hdrop, List.append_nil]
  cases digits with
  | nil => exact absurd rfl hne
  | cons d ds => rfl

theorem isDigit_of_mem_toDigits {n : Nat} : ∀ d ∈ Nat.toDigits 10 n, d.isDigit := by
  intro d hd
  exact Nat.isDigit_of_mem_toDigits (by decide) (by decide) hd

private theorem exists_toDigits_eq_cons (n : Nat) :
    ∃ d ds, Nat.toDigits 10 n = d :: ds ∧ d.isDigit = true := by
  obtain ⟨d, ds, hcons⟩ := List.exists_cons_of_ne_nil (Nat.toDigits_ne_nil (n := n) (b := 10))
  exact ⟨d, ds, hcons, isDigit_of_mem_toDigits (n := n) d (by simp [hcons])⟩

private theorem toDigits_eq_zero_cons {n : Nat} {ds : List Char}
    (h : Nat.toDigits 10 n = '0' :: ds) : ds = [] := by
  induction n using Nat.strongRecOn generalizing ds with
  | ind n ih =>
    by_cases hn : n < 10
    · rw [Nat.toDigits_of_lt_base hn] at h
      simp_all
    · rw [Nat.toDigits_of_base_le (by decide) (by omega)] at h
      obtain ⟨d, front, hfront, -⟩ := exists_toDigits_eq_cons (n / 10)
      obtain ⟨rfl, -⟩ : d = '0' ∧ front ++ [(n % 10).digitChar] = ds := by
        simpa [hfront] using h
      have hvalue := Nat.ofDigitChars_ten_toDigits (n := n / 10)
      rw [hfront, ih (n / 10) (by omega) hfront] at hvalue
      have hzero : n / 10 = 0 := hvalue.symm
      omega

private theorem readWhole_toDigits (n : Nat) {rest : List Char} (hrest : EndsNumber rest) :
    readWhole (Nat.toDigits 10 n ++ rest) = some (Nat.toDigits 10 n, rest) := by
  unfold readWhole
  split
  next r heq =>
    obtain ⟨d, ds, hcons, -⟩ := exists_toDigits_eq_cons n
    obtain ⟨rfl, rfl⟩ : d = '0' ∧ ds ++ rest = r := by simpa [hcons] using heq
    rw [hcons, toDigits_eq_zero_cons hcons]
    rfl
  next => exact readDigits_append Nat.toDigits_ne_nil isDigit_of_mem_toDigits hrest

private theorem readNumber_toDigits (n : Nat) {rest : List Char} (hrest : EndsNumber rest) :
    readNumber (Nat.toDigits 10 n ++ rest) = some (Nat.toDigits 10 n, rest) := by
  have hfraction : readFraction rest = some ([], rest) := by
    unfold readFraction
    split
    next r => exact absurd rfl (hrest '.' rfl).2.1
    next => rfl
  have hexponent : readExponent rest = some ([], rest) := by
    unfold readExponent
    split
    next e s r => simp [(hrest e rfl).2.2]
    next => rfl
  unfold readNumber
  split
  next r heq =>
    obtain ⟨d, ds, hcons, hd⟩ := exists_toDigits_eq_cons n
    obtain ⟨rfl, -⟩ : d = '-' ∧ ds ++ rest = r := by simpa [hcons] using heq
    exact absurd hd (by decide)
  next => simp [readUnsigned, readWhole_toDigits n hrest, hfraction, hexponent]

private theorem isSpace_of_isDigit {d : Char} (hd : d.isDigit = true) : isSpace d = false := by
  simp only [isSpace, Bool.or_eq_false_iff, decide_eq_false_iff_not]
  refine ⟨⟨⟨?_, ?_⟩, ?_⟩, ?_⟩ <;> (rintro rfl; exact absurd hd (by decide))

/-! ### Values -/

/-- A value all of whose numbers are natural numbers. -/
inductive IsPlain : Json → Prop
  | null : IsPlain .null
  | bool (b : Bool) : IsPlain (.bool b)
  | ofNat (n : Nat) : IsPlain (.ofNat n)
  | string (s : String) : IsPlain (.string s)
  | array {items : List Json} (h : ∀ x ∈ items, IsPlain x) : IsPlain (.array items)
  | object {members : List (String × Json)} (h : ∀ m ∈ members, IsPlain m.2) :
      IsPlain (.object members)

/-- The text of a value at every level is read as that value, and what follows it is left. As many
steps as the text is long are enough. -/
def ReadsBack (j : Json) : Prop :=
  ∀ (level fuel : Nat) (blanks rest : List Char), (∀ b ∈ blanks, isSpace b) →
    (render level j).length ≤ fuel → EndsNumber rest →
    readValue fuel (blanks ++ (render level j ++ rest)) = some (j, rest)

private theorem IsPlain.exists_render_eq_cons {j : Json} (h : j.IsPlain) (level : Nat) :
    ∃ c cs, render level j = c :: cs ∧ isSpace c = false ∧ c ≠ ']' := by
  cases h with
  | null => exact ⟨_, _, rfl, by decide⟩
  | bool b => cases b <;> exact ⟨_, _, rfl, by decide⟩
  | ofNat n =>
    obtain ⟨d, ds, hcons, hd⟩ := exists_toDigits_eq_cons n
    refine ⟨d, ds, (render_ofNat level n).trans hcons, isSpace_of_isDigit hd, ?_⟩
    rintro rfl
    exact absurd hd (by decide)
  | string s => exact ⟨_, _, rfl, by decide⟩
  | @array items h =>
    cases items with
    | nil => exact ⟨_, _, rfl, by decide⟩
    | cons x xs => exact ⟨_, _, render_array_cons level x xs, by decide⟩
  | @object members h =>
    cases members with
    | nil => exact ⟨_, _, rfl, by decide⟩
    | cons m ms => exact ⟨_, _, render_object_cons level m.1 m.2 ms, by decide⟩

private theorem endsNumber_newLine (level : Nat) (rest : List Char) :
    EndsNumber (newLine level ++ rest) := by
  intro c hc
  obtain rfl : '\n' = c := by simpa [newLine] using hc
  decide

private theorem endsNumber_renderItems (outer level : Nat) (xs : List Json) (rest : List Char) :
    EndsNumber (renderItems level xs ++ (newLine outer ++ rest)) := by
  cases xs with
  | nil => exact endsNumber_newLine outer rest
  | cons x xs =>
    intro c hc
    obtain rfl : ',' = c := by simpa [renderItems_cons] using hc
    decide

private theorem endsNumber_renderMembers (outer level : Nat) (ms : List (String × Json))
    (rest : List Char) : EndsNumber (renderMembers level ms ++ (newLine outer ++ rest)) := by
  cases ms with
  | nil => exact endsNumber_newLine outer rest
  | cons m ms =>
    obtain ⟨k, v⟩ := m
    intro c hc
    obtain rfl : ',' = c := by simpa [renderMembers_cons] using hc
    decide

private theorem readItems_render {x : Json} {xs : List Json} (h : ∀ y ∈ x :: xs, y.ReadsBack)
    (outer level fuel : Nat) (blanks rest : List Char) (hblanks : ∀ b ∈ blanks, isSpace b)
    (hfuel : (render level x).length + (renderItems level xs).length < fuel) :
    readItems fuel (blanks ++ (render level x ++ (renderItems level xs
      ++ (newLine outer ++ ']' :: rest)))) = some (x :: xs, rest) := by
  induction xs generalizing x fuel blanks with
  | nil =>
    obtain ⟨fuel, rfl⟩ : ∃ k, fuel = k + 1 := ⟨fuel - 1, by omega⟩
    have hx := h x (by simp) level fuel blanks _ hblanks (by omega)
      (endsNumber_renderItems outer level [] (']' :: rest))
    have hend : skipSpace (newLine outer ++ ']' :: rest) = ']' :: rest :=
      skipSpace_append (isSpace_of_mem_newLine _) (by decide)
    rw [readItems, hx]
    simp only [renderItems_nil, List.nil_append, hend]
  | cons y ys ih =>
    obtain ⟨fuel, rfl⟩ : ∃ k, fuel = k + 1 := ⟨fuel - 1, by omega⟩
    have hx := h x (by simp) level fuel blanks _ hblanks (by omega)
      (endsNumber_renderItems outer level (y :: ys) (']' :: rest))
    rw [renderItems_cons] at hfuel
    simp only [List.length_cons, List.length_append] at hfuel
    have hys := ih (fun z hz => h z (List.mem_cons_of_mem x hz)) fuel (newLine level)
      (isSpace_of_mem_newLine level) (by omega)
    rw [readItems, hx]
    simp only [renderItems_cons, List.cons_append, List.append_assoc,
      skipSpace_cons (c := ',') (by decide), hys, Option.map_some]

private theorem readMembers_member {v : Json} (hv : v.ReadsBack) (k : String) {level fuel : Nat}
    {blanks rest : List Char} (hblanks : ∀ b ∈ blanks, isSpace b)
    (hfuel : (render level v).length ≤ fuel) (hrest : EndsNumber rest) :
    (∀ r, skipSpace rest = '\x7d' :: r →
      readMembers (fuel + 1) (blanks ++ (quote k ++ ':' :: ' ' :: (render level v ++ rest))) =
        some ([(k, v)], r)) ∧
    ∀ r ms rest', skipSpace rest = ',' :: r → readMembers fuel r = some (ms, rest') →
      readMembers (fuel + 1) (blanks ++ (quote k ++ ':' :: ' ' :: (render level v ++ rest))) =
        some ((k, v) :: ms, rest') := by
  have hblank : ∀ b ∈ [' '], isSpace b := by
    intro b hb
    obtain rfl := List.mem_singleton.mp hb
    rfl
  have hvalue := hv level fuel [' '] rest hblank hfuel hrest
  rw [List.singleton_append] at hvalue
  rw [readMembers]
  simp only [quote, List.cons_append, List.append_assoc, List.nil_append,
    skipSpace_append hblanks (c := '\x22') (by decide), readString_flatMap_escapeChar,
    skipSpace_cons (c := ':') (by decide), hvalue, String.ofList_toList]
  constructor
  · intro r hr
    simp only [hr]
  · intro r ms rest' hr hms
    simp only [hr, hms, Option.map_some]

private theorem readMembers_render {k : String} {v : Json} {ms : List (String × Json)}
    (h : ∀ m ∈ (k, v) :: ms, m.2.ReadsBack) (outer level fuel : Nat) (blanks rest : List Char)
    (hblanks : ∀ b ∈ blanks, isSpace b)
    (hfuel : (render level v).length + (renderMembers level ms).length < fuel) :
    readMembers fuel (blanks ++ (quote k ++ ':' :: ' ' :: (render level v
      ++ (renderMembers level ms ++ (newLine outer ++ '\x7d' :: rest))))) =
      some ((k, v) :: ms, rest) := by
  induction ms generalizing k v fuel blanks with
  | nil =>
    obtain ⟨fuel, rfl⟩ : ∃ n, fuel = n + 1 := ⟨fuel - 1, by omega⟩
    have hv : v.ReadsBack := h (k, v) List.mem_cons_self
    have hend : skipSpace (newLine outer ++ '\x7d' :: rest) = '\x7d' :: rest :=
      skipSpace_append (isSpace_of_mem_newLine _) (by decide)
    exact (readMembers_member hv k hblanks (by omega)
      (endsNumber_renderMembers outer level [] _)).1 rest hend
  | cons m ms ih =>
    obtain ⟨k', v'⟩ := m
    obtain ⟨fuel, rfl⟩ : ∃ n, fuel = n + 1 := ⟨fuel - 1, by omega⟩
    have hv : v.ReadsBack := h (k, v) List.mem_cons_self
    rw [renderMembers_cons] at hfuel
    simp only [List.length_cons, List.length_append] at hfuel
    have hms := ih (fun m hm => h m (List.mem_cons_of_mem _ hm)) fuel (newLine level)
      (isSpace_of_mem_newLine level) (by omega)
    refine (readMembers_member hv k hblanks (by omega)
      (endsNumber_renderMembers outer level _ _)).2 _ _ _ ?_ hms
    simp only [renderMembers_cons, List.cons_append, List.append_assoc,
      skipSpace_cons (c := ',') (by decide)]

private theorem readValue_ofNat (n fuel : Nat) {cs rest : List Char}
    (hskip : skipSpace cs = Nat.toDigits 10 n ++ rest) (hrest : EndsNumber rest) :
    readValue (fuel + 1) cs = some (.ofNat n, rest) := by
  have hfirst {c : Char} {r : List Char} (h : Nat.toDigits 10 n ++ rest = c :: r) :
      c.isDigit = true := by
    obtain ⟨d, ds, hcons, hd⟩ := exists_toDigits_eq_cons n
    rw [hcons, List.cons_append, List.cons.injEq] at h
    rwa [← h.1]
  rw [readValue, hskip]
  -- no other value begins with a digit
  split
  case h_7 =>
    rw [readNumber_toDigits n hrest]
    rfl
  all_goals
    rename_i heq
    exact absurd (hfirst heq) (by decide)

private theorem readValue_array {x : Json} {xs : List Json} (hx : x.IsPlain)
    (h : ∀ y ∈ x :: xs, y.ReadsBack) {level fuel : Nat} {cs rest : List Char}
    (hskip : skipSpace cs = render level (.array (x :: xs)) ++ rest)
    (hfuel : (render level (.array (x :: xs))).length ≤ fuel + 1) :
    readValue (fuel + 1) cs = some (.array (x :: xs), rest) := by
  rw [render_array_cons] at hskip hfuel
  simp only [List.length_cons, List.length_append] at hfuel
  obtain ⟨c, cs', hcons, hspace, hclose⟩ := hx.exists_render_eq_cons (level + 1)
  have hitems := readItems_render h level (level + 1) fuel [] rest (by simp) (by omega)
  rw [readValue, hskip]
  simp only [List.cons_append, List.append_assoc, List.nil_append, hcons,
    skipSpace_append (isSpace_of_mem_newLine _) hspace] at hitems ⊢
  split
  next heq => exact absurd (List.cons.inj heq).1 hclose
  next => rw [hitems, Option.map_some]

private theorem readValue_object {k : String} {v : Json} {ms : List (String × Json)}
    (h : ∀ m ∈ (k, v) :: ms, m.2.ReadsBack) {level fuel : Nat} {cs rest : List Char}
    (hskip : skipSpace cs = render level (.object ((k, v) :: ms)) ++ rest)
    (hfuel : (render level (.object ((k, v) :: ms))).length ≤ fuel + 1) :
    readValue (fuel + 1) cs = some (.object ((k, v) :: ms), rest) := by
  rw [render_object_cons] at hskip hfuel
  simp only [List.length_cons, List.length_append] at hfuel
  have hmembers := readMembers_render h level (level + 1) fuel [] rest (by simp) (by omega)
  rw [readValue, hskip]
  simp only [quote, List.cons_append, List.append_assoc, List.nil_append,
    skipSpace_append (isSpace_of_mem_newLine _) (c := '\x22') (by decide)] at hmembers ⊢
  split
  next heq => simp at heq
  next => rw [hmembers, Option.map_some]

private theorem IsPlain.readsBack_of_skipSpace {j : Json} (h : j.IsPlain)
    (hread : ∀ (level fuel : Nat) (cs rest : List Char), skipSpace cs = render level j ++ rest →
      (render level j).length ≤ fuel + 1 → EndsNumber rest →
      readValue (fuel + 1) cs = some (j, rest)) : j.ReadsBack := by
  intro level fuel blanks rest hblanks hfuel hrest
  obtain ⟨c, cs, hcons, hspace, -⟩ := h.exists_render_eq_cons level
  obtain ⟨fuel, rfl⟩ : ∃ n, fuel = n + 1 := by
    rw [hcons, List.length_cons] at hfuel
    exact ⟨fuel - 1, by omega⟩
  apply hread level fuel _ rest _ hfuel hrest
  rw [hcons, List.cons_append, skipSpace_append hblanks hspace]

private theorem IsPlain.readsBack {j : Json} (h : j.IsPlain) : j.ReadsBack := by
  induction h with
  | null =>
    apply IsPlain.null.readsBack_of_skipSpace
    intro level fuel cs rest hskip hfuel hrest
    rw [readValue, hskip]
    rfl
  | bool b =>
    apply (IsPlain.bool b).readsBack_of_skipSpace
    intro level fuel cs rest hskip hfuel hrest
    rw [readValue, hskip]
    cases b <;> rfl
  | ofNat n =>
    apply (IsPlain.ofNat n).readsBack_of_skipSpace
    intro level fuel cs rest hskip hfuel hrest
    exact readValue_ofNat n fuel (hskip.trans (by rw [render_ofNat])) hrest
  | string s =>
    apply (IsPlain.string s).readsBack_of_skipSpace
    intro level fuel cs rest hskip hfuel hrest
    have hstring := readString_flatMap_escapeChar s.toList rest
    rw [readValue, hskip, render_string]
    simp only [quote, List.cons_append, List.append_assoc, List.nil_append, hstring,
      Option.map_some, String.ofList_toList]
  | @array items h ih =>
    apply (IsPlain.array h).readsBack_of_skipSpace
    intro level fuel cs rest hskip hfuel hrest
    cases items with
    | nil =>
      rw [readValue, hskip]
      rfl
    | cons x xs => exact readValue_array (h x List.mem_cons_self) ih hskip hfuel
  | @object members h ih =>
    apply (IsPlain.object h).readsBack_of_skipSpace
    intro level fuel cs rest hskip hfuel hrest
    cases members with
    | nil =>
      rw [readValue, hskip]
      rfl
    | cons m ms => exact readValue_object ih hskip hfuel

/-- A value that is printed on lines of its own is read back. -/
theorem IsPlain.parse?_pretty_line {j : Json} (h : j.IsPlain) :
    parse? (j.pretty ++ "\n") = some j := by
  have hread := h.readsBack 0 ((j.pretty ++ "\n").length + 1) [] ['\n'] (by simp)
    (by simp [pretty]; omega) (endsNumber_newLine 0 [])
  have htext : (j.pretty ++ "\n").toList = [] ++ (render 0 j ++ ['\n']) := by
    simp [pretty, String.toList_append]
  rw [parse?, htext, hread]
  rfl

end MixinCatalog.Json
