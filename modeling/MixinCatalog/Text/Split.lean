/-!
# Texts in pieces

Splitting a text at every occurrence of a separator, and joining pieces with it again.
-/

namespace MixinCatalog.Text

/-- The stretches between the separators of a text. There is always at least one. -/
def split (separator : Char) : List Char → List (List Char)
  | [] => [[]]
  | c :: cs =>
    if c = separator then [] :: split separator cs
    else match split separator cs with
      | [] => [[c]]
      | s :: ss => (c :: s) :: ss

/-- The text with a separator between each two pieces. -/
def join (separator : Char) : List (List Char) → List Char
  | [] => []
  | [s] => s
  | s :: ss => s ++ separator :: join separator ss

theorem split_ne_nil (separator : Char) (cs : List Char) : split separator cs ≠ [] := by
  cases cs with
  | nil => simp [split]
  | cons c cs =>
    simp only [split]
    split
    · simp
    · split <;> simp

theorem join_split (separator : Char) (cs : List Char) :
    join separator (split separator cs) = cs := by
  induction cs with
  | nil => rfl
  | cons c cs ih =>
    simp only [split]
    have hne := split_ne_nil separator cs
    cases hs : split separator cs with
    | nil => exact absurd hs hne
    | cons s ss =>
      rw [hs] at ih
      by_cases hc : c = separator
      · subst hc
        simp [join, ih]
      · cases ss with
        | nil => simp_all [join]
        | cons t ts => simp_all [join]

theorem split_append (separator : Char) (a b : List Char) :
    split separator (a ++ separator :: b) = split separator a ++ split separator b := by
  induction a with
  | nil => simp [split]
  | cons c a ih =>
    by_cases hc : c = separator
    · simp [split, hc, ih]
    · have hne := split_ne_nil separator a
      cases ha : split separator a with
      | nil => exact absurd ha hne
      | cons s ss => simp [split, hc, ih, ha]

theorem split_append_separator {separator : Char} {s : List Char} (h : separator ∉ s)
    (cs : List Char) : split separator (s ++ separator :: cs) = s :: split separator cs := by
  induction s with
  | nil => simp [split]
  | cons c s ih =>
    simp only [List.mem_cons, not_or] at h
    simp [split, Ne.symm h.1, ih h.2]

theorem split_of_notMem {separator : Char} {s : List Char} (h : separator ∉ s) :
    split separator s = [s] := by
  induction s with
  | nil => simp [split]
  | cons c s ih =>
    simp only [List.mem_cons, not_or] at h
    simp [split, Ne.symm h.1, ih h.2]

/-- No piece has a separator. -/
theorem notMem_of_mem_split {separator : Char} {cs s : List Char} (h : s ∈ split separator cs) :
    separator ∉ s := by
  induction cs generalizing s with
  | nil => simp_all [split]
  | cons c cs ih =>
    by_cases hc : c = separator
    · rw [split, if_pos hc, List.mem_cons] at h
      rcases h with rfl | h
      · simp
      · exact ih h
    · cases hs : split separator cs with
      | nil => exact absurd hs (split_ne_nil separator cs)
      | cons first rest =>
        simp only [split, if_neg hc, hs, List.mem_cons] at h
        rcases h with rfl | h
        · have hfirst := ih (s := first) (by simp [hs])
          simp [Ne.symm hc, hfirst]
        · exact ih (by simp [hs, h])

/-- Where two texts meet, the last piece of the one and the first piece of the other become one
piece. -/
theorem exists_split_append (separator : Char) (a b : List Char) :
    ∃ front s t rest, split separator a = front ++ [s] ∧ split separator b = t :: rest ∧
      split separator (a ++ b) = front ++ (s ++ t) :: rest := by
  obtain ⟨t, rest, hb⟩ := List.exists_cons_of_ne_nil (split_ne_nil separator b)
  induction a with
  | nil => exact ⟨[], [], t, rest, rfl, hb, hb⟩
  | cons c a ih =>
    obtain ⟨front, s, t, rest, ha, hb, hab⟩ := ih
    by_cases hc : c = separator
    · refine ⟨[] :: front, s, t, rest, ?_, hb, ?_⟩
      · simp [split, hc, ha]
      · simp [split, hc, hab]
    · cases front with
      | nil =>
        refine ⟨[], c :: s, t, rest, ?_, hb, ?_⟩
        · simp [split, hc, ha]
        · simp [split, hc, hab]
      | cons first front =>
        refine ⟨(c :: first) :: front, s, t, rest, ?_, hb, ?_⟩
        · simp [split, hc, ha]
        · simp [split, hc, hab]

/-- The first pieces make a beginning of the text. -/
theorem join_isPrefix (separator : Char) {ss ts : List (List Char)} (h : ts <+: ss) :
    join separator ts <+: join separator ss := by
  induction ts generalizing ss with
  | nil => simp [join]
  | cons t ts ih =>
    cases ss with
    | nil => simp at h
    | cons s ss =>
      obtain ⟨rfl, hrest⟩ := List.cons_prefix_cons.mp h
      cases ts with
      | nil =>
        cases ss with
        | nil => simp [join]
        | cons u us => simp [join]
      | cons u us =>
        cases ss with
        | nil => simp at hrest
        | cons v vs =>
          have hjoin := ih hrest
          simpa [join, List.prefix_append_right_inj] using hjoin

/-- Pieces without the separator come back from the joined text. -/
theorem split_join {separator : Char} {ss : List (List Char)} (hne : ss ≠ [])
    (h : ∀ s ∈ ss, separator ∉ s) : split separator (join separator ss) = ss := by
  induction ss with
  | nil => exact absurd rfl hne
  | cons s ss ih =>
    have hs := h s (by simp)
    cases ss with
    | nil => exact split_of_notMem hs
    | cons t ts =>
      rw [join, split_append_separator hs, ih (by simp) fun u hu => h u (by simp [hu])]
      simp

end MixinCatalog.Text
