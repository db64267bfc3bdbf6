import MixinCatalog.Report.Sink

/-!
# Buffers

A sink with a buffer holds text back and hands it on when the buffer is full or flushed. What was
handed on and what is held back are together all that was written, so nothing is missing from the
sink once nothing is held back.
-/

namespace MixinCatalog.Report

/-- What a sink has got and what is still held back from it. -/
structure Buffered (σ : Type) where
  inner : σ
  held : String

section Buffer

variable {σ ε : Type} (sink : Sink σ ε)

/-- Hand on what is held back, if there is something. -/
def Sink.handOn (b : Buffered σ) : Except ε (Buffered σ) :=
  if b.held.isEmpty then .ok b else (sink.write b.held b.inner).map fun s => ⟨s, ""⟩

/-- A sink that holds back at most `capacity` bytes. A text that does not fit in has what is held
back handed on first, and a text as large as the whole buffer is handed on itself. -/
def Sink.buffered (capacity : Nat) : Sink (Buffered σ) ε where
  write text b :=
    (if capacity < b.held.utf8ByteSize + text.utf8ByteSize then sink.handOn b else .ok b).bind
      fun b =>
        if capacity ≤ text.utf8ByteSize then (sink.write text b.inner).map fun s => ⟨s, b.held⟩
        else .ok ⟨b.inner, b.held ++ text⟩
  flush b := (sink.handOn b).bind fun b => (sink.flush b.inner).map fun s => ⟨s, b.held⟩

/-- What a sink has got when its buffer goes away: all that can still be handed on. Nobody hears of
a failure then. -/
def Sink.close (b : Buffered σ) : σ :=
  match sink.handOn b with
  | .ok handed => handed.inner
  | .error _ => b.inner

end Buffer

/-- What a sink has got, as a relation between a text and the state of the sink. -/
structure Sink.Receives {σ ε : Type} (sink : Sink σ ε) (got : String → σ → Prop) : Prop where
  write : ∀ {content t : String} {s s' : σ}, got content s → sink.write t s = .ok s' →
    got (content ++ t) s'
  flush : ∀ {content : String} {s s' : σ}, got content s → sink.flush s = .ok s' → got content s'

namespace Sink

variable {σ ε : Type} {sink : Sink σ ε} {got : String → σ → Prop} {capacity : Nat}
  {content : String} {b b' : Buffered σ}

theorem bind_eq_ok {α β : Type} {x : Except ε α} {f : α → Except ε β} {b : β} :
    x.bind f = .ok b ↔ ∃ a, x = .ok a ∧ f a = .ok b := by
  cases x <;> simp [Except.bind]

theorem map_eq_ok {α β : Type} {x : Except ε α} {f : α → β} {b : β} :
    x.map f = .ok b ↔ ∃ a, x = .ok a ∧ f a = b := by
  cases x <;> simp [Except.map]

theorem exists_run_eq_ok (h : ∀ step s, ∃ s', sink.take step s = .ok s') (steps : List Step)
    (s : σ) : ∃ s', sink.run steps s = .ok s' := by
  induction steps generalizing s with
  | nil => exact ⟨s, rfl⟩
  | cons step steps ih =>
    obtain ⟨next, hnext⟩ := h step s
    obtain ⟨s', hs'⟩ := ih next
    exact ⟨s', bind_eq_ok.mpr ⟨next, hnext, hs'⟩⟩

theorem held_of_handOn (h : sink.handOn b = .ok b') : b'.held = "" := by
  unfold handOn at h
  split at h
  next hempty =>
    obtain rfl := Except.ok.inj h
    exact String.isEmpty_iff.mp hempty
  next =>
    obtain ⟨s, _, rfl⟩ := map_eq_ok.mp h
    rfl

theorem Receives.handOn (h : sink.Receives got) (hb : got content b.inner)
    (hok : sink.handOn b = .ok b') : got (content ++ b.held) b'.inner := by
  unfold Sink.handOn at hok
  split at hok
  next hempty =>
    obtain rfl := Except.ok.inj hok
    rwa [String.isEmpty_iff.mp hempty, String.append_empty]
  next =>
    obtain ⟨s, hwrite, rfl⟩ := map_eq_ok.mp hok
    exact h.write hb hwrite

/-- A text that is too large to be held back leaves nothing in front of it. -/
theorem held_of_capacity_le {size : Nat} (hsize : capacity ≤ size)
    (hroom : ¬capacity < b.held.utf8ByteSize + size) : b.held = "" := by
  have hzero : b.held.utf8ByteSize = 0 := by omega
  exact String.utf8ByteSize_eq_zero_iff.mp hzero

/-- Nothing gets lost in a buffer and nothing changes places: what was handed on and what is held
back are together what they were, with the text of the step behind it. -/
theorem Receives.take_buffered (h : sink.Receives got) {step : Step} (hb : got content b.inner)
    (hok : (sink.buffered capacity).take step b = .ok b') :
    ∃ content', got content' b'.inner ∧ content' ++ b'.held = content ++ b.held ++ step.text := by
  cases step with
  | flush =>
    obtain ⟨handed, hhanded, hflush⟩ := bind_eq_ok.mp hok
    obtain ⟨s, hs, rfl⟩ := map_eq_ok.mp hflush
    refine ⟨content ++ b.held, h.flush (h.handOn hb hhanded) hs, ?_⟩
    simp [held_of_handOn hhanded, Step.text]
  | write t =>
    obtain ⟨next, hnext, hrest⟩ := bind_eq_ok.mp hok
    -- what was held back is handed on first, or it stays
    have hgot : ∃ first, got first next.inner ∧ first ++ next.held = content ++ b.held ∧
        (capacity ≤ t.utf8ByteSize → next.held = "") := by
      split at hnext
      next =>
        have hheld := held_of_handOn hnext
        exact ⟨_, h.handOn hb hnext, by simp [hheld], fun _ => hheld⟩
      next hroom =>
        obtain rfl := Except.ok.inj hnext
        exact ⟨content, hb, rfl, fun hsize => held_of_capacity_le hsize hroom⟩
    obtain ⟨first, hfirst, hall, hlarge⟩ := hgot
    split at hrest
    next hsize =>
      obtain ⟨s, hs, rfl⟩ := map_eq_ok.mp hrest
      have hnone := hlarge hsize
      refine ⟨first ++ t, h.write hfirst hs, ?_⟩
      simp [← hall, hnone, Step.text]
    next =>
      obtain rfl := Except.ok.inj hrest
      refine ⟨first, hfirst, ?_⟩
      simp [← hall, Step.text, String.append_assoc]

theorem Receives.run_buffered (h : sink.Receives got) {steps : List Step}
    (hb : got content b.inner) (hok : (sink.buffered capacity).run steps b = .ok b') :
    ∃ content', got content' b'.inner ∧ content' ++ b'.held = content ++ b.held ++ text steps := by
  induction steps generalizing content b with
  | nil =>
    obtain rfl := Except.ok.inj hok
    exact ⟨content, hb, by simp⟩
  | cons step steps ih =>
    obtain ⟨next, hnext, hrest⟩ := bind_eq_ok.mp hok
    obtain ⟨first, hfirst, hall⟩ := h.take_buffered hb hnext
    obtain ⟨content', hcontent', htext⟩ := ih hfirst hrest
    exact ⟨content', hcontent', by rw [htext, hall, text_cons, String.append_assoc]⟩

theorem exists_handOn_eq_ok (h : ∀ t s, ∃ s', sink.write t s = .ok s') (b : Buffered σ) :
    ∃ b', sink.handOn b = .ok b' := by
  unfold handOn
  split
  · exact ⟨b, rfl⟩
  · obtain ⟨s, hs⟩ := h b.held b.inner
    exact ⟨_, map_eq_ok.mpr ⟨s, hs, rfl⟩⟩

/-- The buffer of a sink that does not fail does not fail. -/
theorem exists_take_buffered_eq_ok (h : ∀ step s, ∃ s', sink.take step s = .ok s')
    (capacity : Nat) (step : Step) (b : Buffered σ) :
    ∃ b', (sink.buffered capacity).take step b = .ok b' := by
  have hwrite (t : String) (s : σ) := h (.write t) s
  cases step with
  | flush =>
    obtain ⟨handed, hhanded⟩ := exists_handOn_eq_ok hwrite b
    obtain ⟨s, hs⟩ := h .flush handed.inner
    exact ⟨_, bind_eq_ok.mpr ⟨handed, hhanded, map_eq_ok.mpr ⟨s, hs, rfl⟩⟩⟩
  | write t =>
    have hnext : ∃ next, (if capacity < b.held.utf8ByteSize + t.utf8ByteSize then sink.handOn b
        else .ok b) = .ok next := by
      split
      · exact exists_handOn_eq_ok hwrite b
      · exact ⟨b, rfl⟩
    obtain ⟨next, hnext⟩ := hnext
    obtain ⟨s, hs⟩ := hwrite t next.inner
    by_cases hsize : capacity ≤ t.utf8ByteSize
    · refine ⟨⟨s, next.held⟩, bind_eq_ok.mpr ⟨next, hnext, ?_⟩⟩
      rw [if_pos hsize]
      exact map_eq_ok.mpr ⟨s, hs, rfl⟩
    · refine ⟨⟨next.inner, next.held ++ t⟩, bind_eq_ok.mpr ⟨next, hnext, ?_⟩⟩
      rw [if_neg hsize]

theorem Receives.close (h : sink.Receives got) (hwrite : ∀ t s, ∃ s', sink.write t s = .ok s')
    (hb : got content b.inner) : got (content ++ b.held) (sink.close b) := by
  obtain ⟨handed, hhanded⟩ := exists_handOn_eq_ok hwrite b
  simp only [Sink.close, hhanded]
  exact h.handOn hb hhanded

end Sink

end MixinCatalog.Report
