/-!
# Writing to a sink that may fail

A report is a list of steps. A sink takes text piece by piece and may fail at every step; the first
failure ends the writing.
-/

namespace MixinCatalog.Report

inductive Step where
  | write (text : String)
  | flush
deriving DecidableEq, Repr

def Step.line (text : String) : Step := .write (text ++ "\n")

/-- Something that text can be written to. -/
structure Sink (σ ε : Type) where
  write : String → σ → Except ε σ
  flush : σ → Except ε σ

def Sink.take {σ ε : Type} (sink : Sink σ ε) : Step → σ → Except ε σ
  | .write text => sink.write text
  | .flush => sink.flush

/-- Take the steps in order until one fails. -/
def Sink.run {σ ε : Type} (sink : Sink σ ε) : List Step → σ → Except ε σ
  | [], s => .ok s
  | step :: steps, s => (sink.take step s).bind (sink.run steps)

def Step.text : Step → String
  | .write t => t
  | .flush => ""

def text (steps : List Step) : String := String.join (steps.map Step.text)

@[simp] theorem text_nil : text [] = "" := rfl

@[simp] theorem text_cons (s : Step) (steps : List Step) :
    text (s :: steps) = s.text ++ text steps := by
  simp [text]

@[simp] theorem text_append (xs ys : List Step) : text (xs ++ ys) = text xs ++ text ys := by
  induction xs with
  | nil => simp
  | cons x xs ih => simp [ih, String.append_assoc]

/-- The sink that keeps all text and never fails. -/
def memory : Sink String Empty := ⟨fun t s => .ok (s ++ t), .ok⟩

/-- A sink whose state shows what was written to it, and that never fails, holds the text of the
steps behind what it held before. -/
theorem Sink.run_of_holds {σ ε : Type} {sink : Sink σ ε} (holding : String → σ)
    (hwrite : ∀ content t, sink.write t (holding content) = .ok (holding (content ++ t)))
    (hflush : ∀ content, sink.flush (holding content) = .ok (holding content))
    (steps : List Step) (content : String) :
    sink.run steps (holding content) = .ok (holding (content ++ text steps)) := by
  induction steps generalizing content with
  | nil => simp [Sink.run]
  | cons step steps ih =>
    cases step with
    | write t =>
      rw [Sink.run, Sink.take, hwrite, Except.bind, ih, text_cons, Step.text, String.append_assoc]
    | flush =>
      rw [Sink.run, Sink.take, hflush, Except.bind, ih, text_cons, Step.text, String.empty_append]

theorem run_memory (steps : List Step) (s : String) :
    memory.run steps s = .ok (s ++ text steps) :=
  Sink.run_of_holds id (fun _ _ => rfl) (fun _ => rfl) steps s

end MixinCatalog.Report
