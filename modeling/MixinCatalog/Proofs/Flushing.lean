import MixinCatalog.Command.Run
import MixinCatalog.Proofs.AnalysisOutcome

/-!
# Reports that are flushed

A report that is written without a failure was written whole, and every failure of the sink is
handed on. Whether all of it has gone through a buffer depends on its last step: every report ends
with a flush, except a Markdown report without mixins, which has none. Such a report can be lost on
the way to its file, and nobody hears of it.
-/

namespace MixinCatalog

namespace Report

/-! ### Steps as a sink gets them -/

/-- The steps of a report as a sink gets them: a text may come in pieces. -/
inductive InPieces : List Step → List Step → Prop
  | nil : InPieces [] []
  | write {pieces : List String} {steps ops : List Step} : InPieces steps ops →
      InPieces (.write (String.join pieces) :: steps) (pieces.map .write ++ ops)
  | flush {steps ops : List Step} : InPieces steps ops → InPieces (.flush :: steps) (.flush :: ops)

namespace InPieces

variable {steps ops : List Step}

theorem refl (steps : List Step) : InPieces steps steps := by
  induction steps with
  | nil => exact .nil
  | cons step steps ih =>
    cases step with
    | flush => exact .flush ih
    | write t =>
      have hone : t = String.join [t] := by simp
      have hwrite := @InPieces.write [t] _ _ ih
      rw [← hone] at hwrite
      exact hwrite

theorem text_eq (h : InPieces steps ops) : text ops = text steps := by
  induction h with
  | nil => rfl
  | @write pieces steps ops _ ih =>
    have hpieces : text (pieces.map .write) = String.join pieces := by
      simp [text, Function.comp_def, Step.text]
    rw [text_append, hpieces, text_cons, Step.text, ih]
  | flush _ ih => rw [text_cons, text_cons, ih]

private theorem flush_notMem (h : InPieces steps ops) (hnone : .flush ∉ steps) : .flush ∉ ops := by
  induction h with
  | nil => simp
  | write _ ih =>
    have hops := ih (by simpa using hnone)
    simp [hops]
  | flush _ _ => simp at hnone

private theorem exists_append_flush {front : List Step} (h : InPieces (front ++ [.flush]) ops) :
    ∃ before, ops = before ++ [.flush] := by
  induction front generalizing ops with
  | nil =>
    cases h with
    | flush hrest =>
      cases hrest
      exact ⟨[], rfl⟩
  | cons step front ih =>
    cases h with
    | write hrest =>
      obtain ⟨before, rfl⟩ := ih hrest
      exact ⟨_, (List.append_assoc _ before [.flush]).symm⟩
    | flush hrest =>
      obtain ⟨before, rfl⟩ := ih hrest
      exact ⟨.flush :: before, rfl⟩

end InPieces

/-- A Markdown report without mixins is the only one without a flush. -/
def IsFlushed (format : ReportFormat) (c : Catalog) : Prop :=
  format = .markdown → c.totalMixins ≠ 0

private theorem IsFlushed.exists_append_flush {format : ReportFormat} {c : Catalog}
    (h : IsFlushed format c) (color : Bool) :
    ∃ front, steps format color c = front ++ [.flush] := by
  cases format with
  | json => exact ⟨[.write c.toJson.pretty, .write "\n"], rfl⟩
  | terminal => exact ⟨(terminalLines color c).map .line, rfl⟩
  | markdown =>
    have htotal := h rfl
    simp only [steps, markdown, if_neg htotal]
    exact ⟨_, rfl⟩

private theorem flush_notMem_steps {format : ReportFormat} {c : Catalog} (h : ¬IsFlushed format c)
    (color : Bool) : .flush ∉ steps format color c := by
  obtain ⟨rfl, htotal⟩ := Classical.not_imp.mp h
  simp only [ne_eq, not_not] at htotal
  simp only [steps, markdown, htotal, if_true]
  simp [Step.line]

private theorem InPieces.exists_eq_append_flush {format : ReportFormat} {color : Bool} {c : Catalog}
    {ops : List Step} (h : InPieces (steps format color c) ops) (hflushed : IsFlushed format c) :
    ∃ before, ops = before ++ [.flush] := by
  obtain ⟨front, hsteps⟩ := hflushed.exists_append_flush color
  rw [hsteps] at h
  exact h.exists_append_flush

theorem InPieces.getLast?_eq_flush_iff {format : ReportFormat} {color : Bool} {c : Catalog}
    {ops : List Step} (h : InPieces (steps format color c) ops) :
    ops.getLast? = some .flush ↔ IsFlushed format c := by
  by_cases hflushed : IsFlushed format c
  · obtain ⟨before, rfl⟩ := h.exists_eq_append_flush hflushed
    simp [hflushed]
  · have hnone := h.flush_notMem (flush_notMem_steps hflushed color)
    simp only [hflushed, iff_false]
    exact fun hlast => hnone (List.mem_of_getLast? hlast)

/-! ### Sinks -/

namespace Sink

variable {σ ε : Type} (sink : Sink σ ε)

theorem run_append (xs ys : List Step) (s : σ) :
    sink.run (xs ++ ys) s = (sink.run xs s).bind (sink.run ys) := by
  induction xs generalizing s with
  | nil => rfl
  | cons x xs ih =>
    rw [List.cons_append, run, run]
    cases sink.take x s with
    | error e => rfl
    | ok next => exact ih next

theorem run_eq_error_iff (steps : List Step) (s : σ) (e : ε) :
    sink.run steps s = .error e ↔ ∃ before step after reached, steps = before ++ step :: after ∧
      sink.run before s = .ok reached ∧ sink.take step reached = .error e := by
  constructor
  · intro h
    induction steps generalizing s with
    | nil => simp [run] at h
    | cons step steps ih =>
      cases htake : sink.take step s with
      | error e' =>
        have he : e' = e := by simpa [run, htake, Except.bind] using h
        exact ⟨[], step, steps, s, rfl, rfl, by rw [htake, he]⟩
      | ok next =>
        have hrest : sink.run steps next = .error e := by simpa [run, htake, Except.bind] using h
        obtain ⟨before, failed, after, reached, rfl, hbefore, hfailed⟩ := ih next hrest
        exact ⟨step :: before, failed, after, reached, rfl, bind_eq_ok.mpr ⟨next, htake, hbefore⟩,
          hfailed⟩
  · rintro ⟨before, step, after, reached, rfl, hbefore, hfailed⟩
    rw [run_append, hbefore]
    simp [Except.bind, run, hfailed]

/-- A sink with the record of the steps that it took. -/
def recorded : Sink (σ × List Step) ε where
  write t s := (sink.write t s.1).map fun next => (next, s.2 ++ [.write t])
  flush s := (sink.flush s.1).map fun next => (next, s.2 ++ [.flush])

private theorem take_recorded (step : Step) (s : σ) (done : List Step) :
    sink.recorded.take step (s, done) =
      (sink.take step s).map fun next => (next, done ++ [step]) := by
  cases step <;> rfl

private theorem run_recorded (steps : List Step) (s : σ) (done : List Step) :
    sink.recorded.run steps (s, done) = (sink.run steps s).map fun s' => (s', done ++ steps) := by
  induction steps generalizing s done with
  | nil => simp [run, Except.map]
  | cons step steps ih =>
    rw [run, run, take_recorded]
    cases sink.take step s with
    | error e => rfl
    | ok next => simpa [Except.map, Except.bind] using ih next (done ++ [step])

private theorem receives_recorded :
    sink.recorded.Receives fun content s => text s.2 = content where
  write := by
    intro content t s s' hgot hwrite
    obtain ⟨next, -, rfl⟩ := map_eq_ok.mp hwrite
    simp [hgot, Step.text]
  flush := by
    intro content s s' hgot hflush
    obtain ⟨next, -, rfl⟩ := map_eq_ok.mp hflush
    simp [hgot, Step.text]

variable {sink}

private theorem exists_flush_of_run {capacity : Nat} {steps : List Step} {b b' : Buffered σ}
    (h : (sink.buffered capacity).run (steps ++ [.flush]) b = .ok b') :
    ∃ reached s, sink.flush reached = .ok s ∧ b' = ⟨s, ""⟩ := by
  rw [run_append] at h
  obtain ⟨written, -, hlast⟩ := bind_eq_ok.mp h
  obtain ⟨flushed, hflush, hdone⟩ := bind_eq_ok.mp hlast
  obtain rfl := Except.ok.inj hdone
  obtain ⟨handed, hhanded, hinner⟩ := bind_eq_ok.mp hflush
  obtain ⟨s, hs, rfl⟩ := map_eq_ok.mp hinner
  rw [held_of_handOn hhanded]
  exact ⟨handed.inner, s, hs, rfl⟩

private theorem flushed_of_run_recorded {capacity : Nat} {steps done : List Step} {s s' : σ}
    {held : String} (h : (sink.recorded.buffered capacity).run (steps ++ [.flush]) ⟨(s, []), ""⟩ =
      .ok ⟨(s', done), held⟩) : held = "" ∧ done.getLast? = some .flush := by
  obtain ⟨reached, last, hflush, hended⟩ := exists_flush_of_run h
  obtain ⟨next, -, rfl⟩ := map_eq_ok.mp hflush
  have hparts : (s' = next ∧ done = reached.2 ++ [.flush]) ∧ held = "" := by simpa using hended
  simp [hparts]

private theorem run_buffered_of_fits (sink : Sink σ ε) {capacity : Nat} {steps : List Step}
    {b : Buffered σ} (hnone : .flush ∉ steps)
    (hfits : b.held.utf8ByteSize + (text steps).utf8ByteSize < capacity) :
    (sink.buffered capacity).run steps b = .ok ⟨b.inner, b.held ++ text steps⟩ := by
  induction steps generalizing b with
  | nil => simp [run]
  | cons step steps ih =>
    cases step with
    | flush => simp at hnone
    | write t =>
      have hsize : (text (.write t :: steps)).utf8ByteSize =
          t.utf8ByteSize + (text steps).utf8ByteSize := by
        simp [Step.text]
      have hroom : ¬capacity < b.held.utf8ByteSize + t.utf8ByteSize := by omega
      have hsmall : ¬capacity ≤ t.utf8ByteSize := by omega
      have hheld : (b.held ++ t).utf8ByteSize + (text steps).utf8ByteSize < capacity := by
        simp only [String.utf8ByteSize_append]
        omega
      have htake : (sink.buffered capacity).take (.write t) b = .ok ⟨b.inner, b.held ++ t⟩ := by
        simp only [take, buffered, if_neg hroom, if_neg hsmall, Except.bind]
      have hrest := ih (b := ⟨b.inner, b.held ++ t⟩) (by simpa using hnone) hheld
      rw [run, htake, Except.bind, hrest, text_cons, Step.text, String.append_assoc]

end Sink

end Report

/-! ### Output files -/

namespace FileSystem

open Report

variable {fs : FileSystem} {full : Place → Bool} {path : Path} {report : List Step}

/-- A report that ends with a flush and is delivered stands in its file. -/
theorem read_of_deliver_flush {printed : String}
    (h : (fs.deliver full (some path) (report ++ [.flush])).result = .ok printed) :
    (fs.deliver full (some path) (report ++ [.flush])).fileSystem.read path =
      .ok (text report) := by
  cases htarget : fs.target path with
  | error cause => simp [deliver, create, htarget] at h
  | ok place =>
    cases hrun : ((openFile (full place) place).buffered bufferSize).run (report ++ [.flush])
        ⟨fs.insert place (.file .empty), ""⟩ with
    | error e => simp [deliver, create, htarget, hrun] at h
    | ok written =>
      have hopened : fs.insert place (.file .empty) = fs.insert place (.file "".toUTF8) := rfl
      obtain ⟨content, hcontent, htext⟩ :=
        (receives_openFile fs (ne_nil_of_target htarget) (full place)).run_buffered hopened hrun
      obtain ⟨_, s, -, rfl⟩ := Sink.exists_flush_of_run hrun
      have hstands : s = fs.insert place (.file content.toUTF8) := hcontent
      have hwhole : content = text report := by simpa [Step.text] using htext
      have hleft : (fs.deliver full (some path) (report ++ [.flush])).fileSystem = s := by
        simp [deliver, create, htarget, hrun, Sink.close, Sink.handOn]
      rw [hleft, hstands, hwhole]
      exact read_insert_of_target htarget (text report)

/-- A report without a flush that fits into the buffer is delivered also where there is no room for
it, and then nothing stands in its file. -/
theorem deliver_of_full {place : Place} (htarget : fs.target path = .ok place)
    (hfull : full place = true) (hnone : .flush ∉ report)
    (hfits : (text report).utf8ByteSize < bufferSize) :
    fs.deliver full (some path) report = ⟨.ok "", fs.insert place (.file .empty)⟩ := by
  have hrun : ((openFile true place).buffered bufferSize).run report
      ⟨fs.insert place (.file .empty), ""⟩ = .ok ⟨fs.insert place (.file .empty), text report⟩ := by
    simpa using (openFile true place).run_buffered_of_fits
      (b := ⟨fs.insert place (.file .empty), ""⟩) hnone (by simpa using hfits)
  have hclosed : (openFile true place).close ⟨fs.insert place (.file .empty), text report⟩ =
      fs.insert place (.file .empty) := by
    by_cases hempty : (text report).isEmpty
    · simp [Sink.close, Sink.handOn, hempty]
    · simp [Sink.close, Sink.handOn, hempty, openFile, Except.map]
  simp only [deliver, create, htarget, hfull, hrun, hclosed]

end FileSystem

private theorem Command.exists_run_eq_outcome (fs : FileSystem) (environment : Environment)
    {args : List String} {flags : AnalyzeFlags} {verbosity : Nat}
    (h : parse environment.noImplicitReturn args = .ok (.analyze flags verbosity)) :
    ∃ log, run fs environment args = outcome log (fs.analyzeLogged environment.full
      environment.color flags (Config.loadCurrent fs).1).1 := by
  rw [run, h]
  exact ⟨_, rfl⟩

namespace Report

namespace InPieces

variable {format : ReportFormat} {color : Bool} {c : Catalog} {ops done : List Step}
  {σ ε : Type} {sink : Sink σ ε} {s s' : σ} {capacity : Nat} {held : String}

private theorem text_eq_render (h : InPieces (steps format color c) ops) :
    text ops = render format color c :=
  h.text_eq

private theorem of_run_recorded (h : InPieces (steps format color c) ops)
    (hrun : sink.recorded.run ops (s, []) = .ok (s', done)) :
    text done = render format color c ∧ (done.getLast? = some .flush ↔ IsFlushed format c) := by
  rw [Sink.run_recorded] at hrun
  obtain ⟨reached, -, hdone⟩ := Sink.map_eq_ok.mp hrun
  have hall : ops = done := (Prod.mk.inj hdone).2
  rw [← hall]
  exact ⟨h.text_eq_render, h.getLast?_eq_flush_iff⟩

private theorem of_run_buffered (h : InPieces (steps format color c) ops)
    (hrun : (sink.recorded.buffered capacity).run ops ⟨(s, []), ""⟩ = .ok ⟨(s', done), held⟩) :
    text done ++ held = render format color c ∧
      (IsFlushed format c → held = "" ∧ done.getLast? = some .flush) := by
  have hgot : text (s, ([] : List Step)).2 = "" := rfl
  obtain ⟨content, hcontent, hall⟩ := sink.receives_recorded.run_buffered hgot hrun
  refine ⟨by simpa [hcontent, h.text_eq_render] using hall, fun hflushed => ?_⟩
  obtain ⟨before, rfl⟩ := h.exists_eq_append_flush hflushed
  exact Sink.flushed_of_run_recorded hrun

private theorem run_buffered_of_not_isFlushed (h : InPieces (steps format color c) ops)
    (sink : Sink σ ε) (s : σ) (hflushed : ¬IsFlushed format c)
    (hfits : (render format color c).utf8ByteSize < capacity) :
    (sink.recorded.buffered capacity).run ops ⟨(s, []), ""⟩ =
      .ok ⟨(s, []), render format color c⟩ := by
  have hnone := h.flush_notMem (flush_notMem_steps hflushed color)
  have hrun := sink.recorded.run_buffered_of_fits (b := ⟨(s, []), ""⟩) hnone
    (by simpa [h.text_eq_render] using hfits)
  simpa [h.text_eq_render] using hrun

end InPieces

/-- A report that is written without a failure was written whole, however its texts were cut into
pieces, and a failure of any step is the failure of the report. It is flushed behind its last text
if and only if it is no Markdown report without mixins. A flushed report has gone through every
buffer, and stands in its output file if its delivery succeeds. One that is not stays in a buffer
that is large enough, and its delivery succeeds also where there is no room for it. -/
theorem written_report_is_flushed_iff (format : ReportFormat) (color : Bool) (c : Catalog) :
    (∀ {σ ε : Type} (sink : Sink σ ε) (ops : List Step) (s : σ),
      InPieces (steps format color c) ops →
      (∀ s' done, sink.recorded.run ops (s, []) = .ok (s', done) →
        text done = render format color c ∧
          (done.getLast? = some .flush ↔ IsFlushed format c)) ∧
      (∀ e, sink.run ops s = .error e ↔ ∃ before op after reached, ops = before ++ op :: after ∧
        sink.run before s = .ok reached ∧ sink.take op reached = .error e) ∧
      ∀ capacity,
        (∀ s' done held,
          (sink.recorded.buffered capacity).run ops ⟨(s, []), ""⟩ = .ok ⟨(s', done), held⟩ →
            text done ++ held = render format color c ∧
              (IsFlushed format c → held = "" ∧ done.getLast? = some .flush)) ∧
        (¬IsFlushed format c → (render format color c).utf8ByteSize < capacity →
          (sink.recorded.buffered capacity).run ops ⟨(s, []), ""⟩ =
            .ok ⟨(s, []), render format color c⟩)) ∧
    ∀ (fs : FileSystem) (full : Place → Bool) (path : Path),
      let ended := fs.deliver full (some path) (steps format color c)
      (IsFlushed format c → ∀ printed, ended.result = .ok printed →
        ended.fileSystem.read path = .ok (render format color c)) ∧
      (¬IsFlushed format c → (render format color c).utf8ByteSize < FileSystem.bufferSize →
        ∀ place, fs.target path = .ok place → full place = true →
          ended = ⟨.ok "", fs.insert place (.file .empty)⟩) := by
  constructor
  · intro σ ε sink ops s hops
    refine ⟨fun s' done => hops.of_run_recorded, sink.run_eq_error_iff ops s, fun capacity => ?_⟩
    exact ⟨fun s' done held => hops.of_run_buffered, hops.run_buffered_of_not_isFlushed sink s⟩
  · intro fs full path ended
    constructor
    · intro hflushed printed hresult
      obtain ⟨front, hsteps⟩ := hflushed.exists_append_flush color
      have hrender : render format color c = text front := by simp [render, hsteps, Step.text]
      simp only [ended, hsteps] at hresult ⊢
      rw [hrender]
      exact FileSystem.read_of_deliver_flush hresult
    · intro hflushed hfits place htarget hfull
      exact FileSystem.deliver_of_full htarget hfull (flush_notMem_steps hflushed color) hfits

/-! ### A device without room -/

def samplePlace : Place := [⟨"dev", by decide⟩, ⟨"full", by decide⟩]

/-- An empty working directory, and a device that has no room for anything. -/
def sampleDevices : FileSystem where
  entries :=
    [([⟨"dev", by decide⟩], .directory), (samplePlace, .file .empty),
      ([⟨"work", by decide⟩], .directory)]
  distinct := by decide
  current := [⟨"work", by decide⟩]

def sampleEnvironment : Environment where
  full := (· == samplePlace)

def emptyCatalog : Catalog := ⟨⟨"."⟩, 0, []⟩

private theorem catalogProject_sampleDevices :
    sampleDevices.catalogProject ⟨"."⟩ {} = .ok emptyCatalog := by
  have hfile : sampleDevices.isFile ⟨"."⟩ = false := rfl
  have hvisible : sampleDevices.visibleFiles ⟨"."⟩ = .ok [] := rfl
  have hpatterns : ([] : List String).mapM Glob.parse = .ok [] := rfl
  simp [FileSystem.catalogProject, FileSystem.projectFiles, hfile, FileSystem.walk, hvisible,
    hpatterns, Path.sortOn, Except.map, FileSystem.catalogPaths, FileSystem.sortedEntries,
    FileSystem.catalogEach, FileSystem.catalogOf, emptyCatalog]

/-- A run whose report goes to the device. -/
def sampleRun (format : String) : Outcome :=
  Command.run sampleDevices sampleEnvironment ["analyze", ".", "-f", format, "-o", "/dev/full"]

theorem exists_sampleRun_eq {name : String} {format : ReportFormat}
    (h : Command.parse none ["analyze", ".", "-f", name, "-o", "/dev/full"] =
      .ok (.analyze ⟨⟨"."⟩, format, some ⟨"/dev/full"⟩, none, none, false⟩ 0)) :
    ∃ log, sampleRun name = Command.outcome log (sampleDevices.deliver sampleEnvironment.full
      (some ⟨"/dev/full"⟩) (steps format false emptyCatalog)) := by
  obtain ⟨log, hrun⟩ := Command.exists_run_eq_outcome sampleDevices sampleEnvironment h
  have hoptions : AnalyzeFlags.options
      ⟨⟨"."⟩, format, some ⟨"/dev/full"⟩, none, none, false⟩ {} = {} := rfl
  have hconfig : (Config.loadCurrent sampleDevices).1 = {} := rfl
  refine ⟨log, ?_⟩
  rw [sampleRun, hrun, hconfig,
    FileSystem.analyzeLogged_fst _ _ _ _ _ (by rw [hoptions]; decide), hoptions,
    catalogProject_sampleDevices]
  rfl

/-- The Markdown report of an empty directory goes to a device without room for it. The run ends as
if all were well, and nothing has arrived. -/
theorem sampleRun_loses_report :
    (sampleRun "markdown").code = 0 ∧ (sampleRun "markdown").failure = none ∧
    (sampleRun "markdown").fileSystem.read ⟨"/dev/full"⟩ = .ok "" ∧
    render .markdown false emptyCatalog ≠ "" ∧
    (steps .markdown false emptyCatalog).getLast? ≠ some .flush := by
  have hempty : ¬IsFlushed .markdown emptyCatalog := fun h => h rfl rfl
  have htarget : sampleDevices.target ⟨"/dev/full"⟩ = .ok samplePlace := rfl
  have hfits : (render .markdown false emptyCatalog).utf8ByteSize < FileSystem.bufferSize := by
    decide +kernel
  have hfull : sampleEnvironment.full samplePlace = true := rfl
  have hnone := flush_notMem_steps hempty false
  have hdelivered := FileSystem.deliver_of_full htarget hfull hnone hfits
  obtain ⟨log, hrun⟩ := @exists_sampleRun_eq "markdown" .markdown rfl
  rw [hrun, hdelivered]
  refine ⟨rfl, rfl, ?_, by decide +kernel, by decide +kernel⟩
  exact FileSystem.read_insert_of_target htarget ""

/-- The JSON report of the same directory does not get lost: it is flushed, so the run would have
failed at the device, and it stands in a file with room for it. -/
theorem emptyCatalog_json_delivered :
    InPieces (steps .json false emptyCatalog) (steps .json false emptyCatalog) ∧
    IsFlushed .json emptyCatalog ∧ ¬IsFlushed .markdown emptyCatalog ∧
    (∃ done, memory.recorded.run (steps .json false emptyCatalog) ("", []) =
        .ok (render .json false emptyCatalog, done) ∧ done.getLast? = some .flush) ∧
    (sampleDevices.deliver (fun _ => false) (some ⟨"r.json"⟩)
      (steps .json false emptyCatalog)).fileSystem.read ⟨"r.json"⟩ =
        .ok (render .json false emptyCatalog) ∧
    sampleDevices.deliver sampleEnvironment.full (some ⟨"/dev/full"⟩)
      (steps .markdown false emptyCatalog) =
        ⟨.ok "", sampleDevices.insert samplePlace (.file .empty)⟩ := by
  have hpieces := InPieces.refl (steps .json false emptyCatalog)
  have hflushed : IsFlushed .json emptyCatalog := by simp [IsFlushed]
  have hempty : ¬IsFlushed .markdown emptyCatalog := fun h => h rfl rfl
  obtain ⟨hsink, hfile⟩ := written_report_is_flushed_iff .json false emptyCatalog
  obtain ⟨-, hdevice⟩ := written_report_is_flushed_iff .markdown false emptyCatalog
  have hrun : memory.recorded.run (steps .json false emptyCatalog) ("", []) =
      .ok (render .json false emptyCatalog, steps .json false emptyCatalog) := by
    simp [Sink.run_recorded, run_memory, Except.map, render]
  have hlast := ((hsink memory _ "" hpieces).1 _ _ hrun).2.mpr hflushed
  have htarget : sampleDevices.target ⟨"r.json"⟩ =
      .ok [⟨"work", by decide⟩, ⟨"r.json", by decide⟩] := rfl
  have hdelivered := FileSystem.deliver_of_target htarget (steps .json false emptyCatalog)
  refine ⟨hpieces, hflushed, hempty, ⟨_, hrun, hlast⟩, ?_, ?_⟩
  · exact (hfile sampleDevices (fun _ => false) ⟨"r.json"⟩).1 hflushed "" (by rw [hdelivered])
  · exact (hdevice sampleDevices sampleEnvironment.full ⟨"/dev/full"⟩).2 hempty
      (by decide +kernel) samplePlace rfl rfl

end Report

end MixinCatalog
