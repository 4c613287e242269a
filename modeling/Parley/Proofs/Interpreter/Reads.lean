import Parley.Interpreter.Pump
import Parley.Proofs.Terminal.Cuts
import Parley.Proofs.Utf8.Stream

/-! What a transcript shows of an interpreter's output and how the output was cut into reads. After
each read the pump has shown its text as if it had come at once (`Shows`), provided that the cuts
do no harm: the decoder joins characters, the renderer joins sequences, and only a cursor code
within another sequence and a backspace across a cut come out differently. -/
namespace Parley.Terminal

open CursorCode (strip)

def machineAfter (text : Text) : Machine := ({} : Machine).read (strip text)

def canvasAfter (text : Text) : Canvas := Canvas.drawAll {} (({} : Machine).strokes (strip text))

/-- A cut that nothing shows: no cursor code that it falls within begins within a sequence, and
nothing that came before it is taken back after it. -/
def HarmlessCut (before next : Text) : Prop :=
  ({} : Machine).WholeCodes before next ∧
    ((canvasAfter before).pending = [] ∨
      spares 0 ((machineAfter before).strokes (strip next)) = true)

instance (before next : Text) : Decidable (HarmlessCut before next) := by
  unfold HarmlessCut Machine.WholeCodes
  infer_instance

/-- All the cuts between parts that come after a text, and the cut before them. -/
def HarmlessAfter (before : Text) : List Text → Prop
  | [] => True
  | next :: rest => HarmlessCut before next ∧ HarmlessAfter (before ++ next) rest

instance decidableHarmlessAfter : ∀ (before : Text) (parts : List Text),
    Decidable (HarmlessAfter before parts)
  | _, [] => .isTrue trivial
  | before, next :: rest =>
    have := decidableHarmlessAfter (before ++ next) rest
    inferInstanceAs (Decidable (_ ∧ _))

end Parley.Terminal

namespace Parley.Interpreter.Pump

open Terminal
open CursorCode (strip)

/-- The pump has shown a text as if it had come at once. -/
def Shows (p : Pump) (text : Text) : Prop :=
  ∃ r : Renderer, p.filter = .ansi r ∧ r.machine.Calm ∧ (machineAfter text).Alike r.machine ∧
    r.style = (canvasAfter text).style ∧ p.transcript.spans = (canvasAfter text).flush.spans

theorem shows_nil (program : Text) : Shows { program, filter := .ofMode .ansi } [] :=
  ⟨{}, rfl, rfl, .refl _, rfl, rfl⟩

theorem shows_present {p : Pump} {before next : Text} (h : p.Shows before)
    (hcut : HarmlessCut before next) : (p.present next).Shows (before ++ next) := by
  obtain ⟨r, hfilter, hcalm, halike, hstyle, hspans⟩ := h
  obtain ⟨hcodes, hspares⟩ := hcut
  have hrender := Renderer.render_text hcalm (strip next)
  obtain ⟨hread, hstrokes⟩ := halike.read (strip next)
  obtain ⟨hmachine, hwhole⟩ := Machine.read_cut (m := {}) rfl hcodes
  rw [Machine.strokes_append] at hwhole
  rw [Machine.read_append] at hmachine
  have hcanvas : canvasAfter (before ++ next) =
      (canvasAfter before).drawAll ((machineAfter before).strokes (strip next)) := by
    rw [canvasAfter, ← hwhole, Canvas.drawAll_append]
    rfl
  have hflush := Canvas.flush_drawAll hspares
  rw [← hcanvas, ← hstyle] at hflush
  refine ⟨(r.render (Utf8.encode (strip next))).1, ?_, ?_, ?_, ?_, ?_⟩
  · simp [present, Filter.apply, hfilter]
  · rw [hrender]
    exact Machine.calm_read hcalm _
  · rw [hrender]
    exact hmachine.trans hread
  · rw [hrender, hstrokes]
    exact (congrArg Canvas.style hflush).symm
  · have hpresent : (p.present next).transcript =
        p.transcript.append (r.render (Utf8.encode (strip next))).2 := by
      simp [present, Filter.apply, hfilter]
    rw [hpresent, Transcript.spans_append, hrender, hstrokes, hspans]
    exact (congrArg Canvas.spans hflush).symm

theorem shows_flush {p : Pump} {before : Text} (h : p.Shows before)
    (hcut : HarmlessCut before p.decoder.finish) : p.flush.Shows (before ++ p.decoder.finish) := by
  have hpump : ({ p with decoder := {} } : Pump).Shows before := h
  by_cases hf : p.decoder.finish = []
  · rw [flush, if_pos hf, hf, List.append_nil]
    exact hpump
  · rw [flush, if_neg hf]
    exact shows_present hpump hcut

/-- Reads and the end of the output, none of whose cuts do any harm. -/
theorem shows_reads {p : Pump} {before : Text} (h : p.Shows before) {pieces : List Bytes}
    (hcuts : HarmlessAfter before (p.decoder.texts pieces)) :
    (pieces.foldl receive p).flush.Shows (before ++ (p.decoder.texts pieces).flatten) := by
  induction pieces generalizing p before with
  | nil =>
    rw [Utf8.Decoder.texts_nil] at hcuts ⊢
    rw [List.flatten_singleton]
    exact shows_flush h hcuts.1
  | cons piece rest ih =>
    rw [Utf8.Decoder.texts_cons] at hcuts ⊢
    have hpump : ({ p with decoder := (p.decoder.feed piece).1 } : Pump).Shows before := h
    have hpresent : (p.receive piece).Shows (before ++ (p.decoder.feed piece).2) :=
      shows_present hpump hcuts.1
    have hrest := ih hpresent hcuts.2
    rw [List.flatten_cons, ← List.append_assoc]
    exact hrest

theorem run_data_append (p : Pump) {pieces : List Bytes} (h : [] ∉ pieces) (rest : List Turn) :
    p.run false (pieces.map (⟨false, .data ·⟩) ++ rest) =
      (pieces.foldl receive p).run false rest := by
  induction pieces generalizing p with
  | nil => rfl
  | cons piece pieces ih =>
    obtain ⟨hpiece, hpieces⟩ := List.ne_and_not_mem_of_not_mem_cons h
    rw [List.map_cons, List.cons_append, run, Reading.isEnd_data hpiece.symm,
      if_neg Bool.false_ne_true, p.hear_data hpiece.symm, ih _ hpieces, List.foldl_cons]

theorem run_data (p : Pump) {pieces : List Bytes} (h : [] ∉ pieces) :
    p.run false (pieces.map (⟨false, .data ·⟩)) = (pieces.foldl receive p).finish := by
  rw [← List.append_nil (pieces.map _), run_data_append p h, run]

theorem program_foldl_receive (p : Pump) (reads : List Bytes) :
    (reads.foldl receive p).program = p.program := by
  induction reads generalizing p with
  | nil => rfl
  | cons read rest ih => exact ih (p.receive read)

/-- The transcript of a program whose output is rendered, after these reads and the end. -/
def transcriptOf (program : Text) (reads : List Bytes) : Transcript :=
  let pump : Pump := { program, filter := .ofMode .ansi }
  (pump.run false (reads.map (⟨false, .data ·⟩))).transcript

def Harmless (reads : List Bytes) : Prop := HarmlessAfter [] (({} : Utf8.Decoder).texts reads)

instance (reads : List Bytes) : Decidable (Harmless reads) := by
  unfold Harmless
  infer_instance

theorem spans_transcriptOf (program : Text) {reads : List Bytes} (hreads : [] ∉ reads)
    (h : Harmless reads) :
    (transcriptOf program reads).spans =
      (canvasAfter (Utf8.lossy reads.flatten)).flush.spans.push
        ⟨finishedNotice program, .plain⟩ := by
  obtain ⟨r, -, -, -, -, hspans⟩ := shows_reads (shows_nil program) h
  rw [List.nil_append, Utf8.Decoder.flatten_texts] at hspans
  rw [transcriptOf, run_data _ hreads, finish, Transcript.appendPlain]
  dsimp only
  rw [Transcript.spans_append, hspans, program_foldl_receive]
  rfl

/-- What a session shows of an interpreter's output does not depend on how the output was cut,
where the cuts do no harm. -/
theorem spans_of_cuttings (program : Text) {a b : List Bytes} (h : a.flatten = b.flatten)
    (ha : ∀ r ∈ a, r ≠ []) (hb : ∀ r ∈ b, r ≠ []) (harmless : Harmless a) (harmless' : Harmless b) :
    (transcriptOf program a).spans = (transcriptOf program b).spans := by
  have hfull : [] ∉ a := fun hmem => ha [] hmem rfl
  have hfull' : [] ∉ b := fun hmem => hb [] hmem rfl
  rw [spans_transcriptOf program hfull harmless, spans_transcriptOf program hfull' harmless', h]

/-- A colour, a character of two octets, a cursor code and a line. -/
def colored : Bytes := Utf8.encode "\x1b[31mé\x1b[2Kok\n".toList

/-- Read at once and octet by octet. -/
theorem spans_of_colored :
    [colored].flatten = (colored.map ([·])).flatten ∧
      (transcriptOf "tsun".toList [colored]).spans =
        (transcriptOf "tsun".toList (colored.map ([·]))).spans :=
  ⟨by decide +kernel, spans_of_cuttings _ (by decide +kernel) (by decide +kernel)
    (by decide +kernel) (by decide +kernel) (by decide +kernel)⟩

/-- A backspace takes back what came in the same read only, and a cursor code in the title of a
window is a part of the title where it is stripped and ends it where it was cut. -/
theorem cuttings_differ :
    (transcriptOf "tsun".toList [[0x61] ++ [0x08]]).spans ≠
        (transcriptOf "tsun".toList [[0x61], [0x08]]).spans ∧
      (transcriptOf "tsun".toList
          [Utf8.encode "\x1b]0;\x1b[1".toList ++ Utf8.encode "Kx".toList]).spans ≠
        (transcriptOf "tsun".toList
          [Utf8.encode "\x1b]0;\x1b[1".toList, Utf8.encode "Kx".toList]).spans := by
  decide +kernel

end Parley.Interpreter.Pump
