import Parley.Proofs.Interpreter.Account
import Parley.Proofs.Interpreter.Reads
import Parley.Proofs.Utf8.Stubs

/-! What the pump of a plain session leaves behind. A pump gets as far as its output lasts, or as far
as the read in which the signal arrives; a channel that the session let go of counts as a signal, and
a read that gives nothing as the end of the output. What was read is then one span in no style: all of
it with the notice, if the output came to its end, and else all of it but the stub that it ends in. -/
namespace Parley

def Spans.unstyled (text : Text) : Spans := if text = [] then [] else [⟨text, .plain⟩]

theorem Spans.push_unstyled (before text : Text) :
    (unstyled before).push ⟨text, .plain⟩ = unstyled (before ++ text) := by
  by_cases hbefore : before = []
  · by_cases htext : text = [] <;> simp [unstyled, push, add, hbefore, htext]
  · by_cases htext : text = [] <;> simp [unstyled, push, add, hbefore, htext]

/-- A plain filter changes nothing, and its chunks run together. -/
theorem Spans.pushAll_applyAll_plain (before : Text) (chunks : List Text) :
    (unstyled before).pushAll (Terminal.Filter.plain.applyAll chunks).2 =
      unstyled (before ++ chunks.flatten) := by
  induction chunks generalizing before with
  | nil => simp
  | cons chunk rest ih =>
    have hchunk : (unstyled before).pushAll (Terminal.Filter.plain.apply chunk).2 =
        unstyled (before ++ chunk) := by
      rw [← push_unstyled, Terminal.Filter.apply_plain]
      by_cases h : chunk = [] <;> simp [h]
    rw [Terminal.Filter.applyAll, pushAll_append, hchunk]
    simpa using ih (before ++ chunk)

namespace Interpreter

open Terminal (Filter)

/-- Turns during which no signal comes. -/
def quietly (reads : List Bytes) : List Turn := reads.map (⟨false, .data ·⟩)

@[simp] theorem length_quietly (reads : List Bytes) : (quietly reads).length = reads.length := by
  simp [quietly]

/-- The output lasts for these reads, and no signal comes before its end. -/
inductive Expires : Bool → List Turn → List Bytes → Prop where
  | silent (reads : List Bytes) (full : [] ∉ reads) : Expires false (quietly reads) reads
  | ending (reads : List Bytes) (full : [] ∉ reads) {last : Turn}
      (h : last.reading.isEnd = true) (rest : List Turn) :
      Expires false (quietly reads ++ last :: rest) reads

/-- The signal is there from the start, or comes during the last of these reads. -/
inductive Stops : Bool → List Turn → List Bytes → Prop where
  | atOnce (turns : List Turn) : Stops true turns []
  | during (reads : List Bytes) (full : [] ∉ reads) (last : Bytes) (given : last ≠ [])
      (rest : List Turn) :
      Stops false (quietly reads ++ ⟨true, .data last⟩ :: rest) (reads ++ [last])

section
variable {turns : List Turn} {reads : List Bytes} {read : Bytes}

theorem Expires.cons (h : Expires false turns reads) (hread : read ≠ []) :
    Expires false (⟨false, .data read⟩ :: turns) (read :: reads) := by
  cases h with
  | silent _ full => exact .silent _ (List.not_mem_cons_of_ne_of_not_mem hread.symm full)
  | ending _ full hlast rest =>
    exact .ending _ (List.not_mem_cons_of_ne_of_not_mem hread.symm full) hlast rest

theorem Stops.cons (h : Stops false turns reads) (hread : read ≠ []) :
    Stops false (⟨false, .data read⟩ :: turns) (read :: reads) := by
  cases h with
  | during _ full last given rest =>
    exact .during _ (List.not_mem_cons_of_ne_of_not_mem hread.symm full) last given rest

theorem Expires.full {signalled : Bool} (h : Expires signalled turns reads) : [] ∉ reads := by
  cases h with
  | silent _ full => exact full
  | ending _ full => exact full

theorem Stops.full {signalled : Bool} (h : Stops signalled turns reads) : [] ∉ reads := by
  cases h with
  | atOnce => exact List.not_mem_nil
  | during _ full _ given => simpa using ⟨full, given⟩

end

/-- A pump gets to the end of its output, or is stopped. -/
theorem expires_or_stops (signalled : Bool) (turns : List Turn) :
    ∃ reads, Expires signalled turns reads ∨ Stops signalled turns reads := by
  cases signalled with
  | true => exact ⟨[], .inr (.atOnce turns)⟩
  | false =>
    induction turns with
    | nil => exact ⟨[], .inl (.silent [] List.not_mem_nil)⟩
    | cons t rest ih =>
      obtain ⟨signalled, reading⟩ := t
      rcases reading.isEnd_or_data with hend | ⟨read, hread, rfl⟩
      · exact ⟨[], .inl (.ending [] List.not_mem_nil hend rest)⟩
      · cases signalled with
        | true => exact ⟨[read], .inr (.during [] List.not_mem_nil read hread rest)⟩
        | false =>
          obtain ⟨reads, hexpires | hstops⟩ := ih
          · exact ⟨read :: reads, .inl (hexpires.cons hread)⟩
          · exact ⟨read :: reads, .inr (hstops.cons hread)⟩

/-- Only the turns that a pump takes decide whether and where it is stopped. -/
theorem Stops.of_take {signalled : Bool} {turns others : List Turn} {reads : List Bytes}
    (h : Stops signalled turns reads)
    (hothers : others.take reads.length = turns.take reads.length) :
    Stops signalled others reads := by
  cases h with
  | atOnce => exact .atOnce others
  | during reads full last given rest =>
    have htaken : (quietly reads ++ ⟨true, .data last⟩ :: rest).take (reads ++ [last]).length =
        quietly reads ++ [⟨true, .data last⟩] := by
      rw [List.length_append, ← length_quietly reads]
      exact List.take_length_add_append 1
    rw [htaken] at hothers
    rw [← List.take_append_drop (reads ++ [last]).length others, hothers, List.append_assoc]
    exact .during reads full last given _

theorem finishedNotice_ne_nil (program : Text) : finishedNotice program ≠ [] := by
  have h : "\nProcess ".toList ≠ [] := by simp
  exact List.append_ne_nil_of_left_ne_nil (List.append_ne_nil_of_left_ne_nil h program) _

namespace Pump

theorem run_signalled (p : Pump) (turns : List Turn) : p.run true turns = p.stop := by rw [run]

theorem run_of_expires (p : Pump) {signalled : Bool} {turns : List Turn} {reads : List Bytes}
    (h : Expires signalled turns reads) :
    p.run signalled turns = (reads.foldl receive p).finish := by
  cases h with
  | silent _ full => exact p.run_data full
  | ending _ full hlast rest => rw [quietly, run_data_append p full, run, if_pos hlast]

theorem run_of_stops (p : Pump) {signalled : Bool} {turns : List Turn} {reads : List Bytes}
    (h : Stops signalled turns reads) :
    p.run signalled turns = (reads.foldl receive p).stop := by
  cases h with
  | atOnce => exact p.run_signalled turns
  | during _ full _ given rest =>
    rw [quietly, run_data_append p full, run, Reading.isEnd_data given, if_neg Bool.false_ne_true,
      hear_data given, run_signalled, List.foldl_append, List.foldl_cons, List.foldl_nil]

/-- A pump that shows its output as it is. -/
def ofProgram (program : Text) : Pump := { program, filter := .ofMode .plain }

theorem spans_foldl_hear_plain (program : Text) {readings : List Reading} (h : Orderly readings) :
    (readings.foldl hear (ofProgram program)).transcript.spans =
      .unstyled ((textsOf readings).flatten ++
        if readings.any Reading.isEnd then finishedNotice program else []) := by
  have hshown := Spans.pushAll_applyAll_plain [] (textsOf readings)
  rw [ofProgram, transcript_foldl_hear program .plain .running h, Transcript.spans_append, account,
    Spans.pushAll_append]
  change Spans.pushAll (Spans.pushAll (.unstyled []) (Filter.plain.applyAll _).2) _ = _
  rw [hshown, List.nil_append]
  cases readings.any Reading.isEnd with
  | false => simp
  | true =>
    rw [if_pos rfl, if_pos rfl, Spans.pushAll_cons, Spans.pushAll_nil, Spans.push_unstyled]

/-- As long as the output lasts, a plain session shows what the decoder gave. -/
theorem spans_foldl_receive_plain (program : Text) {reads : List Bytes} (h : [] ∉ reads) :
    (reads.foldl receive (ofProgram program)).transcript.spans =
      .unstyled (({} : Utf8.Decoder).feed reads.flatten).2 := by
  have horderly : Orderly (reads.map Reading.data) :=
    fun r hr => isEnd_of_mem_data h r (List.dropLast_subset _ hr)
  rw [← foldl_hear_data _ h, spans_foldl_hear_plain program horderly, textsOf_data h,
    any_isEnd_data h, (Utf8.Decoder.feedAll_eq_feed {} reads).2, if_neg Bool.false_ne_true,
    List.append_nil]

theorem spans_finish_plain (program : Text) {reads : List Bytes} (h : [] ∉ reads) :
    (reads.foldl receive (ofProgram program)).finish.transcript.spans =
      [⟨Utf8.lossy reads.flatten ++ finishedNotice program, .plain⟩] := by
  have hheard : (reads.foldl receive (ofProgram program)).finish =
      (reads.map Reading.data ++ [Reading.ended]).foldl hear (ofProgram program) := by
    rw [List.foldl_append, foldl_hear_data _ h]
    rfl
  have horderly : Orderly (reads.map Reading.data ++ [Reading.ended]) := by
    rw [Orderly, List.dropLast_concat]
    exact isEnd_of_mem_data h
  have hover : (reads.map Reading.data ++ [Reading.ended]).any Reading.isEnd = true := by
    rw [List.any_append]
    exact Bool.or_true _
  have htexts : (textsOf (reads.map Reading.data ++ [Reading.ended])).flatten =
      Utf8.lossy reads.flatten := by
    rw [textsOf_end h rfl, ← Utf8.Decoder.flatten_texts, Utf8.Decoder.texts]
    by_cases h : (({} : Utf8.Decoder).feedAll reads).1.finish = [] <;> simp [h]
  have hnotice : Utf8.lossy reads.flatten ++ finishedNotice program ≠ [] :=
    List.append_ne_nil_of_right_ne_nil _ (finishedNotice_ne_nil program)
  rw [hheard, spans_foldl_hear_plain program horderly, hover, htexts]
  simp only [if_true]
  rw [Spans.unstyled, if_neg hnotice]

/-- The transcript of a plain session is one span in no style, if anything. It says all that was read,
however it was cut, and the notice, if the output came to its end. If the pump was stopped, it says
what was read up to the read in which the signal came, but for the stub at its end, and no more is
read. -/
theorem transcript_of_plain_run (program : Text) (signalled : Bool) (turns : List Turn) :
    let p := (ofProgram program).run signalled turns
    p.running = false ∧
      (∃ reads, Expires signalled turns reads ∨ Stops signalled turns reads) ∧
      (∀ reads, Expires signalled turns reads →
        p.transcript.spans = [⟨Utf8.lossy reads.flatten ++ finishedNotice program, .plain⟩]) ∧
      ∀ reads, Stops signalled turns reads →
        (∃ body stub, Utf8.StopsShort reads.flatten body stub ∧
          p.transcript.spans = Spans.unstyled (Utf8.lossy body)) ∧
        ∀ others : List Turn, others.take reads.length = turns.take reads.length →
          (ofProgram program).run signalled others = p := by
  intro p
  refine ⟨?_, expires_or_stops signalled turns, fun reads h => ?_, fun reads h => ⟨?_, ?_⟩⟩
  · obtain ⟨reads, h | h⟩ := expires_or_stops signalled turns
    · exact congrArg Pump.running (run_of_expires _ h)
    · exact congrArg Pump.running (run_of_stops _ h)
  · have hp : p = _ := run_of_expires (ofProgram program) h
    rw [hp, spans_finish_plain _ h.full]
  · obtain ⟨body, hbody, hout⟩ := Utf8.Decoder.stopsShort_feed reads.flatten
    refine ⟨body, _, hbody, ?_⟩
    have hp : p = _ := run_of_stops (ofProgram program) h
    rw [hp, stop, spans_foldl_receive_plain _ h.full, hout]
  · intro others hothers
    exact (run_of_stops _ (h.of_take hothers)).trans (run_of_stops _ h).symm

/-- Two reads that tear a character; in the second of them the signal comes, or not. -/
def tornTurns (signalled : Bool) : List Turn :=
  [⟨false, .data [0x61, 0xE2]⟩, ⟨signalled, .data [0x86]⟩]

theorem transcript_of_plain_run_torn :
    Expires false (tornTurns false) [[0x61, 0xE2], [0x86]] ∧
      ((ofProgram ['t']).run false (tornTurns false)).transcript.spans =
        [⟨Utf8.lossy [0x61, 0xE2, 0x86] ++ finishedNotice ['t'], .plain⟩] ∧
      Stops false (tornTurns true) [[0x61, 0xE2], [0x86]] ∧
      (∃ body stub, Utf8.StopsShort [0x61, 0xE2, 0x86] body stub ∧
        ((ofProgram ['t']).run false (tornTurns true)).transcript.spans =
          .unstyled (Utf8.lossy body)) ∧
      (ofProgram ['t']).run false (tornTurns true ++ [⟨false, .ended⟩]) =
        (ofProgram ['t']).run false (tornTurns true) := by
  have hexpires : Expires false (tornTurns false) [[0x61, 0xE2], [0x86]] :=
    .silent [[0x61, 0xE2], [0x86]] (by simp)
  have hstops : Stops false (tornTurns true) [[0x61, 0xE2], [0x86]] :=
    .during [[0x61, 0xE2]] (by simp) [0x86] (List.cons_ne_nil _ _) []
  obtain ⟨-, -, hover, -⟩ := transcript_of_plain_run ['t'] false (tornTurns false)
  obtain ⟨-, -, -, hstopped⟩ := transcript_of_plain_run ['t'] false (tornTurns true)
  obtain ⟨hspans, hunread⟩ := hstopped _ hstops
  exact ⟨hexpires, hover _ hexpires, hstops, hspans, hunread _ rfl⟩

end Pump
end Interpreter
end Parley
