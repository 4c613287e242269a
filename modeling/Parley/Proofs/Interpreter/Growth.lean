import Parley.Interpreter.Pool

/-! Transcripts only grow: whatever a process does and whatever is done to it, what its transcript
said before is still there and in front of what was added (`Pool.Grows`). -/
namespace Parley

theorem Spans.text_pushAll (spans more : Spans) :
    (spans.pushAll more).text = spans.text ++ more.text := by
  simp only [← Spans.map_fst_cells, Spans.cells_pushAll, List.map_append]

theorem Spans.text_since (start : Nat) (spans : Spans) :
    (spans.since start).text = spans.text.drop start := by
  simp only [← Spans.map_fst_cells, Spans.cells_since, List.map_drop]

theorem Transcript.text_append (t : Transcript) (spans : Spans) :
    (t.append spans).text = t.text ++ spans.text := by
  rw [text, spans_append, Spans.text_pushAll]
  rfl

end Parley

namespace Parley.Interpreter

theorem Pump.text_present (p : Pump) (text : Text) :
    p.transcript.text <+: (p.present text).transcript.text := by
  simp only [present, Transcript.text_append]
  exact List.prefix_append _ _

theorem Pump.text_receive (p : Pump) (bytes : Bytes) :
    p.transcript.text <+: (p.receive bytes).transcript.text := text_present _ _

theorem Pump.text_finish (p : Pump) : p.transcript.text <+: p.finish.transcript.text := by
  have hflush : p.transcript.text <+: p.flush.transcript.text := by
    unfold flush
    dsimp only
    split
    · exact List.prefix_refl _
    · exact text_present _ _
  simp only [finish, Transcript.appendPlain, Transcript.text_append]
  exact hflush.trans (List.prefix_append _ _)

theorem Pump.text_hear (p : Pump) (r : Reading) :
    p.transcript.text <+: (p.hear r).transcript.text := by
  rcases r.isEnd_or_data with h | ⟨bytes, h, rfl⟩
  · exact p.hear_of_isEnd h ▸ p.text_finish
  · exact p.hear_data h ▸ p.text_receive bytes

theorem Pump.text_read (p : Pump) (r : Reading) :
    p.transcript.text <+: (p.read r).transcript.text := by
  unfold read
  split
  · exact p.text_hear r
  · exact p.text_hear r
  · exact List.prefix_refl _

namespace Process

theorem text_read (p : Process) (readings : List Reading) :
    p.transcript.text <+: (p.read readings).transcript.text := by
  induction readings generalizing p with
  | nil => exact List.prefix_refl _
  | cons r readings ih => exact (p.pump.text_read r).trans (ih (p.read [r]))

theorem text_play (p : Process) (e : Event) : p.transcript.text <+: (p.play e).transcript.text := by
  cases e with
  | data | endOfOutput | readError => exact p.text_read _
  | exit => exact List.prefix_refl _

theorem text_playAll (p : Process) (events : List Event) :
    p.transcript.text <+: (p.playAll events).transcript.text := by
  induction events generalizing p with
  | nil => exact List.prefix_refl _
  | cons e events ih => exact (p.text_play e).trans (ih _)

theorem text_write (p : Process) : p.transcript.text <+: p.write.1.transcript.text := by
  unfold write
  split
  · exact List.prefix_refl _
  · exact List.prefix_refl _
  · rename_i events rest hreactions
    exact text_playAll { p with reactions := rest } events

theorem transcript_signal (p : Process) : p.signal.transcript = p.transcript := by
  simp only [transcript, signal, Pump.signal]
  split <;> rfl

theorem text_release (p : Process) : p.transcript.text <+: p.release.transcript.text := by
  have hread := p.signal.text_read p.late.toList
  rwa [transcript_signal] at hread

end Process

namespace Pool

def Grows (a b : Pool) : Prop := ∀ n, (a.transcript n).text <+: (b.transcript n).text

theorem Grows.refl (a : Pool) : a.Grows a := fun _ => List.prefix_refl _

theorem Grows.trans {a b c : Pool} (h : a.Grows b) (h' : b.Grows c) : a.Grows c :=
  fun n => (h n).trans (h' n)

theorem grows_update {pool : Pool} {n : Nat} {f : Process → Process}
    (h : ∀ p, pool.process? n = some p → p.transcript.text <+: (f p).transcript.text) :
    pool.Grows (pool.update n f) := by
  intro k
  simp only [transcript, process?, update, List.getElem?_modify]
  cases hk : pool.processes[k]? with
  | none => exact List.prefix_refl _
  | some p =>
    by_cases hn : n = k
    · subst hn
      simpa using h p hk
    · simp [hn]

theorem grows_play (pool : Pool) (n : Nat) (events : List Event) : pool.Grows (pool.play n events) :=
  grows_update fun p _ => p.text_playAll events

theorem grows_release (pool : Pool) (n : Nat) : pool.Grows (pool.release n) :=
  grows_update fun p _ => p.text_release

theorem grows_write (pool : Pool) (n : Nat) (data : Bytes) :
    pool.Grows (pool.write n data).2 := by
  unfold write
  split
  · exact .refl pool
  · rename_i p hp
    have hwritten : pool.Grows (pool.update n fun _ => p.write.1) := by
      apply grows_update
      intro q hq
      obtain rfl : p = q := Option.some.inj (hp.symm.trans hq)
      exact p.text_write
    dsimp only
    split
    · exact hwritten
    · exact hwritten

theorem grows_launch (pool : Pool) (request : Request) (mode : Terminal.Display) :
    pool.Grows (pool.launch request mode).2 := by
  unfold launch
  dsimp only
  split
  · exact .refl pool
  · intro k
    simp only [transcript, process?]
    by_cases hk : k < pool.processes.length
    · simp only [List.getElem?_append_left hk]
      exact List.prefix_refl _
    · rw [List.getElem?_eq_none (Nat.le_of_not_lt hk)]
      exact List.nil_prefix

end Pool
end Parley.Interpreter
