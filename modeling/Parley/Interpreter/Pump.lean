import Parley.Terminal.Display
import Parley.Transcript

/-! The pump moves an interpreter's output into the transcript of its session: each read is decoded,
filtered and appended. When the output ends the pump flushes what the decoder holds, appends a
notice and is done; when it is told to stop it takes the read that it is in, and is done then. A
pump that is done appends nothing more. -/
namespace Parley.Interpreter

/-- What a read gives; if that is nothing, the output is over. -/
inductive Reading where
  | data (bytes : Bytes)
  | failed (reason : Text)
  deriving DecidableEq, Repr

namespace Reading

def ended : Reading := .data []

def isEnd : Reading → Bool
  | data bytes => bytes.isEmpty
  | failed _ => true

theorem isEnd_data {bytes : Bytes} (h : bytes ≠ []) : (data bytes).isEnd = false :=
  List.isEmpty_eq_false_iff.mpr h

theorem isEnd_or_data (r : Reading) : r.isEnd = true ∨ ∃ bytes, bytes ≠ [] ∧ r = data bytes := by
  cases r with
  | data bytes =>
    by_cases h : bytes = []
    · exact .inl (List.isEmpty_iff.mpr h)
    · exact .inr ⟨bytes, h, rfl⟩
  | failed reason => exact .inl rfl

end Reading

/-- A pump that was told to stop finds out after the read that it is in. -/
inductive Pump.Status where
  | running
  | stopping
  | done
  deriving DecidableEq, Repr

structure Pump where
  program : Text
  decoder : Utf8.Decoder := {}
  filter : Terminal.Filter
  transcript : Transcript := {}
  status : Pump.Status := .running
  deriving DecidableEq, Repr

def readSize : Nat := 65536

/-- Octets that are ready at once, as successive reads. -/
def readsOf (bytes : Bytes) : List Bytes :=
  if bytes = [] then []
  else bytes.take readSize :: readsOf (bytes.drop readSize)
termination_by bytes.length
decreasing_by
  have : bytes.length ≠ 0 := by simpa using ‹¬bytes = []›
  simp [readSize]
  omega

theorem ne_nil_of_mem_readsOf {bytes read : Bytes} (h : read ∈ readsOf bytes) : read ≠ [] := by
  induction bytes using readsOf.induct with
  | case1 => simp [readsOf] at h
  | case2 bytes hne ih =>
    rw [readsOf, if_neg hne, List.mem_cons] at h
    rcases h with rfl | h
    · simp [readSize, hne]
    · exact ih h

def finishedNotice (program : Text) : Text :=
  "\nProcess ".toList ++ program ++ " finished\n".toList

namespace Pump

def running (p : Pump) : Bool := p.status ≠ .done

theorem running_eq_true_iff {p : Pump} :
    p.running = true ↔ p.status = .running ∨ p.status = .stopping := by
  rw [running, decide_eq_true_iff]
  cases p.status <;> simp

theorem running_eq_false_iff {p : Pump} : p.running = false ↔ p.status = .done := by
  rw [running, decide_eq_false_iff_not]
  cases p.status <;> simp

def present (p : Pump) (text : Text) : Pump :=
  let (filter, spans) := p.filter.apply text
  { p with filter, transcript := p.transcript.append spans }

def receive (p : Pump) (bytes : Bytes) : Pump :=
  let (decoder, text) := p.decoder.feed bytes
  { p with decoder }.present text

def flush (p : Pump) : Pump :=
  let p' := { p with decoder := {} }
  if p.decoder.finish = [] then p' else p'.present p.decoder.finish

/-- The output has ended, or reading it failed. -/
def finish (p : Pump) : Pump :=
  { p.flush with
    transcript := p.flush.transcript.appendPlain (finishedNotice p.program)
    status := .done }

def stop (p : Pump) : Pump := { p with status := .done }

def signal (p : Pump) : Pump :=
  match p.status with
  | .running => { p with status := .stopping }
  | .stopping => p
  | .done => p

theorem running_signal (p : Pump) : p.signal.running = p.running := by
  unfold signal running
  split <;> simp [*]

theorem status_signal {p : Pump} (h : p.running = true) : p.signal.status = .stopping := by
  rcases running_eq_true_iff.mp h with h | h <;> simp [signal, h]

def hear (p : Pump) : Reading → Pump
  | .data bytes => if bytes = [] then p.finish else p.receive bytes
  | .failed _ => p.finish

theorem hear_of_isEnd {r : Reading} (h : r.isEnd = true) (p : Pump) : p.hear r = p.finish := by
  cases r with
  | data bytes => exact if_pos (List.isEmpty_iff.mp h)
  | failed reason => rfl

theorem hear_data {bytes : Bytes} (h : bytes ≠ []) (p : Pump) :
    p.hear (.data bytes) = p.receive bytes := if_neg h

/-- A read returns, if the pump is in one. -/
def read (p : Pump) (r : Reading) : Pump :=
  match p.status with
  | .running => p.hear r
  | .stopping => (p.hear r).stop
  | .done => p

section
variable {p : Pump} (r : Reading)

theorem read_running (h : p.status = .running) : p.read r = p.hear r := by rw [read, h]
theorem read_stopping (h : p.status = .stopping) : p.read r = (p.hear r).stop := by rw [read, h]
theorem read_done (h : p.status = .done) : p.read r = p := by rw [read, h]

/-- A pump that still runs after a read was not told to stop, and its output is not over. -/
theorem running_read {r : Reading} (running : p.running = true)
    (h : (p.read r).running = true) :
    p.status = .running ∧ r.isEnd = false ∧ (p.read r).status = .running := by
  rcases running_eq_true_iff.mp running with hstatus | hstatus
  · rw [read_running r hstatus] at h ⊢
    rcases r.isEnd_or_data with hend | ⟨bytes, hbytes, rfl⟩
    · rw [hear_of_isEnd hend] at h
      cases h
    · exact ⟨hstatus, Reading.isEnd_data hbytes, by rw [hear_data hbytes]; exact hstatus⟩
  · rw [read_stopping r hstatus] at h
    cases h

end
end Pump

/-- One read by a pump: whether the signal to stop arrives while it is under way, and what it
gives. -/
structure Turn where
  signalled : Bool := false
  reading : Reading
  deriving DecidableEq, Repr

/-- The turns that some octets take; none of them are an end of output. -/
def Turn.ofData (signalled : Bool) (bytes : Bytes) : List Turn :=
  match readsOf bytes with
  | [] => [⟨signalled, .ended⟩]
  | first :: rest => ⟨signalled, .data first⟩ :: rest.map (⟨false, .data ·⟩)

/-- A pump left to itself. The signal is looked for before each read only; after the last turn
comes the end of the output. -/
def Pump.run (p : Pump) : Bool → List Turn → Pump
  | true, _ => p.stop
  | false, [] => p.finish
  | false, t :: rest =>
    if t.reading.isEnd then p.finish else (p.hear t.reading).run t.signalled rest

end Parley.Interpreter
