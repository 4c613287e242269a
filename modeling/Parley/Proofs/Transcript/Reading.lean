import Parley.Proofs.Style.Pushing
import Parley.Transcript

/-! A transcript that grows while it is read piece by piece. What was entered is a sequence of
styled characters; the transcript is the one gathered form of it, with its length counted along
(`Holds`). A reader that goes on each time where it stopped has received the front of that sequence
(`Reading.Sound`), so what it has received, pushed together, is the transcript as it was when last
read. -/
namespace Parley.Transcript

inductive Entry where
  | styled (spans : Spans)
  | plain (text : Text)

def Entry.content : Entry → Spans
  | styled spans => spans
  | plain text => [⟨text, .plain⟩]

def enter (t : Transcript) : Entry → Transcript
  | .styled spans => t.append spans
  | .plain text => t.appendPlain text

theorem enter_eq (t : Transcript) (e : Entry) : t.enter e = t.append e.content := by
  cases e <;> rfl

/-- A transcript holds some styled characters: it gathers them and counts them. -/
structure Holds (t : Transcript) (cells : List (Char × Style)) : Prop where
  gathered : t.spans.Gathered
  shown : t.spans.cells = cells
  counted : t.length = cells.length

namespace Holds

theorem empty : Holds {} [] := ⟨Spans.gathered_nil, rfl, rfl⟩

variable {t : Transcript} {cells : List (Char × Style)}

theorem append (h : Holds t cells) (spans : Spans) :
    Holds (t.append spans) (cells ++ spans.cells) where
  gathered := by
    rw [spans_append]
    exact Spans.gathered_pushAll h.gathered spans
  shown := by rw [spans_append, Spans.cells_pushAll, h.shown]
  counted := by rw [length_append, h.counted, List.length_append, Spans.length_cells]

theorem text (h : Holds t cells) : t.text = cells.map Prod.fst := by
  rw [Transcript.text, ← Spans.map_fst_cells, h.shown]

theorem cells_since (h : Holds t cells) (start : Nat) :
    (t.since start).cells = cells.drop start := by
  rw [since, Spans.cells_since, h.shown]

theorem since_eq_nil (h : Holds t cells) {start : Nat} (hle : t.length ≤ start) :
    t.since start = [] := by
  refine Spans.since_eq_nil ?_
  rw [← Spans.length_cells, h.shown, ← h.counted]
  exact hle

end Holds

/-- A reader knows how many characters it has received, and the pieces they came in. -/
structure Reader where
  seen : Nat := 0
  pieces : List Spans := []

namespace Reader

/-- All that was received, piece after piece. -/
def received (r : Reader) : Spans := r.pieces.flatten

def read (r : Reader) (t : Transcript) : Reader :=
  { seen := r.seen + (t.since r.seen).text.length, pieces := r.pieces ++ [t.since r.seen] }

theorem received_read (r : Reader) (t : Transcript) :
    (r.read t).received = r.received ++ t.since r.seen := by
  simp [read, received]

end Reader

inductive Moment where
  | enter (e : Entry)
  | read

def entered : List Moment → Spans
  | [] => []
  | .enter e :: moments => e.content ++ entered moments
  | .read :: moments => entered moments

structure Reading where
  transcript : Transcript := {}
  reader : Reader := {}

namespace Reading

def perform (s : Reading) : Moment → Reading
  | .enter e => { s with transcript := s.transcript.enter e }
  | .read => { s with reader := s.reader.read s.transcript }

def run (s : Reading) (moments : List Moment) : Reading := moments.foldl perform s

/-- The transcript holds some characters, and the reader has received the front of them. -/
structure Sound (s : Reading) (cells : List (Char × Style)) : Prop where
  holds : s.transcript.Holds cells
  le : s.reader.seen ≤ cells.length
  front : s.reader.received.cells = cells.take s.reader.seen

namespace Sound

variable {s : Reading} {cells : List (Char × Style)}

/-- After a read nothing is left to receive. -/
theorem seen_read (h : s.Sound cells) : (s.reader.read s.transcript).seen = cells.length := by
  have hnew : (s.transcript.since s.reader.seen).text.length = cells.length - s.reader.seen := by
    rw [← Spans.length_cells, h.holds.cells_since, List.length_drop]
  rw [Reader.read, hnew]
  exact Nat.add_sub_cancel' h.le

theorem cells_read (h : s.Sound cells) :
    (s.reader.read s.transcript).received.cells = cells := by
  have hcells : ∀ a b : Spans, Spans.cells (a ++ b) = a.cells ++ b.cells :=
    fun _ _ => List.flatMap_append
  rw [Reader.received_read, hcells, h.front, h.holds.cells_since, List.take_append_drop]

theorem enter (h : s.Sound cells) (e : Entry) :
    (s.perform (.enter e)).Sound (cells ++ e.content.cells) where
  holds := by
    rw [perform, enter_eq]
    exact h.holds.append e.content
  le := by
    rw [List.length_append]
    exact Nat.le_add_right_of_le h.le
  front := h.front.trans (List.take_append_of_le_length h.le).symm

theorem read (h : s.Sound cells) : (s.perform .read).Sound cells where
  holds := h.holds
  le := Nat.le_of_eq h.seen_read
  front := by
    have hseen : (s.perform .read).reader.seen = cells.length := h.seen_read
    rw [hseen, List.take_length]
    exact h.cells_read

theorem run (h : s.Sound cells) (moments : List Moment) :
    (s.run moments).Sound (cells ++ (entered moments).cells) := by
  induction moments generalizing s cells with
  | nil =>
    rw [entered, Spans.cells_nil, List.append_nil]
    exact h
  | cons moment moments ih =>
    cases moment with
    | enter e =>
      have hentered : (entered (.enter e :: moments)).cells =
          e.content.cells ++ (entered moments).cells := List.flatMap_append
      rw [hentered, ← List.append_assoc]
      exact ih (h.enter e)
    | read => exact ih h.read

end Sound

/-- Whatever is entered, and whenever it is read: the transcript gathers the characters entered, in
order, and counts them; what it shows from a character on is the rest of them; and a reader that
goes on where it stopped has received the front of them, and once it reads again all of them, in
pieces that are the transcript when pushed together. -/
theorem transcript_of_moments (moments : List Moment) :
    let s := ({} : Reading).run moments
    let whole := (entered moments).cells
    (s.transcript.spans.Gathered ∧ s.transcript.spans.cells = whole ∧
        s.transcript.text = whole.map Prod.fst ∧ s.transcript.length = whole.length) ∧
      (∀ start, (s.transcript.since start).Gathered ∧
        (s.transcript.since start).cells = whole.drop start ∧
        (s.transcript.length ≤ start → s.transcript.since start = [])) ∧
      s.reader.received.cells = whole.take s.reader.seen ∧
      (s.reader.read s.transcript).seen = s.transcript.length ∧
      Spans.pushAll [] (s.reader.read s.transcript).received = s.transcript.spans := by
  intro s whole
  have hstart : Sound {} [] := ⟨.empty, Nat.le_refl 0, rfl⟩
  have hsound : s.Sound whole := hstart.run moments
  have hholds := hsound.holds
  refine ⟨⟨hholds.gathered, hholds.shown, hholds.text, hholds.counted⟩, fun start => ?_,
    hsound.front, ?_, ?_⟩
  · exact ⟨Spans.gathered_since hholds.gathered start, hholds.cells_since start,
      hholds.since_eq_nil⟩
  · rw [hsound.seen_read, hholds.counted]
  · exact Spans.pushAll_eq_of_gathered hholds.gathered (hsound.cells_read.trans hholds.shown.symm)

end Reading
end Parley.Transcript
