import Parley.Proofs.Style.Pushing
import Parley.Proofs.Terminal.Sequences
import Parley.Proofs.Terminal.Stripped

/-! Output that is read in two parts. Each part is stripped by itself, so the parts of a cursor code
that was cut reach the machine; outside sequences it reads them and does nothing (`read_code`), and
what it keeps of them, the sequence it read last, nothing looks at again. Each part is drawn by
itself, so what an earlier part left pending can no longer be taken back (`flush_drawAll`). -/
namespace Parley.Terminal

namespace Machine

/-- The machines differ at most in the sequence that they read last, which outside sequences
nothing looks at. -/
def Alike (m n : Machine) : Prop :=
  m = n ∨ (m.mode = .ground ∧ ∃ s, n = { m with sequence := s })

theorem Alike.refl (m : Machine) : Alike m m := .inl rfl

theorem Alike.trans {l m n : Machine} (h : Alike l m) (h' : Alike m n) : Alike l n := by
  rcases h with rfl | ⟨hg, s, rfl⟩
  · exact h'
  · rcases h' with rfl | ⟨-, t, rfl⟩
    · exact .inr ⟨hg, s, rfl⟩
    · exact .inr ⟨hg, t, rfl⟩

theorem fresh_alike {m : Machine} (hg : m.mode = .ground) (s : Sequence) (b : UInt8) :
    Alike (m.fresh b).1 (({ m with sequence := s } : Machine).fresh b).1 ∧
      (({ m with sequence := s } : Machine).fresh b).2 = (m.fresh b).2 := by
  by_cases he : isEscape b = true
  · simp only [fresh, if_pos he]
    exact ⟨.refl _, trivial⟩
  · simp only [fresh, if_neg he]
    cases Utf8.classify [b] with
    | char c => exact ⟨.inr ⟨hg, s, rfl⟩, rfl⟩
    | unfinished => exact ⟨.inr ⟨hg, s, rfl⟩, rfl⟩
    | invalid => exact ⟨.inr ⟨hg, s, rfl⟩, rfl⟩

theorem ground_alike {m : Machine} (hg : m.mode = .ground) (s : Sequence) (b : UInt8) :
    Alike (m.ground b).1 (({ m with sequence := s } : Machine).ground b).1 ∧
      (({ m with sequence := s } : Machine).ground b).2 = (m.ground b).2 := by
  have hfresh := fresh_alike hg s b
  by_cases hh : m.held = []
  · simp only [ground, if_pos hh]
    exact hfresh
  · simp only [ground, if_neg hh]
    cases Utf8.classify (m.held ++ [b]) with
    | char c => exact ⟨.inr ⟨hg, s, rfl⟩, rfl⟩
    | unfinished => exact ⟨.inr ⟨hg, s, rfl⟩, rfl⟩
    | invalid => exact ⟨hfresh.1, by rw [hfresh.2]⟩

theorem Alike.step {m n : Machine} (h : Alike m n) (b : UInt8) :
    Alike (m.step b).1 (n.step b).1 ∧ (n.step b).2 = (m.step b).2 := by
  rcases h with rfl | ⟨hg, s, rfl⟩
  · exact ⟨.refl _, rfl⟩
  · have hn : ({ m with sequence := s } : Machine).mode = .ground := hg
    rw [step_of_ground hg, step_of_ground hn]
    exact ground_alike hg s b

/-- Machines that are alike do the same to a canvas, and stay alike. -/
theorem Alike.after {m n : Machine} (h : Alike m n) (bytes : Bytes) :
    Alike (m.after bytes) (n.after bytes) ∧ n.strokesOf bytes = m.strokesOf bytes := by
  induction bytes generalizing m n with
  | nil => exact ⟨h, rfl⟩
  | cons b rest ih =>
    have hstep := h.step b
    have hrest := ih hstep.1
    exact ⟨hrest.1, by rw [strokesOf_cons, strokesOf_cons, hstep.2, hrest.2]⟩

theorem Alike.read {m n : Machine} (h : Alike m n) (text : Text) :
    Alike (m.read text) (n.read text) ∧ n.strokes text = m.strokes text :=
  h.after (Utf8.encode text)

/-- A cursor code that is read outside sequences changes nothing. -/
theorem read_code {m : Machine} (hg : m.mode = .ground) (h : m.Calm) {code : Text}
    (hc : CursorCode.IsCode code) : Alike m (m.read code) ∧ m.strokes code = [] := by
  obtain ⟨digits, final, rfl, hne, hd, hf⟩ := hc
  have hopening := read_opening hg h (digits ++ [final])
  rw [hopening.1, hopening.2]
  have hdigits := @read_digits { m with mode := .controlStart, sequence := {} } (.inl rfl) _ hne hd
  rw [read_append, strokes_append, hdigits.1, hdigits.2]
  simp only [CursorCode.isFinal, Bool.or_eq_true, decide_eq_true_eq] at hf
  have hlt : final.toNat < 0x80 := by rcases hf with (rfl | rfl) | rfl <;> decide
  rw [read_cons_of_lt _ hlt, strokes_cons_of_lt _ hlt, step_final (.inr rfl)
    (by rcases hf with (rfl | rfl) | rfl <;> decide)]
  have hm : UInt8.ofNat final.toNat ≠ 0x6D := by rcases hf with (rfl | rfl) | rfl <;> decide
  refine ⟨.inr ⟨hg, _, by rw [read_nil, dispatch, ← hg]⟩, ?_⟩
  simp [dispatch, Action.stroke?, Canvas.isRendition, hm]

open CursorCode

/-- Whether a cursor code that a cut falls within begins outside sequences: then its parts are
read like the whole, which is stripped. -/
def WholeCodes (m : Machine) (x y : Text) : Prop :=
  ∀ i < x.length, x.length < i + lengthAt ((x ++ y).drop i) →
    (m.read (strip (x.take i))).mode = .ground

/-- Two parts of a text, stripped one by one, are read like the whole. -/
theorem read_cut {m : Machine} (h : m.Calm) {x y : Text} (hcodes : WholeCodes m x y) :
    Alike (m.read (strip (x ++ y))) (m.read (strip x ++ strip y)) ∧
      m.strokes (strip x ++ strip y) = m.strokes (strip (x ++ y)) := by
  rcases strip_cut x y with hs | ⟨a, code₁, code₂, b, rfl, rfl, h₁, h₂, hc, hs, hx, hy⟩
  · rw [hs]
    exact ⟨.refl _, rfl⟩
  · have hground : (m.read (strip a)).mode = .ground := by
      have hlength := lengthAt_append hc b
      have hpos₁ := List.length_pos_iff.mpr h₁
      have hpos₂ := List.length_pos_iff.mpr h₂
      have hdrop : (a ++ code₁ ++ (code₂ ++ b)).drop a.length = code₁ ++ code₂ ++ b := by simp
      have := hcodes a.length (by rw [List.length_append]; omega) (by
        rw [hdrop, hlength]
        simp only [List.length_append]
        omega)
      simpa using this
    have hparts : strip (a ++ code₁) ++ strip (code₂ ++ b) =
        strip a ++ ((code₁ ++ code₂) ++ strip b) := by
      rw [hx, hy]
      simp
    obtain ⟨hcode, hnone⟩ := read_code hground (calm_read h (strip a)) hc
    obtain ⟨hrest, hstrokes⟩ := hcode.read (strip b)
    rw [hs, hparts]
    constructor
    · rw [read_append, read_append, read_append]
      exact hrest
    · rw [strokes_append, strokes_append _ (code₁ ++ code₂), hnone, hstrokes, strokes_append]
      rfl

end Machine

/-! A chunk's canvas begins with nothing pending. It shows what the whole output's canvas would,
so long as no backspace takes back what an earlier chunk left pending. -/

/-- Whether each backspace among the strokes takes back one of them, or of `n` put before them;
nothing can be taken back from behind a rendition. -/
def spares : Nat → List Stroke → Bool
  | _, [] => true
  | n, .put _ :: rest => spares (n + 1) rest
  | 0, .back :: _ => false
  | n + 1, .back :: rest => spares n rest
  | _, .restyle _ :: _ => true

namespace Canvas

def onto (base : Spans) (c : Canvas) : Canvas := { c with spans := base.pushAll c.spans }

theorem flush_onto (base : Spans) (c : Canvas) : (onto base c).flush = onto base c.flush := by
  simp [onto, flush, Spans.pushAll_push]

theorem draw_onto (base : Spans) (c : Canvas) (k : Stroke) :
    (onto base c).draw k = onto base (c.draw k) := by
  cases k with
  | put ch => rfl
  | back => rfl
  | restyle params =>
    simp only [draw, flush_onto]
    rfl

theorem drawAll_onto (base : Spans) (c : Canvas) (strokes : List Stroke) :
    (onto base c).drawAll strokes = onto base (c.drawAll strokes) := by
  induction strokes generalizing c with
  | nil => rfl
  | cons k strokes ih => rw [drawAll_cons, drawAll_cons, draw_onto, ih]

/-- What is pending may be closed as a span wherever it is spared. -/
theorem flush_behind (base : Spans) (style : Style) (behind text : Text) :
    flush ⟨style, text ++ behind, base⟩ =
      onto (base.push ⟨behind.reverse, style⟩) (flush ⟨style, text, []⟩) := by
  simp [flush, onto, Spans.pushAll_push, Spans.push_push]

theorem flush_drawAll_behind (base : Spans) (style : Style) (behind text : Text)
    {strokes : List Stroke} (h : spares text.length strokes = true) :
    (drawAll ⟨style, text ++ behind, base⟩ strokes).flush =
      onto (base.push ⟨behind.reverse, style⟩) (drawAll ⟨style, text, []⟩ strokes).flush := by
  induction strokes generalizing text with
  | nil => exact flush_behind base style behind text
  | cons k strokes ih =>
    rw [drawAll_cons, drawAll_cons]
    cases k with
    | put ch => exact ih (ch :: text) h
    | back =>
      cases text with
      | nil => simp [spares] at h
      | cons ch text => exact ih text h
    | restyle params =>
      have hdraw : draw ⟨style, text ++ behind, base⟩ (.restyle params) =
          onto (base.push ⟨behind.reverse, style⟩) (draw ⟨style, text, []⟩ (.restyle params)) := by
        simp only [draw, flush_behind]
        rfl
      rw [hdraw, drawAll_onto, flush_onto]

/-- A chunk drawn by itself, after what was shown before it. -/
theorem flush_drawAll {c : Canvas} {strokes : List Stroke}
    (h : c.pending = [] ∨ spares 0 strokes = true) :
    (c.drawAll strokes).flush =
      onto c.flush.spans (drawAll { style := c.style } strokes).flush := by
  obtain ⟨style, behind, base⟩ := c
  rcases h with rfl | h
  · have hbase : (⟨style, [], base⟩ : Canvas) = onto base { style } := rfl
    rw [hbase, drawAll_onto, flush_onto]
    rfl
  · exact flush_drawAll_behind base style behind [] h

end Canvas
end Parley.Terminal
