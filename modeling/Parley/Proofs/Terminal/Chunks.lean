import Parley.Proofs.Terminal.Actions
import Parley.Proofs.Terminal.Cuts
import Parley.Terminal.Display

/-! Text that arrives in chunks. A renderer keeps its machine and its style from one chunk to the
next, and closes what is pending at the end of each. Only a backspace could tell, so that text
without any is shown alike however it is cut between characters, and leaves the same renderer
(`spans_of_chunks`). -/
namespace Parley.Terminal

/-- Nothing is taken back where there is no backspace. -/
theorem spares_of_back_notMem {strokes : List Stroke} (h : Stroke.back ∉ strokes) (n : Nat) :
    spares n strokes = true := by
  induction strokes generalizing n with
  | nil => rfl
  | cons k strokes ih =>
    rw [List.mem_cons, not_or] at h
    cases k with
    | put ch => exact ih h.2 (n + 1)
    | back => exact absurd rfl h.1
    | restyle params => rfl

namespace Canvas

/-- The spans of a canvas are gathered as they come. -/
theorem pushAll_nil_spans (style : Style) (strokes : List Stroke) :
    Spans.pushAll [] (drawAll { style } strokes).flush.spans =
      (drawAll { style } strokes).flush.spans := by
  have honto : (⟨style, [], []⟩ : Canvas) = onto [] { style } := rfl
  have hdraw := drawAll_onto [] { style } strokes
  rw [← honto] at hdraw
  have hflush := flush_onto [] (drawAll { style } strokes)
  rw [← hdraw] at hflush
  exact (congrArg Canvas.spans hflush).symm

end Canvas

namespace Renderer

/-- Successive chunks: the renderer after the last of them, and the spans that each of them gave. -/
def renderEach (r : Renderer) : List Bytes → Renderer × List Spans
  | [] => (r, [])
  | chunk :: rest =>
    (((r.render chunk).1.renderEach rest).1,
      (r.render chunk).2 :: ((r.render chunk).1.renderEach rest).2)

@[simp] theorem renderEach_nil (r : Renderer) : r.renderEach [] = (r, []) := rfl
@[simp] theorem renderEach_cons (r : Renderer) (chunk : Bytes) (rest : List Bytes) :
    r.renderEach (chunk :: rest) =
      (((r.render chunk).1.renderEach rest).1,
        (r.render chunk).2 :: ((r.render chunk).1.renderEach rest).2) := rfl

theorem calm_render {r : Renderer} (h : r.machine.Calm) (text : Text) :
    (r.render (Utf8.encode text)).1.machine.Calm := by
  rw [render_text h]
  exact Machine.calm_read h text

/-- A text cut in two, with no backspace behind the cut. -/
theorem render_append {r : Renderer} (h : r.machine.Calm) (a : Text) {b : Text}
    (hb : '\x08' ∉ b) :
    let first := r.render (Utf8.encode a)
    let second := first.1.render (Utf8.encode b)
    r.render (Utf8.encode (a ++ b)) = (second.1, Spans.pushAll first.2 second.2) := by
  intro first second
  have hfirst : first = _ := render_text h a
  have hsecond : second = _ := render_text (calm_render h a) b
  rw [← show first = r.render (Utf8.encode a) from rfl, hfirst] at hsecond
  dsimp only at hsecond
  have hspares : spares 0 ((r.machine.read a).strokes b) = true :=
    spares_of_back_notMem (Machine.back_notMem_strokes _ hb) 0
  have hflush := Canvas.flush_drawAll
    (c := Canvas.drawAll { style := r.style } (r.machine.strokes a)) (.inr hspares)
  rw [render_text h, Machine.strokes_append, Canvas.drawAll_append, Machine.read_append, hflush,
    hsecond, hfirst]
  have hstyle := congrArg Canvas.style hflush
  refine Prod.ext ?_ rfl
  exact congrArg (Renderer.mk _) hstyle

/-- Chunks without backspaces come to the same as the whole text. -/
theorem render_flatten {r : Renderer} (h : r.machine.Calm) {chunks : List Text}
    (hc : '\x08' ∉ chunks.flatten) :
    (r.renderEach (chunks.map Utf8.encode)).1 = (r.render (Utf8.encode chunks.flatten)).1 ∧
      Spans.pushAll [] (r.renderEach (chunks.map Utf8.encode)).2.flatten =
        (r.render (Utf8.encode chunks.flatten)).2 := by
  induction chunks generalizing r with
  | nil =>
    have hr := render_text h []
    exact ⟨(congrArg Prod.fst hr).symm, (congrArg Prod.snd hr).symm⟩
  | cons chunk rest ih =>
    rw [List.flatten_cons, List.mem_append, not_or] at hc
    have hwhole := render_append h chunk hc.2
    have hrest := ih (calm_render h chunk) hc.2
    dsimp only at hwhole
    rw [List.map_cons, renderEach_cons, List.flatten_cons, hwhole]
    have hgathered : Spans.pushAll [] (r.render (Utf8.encode chunk)).2 =
        (r.render (Utf8.encode chunk)).2 := by
      rw [render_text h]
      exact Canvas.pushAll_nil_spans r.style _
    refine ⟨hrest.1, ?_⟩
    dsimp only
    rw [List.flatten_cons, Spans.pushAll_append, hgathered, ← hrest.2]
    -- What the later chunks gave may be gathered before it is pushed.
    have hlater := Spans.pushAll_map_pushAll id (r.render (Utf8.encode chunk)).2 []
      ((r.render (Utf8.encode chunk)).1.renderEach (rest.map Utf8.encode)).2.flatten
    simpa using hlater.symm

/-- However a text without backspaces is cut into chunks, even within escape sequences, the spans
that a fresh renderer gives for them, pushed one by one, are those of the whole text, and it is
left as it would be by the whole text. -/
theorem spans_of_chunks {text : Text} (h : '\x08' ∉ text) {chunks : List Text}
    (hc : chunks.flatten = text) :
    Spans.pushAll [] (({} : Renderer).renderEach (chunks.map Utf8.encode)).2.flatten =
        (({} : Renderer).render (Utf8.encode text)).2 ∧
      (({} : Renderer).renderEach (chunks.map Utf8.encode)).1 =
        (({} : Renderer).render (Utf8.encode text)).1 := by
  subst hc
  have hcalm : ({} : Renderer).machine.Calm := rfl
  have hflatten := render_flatten hcalm h
  exact ⟨hflatten.2, hflatten.1⟩

/-- Output that is cut within a number, before a final octet, within a title and within the escape
that ends it. The last two chunks are in one style. -/
def tornWarning : List Text :=
  ["ok \x1b[3".toList, "3;1".toList, "mwarn\x1b]0;ti".toList, "tle\x1b".toList, "\\ing".toList,
    " λ\x1b[m\n".toList]

def warned : Style := { fg := some (.indexed 3), attributes := { bold := true } }

theorem spans_of_chunks_torn :
    '\x08' ∉ tornWarning.flatten ∧
      (({} : Renderer).render (Utf8.encode tornWarning.flatten)).2 =
          [⟨"ok ".toList, .plain⟩, ⟨"warning λ".toList, warned⟩, ⟨"\n".toList, .plain⟩] ∧
      Spans.pushAll [] (({} : Renderer).renderEach (tornWarning.map Utf8.encode)).2.flatten =
          (({} : Renderer).render (Utf8.encode tornWarning.flatten)).2 ∧
        (({} : Renderer).renderEach (tornWarning.map Utf8.encode)).1 =
          (({} : Renderer).render (Utf8.encode tornWarning.flatten)).1 :=
  ⟨by decide, by decide +kernel, spans_of_chunks (by decide) rfl⟩

end Renderer

namespace Filter

/-- Successive chunks: the filter after the last of them, and the spans that each of them gave. -/
def applyEach (f : Filter) : List Text → Filter × List Spans
  | [] => (f, [])
  | chunk :: rest =>
    (((f.apply chunk).1.applyEach rest).1,
      (f.apply chunk).2 :: ((f.apply chunk).1.applyEach rest).2)

@[simp] theorem applyEach_nil (f : Filter) : f.applyEach [] = (f, []) := rfl
@[simp] theorem applyEach_cons (f : Filter) (chunk : Text) (rest : List Text) :
    f.applyEach (chunk :: rest) =
      (((f.apply chunk).1.applyEach rest).1,
        (f.apply chunk).2 :: ((f.apply chunk).1.applyEach rest).2) := rfl

/-- In `ansi` mode a chunk is stripped and then rendered. -/
theorem apply_ansi (r : Renderer) (chunk : Text) :
    (ansi r).apply chunk =
      (ansi (r.render (Utf8.encode (CursorCode.strip chunk))).1,
        (r.render (Utf8.encode (CursorCode.strip chunk))).2) := rfl

end Filter
end Parley.Terminal
