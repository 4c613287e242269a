import Parley.Proofs.Terminal.Chunks

/-! What reaches the display is clean, however malformed the output is. The spans that a chunk gives
are gathered as they come, so none is empty and neighbours differ in style; their characters are
those that were put on the canvas, and no control other than newlines and tabs is ever put there
(`clean_of_chunks`). -/
namespace Parley.Terminal

namespace Canvas

/-- What stands on a canvas was put there. -/
theorem exists_put (c : Canvas) (strokes : List Stroke) {ch : Char}
    (h : ch ∈ (c.drawAll strokes).flush.spans.text) :
    ch ∈ c.flush.spans.text ∨ Stroke.put ch ∈ strokes := by
  induction strokes generalizing c with
  | nil => exact .inl h
  | cons k strokes ih =>
    rcases ih (c.draw k) h with hbefore | hlater
    · cases k with
      | put d =>
        simp only [draw, flush, Spans.text_push, List.reverse_cons, List.mem_append,
          List.mem_singleton] at hbefore ⊢
        rcases hbefore with hspans | hpending | rfl
        · exact .inl (.inl hspans)
        · exact .inl (.inr hpending)
        · exact .inr List.mem_cons_self
      | back =>
        simp only [draw, flush, Spans.text_push, List.mem_append, List.mem_reverse] at hbefore ⊢
        rcases hbefore with hspans | hpending
        · exact .inl (.inl hspans)
        · exact .inl (.inr (List.mem_of_mem_tail hpending))
      | restyle params =>
        simp only [draw, flush, Spans.text_push, List.reverse_nil, List.append_nil]
          at hbefore ⊢
        exact .inl hbefore
    · exact .inr (List.mem_cons_of_mem k hlater)

end Canvas

/-- Spans that may be displayed: gathered, and with nothing in them but what may be shown. -/
structure Clean (spans : Spans) : Prop where
  gathered : spans.Gathered
  shown : ∀ s ∈ spans, ∀ ch ∈ s.text, IsShown ch

theorem clean_render {r : Renderer} (h : r.machine.Calm) (text : Text) :
    Clean (r.render (Utf8.encode text)).2 := by
  rw [Renderer.render_text h]
  constructor
  · have hspans := Canvas.pushAll_nil_spans r.style (r.machine.strokes text)
    exact hspans ▸ Spans.gathered_pushAll Spans.gathered_nil _
  · intro s hs ch hch
    have hmem := List.mem_flatMap.mpr ⟨s, hs, hch⟩
    rcases Canvas.exists_put _ _ hmem with hbefore | hput
    · cases hbefore
    · exact Machine.isShown_of_mem_strokes h hput

theorem clean_applyEach {r : Renderer} (h : r.machine.Calm) (chunks : List Text) :
    ∀ spans ∈ ((Filter.ansi r).applyEach chunks).2, Clean spans := by
  induction chunks generalizing r with
  | nil =>
    intro spans hs
    cases hs
  | cons chunk rest ih =>
    rw [Filter.applyEach_cons, Filter.apply_ansi, List.forall_mem_cons]
    exact ⟨clean_render h _, ih (Renderer.calm_render h _)⟩

/-- Whatever chunks of output are filtered in `ansi` mode, each of the spans that a chunk gives holds
some text, neighbours differ in style, and no character of them is a control but newlines and
tabs. -/
theorem clean_of_chunks (chunks : List Text) :
    ∀ spans ∈ ((Filter.ofMode .ansi).applyEach chunks).2,
      (∀ s ∈ spans, s.text ≠ [] ∧ ∀ ch ∈ s.text, IsShown ch) ∧
        spans.IsChain fun s t => s.style ≠ t.style := by
  intro spans hs
  have hclean := clean_applyEach (r := {}) rfl chunks spans hs
  exact ⟨fun s hs => ⟨hclean.gathered.texts s hs, hclean.shown s hs⟩, hclean.gathered.styles⟩

/-- Sequences broken off by controls, a title that is never ended, a number cut in two, backspaces
with nothing before them, and a control of two octets. -/
def brokenOutput : List Text :=
  ["a\x1b[3\x07\x08\x08b".toList, "1mc\u009bd\x1b]0;\x1b[1Kx\x1b[1".toList,
    "Ke\x1b[31mf\x08\x08g\x00\x1b[38;5\x18\th".toList]

def brokenSpans : Spans :=
  [⟨"e".toList, .plain⟩, ⟨"g\th".toList, { fg := some (.indexed 1) }⟩]

theorem clean_of_chunks_broken :
    brokenSpans ∈ ((Filter.ofMode .ansi).applyEach brokenOutput).2 ∧
      (∀ s ∈ brokenSpans, s.text ≠ [] ∧ ∀ ch ∈ s.text, IsShown ch) ∧
        brokenSpans.IsChain fun s t => s.style ≠ t.style := by
  have hmem : brokenSpans ∈ ((Filter.ofMode .ansi).applyEach brokenOutput).2 := by decide +kernel
  exact ⟨hmem, clean_of_chunks brokenOutput brokenSpans hmem⟩

end Parley.Terminal
