import Parley.Proofs.Style.Pushing
import Parley.Proofs.Terminal.Selection
import Parley.Proofs.Terminal.Sequences
import Parley.Terminal.Renderer

/-! Painted spans read back by a renderer. Each span begins and ends outside sequences and in no
style; a reset is the selection of the plain style, so one lemma reads both. What a fresh renderer
shows are the spans pushed one by one, with the colours that the terminal has. -/
namespace Parley.Terminal

/-- The characters that a renderer shows as they stand: newlines, tabs and what is neither below
0x20 nor from 0x80 to 0x9F. -/
def IsShown (c : Char) : Prop :=
  c = '\n' ∨ c = '\t' ∨ (0x20 ≤ c.toNat ∧ ¬ (0x80 ≤ c.toNat ∧ c.toNat ≤ 0x9F))

instance (c : Char) : Decidable (IsShown c) := by unfold IsShown; infer_instance

namespace Machine

theorem charStrokes_of_isShown {c : Char} (h : IsShown c) : charStrokes c = [.put c] := by
  rcases h with rfl | rfl | ⟨h, h'⟩
  · rfl
  · rfl
  · have hc : character c = .print c := by
      rw [character, if_neg]
      simp only [Bool.or_eq_true, Bool.and_eq_true, decide_eq_true_eq]
      omega
    simp [charStrokes, hc, Action.stroke?]

theorem ne_escape_of_isShown {c : Char} (h : IsShown c) : c ≠ '\x1b' := by
  rintro rfl
  revert h
  decide

theorem read_text {m : Machine} (hg : m.mode = .ground) (h : m.Calm) {text : Text}
    (ht : ∀ c ∈ text, IsShown c) : m.read text = m ∧ m.strokes text = text.map .put := by
  induction text with
  | nil => exact ⟨rfl, rfl⟩
  | cons c text ih =>
    rw [List.forall_mem_cons] at ht
    have hc := read_char hg h (ne_escape_of_isShown ht.1)
    have hrest := ih ht.2
    constructor
    · rw [read, Utf8.encode_cons, after_append, hc.1]
      exact hrest.1
    · rw [strokes, Utf8.encode_cons, strokesOf_append, hc.1, hc.2, charStrokes_of_isShown ht.1]
      rw [strokes] at hrest
      simp [hrest.2]

/-- The sequence that selects a style, read outside sequences. -/
theorem read_styleText {m : Machine} (hg : m.mode = .ground) (h : m.Calm) (depth : Depth)
    (s : Style) :
    ((m.read (styleText depth s)).mode = .ground ∧ (m.read (styleText depth s)).Calm) ∧
      m.strokes (styleText depth s) = [.restyle ((styleNumbers depth s).map ([·]))] := by
  have hne : styleNumbers depth s ≠ [] := by simp [styleNumbers]
  have hopening := read_opening hg h (joinWith [';'] ((styleNumbers depth s).map decimal) ++ ['m'])
  obtain ⟨⟨t, hmachine⟩, hstrokes⟩ :=
    @read_numbers { m with mode := .controlStart, sequence := {} } (.inl rfl) [] _ rfl hne
      (styleNumbers_le depth s) (by simpa using length_styleNumbers_le depth s)
  rw [hmachine, hstrokes] at hopening
  have htext : styleText depth s =
      '\x1b' :: '[' :: (joinWith [';'] ((styleNumbers depth s).map decimal) ++ ['m']) := by
    simp [styleText, renditionText]
  rw [htext, hopening.1, hopening.2]
  exact ⟨⟨rfl, h⟩, rfl⟩

end Machine

namespace Canvas

theorem drawAll_text (c : Canvas) (text : Text) :
    c.drawAll (text.map .put) = { c with pending := text.reverse ++ c.pending } := by
  induction text generalizing c with
  | nil => rfl
  | cons ch text ih =>
    rw [List.map_cons, drawAll_cons, ih]
    simp [draw]

theorem flush_spans_text {c : Canvas} (text : Text) :
    (c.drawAll (text.map .put)).flush.spans = c.flush.spans.push ⟨text, c.style⟩ := by
  simp [drawAll_text, flush, Spans.push_push]

/-- A text wrapped in a style and a reset. -/
theorem drawAll_styled (c : Canvas) (depth : Depth) (s : Span) :
    c.drawAll (.restyle ((styleNumbers depth s.style).map ([·])) :: s.text.map .put ++
        [.restyle ((styleNumbers depth .plain).map ([·]))]) =
      { spans := c.flush.spans.push (s.mapStyle depth.style) } := by
  have hplain : depth.style .plain = .plain := by cases depth <;> rfl
  rw [drawAll_append, drawAll_cons c, drawAll_text, drawAll_cons, drawAll_nil]
  simp [draw, applyRendition_styleNumbers, flush, hplain, Span.mapStyle]

end Canvas

/-- Outside sequences and in no style: where painted text begins and ends. -/
def Bare (m : Machine) (c : Canvas) : Prop := (m.mode = .ground ∧ m.Calm) ∧ c.style = .plain

theorem resetText_eq (depth : Depth) : resetText = styleText depth .plain := by
  cases depth <;> decide

theorem paintSpan_shown {m : Machine} {c : Canvas} (h : Bare m c) (depth : Depth) {s : Span}
    (hs : ∀ ch ∈ s.text, IsShown ch) :
    Bare (m.read (paintSpan depth s)) (c.drawAll (m.strokes (paintSpan depth s))) ∧
      (c.drawAll (m.strokes (paintSpan depth s))).flush.spans =
        c.flush.spans.push (s.mapStyle depth.style) := by
  obtain ⟨⟨hg, hm⟩, hc⟩ := h
  by_cases hp : s.style.isPlain = true
  · have htext := Machine.read_text hg hm hs
    have hstyle : depth.style s.style = c.style := by
      rw [hc, (Style.isPlain_iff _).mp hp]
      cases depth <;> rfl
    rw [paintSpan, if_pos hp, htext.1, htext.2, Canvas.flush_spans_text, Span.mapStyle, hstyle,
      Canvas.drawAll_text]
    exact ⟨⟨⟨hg, hm⟩, hc⟩, rfl⟩
  · obtain ⟨⟨hg₁, hm₁⟩, hstyle⟩ := Machine.read_styleText hg hm depth s.style
    obtain ⟨htext, hstrokes⟩ := Machine.read_text hg₁ hm₁ hs
    obtain ⟨hbare, hreset⟩ := Machine.read_styleText hg₁ hm₁ depth .plain
    rw [paintSpan, if_neg hp, resetText_eq depth, Machine.read_append, Machine.strokes_append,
      Machine.read_append, Machine.strokes_append, htext, hstyle, hstrokes, hreset,
      List.singleton_append, Canvas.drawAll_styled]
    exact ⟨⟨hbare, rfl⟩, by simp [Canvas.flush]⟩

/-- Painted spans, read back, are pushed one by one. -/
theorem paint_shown {m : Machine} {c : Canvas} (h : Bare m c) (depth : Depth) {spans : Spans}
    (hs : ∀ s ∈ spans, ∀ ch ∈ s.text, IsShown ch) :
    (c.drawAll (m.strokes (paint depth spans))).flush.spans =
      c.flush.spans.pushAll (spans.map (Span.mapStyle depth.style)) := by
  induction spans generalizing m c with
  | nil => rfl
  | cons s spans ih =>
    rw [List.forall_mem_cons] at hs
    obtain ⟨hbare, hspan⟩ := paintSpan_shown h depth hs.1
    have hpaint : paint depth (s :: spans) = paintSpan depth s ++ paint depth spans := rfl
    rw [hpaint, Machine.strokes_append, Canvas.drawAll_append, ih hbare hs.2, hspan, List.map_cons,
      Spans.pushAll_cons]

/-- What a fresh renderer shows of painted spans. -/
theorem render_paint (depth : Depth) {spans : Spans} (hs : ∀ s ∈ spans, ∀ ch ∈ s.text, IsShown ch) :
    (({} : Renderer).render (Utf8.encode (paint depth spans))).2 =
      Spans.pushAll [] (spans.map (Span.mapStyle depth.style)) := by
  have hbare : Bare {} {} := ⟨⟨rfl, rfl⟩, rfl⟩
  have hpaint := paint_shown hbare depth hs
  rw [@Renderer.render_text {} rfl]
  exact hpaint

/-- A fresh renderer shows painted spans as they are when pushed one by one; in true colour, with the
components of their colours. -/
theorem rendered_of_painted (spans : Spans) (hs : ∀ s ∈ spans, ∀ ch ∈ s.text, IsShown ch) :
    (({} : Renderer).render (Utf8.encode (paint .palette spans))).2 = Spans.pushAll [] spans ∧
      (({} : Renderer).render (Utf8.encode (paint .trueColor spans))).2 =
        Spans.pushAll [] ((Spans.pushAll [] spans).map Span.resolve) := by
  constructor
  · rw [render_paint .palette hs]
    exact congrArg _ (List.map_id spans)
  · rw [render_paint .trueColor hs, Span.resolve_eq_mapStyle, Spans.pushAll_map_pushAll]
    rfl

/-- A plain text, and two reds that only a palette tells apart, with an empty text between. -/
def twoReds : Spans :=
  [⟨"plain".toList, .plain⟩, ⟨"red".toList, { fg := some (.indexed 1) }⟩,
    ⟨[], { bg := some (.indexed 9) }⟩,
    ⟨"\tred\n".toList, { fg := some (.direct (Color.indexed 1).toRgb) }⟩]

theorem rendered_of_painted_twoReds :
    (({} : Renderer).render (Utf8.encode (paint .palette twoReds))).2 = Spans.pushAll [] twoReds ∧
      (({} : Renderer).render (Utf8.encode (paint .trueColor twoReds))).2 =
        Spans.pushAll [] ((Spans.pushAll [] twoReds).map Span.resolve) :=
  rendered_of_painted twoReds (by simp [twoReds, IsShown])

end Parley.Terminal
