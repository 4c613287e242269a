import Mathlib.Data.List.Chain
import Parley.Style.Span

/-! Pushing spans one by one and pushing what they have been gathered to come to the same, also
where styles are changed in between (`pushAll_map_pushAll`); only the styled characters count, not
how they are divided into spans (`pushAll_eq_of_cells`). What has been pushed is gathered: it holds
no empty text, and neighbours differ in style (`gathered_pushAll`). So is what is left of it from a
character on (`gathered_since`). -/
namespace Parley.Spans

theorem add_ne_nil (spans : Spans) (s : Span) : add spans s ≠ [] := by
  fun_cases add spans s <;> simp

theorem add_cons {spans : Spans} (first s : Span) (h : spans ≠ []) :
    add (first :: spans) s = first :: add spans s := by
  cases spans with
  | nil => exact absurd rfl h
  | cons next rest => rfl

theorem add_add (spans : Spans) (a b : Text) (style : Style) :
    add (add spans ⟨a, style⟩) ⟨b, style⟩ = add spans ⟨a ++ b, style⟩ := by
  induction spans with
  | nil => simp [add]
  | cons first rest ih =>
    by_cases hr : rest = []
    · subst hr
      by_cases h : first.style = style <;> simp [add, h]
    · rw [add_cons first _ hr, add_cons first _ (add_ne_nil _ _), ih, add_cons first _ hr]

/-- Two spans of one style are pushed like one. -/
theorem push_push (spans : Spans) (a b : Text) (style : Style) :
    push (push spans ⟨a, style⟩) ⟨b, style⟩ = push spans ⟨a ++ b, style⟩ := by
  by_cases ha : a = []
  · simp [push, ha]
  · by_cases hb : b = []
    · simp [push, hb]
    · simp [push, ha, hb, add_add]

end Parley.Spans

namespace Parley.Span

def mapStyle (f : Style → Style) (s : Span) : Span := { s with style := f s.style }

@[simp] theorem mapStyle_mk (f : Style → Style) (text : Text) (style : Style) :
    mapStyle f ⟨text, style⟩ = ⟨text, f style⟩ := rfl
@[simp] theorem mapStyle_id : mapStyle id = id := rfl
theorem resolve_eq_mapStyle : resolve = mapStyle Style.resolve := rfl

end Parley.Span

open Parley.Span (mapStyle)

namespace Parley.Spans

theorem pushAll_map_add (f : Style → Style) (acc spans : Spans) (s : Span) :
    pushAll acc ((add spans s).map (mapStyle f)) =
      push (pushAll acc (spans.map (mapStyle f))) (mapStyle f s) := by
  induction spans generalizing acc with
  | nil => rfl
  | cons first rest ih =>
    by_cases hr : rest = []
    · subst hr
      by_cases h : first.style = s.style
      · simp [add, h, mapStyle, push_push]
      · simp [add, h]
    · rw [add_cons first s hr, List.map_cons, List.map_cons, pushAll_cons, pushAll_cons, ih]

theorem pushAll_map_push (f : Style → Style) (acc spans : Spans) (s : Span) :
    pushAll acc ((push spans s).map (mapStyle f)) =
      push (pushAll acc (spans.map (mapStyle f))) (mapStyle f s) := by
  by_cases h : s.text = []
  · simp [push, h, mapStyle]
  · simp [push, h, pushAll_map_add, mapStyle]

/-- Spans may be gathered before they are pushed. -/
theorem pushAll_push (acc spans : Spans) (s : Span) :
    pushAll acc (push spans s) = push (pushAll acc spans) s := by
  simpa using pushAll_map_push id acc spans s

/-- A change of styles may come after the gathering, if what it makes equal is gathered again. -/
theorem pushAll_map_pushAll (f : Style → Style) (acc spans more : Spans) :
    pushAll acc ((pushAll spans more).map (mapStyle f)) =
      pushAll (pushAll acc (spans.map (mapStyle f))) (more.map (mapStyle f)) := by
  induction more generalizing spans with
  | nil => rfl
  | cons s more ih => rw [pushAll_cons, ih, pushAll_map_push, List.map_cons, pushAll_cons]

/-- A span for every styled character. -/
def singles (cells : List (Char × Style)) : Spans := cells.map fun cell => ⟨[cell.1], cell.2⟩

theorem pushAll_singles_span (acc : Spans) (text : Text) (style : Style) :
    pushAll acc (singles (Span.cells ⟨text, style⟩)) = push acc ⟨text, style⟩ := by
  induction text generalizing acc with
  | nil => rfl
  | cons c text ih =>
    have hcells : singles (Span.cells ⟨c :: text, style⟩) =
        ⟨[c], style⟩ :: singles (Span.cells ⟨text, style⟩) := rfl
    rw [hcells, pushAll_cons, ih, push_push, List.singleton_append]

theorem pushAll_singles (acc spans : Spans) :
    pushAll acc (singles (cells spans)) = pushAll acc spans := by
  induction spans generalizing acc with
  | nil => rfl
  | cons s spans ih =>
    have hcells : singles (cells (s :: spans)) = singles s.cells ++ singles (cells spans) :=
      List.map_append
    rw [hcells, pushAll_append, pushAll_singles_span, ih, pushAll_cons]

/-- What is pushed does not depend on how it is divided into spans. -/
theorem pushAll_eq_of_cells (acc : Spans) {a b : Spans} (h : cells a = cells b) :
    pushAll acc a = pushAll acc b := by
  rw [← pushAll_singles acc a, h, pushAll_singles]

theorem text_push (spans : Spans) (s : Span) : (push spans s).text = spans.text ++ s.text := by
  have hs : s.cells.map Prod.fst = s.text := by simp [Span.cells, Function.comp_def]
  rw [← map_fst_cells, cells_push, List.map_append, map_fst_cells, hs]

/-- No text is empty, and neighbours differ in style. -/
structure Gathered (spans : Spans) : Prop where
  texts : ∀ s ∈ spans, s.text ≠ []
  styles : spans.IsChain fun s t => s.style ≠ t.style

theorem gathered_nil : Gathered [] := ⟨by simp, .nil⟩

/-- What spans begin with keeps its style. -/
theorem style_head_add (first : Span) (rest : Spans) (s : Span) :
    ∀ t ∈ (add (first :: rest) s).head?, t.style = first.style := by
  intro t ht
  cases rest with
  | nil =>
    by_cases h : first.style = s.style
    · simp only [add, h, if_true, List.head?_cons, Option.mem_some_iff] at ht
      rw [← ht, h]
    · simp only [add, h, if_false, List.head?_cons, Option.mem_some_iff] at ht
      rw [← ht]
  | cons next rest =>
    simp only [add, List.head?_cons, Option.mem_some_iff] at ht
    rw [← ht]

theorem gathered_add {spans : Spans} {s : Span} (h : Gathered spans) (hs : s.text ≠ []) :
    Gathered (add spans s) := by
  induction spans with
  | nil => exact ⟨by simpa [add] using hs, .singleton s⟩
  | cons first rest ih =>
    obtain ⟨htexts, hstyles⟩ := h
    rw [List.forall_mem_cons] at htexts
    rw [List.isChain_cons] at hstyles
    cases rest with
    | nil =>
      by_cases heq : first.style = s.style
      · simp only [add, heq, if_true]
        exact ⟨by simp [hs], .singleton _⟩
      · simp only [add, heq, if_false]
        exact ⟨by simp [htexts.1, hs], .cons_cons heq (.singleton s)⟩
    | cons next rest =>
      have hrest : Gathered (add (next :: rest) s) := ih ⟨htexts.2, hstyles.2⟩
      have hne : first.style ≠ next.style := hstyles.1 next rfl
      rw [add]
      refine ⟨List.forall_mem_cons.mpr ⟨htexts.1, hrest.texts⟩, ?_⟩
      refine List.isChain_cons.mpr ⟨fun t ht => ?_, hrest.styles⟩
      have hstyle := style_head_add next rest s t ht
      exact hstyle ▸ hne

theorem gathered_push {spans : Spans} (h : Gathered spans) (s : Span) :
    Gathered (push spans s) := by
  by_cases hs : s.text = []
  · rw [push, if_pos hs]
    exact h
  · rw [push, if_neg hs]
    exact gathered_add h hs

theorem gathered_pushAll {spans : Spans} (h : Gathered spans) (more : Spans) :
    Gathered (pushAll spans more) := by
  induction more generalizing spans with
  | nil => exact h
  | cons s more ih => exact ih (gathered_push h s)

theorem add_eq_append {spans : Spans} {s : Span}
    (h : (spans ++ [s]).IsChain fun s t => s.style ≠ t.style) : add spans s = spans ++ [s] := by
  induction spans with
  | nil => rfl
  | cons first rest ih =>
    rw [List.cons_append, List.isChain_cons] at h
    cases rest with
    | nil => rw [add, if_neg (h.1 s rfl), List.singleton_append]
    | cons next rest =>
      rw [add, ih h.2]
      rfl

theorem pushAll_of_gathered {acc spans : Spans} (h : Gathered (acc ++ spans)) :
    pushAll acc spans = acc ++ spans := by
  induction spans generalizing acc with
  | nil => rw [pushAll_nil, List.append_nil]
  | cons s spans ih =>
    have hsplit : acc ++ s :: spans = acc ++ [s] ++ spans := List.append_cons acc s spans
    rw [hsplit] at h ⊢
    have htext : s.text ≠ [] := h.texts s (by simp)
    have hchain : (acc ++ [s]).IsChain fun s t => s.style ≠ t.style :=
      (List.isChain_append.mp h.styles).1
    rw [pushAll_cons, push, if_neg htext, add_eq_append hchain, ih h]

/-- Gathered spans are the only ones that show their characters: pushing any others comes to
them. -/
theorem pushAll_eq_of_gathered {spans others : Spans} (h : Gathered spans)
    (hcells : cells others = cells spans) : pushAll [] others = spans := by
  rw [pushAll_eq_of_cells [] hcells]
  exact pushAll_of_gathered h

/-- What is left of gathered spans from a character on is gathered. -/
theorem gathered_since {spans : Spans} (h : Gathered spans) (start : Nat) :
    Gathered (since start spans) := by
  fun_induction since start spans with
  | case1 => exact gathered_nil
  | case2 start s rest hle ih =>
    exact ih ⟨(List.forall_mem_cons.mp h.texts).2, (List.isChain_cons.mp h.styles).2⟩
  | case3 start s rest hlt =>
    obtain ⟨-, htexts⟩ := List.forall_mem_cons.mp h.texts
    obtain ⟨hhead, hstyles⟩ := List.isChain_cons.mp h.styles
    have htext : s.text.drop start ≠ [] := by
      rw [Ne, List.drop_eq_nil_iff]
      exact hlt
    exact ⟨List.forall_mem_cons.mpr ⟨htext, htexts⟩, List.isChain_cons.mpr ⟨hhead, hstyles⟩⟩

theorem since_eq_nil {spans : Spans} {start : Nat} (h : spans.text.length ≤ start) :
    since start spans = [] := by
  fun_induction since start spans with
  | case1 => rfl
  | case2 start s rest hle ih =>
    rw [text_cons, List.length_append] at h
    exact ih (by omega)
  | case3 start s rest hlt =>
    rw [text_cons, List.length_append] at h
    omega

end Parley.Spans
