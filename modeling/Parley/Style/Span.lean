import Parley.Style.Basic

/-! Spans are runs of text that share a style. A list of spans stands for a sequence of styled
characters, its cells, and `push` adds to it at the end: an empty span adds nothing, and one in the
style of the last span grows that span. -/
namespace Parley

structure Span where
  text : Text
  style : Style := .plain
  deriving DecidableEq, Repr

namespace Span

/-- The characters of a span, each with the style it is shown in. -/
def cells (s : Span) : List (Char × Style) := s.text.map (·, s.style)

def resolve (s : Span) : Span := { s with style := s.style.resolve }

@[simp] theorem cells_of_text_nil (style : Style) : cells ⟨[], style⟩ = [] := rfl
@[simp] theorem length_cells (s : Span) : s.cells.length = s.text.length := by simp [cells]

end Span

abbrev Spans := List Span

namespace Spans

def add : Spans → Span → Spans
  | [], s => [s]
  | [last], s =>
    if last.style = s.style then [{ last with text := last.text ++ s.text }] else [last, s]
  | first :: next :: rest, s => first :: add (next :: rest) s

def push (spans : Spans) (s : Span) : Spans := if s.text = [] then spans else add spans s

def pushAll (spans more : Spans) : Spans := more.foldl push spans

def text (spans : Spans) : Text := spans.flatMap Span.text

def cells (spans : Spans) : List (Char × Style) := spans.flatMap Span.cells

/-- The spans from a character on, the first one cut there. -/
def since : Nat → Spans → Spans
  | _, [] => []
  | start, s :: rest =>
    if s.text.length ≤ start then since (start - s.text.length) rest
    else { s with text := s.text.drop start } :: rest

@[simp] theorem push_of_text_nil (spans : Spans) (style : Style) :
    push spans ⟨[], style⟩ = spans := rfl
@[simp] theorem pushAll_nil (spans : Spans) : pushAll spans [] = spans := rfl
@[simp] theorem pushAll_cons (spans : Spans) (s : Span) (more : Spans) :
    pushAll spans (s :: more) = pushAll (push spans s) more := rfl
theorem pushAll_append (spans a b : Spans) :
    pushAll spans (a ++ b) = pushAll (pushAll spans a) b := by simp [pushAll]

@[simp] theorem text_nil : text [] = [] := rfl
@[simp] theorem text_cons (s : Span) (spans : Spans) : text (s :: spans) = s.text ++ text spans :=
  rfl
@[simp] theorem cells_nil : cells [] = [] := rfl
@[simp] theorem cells_cons (s : Span) (spans : Spans) :
    cells (s :: spans) = s.cells ++ cells spans := rfl

@[simp] theorem cells_add (spans : Spans) (s : Span) :
    cells (add spans s) = cells spans ++ s.cells := by
  fun_induction add spans s <;> simp_all [Span.cells]

@[simp] theorem cells_push (spans : Spans) (s : Span) :
    cells (push spans s) = cells spans ++ s.cells := by
  unfold push
  split
  · simp_all [Span.cells]
  · simp

@[simp] theorem cells_pushAll (spans more : Spans) :
    cells (pushAll spans more) = cells spans ++ cells more := by
  induction more generalizing spans with
  | nil => simp
  | cons s more ih => simp [ih]

@[simp] theorem map_fst_cells (spans : Spans) : (cells spans).map Prod.fst = text spans := by
  induction spans with
  | nil => rfl
  | cons s spans ih => simp [ih, Span.cells, Function.comp_def]

@[simp] theorem length_cells (spans : Spans) : (cells spans).length = (text spans).length := by
  rw [← map_fst_cells, List.length_map]

@[simp] theorem cells_since (start : Nat) (spans : Spans) :
    cells (since start spans) = (cells spans).drop start := by
  fun_induction since start spans with
  | case1 => simp
  | case2 start s rest h ih =>
    have hs : s.cells.drop start = [] := List.drop_eq_nil_of_le (by simpa using h)
    simp [ih, List.drop_append, hs]
  | case3 start s rest h =>
    have : start - s.text.length = 0 := by omega
    simp [Span.cells, List.drop_append, List.map_drop, this]

end Spans
end Parley
