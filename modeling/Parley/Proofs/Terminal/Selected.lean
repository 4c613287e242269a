import Parley.Proofs.Terminal.Escapes

/-! The sequence that selects a style wins over whatever was read before it. It begins with a reset,
so the style before it does not matter; and an escape cuts short any sequence or character that was
unfinished, so the state of the machine does not either. Text that follows is one span in that
style (`span_after_styleText`). -/
namespace Parley.Terminal

theorem styleText_eq (depth : Depth) (s : Style) :
    styleText depth s = selectionText ((styleNumbers depth s).map ([·])) := by
  simp [styleText, selectionText, parameterText, Function.comp_def]

theorem fits_styleNumbers (depth : Depth) (s : Style) :
    Fits ((styleNumbers depth s).map ([·])) where
  nonempty := by simp [styleNumbers]
  numbers := by simpa using styleNumbers_le depth s
  room := by
    rw [← List.flatMap_def, List.flatMap_singleton']
    exact length_styleNumbers_le depth s

namespace Renderer

/-- Text that is shown as it stands, read outside sequences, is one span. -/
theorem render_shown {r : Renderer} (hg : r.machine.mode = .ground) (h : r.machine.Calm)
    {text : Text} (hne : text ≠ []) (ht : ∀ c ∈ text, IsShown c) :
    (r.render (Utf8.encode text)).2 = [⟨text, r.style⟩] := by
  rw [render_text h, (Machine.read_text hg h ht).2, Canvas.flush_spans_text]
  have hempty : ({ style := r.style } : Canvas).flush.spans = [] := rfl
  rw [hempty, Spans.push, if_neg hne]
  rfl

/-- Whatever a renderer has read, in any chunks and up to the middle of a sequence or a character:
once it reads the sequence that selects a style, in a chunk of its own or at the end of one, text
without control characters in the next chunk is one span in that style. -/
theorem span_after_styleText (chunks : List Bytes) (before : Bytes) (depth : Depth) (s : Style)
    {text : Text} (hne : text ≠ []) (ht : ∀ c ∈ text, IsShown c) :
    let r := (({} : Renderer).renderEach chunks).1
    let selected := (r.render (before ++ Utf8.encode (styleText depth s))).1
    (selected.render (Utf8.encode text)).2 = [⟨text, depth.style s⟩] := by
  intro r selected
  obtain ⟨⟨hmode, hcalm⟩, hstyle⟩ :=
    render_selection (tidy_rendered chunks) before (fits_styleNumbers depth s)
  rw [← styleText_eq, applyRendition_styleNumbers] at hstyle
  rw [← styleText_eq] at hmode hcalm
  rw [← hstyle]
  exact render_shown hmode hcalm hne ht

/-- A renderer left in a title, in a number and in a character, and in a style of its own. -/
theorem span_after_styleText_torn :
    "λ → ok".toList ≠ [] ∧ (∀ c ∈ "λ → ok".toList, IsShown c) ∧
      (((({} : Renderer).renderEach
          [Utf8.encode "a\x1b[1;45mb\x1b]0;title".toList, Utf8.encode "\x1b[38;5".toList,
            Utf8.encode "\x1b[0;7mc".toList]).1.render
        ([0xE2, 0x86] ++ Utf8.encode (styleText .trueColor { fg := some (.indexed 196) }))).1.render
        (Utf8.encode "λ → ok".toList)).2 =
      [⟨"λ → ok".toList, { fg := some (.direct ⟨255, 0, 0⟩) }⟩] := by
  have hne : "λ → ok".toList ≠ [] := by decide +kernel
  have ht : ∀ c ∈ "λ → ok".toList, IsShown c := by
    have hall : "λ → ok".toList.all (fun c => IsShown c) = true := by decide +kernel
    simpa only [List.all_eq_true, decide_eq_true_eq] using hall
  exact ⟨hne, ht, span_after_styleText _ _ .trueColor { fg := some (.indexed 196) } hne ht⟩

end Renderer
end Parley.Terminal
