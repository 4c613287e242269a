import Parley.Proofs.Expression.Outside
import Parley.Proofs.Session.Delivery
import Parley.Proofs.Session.Unread

/-! The expression before the cursor, when it is sent. If none is found nothing happens; else it is as
if the text from the start of its line to the cursor had been given, and that text is never blank
(`expression_of_send`). With the cursor in a literal what is found need not be an expression of the
text (`expression_of_send_in_literal`). -/
namespace Parley.Desk

open Expression

/-- A text that is sent is written, trimmed, if anything is. -/
theorem written_of_send (d : Desk) (text : Text) (focus : Bool) :
    ∃ written, (d.send (.text text) focus).2.pool.writes = d.pool.writes ++ written ∧
      (written = [] ∨ ∃ n, written = [(n, Utf8.encode (inputLine text))]) := by
  have hwrites : ∃ written, (d.sendText text).2.pool.writes = d.pool.writes ++ written ∧
      (written = [] ∨ ∃ n, written = [(n, Utf8.encode (inputLine text))]) := by
    rcases sendText_cases d text with ⟨-, s, -, hwrites⟩ | ⟨f, -, -, hwrites⟩
    · exact ⟨_, hwrites, .inr ⟨s.process, rfl⟩⟩
    · exact ⟨[], by rw [hwrites, List.append_nil], .inl rfl⟩
  cases hs : d.sendText text with
  | mk result after =>
    rw [hs] at hwrites
    cases result with
    | error f =>
      rw [send_of_error rfl hs]
      exact hwrites
    | ok u =>
      rw [send_of_ok rfl hs]
      cases focus with
      | false => exact hwrites
      | true => simpa only [if_true, pool_switch] using hwrites

theorem send_eq_text {d : Desk} {e : Excerpt} {text : Text} (h : d.excerpt e = .ok text)
    (focus : Bool) : d.send e focus = d.send (.text text) focus := by
  have htext : d.excerpt (.text text) = .ok text := rfl
  rw [send, send, h, htext]

theorem excerpt_expression_of_none {d : Desk}
    (h : d.editor.backwardExpression d.outputs d.editor.point = none) :
    d.excerpt .expression = .error .noExpression := by
  simp only [excerpt, expressionSpan, h]
  rfl

/-- From the start of the line where the expression begins, to the cursor. -/
theorem excerpt_expression_of_some {d : Desk} {start : Nat}
    (h : d.editor.backwardExpression d.outputs d.editor.point = some start) :
    d.excerpt .expression = .ok
      (d.editor.regionText d.outputs (d.editor.lineStart d.outputs start) d.editor.point) := by
  simp only [excerpt, expressionSpan, h]
  rfl

/-- Sending the expression before the cursor fails for want of one and does nothing; or it is to send
the text from the start of the line where the expression starts to the cursor. What stands between
the end of the expression and the cursor is skipped, and the text that is sent is not blank. With the
cursor outside literals, and none that opens after a backslash, the expression is one of the text. -/
theorem expression_of_send (d : Desk) (focus : Bool) :
    let text := d.editor.currentText d.outputs
    let cursor := d.editor.point
    let o := d.send .expression focus
    o = (.error .noExpression, d) ∨
      ∃ start line payload, d.editor.backwardExpression d.outputs cursor = some start ∧
        start < cursor ∧ line ≤ start ∧ IsLineStart text start line ∧
        IsPart text line cursor payload ∧ o = d.send (.text payload) focus ∧
        (∃ skipped body, before text cursor = skipped ++ body ++ before text start ∧
          Ends body (before text start) ∧ ∀ m ∈ skipped, isSkipped m = true) ∧
        (QuotesFree text → ¬Within text cursor →
          ∃ last, LastBefore text cursor last ∧ IsExpression text start last) ∧
        payload.trimEnd ≠ [] ∧
        ∃ written, o.2.pool.writes = d.pool.writes ++ written ∧
          (written = [] ∨ ∃ n, written = [(n, Utf8.encode (payload.trimEnd ++ ['\n']))]) := by
  intro text cursor o
  cases hstart : d.editor.backwardExpression d.outputs cursor with
  | none => exact .inl (send_of_no_excerpt (excerpt_expression_of_none hstart) focus)
  | some start =>
    have hlt : start < cursor := (lt_of_start? hstart).trans_le (Nat.min_le_left _ _)
    have hline := d.editor.isLineStart_lineStart d.outputs start
    have hpart := d.editor.isPart_regionText d.outputs (d.editor.lineStart d.outputs start) cursor
    have ho := send_eq_text (excerpt_expression_of_some hstart) focus
    have hsolid : ∃ c ∈ d.editor.regionText d.outputs (d.editor.lineStart d.outputs start) cursor,
        isBlank c = false := by
      obtain ⟨c, hc, hblank⟩ := exists_solid_of_start? hstart
      rw [hpart.eq_drop (hline.le.trans (Nat.le_of_lt hlt))]
      rw [← Nat.add_sub_of_le hline.le, ← List.drop_drop] at hc
      exact ⟨c, List.mem_of_mem_drop hc, hblank⟩
    obtain ⟨c, hc, hblank⟩ := hsolid
    have hfound : QuotesFree text → ¬Within text cursor →
        ∃ last, LastBefore text cursor last ∧ IsExpression text start last := by
      intro hfree hout
      obtain ⟨last, hlast⟩ := exists_lastBefore hstart
      exact ⟨last, hlast, isExpression_of_lastBefore hfree hout hlast hstart⟩
    obtain ⟨written, hwritten⟩ := written_of_send d
      (d.editor.regionText d.outputs (d.editor.lineStart d.outputs start) cursor) focus
    rw [← ho] at hwritten
    exact .inr ⟨start, _, _, rfl, hlt, hline.le, hline, hpart, ho, exists_ends_of_start? hstart,
      hfound, trimEnd_ne_nil hc hblank, written, hwritten⟩

/-- A desk with the cursor right after the quote that opens a literal, and another quote in a comment
before it. -/
def quotedDesk : Desk :=
  (fresh (fun _ _ => .ok {}) {} {} []).run
    [.edit (.openText "main".toList "// it's\nsay('hi')".toList), .edit (.setPoint 13)]

/-- What is sent from there starts in the comment. -/
theorem expression_of_send_in_literal :
    quotedDesk.editor.backwardExpression quotedDesk.outputs 13 = some 5 ∧
      (commentMask (quotedDesk.editor.currentText quotedDesk.outputs))[5]? = some true ∧
      (quotedDesk.send .expression false).2.pool.writes =
        [(0, Utf8.encode "// it's\nsay('\n".toList)] := by
  decide +kernel

end Parley.Desk
