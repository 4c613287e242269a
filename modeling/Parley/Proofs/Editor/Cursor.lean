import Parley.Editor

/-! Where the cursor is. Moving it changes no text, so that the end of a buffer is the same place
before and after (`endPosition_setPoint`). A jump to a buffer focuses it, marks the place of its
cursor and moves the cursor to its end; it leaves the other text buffers alone. -/
namespace Parley.Editor

variable (e : Editor) (outputs : Outputs)

/-! Putting the cursor somewhere. -/

theorem textOf_place (name : Text) (pos : Nat) (other : Text) :
    (e.place name pos).textOf outputs other = e.textOf outputs other := by
  by_cases hname : other = name
  · subst hname
    rw [place, Named.contains]
    cases htext : e.texts.get? other with
    | some b => simp [textOf, htext]
    | none => cases hsession : e.sessions.get? other <;> simp [textOf, htext, hsession]
  · unfold place
    split <;> simp [textOf, hname]

theorem pointOf_place {name : Text} (h : e.isBuffer name = true) (pos : Nat) :
    (e.place name pos).pointOf name = pos := by
  rw [isBuffer, Named.contains, Named.contains] at h
  rw [place, Named.contains]
  cases htext : e.texts.get? name with
  | some b => simp [pointOf, htext]
  | none =>
    cases hsession : e.sessions.get? name with
    | some b => simp [pointOf, htext, hsession]
    | none => simp [htext, hsession] at h

theorem texts_place {name other : Text} (h : other ≠ name) (pos : Nat) :
    (e.place name pos).texts.get? other = e.texts.get? other := by
  unfold place
  split
  · rw [Named.get?_modify, if_neg h]
  · rfl

theorem endPosition_setPoint (pos : Nat) :
    (e.setPoint outputs pos).endPosition outputs = e.endPosition outputs := by
  unfold setPoint
  cases hcurrent : e.current with
  | none => rfl
  | some name =>
    simp only [endPosition, currentText, current_place, hcurrent]
    rw [textOf_place]

theorem point_setPoint {name : Text} (hcurrent : e.current = some name)
    (h : e.isBuffer name = true) (pos : Nat) :
    (e.setPoint outputs pos).point = min pos (e.endPosition outputs) := by
  simp only [setPoint, hcurrent, point, current_place]
  exact pointOf_place e h _

theorem point_gotoEnd {name : Text} (hcurrent : e.current = some name)
    (h : e.isBuffer name = true) :
    (e.gotoEnd outputs).point = (e.gotoEnd outputs).endPosition outputs := by
  rw [gotoEnd, point_setPoint e outputs hcurrent h, endPosition_setPoint, Nat.min_self]

/-! Jumping to a buffer. -/

/-- Focuses a buffer, remembers the place of its cursor, and moves the cursor to its end. -/
def jump (name : Text) : Editor := (e.focus name).pushMark.gotoEnd outputs

section
variable {name : Text}

theorem focus_of_isBuffer (h : e.isBuffer name = true) :
    e.focus name = { e with current := some name } := if_pos h

/-- The cursor of the buffer is still where it was when its place is marked. -/
theorem pushMark_focus (h : e.isBuffer name = true) :
    (e.focus name).pushMark =
      { e with current := some name, marks := e.marks ++ [(name, e.pointOf name)] } := by
  rw [focus_of_isBuffer e h]
  rfl

theorem jump_eq (h : e.isBuffer name = true) :
    e.jump outputs name =
      { e with current := some name, marks := e.marks ++ [(name, e.pointOf name)] }.place name
        (e.textOf outputs name).length := by
  rw [jump, pushMark_focus e h, gotoEnd, setPoint, Nat.min_self]
  rfl

theorem current_jump (h : e.isBuffer name = true) :
    (e.jump outputs name).current = some name := by
  rw [jump_eq e outputs h, current_place]

theorem marks_jump (h : e.isBuffer name = true) :
    (e.jump outputs name).marks = e.marks ++ [(name, e.pointOf name)] := by
  rw [jump_eq e outputs h, marks_place]

theorem point_jump (h : e.isBuffer name = true) :
    (e.jump outputs name).point = (e.jump outputs name).endPosition outputs := by
  rw [jump, pushMark_focus e h]
  exact point_gotoEnd _ outputs rfl h

theorem texts_jump (h : e.isBuffer name = true) {other : Text} (hne : other ≠ name) :
    (e.jump outputs name).texts.get? other = e.texts.get? other := by
  rw [jump_eq e outputs h, texts_place _ hne]

end

end Parley.Editor
