import Parley.Proofs.Session.Run

/-! What the session buffers are attached to. Nothing that is done in an editor changes what a
session buffer shows, in which mode and for which session: it is attached once, and killed or put in
the place of another. -/
namespace Parley

/-- All of a session buffer but its cursor. -/
structure Attachment where
  sessionId : Nat
  mode : Terminal.Display
  source : Source
  deriving DecidableEq, Repr

def SessionBuffer.attachment (b : SessionBuffer) : Attachment := ⟨b.sessionId, b.mode, b.source⟩

namespace Editor

def attachment? (e : Editor) (name : Text) : Option Attachment :=
  (e.sessions.get? name).map SessionBuffer.attachment

theorem attachment?_attach (e : Editor) (outputs : Outputs) (name other : Text) (id : Nat)
    (mode : Terminal.Display) (source : Source) :
    (e.attach outputs name id mode source).attachment? other =
      if other = name then some ⟨id, mode, source⟩ else e.attachment? other := by
  simp only [attachment?, attach, Named.get?_insert]
  split <;> rfl

theorem attachment?_kill (e : Editor) (name other : Text) :
    (e.kill name).attachment? other = if other = name then none else e.attachment? other := by
  simp only [attachment?, kill, Named.get?_erase]
  split <;> rfl

@[simp] theorem attachment?_openText (e : Editor) (name text other : Text) :
    (e.openText name text).attachment? other = e.attachment? other := rfl

@[simp] theorem attachment?_focus (e : Editor) (name other : Text) :
    (e.focus name).attachment? other = e.attachment? other := by
  unfold focus
  split <;> rfl

@[simp] theorem attachment?_place (e : Editor) (name : Text) (pos : Nat) (other : Text) :
    (e.place name pos).attachment? other = e.attachment? other := by
  unfold place
  split
  · rfl
  · simp only [attachment?, Named.get?_modify]
    split
    · rw [Option.map_map]
      rfl
    · rfl

@[simp] theorem attachment?_setPoint (e : Editor) (outputs : Outputs) (pos : Nat) (name : Text) :
    (e.setPoint outputs pos).attachment? name = e.attachment? name := by
  unfold setPoint
  split
  · exact attachment?_place _ _ _ _
  · rfl

@[simp] theorem attachment?_gotoEnd (e : Editor) (outputs : Outputs) (name : Text) :
    (e.gotoEnd outputs).attachment? name = e.attachment? name := attachment?_setPoint _ _ _ _

@[simp] theorem attachment?_pushMark (e : Editor) (name : Text) :
    e.pushMark.attachment? name = e.attachment? name := by
  unfold pushMark
  split <;> rfl

/-- An edit leaves a session buffer attached as it is, unless it kills it. -/
theorem attachment?_edit (e : Editor) (outputs : Outputs) {edit : Edit} {name : Text}
    (h : edit ≠ .kill name) : (e.edit outputs edit).attachment? name = e.attachment? name := by
  cases edit with
  | kill other =>
    have hne : name ≠ other := fun heq => h (by rw [heq])
    exact (attachment?_kill e other name).trans (if_neg hne)
  | openText | focus | setPoint | pushMark | gotoEnd => simp [edit]

end Editor
end Parley
