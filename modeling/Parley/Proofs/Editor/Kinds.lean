import Parley.Proofs.Editor.Scene

/-! Names of two buffers. A session that is attached takes the place of the text buffer of its name,
but a text that is opened leaves the session buffer of its name where it is, and stands in front of
it. So a name is that of buffers of both kinds if and only if a text was opened where a session was
shown, and nothing was attached or killed there since (`isBoth_run`); to focus the name then shows
the text and not the transcript (`currentText_focus`, `transcript_behind_text`). -/
namespace Parley

theorem Named.contains_modify {α : Type} (xs : Named α) (name : Text) (f : α → α) (other : Text) :
    (xs.modify name f).contains other = xs.contains other := by
  simp only [contains, get?_modify]
  split <;> simp

namespace Editor

def isBoth (e : Editor) (name : Text) : Bool := e.texts.contains name && e.sessions.contains name

@[simp] theorem isBoth_openText (e : Editor) (name text other : Text) :
    (e.openText name text).isBoth other =
      if other = name then e.sessions.contains name else e.isBoth other := by
  unfold isBoth openText Named.contains
  by_cases h : other = name <;> simp [h]

@[simp] theorem isBoth_kill (e : Editor) (name other : Text) :
    (e.kill name).isBoth other = if other = name then false else e.isBoth other := by
  unfold isBoth kill Named.contains
  by_cases h : other = name <;> simp [h]

@[simp] theorem isBoth_attach (e : Editor) (outputs : Outputs) (name : Text) (id : Nat)
    (mode : Terminal.Display) (source : Source) (other : Text) :
    (e.attach outputs name id mode source).isBoth other =
      if other = name then false else e.isBoth other := by
  unfold isBoth attach Named.contains
  by_cases h : other = name <;> simp [h]

@[simp] theorem isBoth_focus (e : Editor) (name other : Text) :
    (e.focus name).isBoth other = e.isBoth other := by
  unfold focus
  split <;> rfl

@[simp] theorem isBoth_pushMark (e : Editor) (name : Text) :
    e.pushMark.isBoth name = e.isBoth name := by
  unfold pushMark
  split <;> rfl

@[simp] theorem isBoth_place (e : Editor) (name : Text) (pos : Nat) (other : Text) :
    (e.place name pos).isBoth other = e.isBoth other := by
  unfold place
  split <;> simp [isBoth, Named.contains_modify]

@[simp] theorem isBoth_setPoint (e : Editor) (outputs : Outputs) (pos : Nat) (name : Text) :
    (e.setPoint outputs pos).isBoth name = e.isBoth name := by
  unfold setPoint
  split <;> simp

@[simp] theorem isBoth_redirect (e : Editor) (name : Text) (source : Source) (other : Text) :
    (e.redirect name source).isBoth other = e.isBoth other := by
  simp [isBoth, redirect, Named.contains_modify]

/-- What the name of a session buffer shows once it is focused: the transcript, unless a text buffer
of that name stands in front of it. -/
theorem currentText_focus {e : Editor} {name : Text} {b : SessionBuffer}
    (h : e.sessions.get? name = some b) (outputs : Outputs) :
    (e.focus name).currentText outputs =
      match e.texts.get? name with
      | some front => front.text
      | none => (b.source.transcript outputs).text := by
  have hbuffer : e.isBuffer name = true := isBuffer_iff.mpr (.inr (by simp [h]))
  rw [focus_of_isBuffer e hbuffer]
  simp only [currentText, textOf]
  cases e.texts.get? name <;> simp [h]

end Editor

namespace Move

/-- Whether a move leaves one buffer of a name at most, whatever was there before. -/
def renews (name : Text) : Move → Bool
  | edit (.kill other) => name = other
  | attach other _ _ _ => name = other
  | attachDetached other _ _ _ => name = other
  | _ => false

def opens (name : Text) : Move → Bool
  | edit (.openText other _) => name = other
  | _ => false

end Move

namespace Scene

theorem isBoth_perform (s : Scene) (m : Move) (name : Text) :
    (s.perform m).editor.isBoth name =
      if m.renews name then false
      else if m.opens name then s.editor.sessions.contains name
      else s.editor.isBoth name := by
  cases m with
  | edit e =>
    cases e with
    | openText other text =>
      by_cases h : name = other <;> simp [perform, Editor.edit, Move.renews, Move.opens, h]
    | kill | focus | setPoint | pushMark | gotoEnd =>
      simp [perform, Editor.edit, Editor.gotoEnd, Move.renews, Move.opens]
  | attach | attachDetached | print => simp [perform, attach, print, Move.renews, Move.opens]
  | annotate other spans =>
    simp only [perform, annotate, Move.renews, Move.opens]
    split <;> simp [print]

/-- A text was opened where a session was shown, and has been in front of it since. -/
def Covered (s : Scene) (moves : List Move) (name : Text) : Prop :=
  ∃ before m after, moves = before ++ m :: after ∧ m.opens name = true ∧
    (s.run before).editor.sessions.contains name = true ∧ ∀ later ∈ after, later.renews name = false

theorem covered_cons {s : Scene} {m : Move} {moves : List Move} {name : Text} :
    s.Covered (m :: moves) name ↔
      (m.opens name = true ∧ s.editor.sessions.contains name = true ∧
        ∀ later ∈ moves, later.renews name = false) ∨ (s.perform m).Covered moves name := by
  constructor
  · rintro ⟨before, opening, after, hmoves, hopens, hsession, hafter⟩
    cases before with
    | nil =>
      obtain ⟨rfl, rfl⟩ := List.cons.inj hmoves
      exact .inl ⟨hopens, hsession, hafter⟩
    | cons first before =>
      obtain ⟨rfl, rfl⟩ := List.cons.inj hmoves
      exact .inr ⟨before, opening, after, rfl, hopens, hsession, hafter⟩
  · rintro (⟨hopens, hsession, hafter⟩ | ⟨before, opening, after, rfl, hopens, hsession, hafter⟩)
    · exact ⟨[], m, moves, rfl, hopens, hsession, hafter⟩
    · exact ⟨m :: before, opening, after, rfl, hopens, hsession, hafter⟩

theorem renews_of_opens {m : Move} {name : Text} (h : m.opens name = true) :
    m.renews name = false := by
  unfold Move.opens at h
  split at h
  · rfl
  · cases h

theorem isBoth_run (s : Scene) (moves : List Move) (name : Text) :
    (s.run moves).editor.isBoth name = true ↔
      (s.editor.isBoth name = true ∧ ∀ m ∈ moves, m.renews name = false) ∨
        s.Covered moves name := by
  induction moves generalizing s with
  | nil => simp [Covered]
  | cons m moves ih =>
    rw [run_cons, ih, covered_cons, isBoth_perform, List.forall_mem_cons]
    have hsession : s.editor.isBoth name = true → s.editor.sessions.contains name = true := by
      simp [Editor.isBoth]
    cases hopens : m.opens name with
    | true => simpa [renews_of_opens hopens] using fun hboth hafter => .inl ⟨hsession hboth, hafter⟩
    | false => cases m.renews name <;> simp

/-- A name is that of buffers of both kinds where a text was opened in front of a session buffer,
and nowhere else. There the name shows the text; everywhere else the name of a session buffer shows
its transcript. -/
theorem kinds_of_run (moves : List Move) (name : Text) :
    let s := ({} : Scene).run moves
    (s.editor.isBoth name = true ↔ ({} : Scene).Covered moves name) ∧
      ∀ b, s.editor.sessions.get? name = some b →
        (¬({} : Scene).Covered moves name ∧
          (s.editor.focus name).currentText s.outputs = (b.source.transcript s.outputs).text) ∨
        (({} : Scene).Covered moves name ∧
          ∃ front, s.editor.texts.get? name = some front ∧
            (s.editor.focus name).currentText s.outputs = front.text) := by
  intro s
  have hboth : s.editor.isBoth name = true ↔ ({} : Scene).Covered moves name := by
    rw [isBoth_run]
    simp [Editor.isBoth, Named.contains]
  refine ⟨hboth, fun b hb => ?_⟩
  have hshown := Editor.currentText_focus hb s.outputs
  rw [← hboth, Editor.isBoth, Named.contains, Named.contains, hb]
  cases htext : s.editor.texts.get? name with
  | none =>
    rw [htext] at hshown
    exact .inl ⟨by simp, hshown⟩
  | some front =>
    rw [htext] at hshown
    exact .inr ⟨by simp, front, rfl, hshown⟩

/-- A session is shown, and a text opened under its name. -/
def textOverSession : List Move :=
  [.attachDetached ['a'] 1 .ansi [⟨"> 2".toList, .plain⟩], .edit (.openText ['a'] ['x'])]

/-- The name is that of two buffers, and to focus it does not show the transcript. -/
theorem transcript_behind_text :
    let s := ({} : Scene).run textOverSession
    s.editor.texts.contains ['a'] = true ∧ s.editor.sessions.contains ['a'] = true ∧
      (s.editor.focus ['a']).currentText s.outputs = ['x'] ∧
      (s.editor.attachment? ['a']).map (fun a => (a.source.transcript s.outputs).text) =
        some "> 2".toList := by
  decide

end Scene
end Parley
