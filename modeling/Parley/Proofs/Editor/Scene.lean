import Parley.Proofs.Editor.Attachment
import Parley.Proofs.Editor.Cursor
import Parley.Proofs.Interpreter.Growth

/-! An editor, and the transcripts that it shows while others write to them. Whatever is done, the
current buffer exists and every cursor is in its buffer (`Valid.run`): a cursor is put no further
than the end of what its buffer says, and a transcript never gets shorter. A mark is pushed where
the cursor is (`mark_of_run`). -/
namespace Parley

def Transcript.Counted (t : Transcript) : Prop := t.length = t.text.length

theorem Transcript.counted_append {t : Transcript} (h : t.Counted) (spans : Spans) :
    (t.append spans).Counted := by
  rw [Counted, length_append, text_append, List.length_append, h]

/-- An editor with the transcripts of the processes. A transcript may be shown in several buffers,
or in none. -/
structure Scene where
  editor : Editor := {}
  outputs : Outputs := fun _ => {}

inductive Move where
  | edit (e : Edit)
  | attach (name : Text) (sessionId : Nat) (mode : Terminal.Display) (process : Nat)
  | attachDetached (name : Text) (sessionId : Nat) (mode : Terminal.Display) (spans : Spans)
  | print (process : Nat) (spans : Spans)
  | annotate (name : Text) (spans : Spans)

namespace Scene

def print (s : Scene) (process : Nat) (spans : Spans) : Scene :=
  { s with outputs := fun n => if n = process then (s.outputs n).append spans else s.outputs n }

def annotate (s : Scene) (name : Text) (spans : Spans) : Scene :=
  match s.editor.sessions.get? name with
  | none => s
  | some { source := .process n, .. } => s.print n spans
  | some { source := .detached t, .. } =>
    { s with editor := s.editor.redirect name (.detached (t.append spans)) }

def attach (s : Scene) (name : Text) (sessionId : Nat) (mode : Terminal.Display)
    (source : Source) : Scene :=
  { s with editor := s.editor.attach s.outputs name sessionId mode source }

def perform (s : Scene) : Move → Scene
  | .edit e => { s with editor := s.editor.edit s.outputs e }
  | .attach name sessionId mode process => s.attach name sessionId mode (.process process)
  | .attachDetached name sessionId mode spans =>
    s.attach name sessionId mode (.detached (({} : Transcript).append spans))
  | .print process spans => s.print process spans
  | .annotate name spans => s.annotate name spans

def run (s : Scene) (moves : List Move) : Scene := moves.foldl perform s

@[simp] theorem run_nil (s : Scene) : s.run [] = s := rfl
@[simp] theorem run_cons (s : Scene) (m : Move) (moves : List Move) :
    s.run (m :: moves) = (s.perform m).run moves := rfl
theorem run_append (s : Scene) (before after : List Move) :
    s.run (before ++ after) = (s.run before).run after := List.foldl_append

end Scene

namespace Editor

theorem isBuffer_iff {e : Editor} {name : Text} :
    e.isBuffer name = true ↔
      (e.texts.get? name).isSome = true ∨ (e.sessions.get? name).isSome = true := by
  simp [isBuffer, Named.contains]

/-- The current buffer exists, and every cursor is in its buffer. -/
structure Valid (e : Editor) (outputs : Outputs) : Prop where
  current : ∀ name, e.current = some name → e.isBuffer name = true
  texts : ∀ name b, e.texts.get? name = some b → b.point ≤ b.text.length
  sessions : ∀ name b, e.sessions.get? name = some b →
    b.point ≤ (b.source.transcript outputs).text.length

namespace Valid

variable {e : Editor} {outputs : Outputs}

theorem empty (outputs : Outputs) : ({} : Editor).Valid outputs := ⟨nofun, nofun, nofun⟩

theorem openText (h : e.Valid outputs) (name text : Text) : (e.openText name text).Valid outputs where
  current other hother := by
    obtain rfl := Option.some.inj hother
    simp [isBuffer_iff, Editor.openText]
  texts other b hb := by
    simp only [Editor.openText, Named.get?_insert] at hb
    split at hb
    · obtain rfl := Option.some.inj hb
      exact Nat.le_refl _
    · exact h.texts other b hb
  sessions := h.sessions

theorem kill (h : e.Valid outputs) (name : Text) : (e.kill name).Valid outputs where
  current other hother := by
    simp only [Editor.kill] at hother
    split at hother
    · cases hother
    · rename_i hcurrent
      have hne : other ≠ name := fun heq => hcurrent (heq ▸ hother)
      have hbuffer := isBuffer_iff.mp (h.current other hother)
      rw [isBuffer_iff]
      simpa [Editor.kill, hne] using hbuffer
  texts other b hb := by
    simp only [Editor.kill, Named.get?_erase] at hb
    split at hb
    · cases hb
    · exact h.texts other b hb
  sessions other b hb := by
    simp only [Editor.kill, Named.get?_erase] at hb
    split at hb
    · cases hb
    · exact h.sessions other b hb

theorem focus (h : e.Valid outputs) (name : Text) : (e.focus name).Valid outputs := by
  unfold Editor.focus
  split
  · rename_i hbuffer
    refine ⟨fun other hother => ?_, h.texts, h.sessions⟩
    obtain rfl := Option.some.inj hother
    exact hbuffer
  · exact h

theorem pushMark (h : e.Valid outputs) : e.pushMark.Valid outputs := by
  unfold Editor.pushMark
  split
  · exact ⟨h.current, h.texts, h.sessions⟩
  · exact h

theorem attach (h : e.Valid outputs) (name : Text) (id : Nat) (mode : Terminal.Display)
    {source : Source} (hcounted : (source.transcript outputs).Counted) :
    (e.attach outputs name id mode source).Valid outputs where
  current other hother := by
    have hbuffer := isBuffer_iff.mp (h.current other hother)
    rw [isBuffer_iff]
    by_cases hname : other = name
    · simp [Editor.attach, hname]
    · simpa [Editor.attach, hname] using hbuffer
  texts other b hb := by
    simp only [Editor.attach, Named.get?_erase] at hb
    split at hb
    · cases hb
    · exact h.texts other b hb
  sessions other b hb := by
    simp only [Editor.attach, Named.get?_insert] at hb
    split at hb
    · obtain rfl := Option.some.inj hb
      exact Nat.le_of_eq hcounted
    · exact h.sessions other b hb

/-- A cursor may be put anywhere in what its buffer says, the text buffer being the one that counts
if the name is that of a session buffer too. -/
theorem place (h : e.Valid outputs) {name : Text} {pos : Nat}
    (hpos : pos ≤ (e.textOf outputs name).length) : (e.place name pos).Valid outputs := by
  unfold Editor.place
  split
  · rename_i htext
    refine ⟨fun other hother => ?_, fun other b hb => ?_, h.sessions⟩
    · have hbuffer := isBuffer_iff.mp (h.current other hother)
      rw [isBuffer_iff, Named.get?_modify]
      split <;> simpa using hbuffer
    · rw [Named.get?_modify] at hb
      split at hb
      · rename_i hname
        obtain ⟨a, ha, rfl⟩ := Option.map_eq_some_iff.mp hb
        rw [hname] at ha
        simpa [textOf, ha] using hpos
      · exact h.texts other b hb
  · rename_i htext
    have hnone : e.texts.get? name = none := by simpa [Named.contains] using htext
    refine ⟨fun other hother => ?_, h.texts, fun other b hb => ?_⟩
    · have hbuffer := isBuffer_iff.mp (h.current other hother)
      rw [isBuffer_iff, Named.get?_modify]
      split <;> simpa using hbuffer
    · rw [Named.get?_modify] at hb
      split at hb
      · rename_i hname
        obtain ⟨a, ha, rfl⟩ := Option.map_eq_some_iff.mp hb
        rw [hname] at ha
        simpa [textOf, hnone, ha] using hpos
      · exact h.sessions other b hb

theorem setPoint (h : e.Valid outputs) (pos : Nat) : (e.setPoint outputs pos).Valid outputs := by
  unfold Editor.setPoint
  split
  · rename_i name hcurrent
    apply h.place
    rw [endPosition, currentText, hcurrent]
    exact Nat.min_le_right _ _
  · exact h

theorem edit (h : e.Valid outputs) (edit : Edit) : (e.edit outputs edit).Valid outputs := by
  cases edit with
  | openText name text => exact h.openText name text
  | kill name => exact h.kill name
  | focus name => exact h.focus name
  | setPoint pos => exact h.setPoint pos
  | pushMark => exact h.pushMark
  | gotoEnd => exact h.setPoint _

/-- Another transcript may be shown that says no less. -/
theorem redirect (h : e.Valid outputs) {name : Text} {source : Source}
    (hlonger : ∀ b, e.sessions.get? name = some b →
      (b.source.transcript outputs).text.length ≤ (source.transcript outputs).text.length) :
    (e.redirect name source).Valid outputs where
  current other hother := by
    have hbuffer := isBuffer_iff.mp (h.current other hother)
    rw [isBuffer_iff]
    simp only [Editor.redirect, Named.get?_modify]
    split <;> simpa using hbuffer
  texts := h.texts
  sessions other b hb := by
    simp only [Editor.redirect, Named.get?_modify] at hb
    split at hb
    · rename_i hname
      obtain ⟨a, ha, rfl⟩ := Option.map_eq_some_iff.mp hb
      exact Nat.le_trans (h.sessions other a ha) (hlonger a (hname ▸ ha))
    · exact h.sessions other b hb

theorem of_longer {outputs' : Outputs} (h : e.Valid outputs)
    (hlonger : ∀ n, (outputs n).text.length ≤ (outputs' n).text.length) : e.Valid outputs' where
  current := h.current
  texts := h.texts
  sessions name b hb := by
    have hpoint := h.sessions name b hb
    obtain ⟨id, mode, source, point⟩ := b
    cases source with
    | process n => exact Nat.le_trans hpoint (hlonger n)
    | detached t => exact hpoint

/-- So is the cursor of the current buffer, whichever kind of buffer it is. -/
theorem point_le (h : e.Valid outputs) : e.point ≤ e.endPosition outputs := by
  unfold point endPosition currentText
  cases e.current with
  | none => exact Nat.le_refl _
  | some name =>
    dsimp only
    unfold pointOf textOf
    cases htext : e.texts.get? name with
    | some b => exact h.texts name b htext
    | none =>
      cases hsession : e.sessions.get? name with
      | some b => exact h.sessions name b hsession
      | none => exact Nat.le_refl _

end Valid
end Editor

namespace Scene

/-- The editor is valid, and the transcripts count what they say. -/
structure Valid (s : Scene) : Prop where
  editor : s.editor.Valid s.outputs
  counted : ∀ n, (s.outputs n).Counted

namespace Valid

variable {s : Scene}

theorem empty : ({} : Scene).Valid := ⟨.empty _, fun _ => rfl⟩

theorem print (h : s.Valid) (process : Nat) (spans : Spans) : (s.print process spans).Valid where
  editor := by
    refine h.editor.of_longer fun n => ?_
    by_cases hn : n = process
    · subst hn
      simp [Scene.print, Transcript.text_append]
    · simp [Scene.print, hn]
  counted n := by
    by_cases hn : n = process
    · subst hn
      simpa [Scene.print] using Transcript.counted_append (h.counted n) spans
    · simpa [Scene.print, hn] using h.counted n

theorem annotate (h : s.Valid) (name : Text) (spans : Spans) : (s.annotate name spans).Valid := by
  unfold Scene.annotate
  split
  · exact h
  · exact h.print _ spans
  · rename_i t _ hb
    refine ⟨h.editor.redirect fun b hb' => ?_, h.counted⟩
    obtain rfl := Option.some.inj (hb.symm.trans hb')
    simp [Source.transcript, Transcript.text_append]

theorem perform (h : s.Valid) (m : Move) : (s.perform m).Valid := by
  cases m with
  | edit e => exact ⟨h.editor.edit e, h.counted⟩
  | attach name id mode process => exact ⟨h.editor.attach name id mode (h.counted process), h.counted⟩
  | attachDetached name id mode spans =>
    exact ⟨h.editor.attach name id mode (Transcript.counted_append (t := {}) rfl spans), h.counted⟩
  | print process spans => exact h.print process spans
  | annotate name spans => exact h.annotate name spans

theorem run (h : s.Valid) (moves : List Move) : (s.run moves).Valid := by
  induction moves generalizing s with
  | nil => exact h
  | cons m moves ih => exact ih (h.perform m)

end Valid

/-! Where the marks come from. -/

/-- The mark that a move pushes, if there is a buffer to push one for. -/
def marked (s : Scene) : Move → List (Text × Nat)
  | .edit .pushMark => s.editor.current.toList.map fun name => (name, s.editor.point)
  | _ => []

theorem marks_perform (s : Scene) (m : Move) :
    (s.perform m).editor.marks = s.editor.marks ++ s.marked m := by
  cases m with
  | edit e =>
    cases e with
    | pushMark =>
      simp only [perform, Editor.edit, Editor.pushMark, marked]
      cases s.editor.current <;> simp
    | setPoint | gotoEnd =>
      simp only [perform, Editor.edit, Editor.gotoEnd, Editor.setPoint, marked, List.append_nil]
      split <;> simp
    | openText | kill | focus => simp [perform, Editor.edit, marked]
  | attach | attachDetached | print => simp [perform, attach, print, marked]
  | annotate name spans =>
    simp only [perform, annotate, marked, List.append_nil]
    split <;> rfl

theorem mark_of_run {s : Scene} {moves : List Move} {mark : Text × Nat}
    (h : mark ∈ (s.run moves).editor.marks) :
    mark ∈ s.editor.marks ∨ ∃ before after, moves = before ++ .edit .pushMark :: after ∧
      (s.run before).editor.current = some mark.1 ∧ mark.2 = (s.run before).editor.point := by
  induction moves generalizing s with
  | nil => exact .inl h
  | cons m moves ih =>
    rcases ih h with hthen | ⟨before, after, rfl, hcurrent, hpoint⟩
    · rw [marks_perform, List.mem_append] at hthen
      refine hthen.imp_right fun hmarked => ?_
      -- Only a push marks anything, and it marks the place of the cursor.
      unfold marked at hmarked
      split at hmarked
      · obtain ⟨name, hname, rfl⟩ := List.mem_map.mp hmarked
        exact ⟨[], moves, rfl, Option.mem_toList.mp hname, rfl⟩
      · cases hmarked
    · exact .inr ⟨m :: before, after, rfl, hcurrent, hpoint⟩

/-- However an editor is used, and whatever is appended to the transcripts that it shows, the
current buffer exists, every cursor is in its buffer, and every mark was pushed for the buffer that
was current and a place in it. -/
theorem cursors_of_run (moves : List Move) :
    let s := ({} : Scene).run moves
    (∀ name, s.editor.current = some name → s.editor.isBuffer name = true) ∧
      (∀ name b, s.editor.texts.get? name = some b → b.point ≤ b.text.length) ∧
      (∀ name b, s.editor.sessions.get? name = some b →
        b.point ≤ (b.source.transcript s.outputs).text.length) ∧
      s.editor.point ≤ s.editor.endPosition s.outputs ∧
      ∀ mark ∈ s.editor.marks, ∃ before after, moves = before ++ .edit .pushMark :: after ∧
        let t := ({} : Scene).run before
        t.editor.current = some mark.1 ∧ t.editor.isBuffer mark.1 = true ∧
          mark.2 = t.editor.point ∧ mark.2 ≤ t.editor.endPosition t.outputs := by
  intro s
  have h : s.editor.Valid s.outputs := (Valid.empty.run moves).editor
  refine ⟨h.current, h.texts, h.sessions, h.point_le, fun mark hmark => ?_⟩
  rcases mark_of_run hmark with hbefore | ⟨before, after, rfl, hcurrent, hpoint⟩
  · cases hbefore
  · have ht := (Valid.empty.run before).editor
    exact ⟨before, after, rfl, hcurrent, ht.current _ hcurrent, hpoint, hpoint ▸ ht.point_le⟩

end Scene
end Parley
