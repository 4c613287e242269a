import Parley.Proofs.Editor.Cursor
import Parley.Proofs.Session.Stages

/-! Where the focus is once an excerpt was sent. A send that keeps the focus moves nothing, wherever
it fails: the editor is left alone, but that a session spawned on the way takes the place of the
text buffer of its name (`undisturbed_send`). A send with the focus is that one and then a jump to
the session's buffer, if it is still there (`send_focus_eq`, `switch_cases`). -/
namespace Parley.Desk

open Interpreter (Behaviour)

/-- The focus and the marks are as before, and so are the text buffers but for one named like the
session's buffer. -/
structure Undisturbed (a b : Desk) : Prop where
  current : b.editor.current = a.editor.current
  marks : b.editor.marks = a.editor.marks
  texts : ∀ name, (∀ handle, b.handle? = some handle → handle.buffer ≠ name) →
    b.editor.texts.get? name = a.editor.texts.get? name

namespace Undisturbed

theorem refl (d : Desk) : Undisturbed d d := ⟨rfl, rfl, fun _ _ => rfl⟩

theorem write {a b : Desk} (h : Undisturbed a b) (handle : Handle) (data : Bytes) :
    Undisturbed a (b.writeInput handle data).2 := by
  rcases b.desk_writeInput handle data with same | ⟨n, written⟩
  · rwa [same]
  · rw [written]
    exact ⟨h.current, h.marks, h.texts⟩

end Undisturbed

theorem undisturbed_rebuffed (d : Desk) : Undisturbed d d.rebuffed := ⟨rfl, rfl, fun _ _ => rfl⟩

/-- The buffer of a new session takes the place of the text buffer of its name. -/
theorem undisturbed_launching (d : Desk) (b : Behaviour) : Undisturbed d (d.launching b) where
  current := rfl
  marks := rfl
  texts name h := by
    have hne : name ≠ d.config.bufferName := fun heq => h _ rfl heq.symm
    exact (Named.get?_erase _ _ _).trans (if_neg hne)

theorem undisturbed_sendText (d : Desk) (text : Text) : Undisturbed d (d.sendText text).2 := by
  cases hlive : d.liveSession? with
  | some s =>
    rw [sendText_of_live text hlive]
    exact (Undisturbed.refl d).write _ _
  | none =>
    cases h : d.answer with
    | error failure =>
      rw [sendText_of_refused text hlive h]
      exact d.undisturbed_rebuffed
    | ok b =>
      rw [sendText_of_launched text hlive h]
      exact (d.undisturbed_launching b).write _ _

theorem undisturbed_send (d : Desk) (e : Excerpt) : Undisturbed d (d.send e false).2 := by
  cases hexcerpt : d.excerpt e with
  | error f =>
    rw [send_of_no_excerpt hexcerpt]
    exact .refl d
  | ok text =>
    have hsent := d.undisturbed_sendText text
    cases hs : d.sendText text with
    | mk result after =>
      rw [hs] at hsent
      cases result with
      | error f =>
        rw [send_of_error hexcerpt hs]
        exact hsent
      | ok u =>
        rw [send_of_ok hexcerpt hs]
        exact hsent

/-! The jump to the session's buffer. -/

theorem switch_cases (d : Desk) :
    d.switch true = (.error .noSession, d) ∨
      ∃ handle, d.handle? = some handle ∧ d.editor.isBuffer handle.buffer = true ∧
        d.switch true = (.ok (), { d with editor := d.editor.jump d.outputs handle.buffer }) := by
  cases hhandle : d.handle? with
  | none => exact .inl (by simp only [switch, hhandle])
  | some handle =>
    cases hbuffer : d.editor.isBuffer handle.buffer with
    | false => exact .inl (by simp only [switch, hhandle, hbuffer, Bool.not_false, if_true])
    | true =>
      refine .inr ⟨handle, rfl, hbuffer, ?_⟩
      simp only [switch, hhandle, hbuffer]
      rfl

/-- A send with the focus is the one without it, and then the jump. -/
theorem send_focus_eq (d : Desk) (e : Excerpt) :
    d.send e true =
      match d.send e false with
      | (.error f, after) => (.error f, after)
      | (.ok (), after) => after.switch true := by
  cases hexcerpt : d.excerpt e with
  | error f => rw [send_of_no_excerpt hexcerpt, send_of_no_excerpt hexcerpt]
  | ok text =>
    cases hs : d.sendText text with
    | mk result after =>
      cases result with
      | error f => rw [send_of_error hexcerpt hs, send_of_error hexcerpt hs]
      | ok u =>
        rw [send_of_ok hexcerpt hs, send_of_ok hexcerpt hs]
        rfl

/-- It leaves the desk as the one without it does, unless it succeeds and jumps to the buffer of the
recorded session. -/
theorem send_focus_cases (d : Desk) (e : Excerpt) :
    let plain := (d.send e false).2
    (∃ f, d.send e true = (.error f, plain)) ∨
      ∃ handle, (d.send e false).1 = .ok () ∧ plain.handle? = some handle ∧
        plain.editor.isBuffer handle.buffer = true ∧
        d.send e true =
          (.ok (), { plain with editor := plain.editor.jump plain.outputs handle.buffer }) := by
  rw [send_focus_eq]
  cases d.send e false with
  | mk result after =>
    cases result with
    | error f => exact .inl ⟨f, rfl⟩
    | ok u =>
      rcases after.switch_cases with hmissing | ⟨handle, hhandle, hbuffer, hswitch⟩
      · exact .inl ⟨.noSession, hmissing⟩
      · exact .inr ⟨handle, rfl, hhandle, hbuffer, hswitch⟩

/-- A desk left for the buffer of a session, seen from the desk `a` where this began, and from the
one that the same send comes to without the focus. -/
structure Arrives (a plain b : Desk) (handle : Handle) : Prop where
  recorded : b.handle? = some handle
  current : b.editor.current = some handle.buffer
  marks : b.editor.marks = a.editor.marks ++ [(handle.buffer, plain.editor.pointOf handle.buffer)]
  point : b.editor.point = b.editor.endPosition b.outputs
  texts : ∀ name, name ≠ handle.buffer → b.editor.texts.get? name = a.editor.texts.get? name
  registry : b.registry = plain.registry
  pool : b.pool = plain.pool

theorem arrives_jump {a plain : Desk} {handle : Handle} (h : Undisturbed a plain)
    (hhandle : plain.handle? = some handle)
    (hbuffer : plain.editor.isBuffer handle.buffer = true) :
    Arrives a plain { plain with editor := plain.editor.jump plain.outputs handle.buffer } handle where
  recorded := hhandle
  current := Editor.current_jump _ _ hbuffer
  marks := by rw [Editor.marks_jump _ _ hbuffer, h.marks]
  point := Editor.point_jump _ _ hbuffer
  texts name hne := by
    have hother : ∀ other, plain.handle? = some other → other.buffer ≠ name := by
      intro other hrecorded heq
      obtain rfl := Option.some.inj (hhandle.symm.trans hrecorded)
      exact hne heq.symm
    rw [Editor.texts_jump _ _ hbuffer hne, h.texts name hother]
  registry := rfl
  pool := rfl

/-- A send that fails or keeps the focus moves neither the focus nor a mark, and touches no text
buffer but one named like the session's buffer. One that succeeds and moves the focus arrives at the
end of that buffer, has left one mark there, and has done for the rest, the writes included, what it
does without the focus. -/
theorem focus_of_send (d : Desk) (e : Excerpt) :
    (∀ focus, (d.send e focus).1 ≠ .ok () ∨ focus = false → Undisturbed d (d.send e focus).2) ∧
      ((d.send e true).1 = .ok () → (d.send e false).1 = .ok () ∧
        ∃ handle, Arrives d (d.send e false).2 (d.send e true).2 handle) := by
  have hplain := d.undisturbed_send e
  rcases d.send_focus_cases e with ⟨f, hfails⟩ | ⟨handle, hok, hhandle, hbuffer, hjumps⟩
  · refine ⟨fun focus _ => ?_, fun h => ?_⟩
    · cases focus with
      | false => exact hplain
      | true => rwa [hfails]
    · rw [hfails] at h
      cases h
  · rw [hjumps]
    refine ⟨fun focus h => ?_, fun _ => ⟨hok, handle, arrives_jump hplain hhandle hbuffer⟩⟩
    cases focus with
    | false => exact hplain
    | true =>
      rw [hjumps] at h
      rcases h with h | h
      · exact absurd rfl h
      · cases h

/-- A desk with a program open, whose interpreter prints a prompt when it starts. -/
def programDesk : Desk :=
  (fresh (fun _ _ => .ok { opening := some [.data (Utf8.encode "> ".toList)] }) {} {} []).perform
    (.edit (.openText "main.ts".toList "x + 1".toList))

def bufferlessDesk : Desk :=
  programDesk.run [.ensure none true, .edit (.kill "*Typescript*".toList)]

theorem focus_of_send_program :
    let e := (programDesk.send .buffer true).2
    (programDesk.send .buffer true).1 = .ok () ∧
      e.editor.current = some "*Typescript*".toList ∧ e.editor.point = 2 ∧
      e.editor.marks = [("*Typescript*".toList, 0)] ∧
      e.pool.writes = (programDesk.send .buffer false).2.pool.writes ∧
      (bufferlessDesk.send .buffer true).1 = .error .noSession ∧
      Undisturbed bufferlessDesk (bufferlessDesk.send .buffer true).2 := by
  intro e
  have hsent : (programDesk.send .buffer true).1 = .ok () := rfl
  have hend : e.editor.endPosition e.outputs = 2 := by decide +kernel
  have hfailed : (bufferlessDesk.send .buffer true).1 = .error .noSession := rfl
  obtain ⟨-, handle, h⟩ := (focus_of_send programDesk .buffer).2 hsent
  obtain rfl : (⟨1, "*Typescript*".toList⟩ : Handle) = handle := Option.some.inj h.recorded
  have hstays := (focus_of_send bufferlessDesk .buffer).1 true
    (.inl (by rw [hfailed]; exact nofun))
  exact ⟨hsent, h.current, h.point.trans hend, h.marks, by rw [h.pool], hfailed, hstays⟩

end Parley.Desk
