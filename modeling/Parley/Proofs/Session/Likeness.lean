import Parley.Proofs.Editor.Kinds
import Parley.Proofs.Expression.Prefixes
import Parley.Proofs.Interpreter.Fronts
import Parley.Proofs.Session.Expressions
import Parley.Proofs.Session.Pairs

/-! What the buffers say matters to a session only as far as it is sent. Desks that are the same but
for that answer a text sent to them alike (`parallel_alike`); and the expression before the cursor
is the same text on both if they say the same up to the cursor, whatever comes after it
(`send_expression_of_alike`). -/
namespace Parley

/-! Which names are those of buffers. -/
namespace Editor

variable (e : Editor) (outputs : Outputs) (name : Text)

theorem isBuffer_attach (id : Nat) (mode : Terminal.Display) (source : Source) (other : Text) :
    (e.attach outputs name id mode source).isBuffer other =
      (decide (other = name) || e.isBuffer other) := by
  unfold isBuffer attach Named.contains
  by_cases h : other = name <;> simp [h]

@[simp] theorem isBuffer_focus (other : Text) :
    (e.focus name).isBuffer other = e.isBuffer other := by
  unfold focus
  split <;> rfl

@[simp] theorem isBuffer_pushMark : e.pushMark.isBuffer name = e.isBuffer name := by
  unfold pushMark
  split <;> rfl

@[simp] theorem isBuffer_place (pos : Nat) (other : Text) :
    (e.place name pos).isBuffer other = e.isBuffer other := by
  unfold place
  split <;> simp [isBuffer, Named.contains_modify]

@[simp] theorem isBuffer_setPoint (pos : Nat) :
    (e.setPoint outputs pos).isBuffer name = e.isBuffer name := by
  unfold setPoint
  split <;> simp

end Editor

namespace Desk

open Interpreter (Behaviour Process Request)

/-- Desks that are the same to a session: their buffers have the same names, the same session is
recorded, and it meets the same of the processes. What the buffers say may differ, transcripts
included, and so may the places in them. -/
structure Alike (a b : Desk) : Prop where
  buffers : ∀ name, b.editor.isBuffer name = a.editor.isBuffer name
  registry : b.registry = a.registry
  pool : a.pool.Alike b.pool

def retold (d : Desk) (name text : Text) : Desk :=
  { d with editor := { d.editor with texts := d.editor.texts.modify name ({ · with text }) } }

theorem alike_retold (d : Desk) (name text : Text) : Alike d (d.retold name text) where
  buffers other := by simp [retold, Editor.isBuffer, Named.contains_modify]
  registry := rfl
  pool := ⟨rfl, rfl, rfl, rfl⟩

namespace Alike

variable {a b : Desk} (h : Alike a b)
include h

theorem liveSession? : b.liveSession? = a.liveSession? := by
  rw [Desk.liveSession?, Desk.liveSession?, h.registry]
  congr 1
  funext s
  exact h.pool.isAlive s.process

theorem answer : b.answer = a.answer := by
  rw [Desk.answer, Desk.answer, h.pool.launcher, h.pool.requests, config, config, h.registry]

theorem rebuffed : Alike a.rebuffed b.rebuffed where
  buffers := h.buffers
  registry := h.registry
  pool :=
    { launcher := h.pool.launcher
      requests := by
        rw [Desk.rebuffed, Desk.rebuffed, config, config, h.registry]
        exact congrArg (· ++ [request a.registry.config]) h.pool.requests
      fronts := h.pool.fronts
      writes := h.pool.writes }

theorem nextSession (buffer : Text) : b.nextSession buffer = a.nextSession buffer := by
  rw [Desk.nextSession, Desk.nextSession, h.registry, h.pool.count]

theorem started (asked : Request) (mode : Terminal.Display) (behaviour : Behaviour) :
    Alike (a.started asked mode behaviour) (b.started asked mode behaviour) := by
  have hgrown := h.pool.grown asked
    (rfl : (Process.ofBehaviour asked.invocation.program mode behaviour).front = _)
  have hsession := h.nextSession asked.buffer
  refine ⟨fun name => ?_, ?_, ?_⟩
  · simp only [Desk.started, Editor.isBuffer_attach, h.buffers]
  · simp only [Desk.started, hsession, h.registry]
  · simp only [Desk.started, hsession, h.registry]
    cases a.registry.recorded with
    | none => exact hgrown.play _ _
    | some old => exact (hgrown.release old.process).play _ _

theorem launching (behaviour : Behaviour) :
    Alike (a.launching behaviour) (b.launching behaviour) := by
  have hconfig : b.config = a.config := congrArg Registry.config h.registry
  rw [Desk.launching, Desk.launching, hconfig]
  exact h.started _ _ behaviour

theorem writeInput (handle : Handle) (data : Bytes) :
    Matched Alike (a.writeInput handle data) (b.writeInput handle data) := by
  simp only [Desk.writeInput, h.registry]
  cases a.registry.session? handle.buffer with
  | none => exact ⟨rfl, h⟩
  | some s =>
    obtain ⟨hresult, hpool⟩ := h.pool.write s.process data
    dsimp only
    cases ha : a.pool.write s.process data with
    | mk result pool =>
      cases hb : b.pool.write s.process data with
      | mk result' pool' =>
        rw [ha, hb] at hresult hpool
        obtain rfl : result' = result := hresult
        cases result' with
        | error reason => exact ⟨rfl, h.buffers, rfl, hpool⟩
        | ok u => exact ⟨rfl, h.buffers, rfl, hpool⟩

theorem spawn : Matched Alike a.spawn b.spawn := by
  cases hanswer : a.answer with
  | error failure =>
    rw [spawn_of_refused hanswer, spawn_of_refused (h.answer.trans hanswer)]
    exact ⟨rfl, h.rebuffed⟩
  | ok behaviour =>
    rw [spawn_of_launched hanswer, spawn_of_launched (h.answer.trans hanswer), h.nextSession, config,
      config, h.registry]
    exact ⟨rfl, h.launching behaviour⟩

theorem switch (toEnd : Bool) : Matched Alike (a.switch toEnd) (b.switch toEnd) := by
  simp only [Desk.switch, Desk.handle?, h.registry, h.buffers]
  cases a.registry.handle? with
  | none => exact ⟨rfl, h⟩
  | some handle =>
    dsimp only
    split
    · exact ⟨rfl, h⟩
    · refine ⟨rfl, fun name => ?_, ?_, ?_⟩
      · cases toEnd <;> simp [Desk.focus, Editor.gotoEnd, h.buffers]
      · cases toEnd <;> exact h.registry
      · cases toEnd <;> exact h.pool

theorem configured (override : Option Config) :
    Alike (a.configured override) (b.configured override) where
  buffers := h.buffers
  registry := congrArg (Registry.configure · override) h.registry
  pool := h.pool

theorem focus (name : Text) : Alike (a.focus name) (b.focus name) where
  buffers other := by simp [Desk.focus, h.buffers]
  registry := h.registry
  pool := h.pool

end Alike

theorem parallel_alike : Parallel Alike where
  live h := h.liveSession?
  configured h := h.configured
  spawn h := h.spawn
  focus h := h.focus
  write h := h.writeInput
  switch h := h.switch

end Desk

/-! What stands before a place. -/
namespace Editor

variable {e e' : Editor} {outputs outputs' : Outputs} {pos : Nat}
  (h : (e'.currentText outputs').take pos = (e.currentText outputs).take pos)
include h

theorem backwardExpression_congr :
    e'.backwardExpression outputs' pos = e.backwardExpression outputs pos :=
  Expression.start?_congr h

theorem lineStart_congr {place : Nat} (hplace : place ≤ pos) :
    e'.lineStart outputs' place = e.lineStart outputs place := by
  have htake : (e'.currentText outputs').take place = (e.currentText outputs).take place := by
    rw [← Nat.min_eq_left hplace, ← List.take_take, h, List.take_take]
  rw [lineStart, lineStart, htake]

theorem regionText_congr {place : Nat} (hplace : place ≤ pos) :
    e'.regionText outputs' place pos = e.regionText outputs place pos := by
  rw [regionText, regionText, Nat.min_eq_left hplace, Nat.max_eq_right hplace, ← List.drop_take,
    ← List.drop_take, h]

end Editor

namespace Desk

/-- The expression before the cursor is the same text on both. -/
theorem excerpt_expression_congr {a b : Desk} (hpoint : b.editor.point = a.editor.point)
    (h : (b.editor.currentText b.outputs).take a.editor.point =
      (a.editor.currentText a.outputs).take a.editor.point) :
    b.excerpt .expression = a.excerpt .expression := by
  have hback := Editor.backwardExpression_congr h
  cases hstart : a.editor.backwardExpression a.outputs a.editor.point with
  | none =>
    rw [excerpt_expression_of_none hstart, excerpt_expression_of_none]
    rw [hpoint, hback, hstart]
  | some start =>
    have hle : start ≤ a.editor.point :=
      (Nat.le_of_lt (Expression.lt_of_start? hstart)).trans (Nat.min_le_left _ _)
    have hline := (a.editor.isLineStart_lineStart a.outputs start).le.trans hle
    rw [excerpt_expression_of_some hstart, excerpt_expression_of_some (hpoint ▸ hback.trans hstart),
      Editor.lineStart_congr h hle, hpoint, Editor.regionText_congr h hline]

/-- What comes after the cursor does not matter to the expression before it, nor to what is sent for
it. Wherever two texts are the same up to a place, the expression before it begins at the same
place, if there is any. On desks that are alike, with the cursor at the same place and the same text
before it, sending the expression fails on both for want of one and does nothing; or it is to send
some text, the same on both, with the same result and the same writes. -/
theorem send_expression_of_alike :
    (∀ (e e' : Editor) (outputs outputs' : Outputs) (pos : Nat),
      (e'.currentText outputs').take pos = (e.currentText outputs).take pos →
        e'.backwardExpression outputs' pos = e.backwardExpression outputs pos) ∧
    ∀ (a b : Desk) (focus : Bool), Alike a b → b.editor.point = a.editor.point →
      (b.editor.currentText b.outputs).take a.editor.point =
        (a.editor.currentText a.outputs).take a.editor.point →
      let o := a.send .expression focus
      let o' := b.send .expression focus
      (o = (.error .noExpression, a) ∧ o' = (.error .noExpression, b)) ∨
        ∃ payload written, o = a.send (.text payload) focus ∧ o' = b.send (.text payload) focus ∧
          o'.1 = o.1 ∧ Alike o.2 o'.2 ∧ o.2.pool.writes = a.pool.writes ++ written ∧
          o'.2.pool.writes = b.pool.writes ++ written := by
  refine ⟨fun e e' outputs outputs' pos h => Editor.backwardExpression_congr h, ?_⟩
  intro a b focus halike hpoint htext o o'
  have hexcerpt := excerpt_expression_congr hpoint htext
  cases hstart : a.editor.backwardExpression a.outputs a.editor.point with
  | none =>
    have ha := excerpt_expression_of_none hstart
    exact .inl ⟨send_of_no_excerpt ha focus, send_of_no_excerpt (hexcerpt.trans ha) focus⟩
  | some start =>
    have ha := excerpt_expression_of_some hstart
    generalize a.editor.regionText a.outputs _ _ = payload at ha
    have ho : o = a.send (.text payload) focus := send_eq_text ha focus
    have ho' : o' = b.send (.text payload) focus := send_eq_text (hexcerpt.trans ha) focus
    obtain ⟨hresult, hafter⟩ := parallel_alike.send halike (e := .text payload) rfl focus
    obtain ⟨written, hwritten, -⟩ := written_of_send a payload focus
    refine .inr ⟨payload, written, ho, ho', ?_⟩
    rw [ho, ho']
    refine ⟨hresult, hafter, hwritten, ?_⟩
    rw [hafter.pool.writes, hwritten, halike.pool.writes]

/-- A desk with the cursor between two slashes. -/
def dividedDesk : Desk :=
  (fresh (fun _ _ => .ok {}) {} {} []).run
    [.edit (.openText "main".toList "f(x) // y".toList), .edit (.setPoint 6)]

theorem send_expression_of_alike_divided :
    let a := dividedDesk
    let b := dividedDesk.retold "main".toList "f(x) / y".toList
    Alike a b ∧ b.editor.point = a.editor.point ∧
      (Expression.commentMask (a.editor.currentText a.outputs))[5]? = some true ∧
      (Expression.commentMask (b.editor.currentText b.outputs))[5]? = some false ∧
      b.editor.backwardExpression b.outputs 6 = a.editor.backwardExpression a.outputs 6 ∧
      (a.send .expression false).1 = .ok () ∧
      (b.send .expression false).1 = (a.send .expression false).1 ∧
      ∃ written, (a.send .expression false).2.pool.writes = a.pool.writes ++ written ∧
        (b.send .expression false).2.pool.writes = b.pool.writes ++ written := by
  intro a b
  have halike : Alike a b := alike_retold _ _ _
  have hpoint : b.editor.point = a.editor.point := by decide +kernel
  have htext : (b.editor.currentText b.outputs).take a.editor.point =
      (a.editor.currentText a.outputs).take a.editor.point := by decide +kernel
  have hback := send_expression_of_alike.1 a.editor b.editor a.outputs b.outputs 6
    (by decide +kernel)
  have hsent : (a.send .expression false).1 = .ok () := by rfl
  rcases send_expression_of_alike.2 a b false halike hpoint htext with
    ⟨ha, -⟩ | ⟨payload, written, -, -, hresult, -, hwrites⟩
  · rw [ha] at hsent
    cases hsent
  · exact ⟨halike, hpoint, by decide +kernel, by decide +kernel, hback, hsent, hresult, written,
      hwrites⟩

end Desk
end Parley
