import Parley.Proofs.Session.Office

/-! A desk with its processes unread. What is done there comes to the same as at a desk that reads,
but for what is read meanwhile (`edit_unread`, `switch_unread`, `started_unread`). -/
namespace Parley

open Interpreter (Behaviour Pool Process Pump Request)
open Terminal (Display)

namespace Desk

variable (d : Desk)

theorem outputs_unread : d.unread.outputs = d.outputs := d.pool.transcript_unread

theorem liveSession?_unread : d.unread.liveSession? = d.liveSession? := by
  unfold liveSession?
  congr 1
  funext s
  exact d.pool.isAlive_unread s.process

theorem focusUnless_unread (keepFocus : Bool) (name : Text) :
    d.unread.focusUnless keepFocus name = (d.focusUnless keepFocus name).unread := by
  cases keepFocus <;> rfl

theorem edit_unread (e : Edit) : d.unread.perform (.edit e) = (d.perform (.edit e)).unread := by
  simp only [perform, outputs_unread]
  rfl

theorem pool_switch (toEnd : Bool) : (d.switch toEnd).2.pool = d.pool := by
  unfold switch
  split
  · rfl
  · split
    · rfl
    · cases toEnd <;> rfl

theorem switch_unread (toEnd : Bool) :
    (d.unread.switch toEnd).2 = (d.switch toEnd).2.unread := by
  have hhandle : d.unread.handle? = d.handle? := rfl
  have heditor : d.unread.editor = d.editor := rfl
  unfold switch
  rw [hhandle]
  cases d.handle? with
  | none => rfl
  | some handle =>
    dsimp only
    rw [heditor]
    split
    · rfl
    · cases toEnd with
      | false => rfl
      | true =>
        have houtputs := (d.focus handle.buffer).outputs_unread
        simp only [if_true, unread, focus] at houtputs ⊢
        rw [houtputs]

def put (n : Nat) (p : Process) : Desk := { d with pool := d.pool.update n fun _ => p }

variable {d} {n : Nat} {p : Process}

theorem process?_put (h : d.pool.process? n = some p) (q : Process) :
    (d.put n q).pool.process? n = some q := by
  rw [put, Pool.process?_update, if_pos rfl, h, Option.map_some]

theorem process?_unread (h : d.pool.process? n = some p) :
    d.unread.pool.process? n = some p.unread := by
  rw [unread, Pool.process?_unread, h, Option.map_some]

theorem put_put (p q : Process) : (d.put n p).put n q = d.put n q := by
  simp only [put, Pool.update_update]

theorem put_self (h : d.pool.process? n = some p) : d.put n p = d := by
  rw [put, Pool.update_self h]

theorem put_unread (p : Process) : (d.put n p).unread = d.unread.put n p.unread := by
  simp only [put, unread, Pool.unread_update]

/-- Another process with the same pump leaves all pumps as they are. -/
theorem pump?_put (h : d.pool.process? n = some p) {q : Process} (hq : q.pump = p.pump) :
    (d.put n q).pool.pump? = d.pool.pump? := by
  funext k
  rw [put, Pool.pump?_update]
  split
  · rename_i hk
    subst hk
    simp [Pool.pump?, h, hq]
  · rfl

/-- A desk where more writes are on record. -/
def noting (d : Desk) (writes : List (Nat × Bytes)) : Desk :=
  { d with pool := { d.pool with writes := d.pool.writes ++ writes } }

theorem writeInput_put {handle : Handle} {s : Session}
    (hs : d.registry.session? handle.buffer = some s)
    (hp : d.pool.process? s.process = some p) (data : Bytes) :
    (d.writeInput handle data).2 =
      (d.noting (if p.write.2 = none then [(s.process, data)] else [])).put s.process
        p.write.1 := by
  simp only [writeInput, hs, Pool.write, hp]
  cases p.write.2 with
  | none => rfl
  | some reason => simp [noting, put]

/-! A launch by its stages: the session is shown, the one before is let go, the process prints. -/

section
variable (d : Desk) (request : Request) (mode : Display) (b : Behaviour)

/-- The desk once a session is shown and recorded. -/
def shown : Desk :=
  { d with
    editor := d.editor.attach (d.launched request mode b).transcript request.buffer
      d.registry.nextId mode (.process d.pool.processes.length)
    registry := { d.registry with
      recorded := some (d.nextSession request.buffer), nextId := d.registry.nextId + 1 }
    pool := d.launched request mode b }

def signalling (recorded : Option Session) : Desk :=
  match recorded with
  | some old => { d with pool := d.pool.update old.process Process.signal }
  | none => d

def letGo (recorded : Option Session) : Desk :=
  match recorded with
  | some old => { d with pool := d.pool.release old.process }
  | none => d

theorem registry_signalling (recorded : Option Session) :
    (d.signalling recorded).registry = d.registry := by
  cases recorded <;> rfl

theorem count_signalling (recorded : Option Session) :
    (d.signalling recorded).pool.processes.length = d.pool.processes.length := by
  cases recorded with
  | none => rfl
  | some old => exact List.length_modify ..

theorem pump?_signalling (recorded : Option Session) (n : Nat) :
    (d.signalling recorded).pool.pump? n =
      if recorded.map Session.process = some n then (d.pool.pump? n).map Pump.signal
      else d.pool.pump? n := by
  cases recorded with
  | none => rfl
  | some old =>
    rw [signalling, Pool.pump?_update, Option.map_some, Pool.pump?, Option.map_map]
    simp only [Option.some.injEq]
    rfl

/-- An unread pump was stopped already. -/
theorem signalling_unread (recorded : Option Session) :
    (d.signalling recorded).unread = d.unread := by
  cases recorded with
  | none => rfl
  | some old =>
    cases hp : d.pool.process? old.process with
    | none => rw [signalling, Pool.update_of_none hp]
    | some p =>
      have hput : d.signalling (some old) = d.put old.process p.signal := by
        rw [signalling, put, Pool.update_of_some hp]
      have hsignal : p.signal.unread = p.unread := by
        simp only [Process.signal, Process.unread, Pump.signal, Pump.stop]
        split <;> rfl
      rw [hput, put_unread, hsignal, put_self (process?_unread hp)]

theorem started_eq (keepFocus : Bool) (name : Text) :
    (d.started request mode b).focusUnless keepFocus name =
      (((d.shown request mode b).focusUnless keepFocus name).letGo d.registry.recorded).perform
        (.events d.pool.processes.length (b.opening.getD [])) := by
  unfold started
  cases d.registry.recorded <;> cases keepFocus <;> rfl

theorem launched_unread :
    d.unread.launched request mode b.unread = (d.launched request mode b).unread := by
  simp only [launched, grown, unread, Pool.unread, List.map_append]
  rfl

theorem nextSession_unread (buffer : Text) : d.unread.nextSession buffer = d.nextSession buffer := by
  simp [nextSession, unread, Pool.unread]

theorem started_unread :
    d.unread.started request mode b.unread = (d.shown request mode b).unread := by
  have hrecorded : d.unread.registry.recorded = d.registry.recorded := rfl
  have hopening : b.unread.opening.getD [] = [] := rfl
  have htranscript := (d.launched request mode b).transcript_unread
  simp only [started, hrecorded, hopening, launched_unread, nextSession_unread, htranscript,
    Pool.play_nil]
  cases d.registry.recorded with
  | none => rfl
  | some old =>
    simp only [Pool.release_unread]
    rfl

end

end Desk

/-! A send by its stages. -/

def Deed.isSend : Deed → Bool
  | .send _ _ => true
  | _ => false

namespace Desk

/-- To send a text is to ensure a session and to write to it, unless that fails. -/
theorem sendText_eq_run (d : Desk) (text : Text) :
    ∃ deeds, (d.sendText text).2 = d.run deeds ∧ ∀ deed ∈ deeds, deed.isSend = false := by
  cases hensured : d.ensure none true with
  | mk result ensured =>
    cases result with
    | error f =>
      refine ⟨[.ensure none true], ?_, by simp [Deed.isSend]⟩
      simp [sendText, perform, hensured]
    | ok handle =>
      refine ⟨[.ensure none true, .write handle (Utf8.encode (inputLine text))], ?_,
        by simp [Deed.isSend]⟩
      simp [sendText, perform, hensured]

/-- To send an excerpt is to send its text, and to switch to the session if it is to be focused. -/
theorem send_eq_run (d : Desk) (e : Excerpt) (focus : Bool) :
    ∃ deeds, (d.send e focus).2 = d.run deeds ∧ ∀ deed ∈ deeds, deed.isSend = false := by
  cases hexcerpt : d.excerpt e with
  | error f => exact ⟨[], by rw [send_of_no_excerpt hexcerpt, run_nil], nofun⟩
  | ok text =>
    obtain ⟨deeds, hrun, hsend⟩ := d.sendText_eq_run text
    cases hsent : d.sendText text with
    | mk result sent =>
      rw [hsent] at hrun
      cases result with
      | error f => exact ⟨deeds, by rw [send_of_error hexcerpt hsent, hrun], hsend⟩
      | ok u =>
        rw [send_of_ok hexcerpt hsent]
        cases focus with
        | false => exact ⟨deeds, hrun, hsend⟩
        | true =>
          refine ⟨deeds ++ [.switch true], ?_, ?_⟩
          · rw [run_append, ← hrun]
            rfl
          · rw [List.forall_mem_append]
            exact ⟨hsend, by simp [Deed.isSend]⟩

end Desk
end Parley
