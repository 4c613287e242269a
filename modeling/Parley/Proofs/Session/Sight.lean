import Parley.Proofs.Editor.Scene
import Parley.Proofs.Session.Attachments
import Parley.Proofs.Session.Delivery
import Parley.Proofs.Session.Display

/-! Whether a session that was ensured is in sight. At every moment of a run the editor is valid
(`valid_run`), so to focus a buffer makes it the current one if and only if it exists. The buffer of
a session exists until it is killed, and a session that is reused is not given another one: after a
session was ensured with the focus it is in sight, unless its buffer was killed since it was spawned
(`sight_of_ensured`, `ensured_out_of_sight`). -/
namespace Parley.Desk

open Interpreter (Behaviour Pool Process Request)
open Terminal (Display)

/-! The editor is valid at every moment of a run. -/

section
variable (d : Desk) (request : Request) (mode : Display) (b : Behaviour)

theorem grows_launched : d.pool.Grows (d.launched request mode b) := by
  intro n
  by_cases hn : n < d.pool.processes.length
  · simp [launched, grown, Pool.transcript, Pool.process?, List.getElem?_append_left hn]
  · rw [Pool.transcript, Pool.process?, List.getElem?_eq_none (Nat.le_of_not_lt hn)]
    exact List.nil_prefix

theorem grows_started : (d.launched request mode b).Grows (d.started request mode b).pool := by
  unfold started
  cases d.registry.recorded with
  | none => exact Pool.grows_play _ _ _
  | some old => exact (Pool.grows_release _ _).trans (Pool.grows_play _ _ _)

theorem transcript_launched :
    (d.launched request mode b).transcript d.pool.processes.length = {} := by
  simp [launched, grown, Pool.transcript, Pool.process?, Process.ofBehaviour, Process.transcript]

end

/-- Growing transcripts leave an editor valid. -/
theorem valid_of_grows {e : Editor} {a b : Pool} (h : e.Valid a.transcript) (hgrows : a.Grows b) :
    e.Valid b.transcript :=
  h.of_longer fun n => (hgrows n).length_le

theorem law_valid : Law fun a b => a.editor.Valid a.outputs → b.editor.Valid b.outputs where
  refl _ h := h
  trans h h' := h' ∘ h
  configured _ _ h := h
  start d request mode h := by
    cases hl : d.pool.launcher d.pool.requests.length request with
    | error failure =>
      rw [start_of_error _ _ _ hl]
      exact h
    | ok b =>
      rw [start_of_ok _ _ _ hl]
      have hlaunched := valid_of_grows h (d.grows_launched request mode b)
      refine valid_of_grows (hlaunched.attach _ _ _ ?_) (d.grows_started request mode b)
      rw [Source.transcript, nextSession, transcript_launched]
      rfl
  write d handle data h := by
    have hgrows := d.grows_writeInput handle data
    rcases d.desk_writeInput handle data with same | ⟨n, written⟩
    · rwa [same]
    · rw [written] at hgrows ⊢
      exact valid_of_grows h hgrows
  focus _ name h := h.focus name
  pushMark _ h := h.pushMark
  gotoEnd _ h := h.setPoint _
  events d n events h := valid_of_grows h (d.pool.grows_play n events)

theorem valid_run {d : Desk} (h : d.editor.Valid d.outputs) (deeds : List Deed) :
    (d.run deeds).editor.Valid (d.run deeds).outputs := by
  induction deeds generalizing d with
  | nil => exact h
  | cons deed deeds ih =>
    exact ih (law_valid.perform d (fun e he => he ▸ fun h => h.edit e) h)

/-! What ensuring a session with the focus leaves behind. -/

/-- The last thing done is to focus the session's buffer, and the session is the one recorded. -/
theorem focus_of_ensured {d e : Desk} {override : Option Config} {handle : Handle}
    (h : d.ensureWith override false = (.ok handle, e)) :
    (∃ x : Desk, e = x.focus handle.buffer) ∧
      ∃ s, e.registry.recorded = some s ∧ s.handle = handle := by
  cases hlive : d.liveSession? with
  | some s =>
    rw [ensureWith_of_live hlive] at h
    obtain ⟨hhandle, rfl⟩ := Prod.ext_iff.mp h
    obtain rfl := Except.ok.inj hhandle
    exact ⟨⟨_, rfl⟩, s, (recorded_of_live hlive).1, rfl⟩
  | none =>
    cases hanswer : (d.configured override).answer with
    | error failure =>
      rw [ensureWith_of_refused override hlive hanswer] at h
      cases h
    | ok b =>
      rw [ensureWith_of_launched override hlive hanswer] at h
      obtain ⟨hhandle, rfl⟩ := Prod.ext_iff.mp h
      obtain rfl := Except.ok.inj hhandle
      exact ⟨⟨_, rfl⟩, _, rfl, rfl⟩

/-- The recorded session was spawned at some step of the run, and has a buffer unless that was
killed later. -/
theorem buffer_of_run {start : Desk} (hstart : start.registry.recorded = none) {deeds : List Deed}
    {s : Session} (hs : (start.run deeds).registry.recorded = some s) :
    ∃ before deed after, deeds = before ++ deed :: after ∧ s ∈ (start.run before).spawnedBy deed ∧
      (((start.run deeds).editor.sessions.get? s.handle.buffer).isSome = true ↔
        Deed.edit (.kill s.handle.buffer) ∉ after) := by
  obtain ⟨before, deed, after, rfl, hspawned, hafter⟩ := exists_spawning hstart hs
  obtain ⟨b, hfounds⟩ := exists_founds hspawned
  refine ⟨before, deed, after, rfl, hspawned, ?_⟩
  have hname : ∀ t ∈ ((start.run before).perform deed).spawned after,
      t.handle.buffer ≠ s.handle.buffer := by
    rw [hafter]
    exact nofun
  have hattached : ∀ e : Editor, (e.sessions.get? s.handle.buffer).isSome =
      (e.attachment? s.handle.buffer).isSome := fun e => by simp [Editor.attachment?]
  rw [hattached, run_append, run_cons]
  rcases attachment?_run hname with ⟨hkill, hnone⟩ | ⟨hkeep, hsame⟩
  · simp [hnone, hkill]
  · simp [hsame, hfounds.attachment?, hkeep]

/-- At every moment of a run, a session that is ensured with the focus has its buffer, unless that
was killed since the session was spawned, and the focus is on the name of its buffer if there is a
buffer of that name. So one that is spawned is in sight, and so is one that is reused, for as long
as its buffer is not killed. -/
theorem sight_of_ensured (launcher : Interpreter.Launcher) (config : Config) (directory : Bytes)
    (deeds : List Deed) (override : Option Config) (handle : Handle) (e : Desk) :
    let start := fresh launcher config {} directory
    (start.run deeds).ensureWith override false = (.ok handle, e) →
      (e.editor.current = some handle.buffer ↔ e.editor.isBuffer handle.buffer = true) ∧
        ∃ before deed after, deeds ++ [.ensureWith override false] = before ++ deed :: after ∧
          (∃ s ∈ (start.run before).spawnedBy deed, s.handle = handle) ∧
          ((e.editor.sessions.get? handle.buffer).isSome = true ↔
            Deed.edit (.kill handle.buffer) ∉ after) := by
  intro start h
  obtain ⟨⟨x, hx⟩, s, hs, rfl⟩ := focus_of_ensured h
  have he : e = start.run (deeds ++ [.ensureWith override false]) := by
    rw [run_append, run_cons, run_nil, perform, h]
  have hvalid : e.editor.Valid e.outputs := he ▸ valid_run (.empty _) _
  refine ⟨⟨hvalid.current _, fun hbuffer => ?_⟩, ?_⟩
  · rw [hx, focus] at hbuffer ⊢
    dsimp only at hbuffer ⊢
    unfold Editor.focus at hbuffer ⊢
    split
    · rfl
    · rename_i hmissing
      rw [if_neg hmissing] at hbuffer
      exact absurd hbuffer hmissing
  · rw [he] at hs ⊢
    obtain ⟨before, deed, after, hdeeds, hspawned, hbuffer⟩ := buffer_of_run rfl hs
    exact ⟨before, deed, after, hdeeds, ⟨s, hspawned, rfl⟩, hbuffer⟩

/-- A session whose buffer was killed. -/
def buried : List Deed := [.ensure none false, .edit (.kill "*Typescript*".toList)]

/-- It is reused all the same, though it has no buffer, and the focus is nowhere. -/
theorem ensured_out_of_sight :
    let d := (fresh (fun _ _ => .ok {}) {} {} []).run buried
    let e := (d.ensure none false).2
    (d.ensure none false).1 = .ok ⟨1, "*Typescript*".toList⟩ ∧
      e.editor.isBuffer "*Typescript*".toList = false ∧ e.editor.current = none := by
  refine ⟨rfl, ?_, ?_⟩ <;> decide +kernel

end Parley.Desk
