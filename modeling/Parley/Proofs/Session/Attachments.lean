import Mathlib.Data.List.Induction
import Parley.Proofs.Session.Stages

/-! Which session the buffer of the recorded one is attached to. A buffer stays attached as it is
until it is killed or a session is spawned that takes its name (`attachment?_run`); the recorded
session is the last that was spawned, so its buffer is its own for as long as it is not killed
(`buffer_of_recorded`). -/
namespace Parley.Desk

open Interpreter (Behaviour Pool Request)

theorem spawned_append (d : Desk) (before after : List Deed) :
    d.spawned (before ++ after) = d.spawned before ++ (d.run before).spawned after := by
  induction before generalizing d with
  | nil => rfl
  | cons deed before ih =>
    rw [List.cons_append, spawned_cons, ih, spawned_cons, run_cons, List.append_assoc]

/-- A step spawns no session and leaves the recorded one, or spawns one and records it. -/
theorem spawnedBy_cases (d : Desk) (deed : Deed) :
    (d.spawnedBy deed = [] ∧ (d.perform deed).registry.recorded = d.registry.recorded) ∨
      ∃ s, d.spawnedBy deed = [s] ∧ (d.perform deed).registry.recorded = some s := by
  rcases advances_perform d deed with ⟨-, h⟩ | ⟨-, h⟩ | ⟨s, -, h⟩
  · exact .inl ⟨spawnedBy_eq_nil h.pool.count, h.recorded⟩
  · exact .inl ⟨spawnedBy_eq_nil h.count, h.recorded⟩
  · exact .inr ⟨s, spawnedBy_of_spawns h, h.recorded⟩

/-- The recorded session was spawned by some step of the run, and none was spawned since. -/
theorem exists_spawning {d : Desk} (hd : d.registry.recorded = none) {deeds : List Deed}
    {s : Session} (hs : (d.run deeds).registry.recorded = some s) :
    ∃ before deed after, deeds = before ++ deed :: after ∧
      s ∈ (d.run before).spawnedBy deed ∧ ((d.run before).perform deed).spawned after = [] := by
  induction deeds using List.reverseRecOn generalizing s with
  | nil =>
    rw [run_nil, hd] at hs
    cases hs
  | append_singleton deeds last ih =>
    rw [run_append, run_cons, run_nil] at hs
    rcases (d.run deeds).spawnedBy_cases last with ⟨hnone, same⟩ | ⟨t, ht, hrecorded⟩
    · obtain ⟨before, deed, after, rfl, hfound, hafter⟩ := ih (same ▸ hs)
      refine ⟨before, deed, after ++ [last], by simp, hfound, ?_⟩
      rw [spawned_append, hafter, List.nil_append, spawned_cons, ← run_cons, ← run_append, hnone]
      rfl
    · obtain rfl : t = s := Option.some.inj (hrecorded.symm.trans hs)
      exact ⟨deeds, last, [], rfl, ht ▸ List.mem_singleton_self t, rfl⟩

/-! What becomes of the attachment of a name. -/

theorem attachment?_launching (d : Desk) (b : Behaviour) (name : Text) :
    (d.launching b).editor.attachment? name =
      if name = d.config.bufferName then
        some ⟨d.registry.nextId, .ofColor d.config.ansiColor, .process d.pool.processes.length⟩
      else d.editor.attachment? name :=
  Editor.attachment?_attach _ _ _ _ _ _ _

/-- The session that a step spawned is attached to the buffer that the configuration names. -/
theorem Founds.attachment? {d : Desk} {deed : Deed} {s : Session} {b : Behaviour}
    (h : Founds d deed s b) :
    (d.perform deed).editor.attachment? s.handle.buffer =
      some ⟨s.handle.id, .ofColor (d.perform deed).config.ansiColor, .process s.process⟩ := by
  rw [h.rest.attachment?, h.session, attachment?_launching, config_perform]
  exact if_pos rfl

theorem attachment?_perform {d : Desk} {deed : Deed} {name : Text}
    (hkill : deed ≠ .edit (.kill name)) (hspawn : ∀ s ∈ d.spawnedBy deed, s.handle.buffer ≠ name) :
    (d.perform deed).editor.attachment? name = d.editor.attachment? name := by
  rcases stages_perform d deed with ⟨edit, rfl⟩ | ⟨n, events, rfl⟩ | h
  · exact Editor.attachment?_edit _ _ fun hedit => hkill (by rw [hedit])
  · rfl
  · rcases h with ⟨-, rest⟩ | ⟨-, failure, -, rest⟩ | ⟨-, b, -, rest⟩
    · exact rest.attachment? name
    · rw [rest]
      rfl
    · have hs := hspawn _ (spawnedBy_of_spawns (spawns_of_trails rest) ▸ List.mem_singleton_self _)
      rw [rest.attachment?, attachment?_launching]
      exact if_neg hs.symm

theorem attachment?_perform_kill (d : Desk) (name : Text) :
    (d.perform (.edit (.kill name))).editor.attachment? name = none :=
  (Editor.attachment?_kill _ _ _).trans (if_pos rfl)

/-- As long as no session is spawned that takes the name, the buffer stays attached as it was,
unless it is killed. -/
theorem attachment?_run {d : Desk} {deeds : List Deed} {name : Text}
    (h : ∀ s ∈ d.spawned deeds, s.handle.buffer ≠ name) :
    (Deed.edit (.kill name) ∈ deeds ∧ (d.run deeds).editor.attachment? name = none) ∨
      (Deed.edit (.kill name) ∉ deeds ∧
        (d.run deeds).editor.attachment? name = d.editor.attachment? name) := by
  induction deeds generalizing d with
  | nil => exact .inr ⟨List.not_mem_nil, rfl⟩
  | cons deed deeds ih =>
    rw [spawned_cons] at h
    have hfirst : ∀ s ∈ d.spawnedBy deed, s.handle.buffer ≠ name :=
      fun s hs => h s (List.mem_append_left _ hs)
    have hrest : ∀ s ∈ (d.perform deed).spawned deeds, s.handle.buffer ≠ name :=
      fun s hs => h s (List.mem_append_right _ hs)
    rcases ih hrest with ⟨hkill, hnone⟩ | ⟨hkeep, hsame⟩
    · exact .inl ⟨List.mem_cons_of_mem _ hkill, hnone⟩
    · by_cases hdeed : deed = .edit (.kill name)
      · subst hdeed
        exact .inl ⟨List.mem_cons_self, hsame.trans (d.attachment?_perform_kill name)⟩
      · refine .inr ⟨?_, hsame.trans (attachment?_perform hdeed hfirst)⟩
        simp [hkeep, Ne.symm hdeed]

/-- A session spawned before another has a smaller number, and an earlier process. -/
theorem numbers_lt_of_spawned {d : Desk} {deeds : List Deed} {deed : Deed} {s t : Session}
    (hd : d.Sound) (hempty : d.pool.processes = []) (ht : t ∈ d.spawned deeds)
    (hs : s ∈ (d.run deeds).spawnedBy deed) : t.handle.id < s.handle.id ∧ t.process < s.process := by
  obtain ⟨b, hfounds⟩ := exists_founds hs
  have hnumbers := numbers_spawned hd deeds
  rw [hempty] at hnumbers
  have hmem : numbers t ∈ firstNumbers (d.run deeds).pool.processes.length := by
    rw [← hnumbers]
    exact List.mem_map_of_mem ht
  obtain ⟨k, hk, hkt⟩ := List.mem_map.mp hmem
  have hlt := List.mem_range.mp hk
  simp only [numbers, Prod.mk.injEq] at hkt
  rw [hfounds.spawns.id, hfounds.spawns.process, (hd.run deeds).nextId]
  omega

/-- Whenever a session is recorded, its buffer is gone if it was killed since the session was
spawned; if not, it is attached to that session and shows the transcript of the process that was
launched for it, not of any before. -/
theorem buffer_of_recorded (launcher : Interpreter.Launcher) (config : Config) (editor : Editor)
    (directory : Bytes) (deeds : List Deed) (s : Session) :
    let start := fresh launcher config editor directory
    let d := start.run deeds
    d.registry.recorded = some s →
      ∃ before deed after, deeds = before ++ deed :: after ∧
        s ∈ (start.run before).spawnedBy deed ∧
        s.process = (start.run before).pool.processes.length ∧
        (∀ t ∈ start.spawned before, t.handle.id < s.handle.id ∧ t.process < s.process) ∧
        (d.editor.sessions.get? s.handle.buffer = none ↔
          Deed.edit (.kill s.handle.buffer) ∈ after) ∧
        ∀ b, d.editor.sessions.get? s.handle.buffer = some b →
          b.sessionId = s.handle.id ∧ b.source = .process s.process := by
  intro start d hs
  obtain ⟨before, deed, after, rfl, hspawned, hafter⟩ := exists_spawning rfl hs
  obtain ⟨b, hfounds⟩ := exists_founds hspawned
  have hd : d = ((start.run before).perform deed).run after := run_append _ _ _
  refine ⟨before, deed, after, rfl, hspawned, hfounds.spawns.process, fun t ht => ?_, ?_⟩
  · exact numbers_lt_of_spawned (sound_fresh _ _ _ _) rfl ht hspawned
  · have hnew := hfounds.attachment?
    have hname : ∀ t ∈ ((start.run before).perform deed).spawned after,
        t.handle.buffer ≠ s.handle.buffer := by
      rw [hafter]
      exact nofun
    rw [hd]
    rcases attachment?_run hname with ⟨hkill, hnone⟩ | ⟨hkeep, hsame⟩
    · have hgone := Option.map_eq_none_iff.mp hnone
      rw [hgone]
      exact ⟨⟨fun _ => hkill, fun _ => rfl⟩, nofun⟩
    · obtain ⟨c, hc, hattached⟩ := Option.map_eq_some_iff.mp (hsame.trans hnew)
      rw [hc]
      refine ⟨⟨nofun, fun hkill => absurd hkill hkeep⟩, fun b hb => ?_⟩
      obtain rfl := Option.some.inj hb
      exact ⟨congrArg Attachment.sessionId hattached, congrArg Attachment.source hattached⟩

/-- Three sessions, each after the one before has exited, of which the first and the last take the
same buffer. -/
def returning : List Deed :=
  [.ensure none true, .events 0 [.exit 0],
    .ensureWith (some { bufferName := "other".toList }) true, .events 1 [.exit 0],
    .ensureWith (some {}) true]

theorem buffer_of_recorded_returning :
    let d := (fresh (fun _ _ => .ok {}) {} {} []).run returning
    ∃ s b, d.registry.recorded = some s ∧ s.handle.id = 3 ∧
      d.editor.sessions.get? s.handle.buffer = some b ∧ b.sessionId = 3 ∧ b.source = .process 2 := by
  intro d
  obtain ⟨-, -, -, -, -, -, -, -, hbuffer⟩ :=
    buffer_of_recorded (fun _ _ => .ok {}) {} {} [] returning _ rfl
  have hb := hbuffer _ rfl
  exact ⟨_, _, rfl, rfl, rfl, hb.1, hb.2⟩

end Parley.Desk
