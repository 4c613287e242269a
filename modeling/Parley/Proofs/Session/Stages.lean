import Parley.Proofs.Editor.Attachment
import Parley.Proofs.Session.Steps

/-! The stages of a step, in full. A step stores the configuration that it gives, makes at most one
launch attempt, and then writes or moves the focus, a mark or the cursor (`stages_perform`). An
attempt that is refused is noted, and the step ends there; one that succeeds shows the new session
in its buffer and records it. -/
namespace Parley

/-- The configuration that a step gives, seen from the one before it. A line gives the program and
the arguments only; a blank one gives nothing. -/
def Deed.override? (before : Config) : Deed → Option Config
  | .ensureWith override _ => override
  | .ensure (some line) _ =>
    match line.words with
    | [] => none
    | program :: args => some { before with invocation := ⟨program, args⟩ }
  | _ => none

namespace Desk

open Interpreter (Behaviour LaunchFailure Pool Process Request)
open Terminal (Display)

theorem override?_ensure (before : Config) (line : Option Text) (keepFocus : Bool) :
    (Deed.ensure line keepFocus).override? before = line.bind before.withLine := by
  cases line with
  | none => rfl
  | some line =>
    simp only [Deed.override?, Option.bind_some, Config.withLine, Invocation.read?]
    cases line.words <;> rfl

theorem ensure_eq (d : Desk) (line : Option Text) (keepFocus : Bool) :
    d.ensure line keepFocus =
      d.ensureWith ((Deed.ensure line keepFocus).override? d.config) keepFocus := by
  rw [override?_ensure]
  rfl

/-! What follows the launch within a step. -/

inductive Trails (d : Desk) : Desk → Prop where
  | here : Trails d d
  | write {e : Desk} (h : Trails d e) (handle : Handle) (data : Bytes) :
      Trails d (e.writeInput handle data).2
  | focus {e : Desk} (h : Trails d e) (name : Text) : Trails d (e.focus name)
  | pushMark {e : Desk} (h : Trails d e) : Trails d { e with editor := e.editor.pushMark }
  | gotoEnd {e : Desk} (h : Trails d e) :
      Trails d { e with editor := e.editor.gotoEnd e.outputs }

theorem Law.trails {R : Desk → Desk → Prop} (law : Law R) {d e : Desk} (h : Trails d e) : R d e := by
  induction h with
  | here => exact law.refl d
  | write _ handle data ih => exact law.trans ih (law.write _ handle data)
  | focus _ name ih => exact law.trans ih (law.focus _ name)
  | pushMark _ ih => exact law.trans ih (law.pushMark _)
  | gotoEnd _ ih => exact law.trans ih (law.gotoEnd _)

namespace Trails

variable {d e : Desk}

theorem focusUnless (h : Trails d e) (keepFocus : Bool) (name : Text) :
    Trails d (e.focusUnless keepFocus name) := by
  cases keepFocus with
  | false => exact h.focus name
  | true => exact h

theorem switch (h : Trails d e) (toEnd : Bool) : Trails d (e.switch toEnd).2 := by
  unfold Desk.switch
  split
  · exact h
  · rename_i handle _
    split
    · exact h
    · cases toEnd with
      | false => exact h.focus handle.buffer
      | true => exact (h.focus handle.buffer).pushMark.gotoEnd

theorem continues (h : Trails d e) : Continues d e := by
  induction h with
  | here => exact .refl d
  | write _ handle data ih => exact ih.trans (continues_writeInput _ handle data)
  | focus _ name ih => exact ih.trans (continues_focus _ name)
  | pushMark _ ih => exact ih.trans (.of_pool_eq rfl rfl rfl)
  | gotoEnd _ ih => exact ih.trans (.of_pool_eq rfl rfl rfl)

theorem config (h : Trails d e) : e.config = d.config := by
  induction h with
  | here => rfl
  | @write e _ handle data ih =>
    rcases e.desk_writeInput handle data with same | ⟨n, written⟩
    · rw [same, ih]
    · rw [written]
      exact ih
  | focus _ _ ih | pushMark _ ih | gotoEnd _ ih => exact ih

theorem attachment? (h : Trails d e) (name : Text) :
    e.editor.attachment? name = d.editor.attachment? name := by
  induction h with
  | here => rfl
  | @write e _ handle data ih =>
    rcases e.desk_writeInput handle data with same | ⟨n, written⟩
    · rw [same, ih]
    · rw [written]
      exact ih
  | focus _ other ih => exact (Editor.attachment?_focus _ _ _).trans ih
  | pushMark _ ih => exact (Editor.attachment?_pushMark _ _).trans ih
  | gotoEnd _ ih => exact (Editor.attachment?_gotoEnd _ _ _).trans ih

end Trails

/-! The operations by their stages. -/

/-- What the launcher says to the attempt that the configuration asks for. -/
def answer (d : Desk) : Except LaunchFailure Behaviour :=
  d.pool.launcher d.pool.requests.length (request d.config)

/-- The desk once the attempt that the configuration asks for was refused. -/
def rebuffed (d : Desk) : Desk := d.refused (request d.config)

def launching (d : Desk) (b : Behaviour) : Desk :=
  d.started (request d.config) (.ofColor d.config.ansiColor) b

section
variable {d : Desk} {failure : LaunchFailure} {b : Behaviour}

theorem ensureWith_of_refused (override : Option Config) (hlive : d.liveSession? = none)
    (h : (d.configured override).answer = .error failure) (keepFocus : Bool) :
    d.ensureWith override keepFocus = (.error failure.failure, (d.configured override).rebuffed) :=
  ensureWith_of_error hlive (start_of_error _ _ _ h) keepFocus

theorem ensureWith_of_launched (override : Option Config) (hlive : d.liveSession? = none)
    (h : (d.configured override).answer = .ok b) (keepFocus : Bool) :
    d.ensureWith override keepFocus =
      (.ok (d.nextSession (d.configured override).config.bufferName).handle,
        ((d.configured override).launching b).focusUnless keepFocus
          (d.configured override).config.bufferName) :=
  ensureWith_of_ok hlive (start_of_ok _ _ _ h) keepFocus

variable (text : Text)

theorem sendText_of_live {s : Session} (hlive : d.liveSession? = some s) :
    d.sendText text = d.writeInput s.handle (Utf8.encode (inputLine text)) := by
  simp only [sendText, ensure, Option.bind_none, ensureWith_of_live hlive]
  rfl

theorem sendText_of_refused (hlive : d.liveSession? = none) (h : d.answer = .error failure) :
    d.sendText text = (.error failure.failure, d.rebuffed) := by
  simp only [sendText, ensure, Option.bind_none]
  rw [ensureWith_of_refused none hlive h]
  rfl

theorem sendText_of_launched (hlive : d.liveSession? = none) (h : d.answer = .ok b) :
    d.sendText text = (d.launching b).writeInput (d.nextSession d.config.bufferName).handle
      (Utf8.encode (inputLine text)) := by
  simp only [sendText, ensure, Option.bind_none]
  rw [ensureWith_of_launched none hlive h]
  rfl

end

/-- The stages of a step that gives a configuration, and has to launch something or not. -/
inductive Stages (d : Desk) (override : Option Config) (launches : Bool) (e : Desk) : Prop where
  | passed (h : launches = false) (rest : Trails (d.configured override) e)
  | refused (h : launches = true) (failure : LaunchFailure)
      (answer : (d.configured override).answer = .error failure)
      (rest : e = (d.configured override).rebuffed)
  | launched (h : launches = true) (b : Behaviour)
      (answer : (d.configured override).answer = .ok b)
      (rest : Trails ((d.configured override).launching b) e)

theorem stages_ensureWith (d : Desk) (override : Option Config) (keepFocus : Bool) :
    Stages d override d.liveSession?.isNone (d.ensureWith override keepFocus).2 := by
  cases hlive : d.liveSession? with
  | some s =>
    rw [ensureWith_of_live hlive]
    exact .passed rfl (Trails.here.focusUnless keepFocus _)
  | none =>
    cases h : (d.configured override).answer with
    | error failure =>
      rw [ensureWith_of_refused override hlive h]
      exact .refused rfl failure h rfl
    | ok b =>
      rw [ensureWith_of_launched override hlive h]
      exact .launched rfl b h (Trails.here.focusUnless keepFocus _)

theorem send_of_no_excerpt {d : Desk} {e : Excerpt} {f : Failure} (h : d.excerpt e = .error f)
    (focus : Bool) : d.send e focus = (.error f, d) := by
  simp only [send, h]

theorem send_of_error {d after : Desk} {e : Excerpt} {text : Text} {f : Failure}
    (h : d.excerpt e = .ok text) (hs : d.sendText text = (.error f, after)) (focus : Bool) :
    d.send e focus = (.error f, after) := by
  simp only [send, h, hs]

theorem send_of_ok {d after : Desk} {e : Excerpt} {text : Text} (h : d.excerpt e = .ok text)
    (hs : d.sendText text = (.ok (), after)) (focus : Bool) :
    d.send e focus = if focus then after.switch true else (.ok (), after) := by
  simp only [send, h, hs]

theorem Trails.send {d₀ d : Desk} {e : Excerpt} {text : Text} (hexcerpt : d.excerpt e = .ok text)
    (h : Trails d₀ (d.sendText text).2) (focus : Bool) : Trails d₀ (d.send e focus).2 := by
  cases hs : d.sendText text with
  | mk result after =>
    rw [hs] at h
    cases result with
    | error f =>
      rw [send_of_error hexcerpt hs]
      exact h
    | ok u =>
      rw [send_of_ok hexcerpt hs]
      cases focus with
      | false => exact h
      | true => exact h.switch true

theorem launches_send {d : Desk} {e : Excerpt} {text : Text} (h : d.excerpt e = .ok text)
    (focus : Bool) : d.launches (.send e focus) = d.liveSession?.isNone := by
  simp [launches, seeks, h, Except.isOk, Except.toBool]

theorem stages_send (d : Desk) (e : Excerpt) (focus : Bool) :
    Stages d none (d.launches (.send e focus)) (d.send e focus).2 := by
  cases hexcerpt : d.excerpt e with
  | error f =>
    rw [send_of_no_excerpt hexcerpt]
    exact .passed (by simp [launches, seeks, hexcerpt, Except.isOk, Except.toBool]) .here
  | ok text =>
    rw [launches_send hexcerpt]
    cases hlive : d.liveSession? with
    | some s =>
      refine .passed rfl (Trails.send hexcerpt ?_ focus)
      rw [sendText_of_live text hlive]
      exact Trails.here.write _ _
    | none =>
      cases h : d.answer with
      | error failure =>
        rw [send_of_error hexcerpt (sendText_of_refused text hlive h)]
        exact .refused rfl failure h rfl
      | ok b =>
        refine .launched rfl b h (Trails.send hexcerpt ?_ focus)
        rw [sendText_of_launched text hlive h]
        exact Trails.here.write _ _

/-- A step is an edit, something that a process does, or an operation with its stages. -/
theorem stages_perform (d : Desk) (deed : Deed) :
    (∃ edit, deed = .edit edit) ∨ (∃ n events, deed = .events n events) ∨
      Stages d (deed.override? d.config) (d.launches deed) (d.perform deed) := by
  cases deed with
  | ensure line keepFocus =>
    rw [perform, ensure_eq]
    exact .inr (.inr (stages_ensureWith d _ keepFocus))
  | ensureWith override keepFocus => exact .inr (.inr (stages_ensureWith d override keepFocus))
  | switch toEnd => exact .inr (.inr (.passed rfl (Trails.here.switch toEnd)))
  | write handle data => exact .inr (.inr (.passed rfl (Trails.here.write handle data)))
  | send e focus => exact .inr (.inr (stages_send d e focus))
  | edit e => exact .inl ⟨e, rfl⟩
  | events n events => exact .inr (.inl ⟨n, events, rfl⟩)

/-- The configuration is changed by what a step gives, whatever becomes of the step. -/
theorem config_perform (d : Desk) (deed : Deed) :
    (d.perform deed).config = (deed.override? d.config).getD d.config := by
  rcases stages_perform d deed with ⟨edit, rfl⟩ | ⟨n, events, rfl⟩ | h
  · rfl
  · rfl
  · rcases h with ⟨-, rest⟩ | ⟨-, failure, -, rest⟩ | ⟨-, b, -, rest⟩
    · exact rest.config
    · rw [rest]
      rfl
    · exact rest.config

theorem spawns_of_trails {d e : Desk} {override : Option Config} {b : Behaviour}
    (h : Trails ((d.configured override).launching b) e) :
    Spawns d e (d.nextSession (d.configured override).config.bufferName) :=
  ((continues_configured d override).spawns (spawns_started _ _ _ b)).continues h.continues

theorem spawnedBy_eq_nil {d : Desk} {deed : Deed}
    (h : (d.perform deed).pool.processes.length = d.pool.processes.length) :
    d.spawnedBy deed = [] := if_pos h

theorem spawnedBy_of_spawns {d : Desk} {deed : Deed} {s : Session}
    (h : Spawns d (d.perform deed) s) : d.spawnedBy deed = [s] := by
  have hcount : (d.perform deed).pool.processes.length ≠ d.pool.processes.length := by
    rw [h.count]
    omega
  rw [spawnedBy, if_neg hcount, h.recorded]
  rfl

/-- The step that spawned a session: its launch attempt succeeded, and the session was recorded. -/
structure Founds (d : Desk) (deed : Deed) (s : Session) (b : Behaviour) : Prop where
  live : d.liveSession? = none
  session : s = d.nextSession (d.perform deed).config.bufferName
  answer : (d.configured (deed.override? d.config)).answer = .ok b
  rest : Trails ((d.configured (deed.override? d.config)).launching b) (d.perform deed)

theorem Founds.spawns {d : Desk} {deed : Deed} {s : Session} {b : Behaviour}
    (h : Founds d deed s b) : Spawns d (d.perform deed) s := by
  have hs := spawns_of_trails h.rest
  rw [h.session, config_perform]
  exact hs

/-- Only a launch attempt that succeeded spawns a session. -/
theorem exists_founds {d : Desk} {deed : Deed} {s : Session} (hs : s ∈ d.spawnedBy deed) :
    ∃ b, Founds d deed s b := by
  have hnot : ¬(d.perform deed).pool.processes.length = d.pool.processes.length := by
    intro h
    rw [spawnedBy_eq_nil h] at hs
    cases hs
  rcases stages_perform d deed with ⟨edit, rfl⟩ | ⟨n, events, rfl⟩ | h
  · exact absurd rfl hnot
  · exact absurd (Pool.ages_play d.pool n events).count hnot
  · rcases h with ⟨-, rest⟩ | ⟨-, failure, -, rest⟩ | ⟨hl, b, answer, rest⟩
    · exact absurd rest.continues.pool.count hnot
    · rw [rest] at hnot
      exact absurd rfl hnot
    · refine ⟨b, ?_, ?_, answer, rest⟩
      · simp only [launches, Bool.and_eq_true, Option.isNone_iff_eq_none] at hl
        exact hl.2
      · rw [spawnedBy_of_spawns (spawns_of_trails rest)] at hs
        rw [config_perform]
        exact List.mem_singleton.mp hs

end Desk
end Parley
