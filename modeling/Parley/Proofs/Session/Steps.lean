import Parley.Proofs.Session.Launches

/-! What the operations at a desk are made of. They store configurations, start sessions, write, and
move the focus, a mark or the cursor; a relation between desks that each of these keeps is kept by
every operation (`Law.perform`). -/
namespace Parley.Desk

open Interpreter (Request)

/-- A write changes the pool, if anything. -/
theorem desk_writeInput (d : Desk) (handle : Handle) (data : Bytes) :
    (d.writeInput handle data).2 = d ∨
      ∃ n, (d.writeInput handle data).2 = { d with pool := (d.pool.write n data).2 } := by
  unfold writeInput
  cases d.registry.session? handle.buffer with
  | none => exact .inl rfl
  | some s =>
    right
    refine ⟨s.process, ?_⟩
    dsimp only
    cases d.pool.write s.process data with
    | mk result pool =>
      cases result with
      | error reason => rfl
      | ok u => rfl

/-- A relation kept by everything that the operations at a desk are made of. -/
structure Law (R : Desk → Desk → Prop) : Prop where
  refl : ∀ d, R d d
  trans : ∀ {a b c}, R a b → R b c → R a c
  configured : ∀ (d : Desk) override, R d (d.configured override)
  start : ∀ (d : Desk) (request : Request) mode, R d (d.start request mode).2
  write : ∀ (d : Desk) handle data, R d (d.writeInput handle data).2
  focus : ∀ (d : Desk) name, R d (d.focus name)
  pushMark : ∀ d : Desk, R d { d with editor := d.editor.pushMark }
  gotoEnd : ∀ d : Desk, R d { d with editor := d.editor.gotoEnd d.outputs }
  events : ∀ (d : Desk) n events, R d { d with pool := d.pool.play n events }

namespace Law

variable {R : Desk → Desk → Prop} (law : Law R) (d : Desk)
include law

theorem focusUnless (keepFocus : Bool) (name : Text) : R d (d.focusUnless keepFocus name) := by
  cases keepFocus with
  | false => exact law.focus d name
  | true => exact law.refl d

theorem ensureWith (override : Option Config) (keepFocus : Bool) :
    R d (d.ensureWith override keepFocus).2 := by
  apply law.trans (law.configured d override)
  cases hlive : d.liveSession? with
  | some s =>
    rw [ensureWith_of_live hlive]
    exact law.focusUnless _ keepFocus _
  | none =>
    have hspawned : R (d.configured override) (d.configured override).spawn.2 := law.start _ _ _
    cases hs : (d.configured override).spawn with
    | mk result e =>
      rw [hs] at hspawned
      cases result with
      | error f =>
        rw [ensureWith_of_error hlive hs]
        exact hspawned
      | ok handle =>
        rw [ensureWith_of_ok hlive hs]
        exact law.trans hspawned (law.focusUnless e keepFocus _)

theorem switch (toEnd : Bool) : R d (d.switch toEnd).2 := by
  unfold Desk.switch
  split
  · exact law.refl d
  · rename_i handle _
    split
    · exact law.refl d
    · cases toEnd with
      | false => exact law.focus d handle.buffer
      | true =>
        exact law.trans (law.focus d handle.buffer) (law.trans (law.pushMark _) (law.gotoEnd _))

theorem sendText (text : Text) : R d (d.sendText text).2 := by
  have hensured : R d (d.ensure none true).2 := law.ensureWith d _ true
  unfold Desk.sendText
  cases hd : d.ensure none true with
  | mk result e =>
    rw [hd] at hensured
    cases result with
    | error f => exact hensured
    | ok handle => exact law.trans hensured (law.write e handle _)

theorem send (e : Excerpt) (focus : Bool) : R d (d.send e focus).2 := by
  unfold Desk.send
  cases d.excerpt e with
  | error f => exact law.refl d
  | ok text =>
    have hsent : R d (d.sendText text).2 := law.sendText d text
    dsimp only
    cases hd : d.sendText text with
    | mk result after =>
      rw [hd] at hsent
      cases result with
      | error f => exact hsent
      | ok u =>
        cases focus with
        | false => exact hsent
        | true => exact law.trans hsent (law.switch after true)

/-- Every step of a run keeps the relation, if the edits do. -/
theorem perform {deed : Deed} (hedit : ∀ e, deed = .edit e → R d (d.perform deed)) :
    R d (d.perform deed) := by
  cases deed with
  | ensure line keepFocus => exact law.ensureWith d _ keepFocus
  | ensureWith override keepFocus => exact law.ensureWith d override keepFocus
  | switch toEnd => exact law.switch d toEnd
  | write handle data => exact law.write d handle data
  | send e focus => exact law.send d e focus
  | edit e => exact hedit e rfl
  | events n events => exact law.events d n events

end Law
end Parley.Desk
