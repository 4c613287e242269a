import Parley.Proofs.Session.Stages

/-! Desks side by side. A relation between two desks under which they have the same session alive, and
which launching, writing and moving the focus keep with the same results, is kept by ensuring a
session and by sending a text (`Parallel.ensureWith`, `Parallel.send`). -/
namespace Parley.Desk

def Matched {α : Type} (R : Desk → Desk → Prop) (o o' : Outcome α) : Prop :=
  o'.1 = o.1 ∧ R o.2 o'.2

theorem Matched.exists_eq {α : Type} {R : Desk → Desk → Prop} {o o' : Outcome α}
    (h : Matched R o o') :
    ∃ result after after', o = (result, after) ∧ o' = (result, after') ∧ R after after' :=
  ⟨o.1, o.2, o'.2, rfl, Prod.ext h.1 rfl, h.2⟩

/-- A relation that what a send is made of keeps on both sides, with the same results. -/
structure Parallel (R : Desk → Desk → Prop) : Prop where
  live : ∀ {a b}, R a b → b.liveSession? = a.liveSession?
  configured : ∀ {a b}, R a b → ∀ override, R (a.configured override) (b.configured override)
  spawn : ∀ {a b}, R a b → Matched R a.spawn b.spawn
  focus : ∀ {a b}, R a b → ∀ name, R (a.focus name) (b.focus name)
  write : ∀ {a b}, R a b → ∀ handle data,
    Matched R (a.writeInput handle data) (b.writeInput handle data)
  switch : ∀ {a b}, R a b → ∀ toEnd, Matched R (a.switch toEnd) (b.switch toEnd)

theorem sendText_of_error {d after : Desk} {f : Failure}
    (h : d.ensureWith none true = (.error f, after)) (text : Text) :
    d.sendText text = (.error f, after) := by
  simp only [sendText, ensure, Option.bind_none, h]

theorem sendText_of_ok {d after : Desk} {handle : Handle}
    (h : d.ensureWith none true = (.ok handle, after)) (text : Text) :
    d.sendText text = after.writeInput handle (Utf8.encode (inputLine text)) := by
  simp only [sendText, ensure, Option.bind_none, h]

namespace Parallel

variable {R : Desk → Desk → Prop} (law : Parallel R) {a b : Desk} (h : R a b)
include law h

theorem focusUnless (keepFocus : Bool) (name : Text) :
    R (a.focusUnless keepFocus name) (b.focusUnless keepFocus name) := by
  cases keepFocus with
  | false => exact law.focus h name
  | true => exact h

theorem ensureWith (override : Option Config) (keepFocus : Bool) :
    Matched R (a.ensureWith override keepFocus) (b.ensureWith override keepFocus) := by
  cases hlive : a.liveSession? with
  | some s =>
    rw [ensureWith_of_live hlive, ensureWith_of_live ((law.live h).trans hlive)]
    exact ⟨rfl, law.focusUnless (law.configured h override) keepFocus _⟩
  | none =>
    have hlive' := (law.live h).trans hlive
    obtain ⟨result, after, after', hs, hs', hdesk⟩ :=
      (law.spawn (law.configured h override)).exists_eq
    cases result with
    | error f =>
      rw [ensureWith_of_error hlive hs, ensureWith_of_error hlive' hs']
      exact ⟨rfl, hdesk⟩
    | ok handle =>
      rw [ensureWith_of_ok hlive hs, ensureWith_of_ok hlive' hs']
      exact ⟨rfl, law.focusUnless hdesk keepFocus _⟩

theorem sendText (text : Text) : Matched R (a.sendText text) (b.sendText text) := by
  obtain ⟨result, after, after', hs, hs', hdesk⟩ := (law.ensureWith h none true).exists_eq
  cases result with
  | error f =>
    rw [sendText_of_error hs, sendText_of_error hs']
    exact ⟨rfl, hdesk⟩
  | ok handle =>
    rw [sendText_of_ok hs, sendText_of_ok hs']
    exact law.write hdesk handle _

/-- What is sent has to be the same text on both. -/
theorem send {e : Excerpt} (hexcerpt : b.excerpt e = a.excerpt e) (focus : Bool) :
    Matched R (a.send e focus) (b.send e focus) := by
  cases ha : a.excerpt e with
  | error f =>
    rw [send_of_no_excerpt ha, send_of_no_excerpt (hexcerpt.trans ha)]
    exact ⟨rfl, h⟩
  | ok text =>
    have hb := hexcerpt.trans ha
    obtain ⟨result, after, after', hs, hs', hdesk⟩ := (law.sendText h text).exists_eq
    cases result with
    | error f =>
      rw [send_of_error ha hs, send_of_error hb hs']
      exact ⟨rfl, hdesk⟩
    | ok u =>
      rw [send_of_ok ha hs, send_of_ok hb hs']
      cases focus with
      | false => exact ⟨rfl, hdesk⟩
      | true => exact law.switch hdesk true

end Parallel

/-! Launching, on desks that answer alike. -/

section
variable {d : Desk}

theorem spawn_of_refused {failure : Interpreter.LaunchFailure} (h : d.answer = .error failure) :
    d.spawn = (.error failure.failure, d.rebuffed) := start_of_error _ _ _ h

theorem spawn_of_launched {b : Interpreter.Behaviour} (h : d.answer = .ok b) :
    d.spawn = (.ok (d.nextSession d.config.bufferName).handle, d.launching b) :=
  start_of_ok _ _ _ h

end

end Parley.Desk
