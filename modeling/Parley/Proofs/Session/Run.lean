import Parley.Session.Excerpt

/-! Runs of a desk: what a user does to the editor and to the session, and what the processes do on
their own, in any order. What a process does takes place between two operations; one that exits
stays so, whatever happens afterwards. -/
namespace Parley

/-- A change of the editor that is no session's doing. -/
inductive Edit where
  | openText (name text : Text)
  | kill (name : Text)
  | focus (name : Text)
  | setPoint (pos : Nat)
  | pushMark
  | gotoEnd

namespace Editor

def edit (e : Editor) (outputs : Outputs) : Edit → Editor
  | .openText name text => e.openText name text
  | .kill name => e.kill name
  | .focus name => e.focus name
  | .setPoint pos => e.setPoint outputs pos
  | .pushMark => e.pushMark
  | .gotoEnd => e.gotoEnd outputs

end Editor

inductive Deed where
  | ensure (line : Option Text) (keepFocus : Bool)
  | ensureWith (override : Option Config) (keepFocus : Bool)
  | switch (toEnd : Bool)
  | write (handle : Handle) (data : Bytes)
  | send (e : Excerpt) (focus : Bool)
  | edit (e : Edit)
  | events (n : Nat) (events : List Interpreter.Event)

namespace Desk

/-- The desk after a step, be it that the operation failed. -/
def perform (d : Desk) : Deed → Desk
  | .ensure line keepFocus => (d.ensure line keepFocus).2
  | .ensureWith override keepFocus => (d.ensureWith override keepFocus).2
  | .switch toEnd => (d.switch toEnd).2
  | .write handle data => (d.writeInput handle data).2
  | .send e focus => (d.send e focus).2
  | .edit e => { d with editor := d.editor.edit d.outputs e }
  | .events n events => { d with pool := d.pool.play n events }

def run (d : Desk) (deeds : List Deed) : Desk := deeds.foldl perform d

@[simp] theorem run_nil (d : Desk) : d.run [] = d := rfl
@[simp] theorem run_cons (d : Desk) (deed : Deed) (deeds : List Deed) :
    d.run (deed :: deeds) = (d.perform deed).run deeds := rfl
theorem run_append (d : Desk) (before after : List Deed) :
    d.run (before ++ after) = (d.run before).run after := List.foldl_append

def fresh (launcher : Interpreter.Launcher) (config : Config) (editor : Editor)
    (directory : Bytes) : Desk where
  editor := editor
  registry := { config }
  pool := { launcher }
  directory := directory

end Desk

/-! A process that exited stays so. -/
namespace Interpreter.Process

theorem alive_of_play {p : Process} {e : Event} (h : (p.play e).isAlive = true) :
    p.isAlive = true := by
  cases e with
  | data | endOfOutput | readError => exact h
  | exit code => cases h

theorem alive_of_playAll {p : Process} {events : List Event}
    (h : (p.playAll events).isAlive = true) : p.isAlive = true := by
  induction events generalizing p with
  | nil => exact h
  | cons e events ih => exact alive_of_play (ih h)

theorem alive_of_write {p : Process} (h : p.write.1.isAlive = true) : p.isAlive = true := by
  unfold write at h
  split at h
  · exact h
  · exact h
  · rename_i events rest hreactions
    exact alive_of_playAll (p := { p with reactions := rest }) h

theorem alive_of_release {p : Process} (h : p.release.isAlive = true) : p.isAlive = true := h

end Interpreter.Process

/-! What goes on in a pool apart from launches: no process is new, and none comes back to life. -/
namespace Interpreter.Pool

structure Ages (a b : Pool) : Prop where
  launcher : b.launcher = a.launcher
  requests : b.requests = a.requests
  count : b.processes.length = a.processes.length
  alive : ∀ n, b.isAlive n = true → a.isAlive n = true

theorem Ages.refl (a : Pool) : Ages a a := ⟨rfl, rfl, rfl, fun _ h => h⟩

theorem Ages.trans {a b c : Pool} (h : Ages a b) (h' : Ages b c) : Ages a c where
  launcher := h'.launcher.trans h.launcher
  requests := h'.requests.trans h.requests
  count := h'.count.trans h.count
  alive n hn := h.alive n (h'.alive n hn)

theorem process?_update (pool : Pool) (n k : Nat) (f : Process → Process) :
    (pool.update n f).process? k = if n = k then (pool.process? k).map f else pool.process? k := by
  simp only [update, process?, List.getElem?_modify]
  split <;> simp

theorem ages_update {pool : Pool} {n : Nat} {f : Process → Process}
    (h : ∀ p, pool.process? n = some p → (f p).isAlive = true → p.isAlive = true) :
    Ages pool (pool.update n f) where
  launcher := rfl
  requests := rfl
  count := List.length_modify ..
  alive k hk := by
    rw [isAlive, process?_update] at hk
    by_cases hn : n = k
    · subst hn
      rw [if_pos rfl, Option.any_map] at hk
      cases hp : pool.process? n with
      | none => simp [hp] at hk
      | some p =>
        have hf : (f p).isAlive = true := by simpa [hp] using hk
        simpa [isAlive, hp] using h p hp hf
    · rw [if_neg hn] at hk
      exact hk

theorem ages_play (pool : Pool) (n : Nat) (events : List Event) : Ages pool (pool.play n events) :=
  ages_update fun _ _ h => Process.alive_of_playAll h

theorem ages_release (pool : Pool) (n : Nat) : Ages pool (pool.release n) :=
  ages_update fun _ _ h => Process.alive_of_release h

theorem ages_write (pool : Pool) (n : Nat) (data : Bytes) : Ages pool (pool.write n data).2 := by
  cases hp : pool.process? n with
  | none =>
    simp only [write, hp]
    exact .refl pool
  | some p =>
    have hwritten : Ages pool (pool.update n fun _ => p.write.1) := by
      refine ages_update fun q hq halive => ?_
      rw [hp] at hq
      rw [← Option.some.inj hq]
      exact Process.alive_of_write halive
    simp only [write, hp]
    split
    · exact hwritten
    · exact ⟨hwritten.launcher, hwritten.requests, hwritten.count, hwritten.alive⟩

end Interpreter.Pool
end Parley
