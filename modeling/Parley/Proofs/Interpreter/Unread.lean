import Parley.Proofs.Interpreter.Account
import Parley.Proofs.Session.Run

/-! Processes whose output is left to threads to read. Nothing else tells their pumps anything
(`Pool.Spares`). -/
namespace Parley.Interpreter

/-- A process whose output is left to others to read; whether anyone does is up to them. -/
def Behaviour.unread (b : Behaviour) : Behaviour := { b with opening := none }

def Launcher.unread (launcher : Launcher) : Launcher :=
  fun attempt request => (launcher attempt request).map Behaviour.unread

theorem Launcher.opening_of_unread {launcher : Launcher} {attempt : Nat} {request : Request}
    {b : Behaviour} (h : launcher.unread attempt request = .ok b) : b.opening = none := by
  unfold unread at h
  cases hlaunched : launcher attempt request with
  | error failure =>
    rw [hlaunched] at h
    cases h
  | ok b' =>
    rw [hlaunched] at h
    obtain rfl := Except.ok.inj h
    rfl

def Process.unread (p : Process) : Process := { p with pump := p.pump.stop }

def Process.hear (p : Process) (r : Reading) : Process := { p with pump := p.pump.hear r }

namespace Pool

def pump? (pool : Pool) (n : Nat) : Option Pump := (pool.process? n).map Process.pump

def unread (pool : Pool) : Pool :=
  { pool with launcher := pool.launcher.unread, processes := pool.processes.map Process.unread }

def hear (pool : Pool) (n : Nat) (r : Reading) : Pool := pool.update n (·.hear r)

end Pool

theorem Pool.pump?_of_process? {pool : Pool} {n : Nat} {p : Process}
    (h : pool.process? n = some p) : pool.pump? n = some p.pump := by
  rw [pump?, h, Option.map_some]

/-! Nothing else tells an unread pump anything. -/

namespace Process

variable {p : Process}

theorem read_of_unread (h : p.pump.running = false) (readings : List Reading) :
    p.read readings = p := by
  have hdone := Pump.running_eq_false_iff.mp h
  induction readings with
  | nil => rfl
  | cons r rest ih =>
    have hread : p.read [r] = p := by simp [read, Pump.read_done r hdone]
    rw [read_cons, hread, ih]

theorem playAll_of_unread (h : p.pump.running = false) (events : List Event) :
    (p.playAll events).pump = p.pump := by
  induction events generalizing p with
  | nil => rfl
  | cons e events ih =>
    have hplay : (p.play e).pump = p.pump := by
      cases e with
      | data | endOfOutput | readError => rw [play, read_of_unread h]
      | exit => rfl
    rw [playAll_cons, ih (hplay ▸ h), hplay]

theorem write_of_unread (h : p.pump.running = false) : p.write.1.pump = p.pump := by
  unfold write
  split
  · rfl
  · rfl
  · rename_i events rest hreactions
    exact playAll_of_unread (p := { p with reactions := rest }) h events

theorem release_of_unread (h : p.pump.running = false) : p.release = p := by
  have hsignal : p.signal = p := by
    rw [signal, Pump.signal, Pump.running_eq_false_iff.mp h]
  rw [release, hsignal, read_of_unread h]

end Process

namespace Pool

/-- No pump runs but those of threads, and none will. -/
structure Unread (pool : Pool) : Prop where
  launcher : ∀ {attempt request b}, pool.launcher attempt request = .ok b → b.opening = none
  pumps : ∀ {n x}, pool.pump? n = some x → x.running = false

/-- The pumps that were there are as they were, and no other runs either. -/
def Spares (a b : Pool) : Prop :=
  a.Unread → b.Unread ∧ ∀ {n x}, a.pump? n = some x → b.pump? n = some x

theorem Spares.refl (a : Pool) : a.Spares a := fun h => ⟨h, id⟩

theorem Spares.trans {a b c : Pool} (h : a.Spares b) (h' : b.Spares c) : a.Spares c := fun ha =>
  have ⟨hb, hab⟩ := h ha
  have ⟨hc, hbc⟩ := h' hb
  ⟨hc, hbc ∘ hab⟩

theorem pump?_update (pool : Pool) (n k : Nat) (f : Process → Process) :
    (pool.update n f).pump? k =
      if n = k then (pool.process? k).map (Process.pump ∘ f) else pool.pump? k := by
  rw [pump?, process?_update]
  split
  · rw [Option.map_map]
  · rfl

theorem spares_update {pool : Pool} {n : Nat} {f : Process → Process}
    (h : ∀ p, pool.process? n = some p → p.pump.running = false → (f p).pump = p.pump) :
    pool.Spares (pool.update n f) := by
  intro hunread
  have hsame : ∀ k, (pool.update n f).pump? k = pool.pump? k := by
    intro k
    rw [pump?_update]
    split
    · rename_i hk
      subst hk
      cases hp : pool.process? n with
      | none => simp [pump?, hp]
      | some p =>
        have hrunning := hunread.pumps (pump?_of_process? hp)
        simp [pump?, hp, h p hp hrunning]
    · rfl
  exact ⟨⟨hunread.launcher, fun hx => hunread.pumps (hsame _ ▸ hx)⟩, fun hx => hsame _ ▸ hx⟩

theorem spares_play (pool : Pool) (n : Nat) (events : List Event) :
    pool.Spares (pool.play n events) := spares_update fun _ _ h => Process.playAll_of_unread h events

theorem spares_release (pool : Pool) (n : Nat) : pool.Spares (pool.release n) :=
  spares_update fun _ _ h => by rw [Process.release_of_unread h]

theorem spares_write (pool : Pool) (n : Nat) (data : Bytes) :
    pool.Spares (pool.write n data).2 := by
  unfold write
  split
  · exact .refl pool
  · rename_i p hp
    have hwritten : pool.Spares (pool.update n fun _ => p.write.1) := by
      refine spares_update fun q hq hrunning => ?_
      obtain rfl : p = q := Option.some.inj (hp.symm.trans hq)
      exact Process.write_of_unread hrunning
    dsimp only
    split
    · exact hwritten
    · exact fun h => ⟨⟨(hwritten h).1.launcher, (hwritten h).1.pumps⟩, (hwritten h).2⟩

theorem pump?_hear (pool : Pool) (m n : Nat) (r : Reading) :
    (pool.hear m r).pump? n = if m = n then (pool.pump? n).map (·.hear r) else pool.pump? n := by
  rw [Pool.hear, Pool.pump?_update]
  split
  · rw [Pool.pump?, Option.map_map]
    rfl
  · rfl

theorem unread_hear {pool : Pool} (h : pool.Unread) (n : Nat) (r : Reading) :
    (pool.hear n r).Unread := by
  refine ⟨h.launcher, fun {k x} hx => ?_⟩
  rw [pump?_hear] at hx
  split at hx
  · obtain ⟨y, hy, rfl⟩ := Option.map_eq_some_iff.mp hx
    have hrunning : y.running = false := h.pumps hy
    rcases r.isEnd_or_data with hend | ⟨bytes, hbytes, rfl⟩
    · rw [Pump.hear_of_isEnd hend]
      rfl
    · rw [Pump.hear_data hbytes]
      exact hrunning
  · exact h.pumps hx

end Pool

theorem Pump.hear_stop (p : Pump) (r : Reading) : p.stop.hear r = (p.hear r).stop := by
  have hflush : p.stop.flush = p.flush.stop := by
    unfold flush
    by_cases hheld : p.decoder.finish = []
    · simp [stop, hheld]
    · simp [stop, hheld, present]
  rcases r.isEnd_or_data with hend | ⟨bytes, hbytes, rfl⟩
  · simp only [hear_of_isEnd hend, finish, hflush]
    rfl
  · simp only [hear_data hbytes]
    rfl

/-! A process that reads its own output, next to one whose output others read. What it reads in the
course of something can as well be read after it (`catches_playAll`, `write_unread`). -/

namespace Process

/-- What an event does to a process but for what its pump reads. -/
def exitBy (p : Process) : Event → Process
  | .exit code => { p with exitCode := some code }
  | .data _ => p
  | .endOfOutput => p
  | .readError _ => p

def exitByAll (p : Process) (events : List Event) : Process := events.foldl exitBy p

/-- The process once its pump read something more, for as long as it ran. -/
inductive Catches (p : Process) : Process → Prop
  | here : p.Catches p
  | read {q : Process} (h : p.Catches q) (running : q.pump.running = true) (r : Reading) :
      p.Catches (q.read [r])

namespace Catches

variable {p q r : Process}

theorem trans (h : p.Catches q) (h' : q.Catches r) : p.Catches r := by
  induction h' with
  | here => exact h
  | read _ running r ih => exact ih.read running r

theorem exitByAll (h : p.Catches q) (events : List Event) :
    (p.exitByAll events).Catches (q.exitByAll events) := by
  induction events generalizing p q with
  | nil => exact h
  | cons e events ih =>
    refine ih ?_
    -- An exit leaves the pump alone, so it may as well come before what was read.
    cases e with
    | data | endOfOutput | readError => exact h
    | exit code =>
      induction h with
      | here => exact .here
      | read _ running r ih => exact ih.read running r

end Catches

theorem catches_read (p : Process) (readings : List Reading) : p.Catches (p.read readings) := by
  induction readings generalizing p with
  | nil => exact .here
  | cons r rest ih =>
    cases hrunning : p.pump.running with
    | false =>
      rw [read_of_unread hrunning]
      exact .here
    | true => exact (Catches.here.read hrunning r).trans (ih (p.read [r]))

theorem catches_play (p : Process) (e : Event) : (p.exitBy e).Catches (p.play e) := by
  cases e with
  | data | endOfOutput | readError => exact p.catches_read _
  | exit => exact .here

theorem catches_playAll (p : Process) (events : List Event) :
    (p.exitByAll events).Catches (p.playAll events) := by
  induction events generalizing p with
  | nil => exact .here
  | cons e events ih => exact ((p.catches_play e).exitByAll events).trans (ih (p.play e))

theorem pump_exitByAll (p : Process) (events : List Event) :
    (p.exitByAll events).pump = p.pump := by
  induction events generalizing p with
  | nil => rfl
  | cons e events ih => exact (ih (p.exitBy e)).trans (by cases e <;> rfl)

theorem read_unread (p : Process) (readings : List Reading) : p.unread.read readings = p.unread :=
  read_of_unread rfl readings

theorem playAll_unread (p : Process) (events : List Event) :
    p.unread.playAll events = (p.exitByAll events).unread := by
  induction events generalizing p with
  | nil => rfl
  | cons e events ih =>
    have hplay : p.unread.play e = (p.exitBy e).unread := by
      cases e with
      | data | endOfOutput | readError => exact p.read_unread _
      | exit => rfl
    rw [playAll_cons, hplay, ih]
    rfl

/-- What a pump reads, it hears. -/
theorem hear_unread {p : Process} (running : p.pump.running = true) (r : Reading) :
    p.unread.hear r = (p.read [r]).unread := by
  have hread : (p.pump.read r).stop = (p.pump.hear r).stop := by
    rcases Pump.running_eq_true_iff.mp running with h | h
    · rw [Pump.read_running r h]
    · rw [Pump.read_stopping r h]
      rfl
  calc p.unread.hear r = { p with pump := p.pump.stop.hear r } := rfl
    _ = { p with pump := (p.pump.read r).stop } := by rw [Pump.hear_stop, hread]
    _ = (p.read [r]).unread := rfl

/-- The same write is taken, and what is read after it can be read by others. -/
theorem write_unread (p : Process) :
    ∃ q : Process, q.pump = p.pump ∧ q.Catches p.write.1 ∧
      p.unread.write = (q.unread, p.write.2) := by
  cases hreactions : p.reactions with
  | nil =>
    refine ⟨p, rfl, ?_, by simp [write, unread, hreactions]⟩
    simp only [write, hreactions]
    exact .here
  | cons reaction rest =>
    let q : Process := { p with reactions := rest }
    cases reaction with
    | refuse reason =>
      refine ⟨q, rfl, ?_, by simp [write, unread, hreactions, q]⟩
      simp only [write, hreactions]
      exact .here
    | respond events =>
      refine ⟨q.exitByAll events, q.pump_exitByAll events, ?_, ?_⟩
      · simp only [write, hreactions]
        exact q.catches_playAll events
      · rw [← playAll_unread]
        simp only [write, unread, hreactions]
        rfl

end Process
namespace Pool

variable (pool : Pool) (n : Nat)

theorem process?_unread : pool.unread.process? n = (pool.process? n).map Process.unread :=
  List.getElem?_map ..

theorem transcript_unread : pool.unread.transcript = pool.transcript := by
  funext k
  rw [transcript, process?_unread, transcript, Option.map_map]
  rfl

theorem isAlive_unread : pool.unread.isAlive n = pool.isAlive n := by
  rw [isAlive, process?_unread, isAlive, Option.any_map]
  rfl

variable {pool n}

theorem update_of_none (h : pool.process? n = none) (f : Process → Process) :
    pool.update n f = pool := by
  rw [update, List.modify_eq_self (List.getElem?_eq_none_iff.mp h)]

/-- Only what becomes of the process matters. -/
theorem update_of_some {p : Process} (h : pool.process? n = some p) (f : Process → Process) :
    pool.update n f = pool.update n fun _ => f p := by
  have hprocess : pool.processes[n]? = some p := h
  rw [update, update]
  congr 1
  apply List.ext_getElem?
  intro k
  by_cases hk : n = k
  · subst hk
    simp [hprocess]
  · simp [hk]

theorem update_update (p q : Process) :
    (pool.update n fun _ => p).update n (fun _ => q) = pool.update n fun _ => q := by
  rw [update, update, update, List.modify_modify_eq]
  rfl

theorem update_self {p : Process} (h : pool.process? n = some p) :
    (pool.update n fun _ => p) = pool := by
  have hself := update_of_some h id
  rw [update, List.modify_id] at hself
  exact hself.symm

theorem unread_update (p : Process) :
    (pool.update n fun _ => p).unread = pool.unread.update n fun _ => p.unread := by
  simp only [unread, update]
  congr 1
  apply List.ext_getElem?
  intro k
  by_cases hk : n = k
  · subst hk
    simp [Function.comp_def]
  · simp [hk]

theorem play_nil (pool : Pool) (n : Nat) : pool.play n [] = pool := by
  have hmodify := List.modify_id n pool.processes
  rw [play, update]
  exact congrArg (fun processes => { pool with processes }) hmodify

theorem release_unread (pool : Pool) (n : Nat) : pool.unread.release n = pool.unread := by
  cases hp : pool.process? n with
  | none =>
    have hunread : pool.unread.process? n = none := by rw [process?_unread, hp, Option.map_none]
    exact update_of_none hunread _
  | some p =>
    have hunread : pool.unread.process? n = some p.unread := by
      rw [process?_unread, hp, Option.map_some]
    rw [release, update_of_some hunread, Process.release_of_unread rfl, update_self hunread]

end Pool
end Parley.Interpreter
