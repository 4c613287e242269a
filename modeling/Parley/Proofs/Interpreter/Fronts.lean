import Parley.Proofs.Session.Launches

/-! What a session meets of its process apart from the output: whether it has exited, and how it
takes what is written to it. What a process prints changes none of that, so pools that look the same
from there go on looking the same (`Pool.Alike`). -/
namespace Parley

namespace Interpreter

/-- What a session meets of a process: whether it has exited, and how it takes what is written to
it. -/
structure Front where
  exitCode : Option Nat
  reactions : List Reaction

def Front.play (f : Front) : Event → Front
  | .exit code => { f with exitCode := some code }
  | _ => f

namespace Process

def front (p : Process) : Front := ⟨p.exitCode, p.reactions⟩

theorem isAlive_eq (p : Process) : p.isAlive = p.front.exitCode.isNone := rfl

theorem front_play (p : Process) (e : Event) : (p.play e).front = p.front.play e := by
  cases e <;> rfl

theorem front_playAll (p : Process) (events : List Event) :
    (p.playAll events).front = events.foldl Front.play p.front := by
  induction events generalizing p with
  | nil => rfl
  | cons e events ih => rw [playAll_cons, ih, front_play, List.foldl_cons]

theorem front_write {p q : Process} (h : q.front = p.front) :
    q.write.1.front = p.write.1.front ∧ q.write.2 = p.write.2 := by
  obtain ⟨hcode, hreactions⟩ := Front.mk.inj h
  simp only [write, hreactions]
  cases p.reactions with
  | nil => exact ⟨h, rfl⟩
  | cons reaction rest =>
    cases reaction with
    | refuse reason => exact ⟨congrArg (Front.mk · rest) hcode, rfl⟩
    | respond events =>
      dsimp only
      rw [front_playAll, front_playAll, front, front, hcode]
      exact ⟨rfl, rfl⟩

theorem front_release (p : Process) : p.release.front = p.front := rfl

end Process

namespace Pool

/-- Pools that a session cannot tell apart. -/
structure Alike (a b : Pool) : Prop where
  launcher : b.launcher = a.launcher
  requests : b.requests = a.requests
  fronts : b.processes.map Process.front = a.processes.map Process.front
  writes : b.writes = a.writes

namespace Alike

variable {a b : Pool} (h : Alike a b)
include h

theorem front? (n : Nat) :
    (b.process? n).map Process.front = (a.process? n).map Process.front := by
  rw [process?, process?, ← List.getElem?_map, ← List.getElem?_map, h.fronts]

theorem count : b.processes.length = a.processes.length := by
  simpa using congrArg List.length h.fronts

theorem isAlive (n : Nat) : b.isAlive n = a.isAlive n := by
  have hfront := h.front? n
  rw [Pool.isAlive, Pool.isAlive]
  cases hp : a.process? n with
  | none =>
    rw [hp, Option.map_none, Option.map_eq_none_iff] at hfront
    rw [hfront]
  | some p =>
    rw [hp, Option.map_some, Option.map_eq_some_iff] at hfront
    obtain ⟨q, hq, hfront⟩ := hfront
    rw [hq, Option.any_some, Option.any_some, p.isAlive_eq, q.isAlive_eq, hfront]

theorem update {n : Nat} {f g : Process → Process}
    (hfront : ∀ p q, a.process? n = some p → b.process? n = some q → q.front = p.front →
      (g q).front = (f p).front) : Alike (a.update n f) (b.update n g) where
  launcher := h.launcher
  requests := h.requests
  writes := h.writes
  fronts := by
    refine List.ext_getElem? fun k => ?_
    have hk := h.front? k
    rw [process?, process?] at hk
    simp only [Pool.update, List.getElem?_map, List.getElem?_modify]
    by_cases hn : n = k
    · subst hn
      cases hp : a.processes[n]? with
      | none =>
        rw [hp, Option.map_none, Option.map_eq_none_iff] at hk
        rw [hk]
        rfl
      | some p =>
        rw [hp, Option.map_some, Option.map_eq_some_iff] at hk
        obtain ⟨q, hq, hk⟩ := hk
        rw [hq]
        simpa using hfront p q hp hq hk
    · simpa [hn] using hk

theorem play (n : Nat) (events : List Event) : Alike (a.play n events) (b.play n events) :=
  h.update fun p q _ _ hfront => by rw [p.front_playAll, q.front_playAll, hfront]

/-- Both launch the same. -/
theorem grown (request : Request) {p q : Process} (hfront : q.front = p.front) :
    Alike (Desk.grown a request p) (Desk.grown b request q) where
  launcher := h.launcher
  requests := congrArg (· ++ [request]) h.requests
  fronts := by
    rw [Desk.grown, Desk.grown, List.map_append, List.map_append, h.fronts, List.map_singleton,
      List.map_singleton, hfront]
  writes := h.writes

theorem release (n : Nat) : Alike (a.release n) (b.release n) :=
  h.update fun p q _ _ hfront => by rw [p.front_release, q.front_release, hfront]

theorem write (n : Nat) (data : Bytes) :
    (b.write n data).1 = (a.write n data).1 ∧ Alike (a.write n data).2 (b.write n data).2 := by
  have hfront := h.front? n
  cases hp : a.process? n with
  | none =>
    rw [hp, Option.map_none, Option.map_eq_none_iff] at hfront
    simp only [Pool.write, hp, hfront]
    exact ⟨trivial, h⟩
  | some p =>
    rw [hp, Option.map_some, Option.map_eq_some_iff] at hfront
    obtain ⟨q, hq, hfront⟩ := hfront
    obtain ⟨hfront, hrefusal⟩ := Process.front_write hfront
    have hwritten : Alike (a.update n fun _ => p.write.1) (b.update n fun _ => q.write.1) :=
      h.update fun _ _ _ _ _ => hfront
    simp only [Pool.write, hp, hq, hrefusal]
    cases p.write.2 with
    | some reason => exact ⟨rfl, hwritten⟩
    | none =>
      refine ⟨rfl, hwritten.launcher, hwritten.requests, hwritten.fronts, ?_⟩
      exact congrArg (· ++ [(n, data)]) h.writes

end Alike
end Pool
end Interpreter
end Parley
