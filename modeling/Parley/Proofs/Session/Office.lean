import Parley.Proofs.Interpreter.Unread
import Parley.Proofs.Session.Attachments

/-! A desk whose pumps are threads. A thread looks for the signal to stop, reads, takes what it read
into its transcript, and begins again; a session that is let go is only signalled, so that its pump
may still be in a read while its successor prints. The steps of all threads and what is done at the
desk come in any order.

What is done at the desk tells no pump anything (`law_spares`), so a pump has heard what it read
itself, and that is all (`pump?_run`). -/
namespace Parley

namespace Interpreter

inductive Phase where
  | looking
  | reading
  | ended
  deriving DecidableEq, Repr

structure Thread where
  phase : Phase := .looking
  signalled : Bool := false
  deriving DecidableEq, Repr

namespace Thread

def signal (t : Thread) : Thread := { t with signalled := true }

/-- Looks for the signal, and goes on to read if there is none. -/
def look (t : Thread) : Thread :=
  match t.phase with
  | .looking => { t with phase := if t.signalled then .ended else .reading }
  | .reading => t
  | .ended => t

def after (t : Thread) (r : Reading) : Thread :=
  { t with phase := if r.isEnd then .ended else .looking }

@[simp] theorem signalled_look (t : Thread) : t.look.signalled = t.signalled := by
  unfold look
  split <;> rfl

@[simp] theorem signalled_after (t : Thread) (r : Reading) :
    (t.after r).signalled = t.signalled := rfl

end Thread
end Interpreter

open Interpreter (Behaviour LaunchFailure Pool Process Pump Reading Request Thread)
open Terminal (Display)

namespace Desk

def unread (d : Desk) : Desk := { d with pool := d.pool.unread }

def hear (d : Desk) (n : Nat) (r : Reading) : Desk := { d with pool := d.pool.hear n r }

end Desk

/-- A desk and the threads of the processes launched at it. The desk reads nothing by itself: of
what its processes do, it notices only that they exit. -/
structure Office where
  desk : Desk
  threads : List Thread := []

/-- A session buffer may be shown by whomever, and to leave is to give up the desk, and with it the
recorded session. A read returns if one is under way; one that gives nothing is the end of the
output. -/
inductive Office.Act where
  | deed (deed : Deed)
  | attach (name : Text) (sessionId : Nat) (mode : Display) (source : Source)
  | leave
  | look (n : Nat)
  | read (n : Nat) (r : Reading)

namespace Office

def fresh (launcher : Interpreter.Launcher) (config : Config) (editor : Editor)
    (directory : Bytes) : Office where
  desk := (Desk.fresh launcher config editor directory).unread

def isReading (o : Office) (n : Nat) : Bool := o.threads[n]?.any (·.phase = .reading)

/-- The threads once the recorded session was let go. -/
def signalled (o : Office) : List Thread :=
  match o.desk.registry.recorded with
  | some old => o.threads.modify old.process Thread.signal
  | none => o.threads

def perform (o : Office) : Act → Office
  | .deed deed =>
    { desk := o.desk.perform deed
      -- A session that was spawned took the place of the one before.
      threads := if o.desk.spawnedBy deed = [] then o.threads else o.signalled ++ [{}] }
  | .attach name sessionId mode source =>
    { o with
      desk := { o.desk with
        editor := o.desk.editor.attach o.desk.outputs name sessionId mode source } }
  | .leave => { o with threads := o.signalled }
  | .look n => { o with threads := o.threads.modify n Thread.look }
  | .read n r =>
    if o.isReading n then { desk := o.desk.hear n r, threads := o.threads.modify n (·.after r) }
    else o

def run (o : Office) (acts : List Act) : Office := acts.foldl perform o

@[simp] theorem run_nil (o : Office) : o.run [] = o := rfl
@[simp] theorem run_cons (o : Office) (act : Act) (acts : List Act) :
    o.run (act :: acts) = (o.perform act).run acts := rfl
theorem run_append (o : Office) (before after : List Act) :
    o.run (before ++ after) = (o.run before).run after := List.foldl_append

def heardBy (o : Office) (n : Nat) : Act → List Reading
  | .read m r => if m = n ∧ o.isReading n then [r] else []
  | _ => []

/-- What the pump of a process reads, step after step. -/
def heard (o : Office) (n : Nat) : List Act → List Reading
  | [] => []
  | act :: acts => o.heardBy n act ++ (o.perform act).heard n acts

@[simp] theorem heard_nil (o : Office) (n : Nat) : o.heard n [] = [] := rfl
@[simp] theorem heard_cons (o : Office) (n : Nat) (act : Act) (acts : List Act) :
    o.heard n (act :: acts) = o.heardBy n act ++ (o.perform act).heard n acts := rfl

end Office

/-! What is done at a desk that reads nothing tells no pump anything. -/
namespace Desk

section
variable (d : Desk) (request : Request) (mode : Display) (b : Behaviour)

theorem pump?_launched (n : Nat) :
    (d.launched request mode b).pump? n =
      if n = d.pool.processes.length then
        some { program := request.invocation.program, filter := .ofMode mode,
               status := if b.opening.isSome then .running else .done }
      else d.pool.pump? n := by
  simp only [launched, grown, Pool.pump?, Pool.process?]
  split
  · rename_i hn
    simp [hn, Process.ofBehaviour]
  · rename_i hn
    rw [List.getElem?_append]
    split
    · rfl
    · rename_i hlt
      rw [List.getElem?_eq_none (Nat.le_of_not_lt hlt), List.getElem?_eq_none]
      rw [List.length_singleton]
      omega

variable {b} in
theorem spares_launched (h : b.opening = none) : d.pool.Spares (d.launched request mode b) := by
  refine fun hunread => ⟨⟨hunread.launcher, fun {n x} hx => ?_⟩, fun {n x} hx => ?_⟩
  · rw [pump?_launched] at hx
    split at hx
    · rw [← Option.some.inj hx, h]
      rfl
    · exact hunread.pumps hx
  · have hn : n ≠ d.pool.processes.length := by
      rintro rfl
      simp [Pool.pump?, Pool.process?] at hx
    rw [pump?_launched, if_neg hn, hx]

theorem spares_started : (d.launched request mode b).Spares (d.started request mode b).pool := by
  unfold started
  cases d.registry.recorded with
  | none => exact Pool.spares_play _ _ _
  | some old => exact (Pool.spares_release _ _).trans (Pool.spares_play _ _ _)

end

theorem law_spares : Law fun a b => a.pool.Spares b.pool where
  refl d := .refl d.pool
  trans h h' := h.trans h'
  configured d _ := .refl d.pool
  start d request mode := by
    intro hunread
    cases hl : d.pool.launcher d.pool.requests.length request with
    | error failure =>
      rw [start_of_error _ _ _ hl]
      exact ⟨⟨hunread.launcher, hunread.pumps⟩, id⟩
    | ok b =>
      rw [start_of_ok _ _ _ hl]
      exact ((d.spares_launched request mode (hunread.launcher hl)).trans
        (d.spares_started request mode b)) hunread
  write d handle data := by
    rcases d.desk_writeInput handle data with same | ⟨n, written⟩
    · rw [same]
      exact .refl d.pool
    · rw [written]
      exact Pool.spares_write d.pool n data
  focus d _ := .refl d.pool
  pushMark d := .refl d.pool
  gotoEnd d := .refl d.pool
  events d n events := d.pool.spares_play n events

theorem spares_perform (d : Desk) (deed : Deed) : d.pool.Spares (d.perform deed).pool :=
  law_spares.perform d fun _ he => he ▸ .refl d.pool

/-- The pump of a session that was spawned has read nothing yet. -/
theorem Founds.pump? {d : Desk} {deed : Deed} {s : Session} {b : Behaviour}
    (h : Founds d deed s b) (hunread : d.pool.Unread) :
    (d.perform deed).pool.pump? s.process =
      some { program := (d.perform deed).config.invocation.program
             filter := .ofMode (.ofColor (d.perform deed).config.ansiColor), status := .done } := by
  let c := d.configured (deed.override? d.config)
  have hopening : b.opening = none := hunread.launcher h.answer
  have hlaunched : (c.launched (request c.config) (.ofColor c.config.ansiColor) b).pump? s.process =
      some { program := c.config.invocation.program, filter := .ofMode (.ofColor c.config.ansiColor),
             status := .done } := by
    rw [pump?_launched, h.session, hopening]
    exact if_pos rfl
  have hstarted := (c.spares_started (request c.config) (.ofColor c.config.ansiColor) b)
    (c.spares_launched _ _ hopening hunread).1
  have hrest := (law_spares.trails h.rest) hstarted.1
  rw [config_perform]
  exact hrest.2 (hstarted.2 hlaunched)

end Desk

/-! What a run of an office does to the transcript of one process. -/
namespace Office

variable (o : Office)

/-- A pump hears what it reads itself, and nothing else. -/
theorem pump?_perform {o : Office} (h : o.desk.pool.Unread) (act : Act) {n : Nat} {x : Pump}
    (hx : o.desk.pool.pump? n = some x) :
    (o.perform act).desk.pool.Unread ∧
      (o.perform act).desk.pool.pump? n = some ((o.heardBy n act).foldl Pump.hear x) := by
  cases act with
  | deed deed =>
    -- Whatever is done at the desk, a pump that is there already is spared.
    obtain ⟨hunread, hsame⟩ := o.desk.spares_perform deed h
    exact ⟨hunread, hsame hx⟩
  | attach | leave | look => exact ⟨h, hx⟩
  | read m r =>
    rw [perform, heardBy]
    by_cases hreading : o.isReading m = true
    · rw [if_pos hreading]
      refine ⟨Pool.unread_hear h m r, (Pool.pump?_hear _ m n r).trans ?_⟩
      rw [hx]
      by_cases hm : m = n
      · subst hm
        simp [hreading]
      · simp [hm]
    · rw [if_neg hreading]
      refine ⟨h, hx.trans ?_⟩
      rw [if_neg]
      · rfl
      · rintro ⟨rfl, hn⟩
        exact hreading hn

theorem pump?_run {o : Office} (h : o.desk.pool.Unread) (acts : List Act) {n : Nat} {x : Pump}
    (hx : o.desk.pool.pump? n = some x) :
    (o.run acts).desk.pool.Unread ∧
      (o.run acts).desk.pool.pump? n = some ((o.heard n acts).foldl Pump.hear x) := by
  induction acts generalizing o x with
  | nil => exact ⟨h, hx⟩
  | cons act acts ih =>
    obtain ⟨hunread, hact⟩ := pump?_perform h act hx
    rw [run_cons, heard_cons, List.foldl_append]
    exact ih hunread hact

theorem heard_append (n : Nat) (before after : List Act) :
    o.heard n (before ++ after) = o.heard n before ++ (o.run before).heard n after := by
  induction before generalizing o with
  | nil => rfl
  | cons act before ih =>
    rw [List.cons_append, heard_cons, ih, heard_cons, run_cons, List.append_assoc]

end Office
end Parley
