import Parley.Proofs.Session.Schedule

/-! Sessions do not mix their output. In whatever order the threads of an office take turns with what
is done at the desk, the transcript of a session is the account of what its own pump read, and of
nothing else (`transcripts_of_sessions`). The invariant of all runs is that the desk is sound, reads
nothing by itself, and has a thread for each process (`Sound`). -/
namespace Parley

open Interpreter (Behaviour Pool Process Pump Reading Thread)
open Terminal (Display)

theorem Interpreter.Pool.isAlive_hear (pool : Pool) (m n : Nat) (r : Reading) :
    (pool.hear m r).isAlive n = pool.isAlive n := by
  rw [isAlive, hear, process?_update, isAlive]
  split
  · rw [Option.any_map]
    rfl
  · rfl

theorem Desk.Sound.hear {d : Desk} (h : d.Sound) (n : Nat) (r : Reading) : (d.hear n r).Sound where
  nextId := h.nextId.trans (congrArg (· + 1) (List.length_modify ..).symm)
  alive k hk := h.alive k (Pool.isAlive_hear d.pool n k r ▸ hk)

namespace Office

structure Sound (o : Office) : Prop where
  desk : o.desk.Sound
  unread : o.desk.pool.Unread
  count : o.threads.length = o.desk.pool.processes.length

theorem sound_fresh (launcher : Interpreter.Launcher) (config : Config) (editor : Editor)
    (directory : Bytes) : (fresh launcher config editor directory).Sound where
  desk := ⟨rfl, fun n hn => by cases hn⟩
  unread := ⟨Interpreter.Launcher.opening_of_unread, fun hx => by cases hx⟩
  count := rfl

theorem count_perform {o : Office} (h : o.Sound) (act : Act) :
    (o.perform act).threads.length = (o.perform act).desk.pool.processes.length := by
  have hcount := h.count
  cases act with
  | deed deed =>
    rcases Desk.advances_perform o.desk deed with ⟨-, h'⟩ | ⟨-, h'⟩ | ⟨s, -, h'⟩
    · simp only [perform, Desk.spawnedBy_eq_nil h'.pool.count, if_true]
      exact hcount.trans h'.pool.count.symm
    · simp only [perform, Desk.spawnedBy_eq_nil h'.count, if_true]
      exact hcount.trans h'.count.symm
    · simp only [perform, Desk.spawnedBy_of_spawns h', h'.count]
      simp [hcount]
  | attach => exact hcount
  | leave => exact (length_signalled o).trans hcount
  | look n => exact (List.length_modify ..).trans hcount
  | read n r =>
    rw [perform]
    split
    · exact (List.length_modify ..).trans (hcount.trans (List.length_modify ..).symm)
    · exact hcount

theorem Sound.perform {o : Office} (h : o.Sound) (act : Act) : (o.perform act).Sound := by
  refine ⟨?_, ?_, count_perform h act⟩
  · cases act with
    | deed deed => exact h.desk.perform deed
    | attach | leave | look => exact ⟨h.desk.nextId, h.desk.alive⟩
    | read n r =>
      rw [Office.perform]
      split
      · exact h.desk.hear n r
      · exact h.desk
  · cases act with
    | deed deed => exact (o.desk.spares_perform deed h.unread).1
    | attach | leave | look => exact h.unread
    | read n r =>
      rw [Office.perform]
      split
      · exact Pool.unread_hear h.unread n r
      · exact h.unread

theorem Sound.run {o : Office} (h : o.Sound) (acts : List Act) : (o.run acts).Sound := by
  induction acts generalizing o with
  | nil => exact h
  | cons act acts ih => exact ih (h.perform act)

/-! The transcript of a session. -/

theorem transcript_of_pump? {pool : Pool} {n : Nat} {x : Pump} (h : pool.pump? n = some x) :
    pool.transcript n = x.transcript := by
  obtain ⟨p, hp, rfl⟩ := Option.map_eq_some_iff.mp h
  rw [Pool.transcript, hp]
  rfl

theorem exists_thread {o : Office} (h : o.Sound) {n : Nat} {x : Pump}
    (hx : o.desk.pool.pump? n = some x) : ∃ t, o.threads[n]? = some t := by
  obtain ⟨p, hp, -⟩ := Option.map_eq_some_iff.mp hx
  have hn : n < o.threads.length := h.count ▸ (List.getElem?_eq_some_iff.mp hp).1
  exact ⟨_, List.getElem?_eq_getElem hn⟩

theorem heardBy_of_ne {o : Office} {n : Nat} {act : Act} (h : ∀ r, act ≠ .read n r) :
    o.heardBy n act = [] := by
  cases act with
  | read m r => exact if_neg fun hr => h r (by rw [hr.1])
  | _ => rfl

/-- What a step does to a transcript is what the pump reads in it. -/
theorem transcript_perform {o : Office} (h : o.Sound) {n : Nat} {x : Pump}
    (hx : o.desk.pool.pump? n = some x) {act : Act} (hact : ∀ r, act ≠ .read n r) :
    (o.perform act).desk.pool.transcript n = o.desk.pool.transcript n := by
  have hperform := (pump?_perform h.unread act hx).2
  rw [heardBy_of_ne hact, List.foldl_nil] at hperform
  rw [transcript_of_pump? hperform, transcript_of_pump? hx]

/-- After the end of the output nothing is read any more. -/
theorem heard_after_end {o : Office} {n : Nat} {t : Thread} (h : o.threads[n]? = some t)
    {before : List Act} (hend : (o.heard n before).any Reading.isEnd = true) (after : List Act) :
    o.heard n (before ++ after) = o.heard n before := by
  have horderly := orderly_heard h (before ++ after)
  rw [heard_append] at horderly ⊢
  cases hafter : (o.run before).heard n after with
  | nil => rw [List.append_nil]
  | cons r rest =>
    obtain ⟨last, hlast, hisEnd⟩ := List.any_eq_true.mp hend
    rw [hafter, Interpreter.Orderly, List.dropLast_append_of_ne_nil (List.cons_ne_nil r rest)]
      at horderly
    rw [horderly last (List.mem_append_left _ hlast)] at hisEnd
    cases hisEnd

/-- What is done at a desk comes to the same as some schedule of an office. In whatever order the
threads take turns with what is done at the desk: a session that is spawned gets a process of its own
and a buffer that shows the transcript of that process. From then on the transcript is the account of
what the pump of that process read, of which the end of the output comes last, if at all; nothing is
appended after that, and only a read of that very pump appends anything. Once another session takes
its place, it reads at most once more. -/
theorem transcripts_of_sessions (launcher : Interpreter.Launcher) (config : Config)
    (editor : Editor) (directory : Bytes) :
    let start := fresh launcher config editor directory
    (∀ deeds, ∃ acts, (start.run acts).desk =
      ((Desk.fresh launcher config editor directory).run deeds).unread) ∧
    ∀ before deed s, s ∈ (start.run before).desk.spawnedBy deed →
      let o := (start.run before).perform (.deed deed)
      let c := o.desk.config
      s.process = (start.run before).desk.pool.processes.length ∧
      s.handle = ⟨s.process + 1, c.bufferName⟩ ∧
      o.desk.editor.attachment? c.bufferName =
        some ⟨s.handle.id, .ofColor c.ansiColor, .process s.process⟩ ∧
      ∀ after,
        let told := fun acts => (o.run acts).desk.pool.transcript s.process
        let heard := o.heard s.process after
        told after = ({} : Transcript).append
          (Interpreter.account c.invocation.program (.ofColor c.ansiColor) heard) ∧
        Interpreter.Orderly heard ∧
        (heard.any Reading.isEnd = true → ∀ more, told (after ++ more) = told after) ∧
        (∀ act, (∀ r, act ≠ .read s.process r) → told (after ++ [act]) = told after) ∧
        ∀ next, (o.run after).desk.registry.recorded = some s →
          (o.run after).desk.spawnedBy next ≠ [] →
          ∀ more, (((o.run after).perform (.deed next)).heard s.process more).length ≤ 1 := by
  intro start
  refine ⟨exists_schedule launcher config editor directory, fun before deed s hs => ?_⟩
  intro o c
  have hsound : (start.run before).Sound := (sound_fresh launcher config editor directory).run before
  obtain ⟨b, hfounds⟩ := Desk.exists_founds hs
  have hpump := hfounds.pump? hsound.unread
  have hspawns := hfounds.spawns
  have ho : o.Sound := hsound.perform (.deed deed)
  obtain ⟨t, ht⟩ := exists_thread ho hpump
  have hbuffer : s.handle.buffer = c.bufferName := by rw [hfounds.session]; rfl
  have hid : s.handle.id = s.process + 1 := by
    rw [hspawns.id, hspawns.process, hsound.desk.nextId]
  have hattached := hfounds.attachment?
  rw [hbuffer] at hattached
  have htold : ∀ acts, (o.run acts).desk.pool.transcript s.process =
      ({} : Transcript).append (Interpreter.account c.invocation.program (.ofColor c.ansiColor)
        (o.heard s.process acts)) := by
    intro acts
    rw [transcript_of_pump? (pump?_run ho.unread acts hpump).2]
    exact Pump.transcript_foldl_hear _ _ _ (orderly_heard ht acts)
  refine ⟨hspawns.process, ?_, hattached,
    fun after => ⟨htold after, orderly_heard ht after, ?_, ?_, ?_⟩⟩
  · rw [← hid, ← hbuffer]
  · intro hend more
    dsimp only
    rw [htold, htold, heard_after_end ht hend]
  · intro act hact
    have hafter := pump?_run ho.unread after hpump
    dsimp only
    rw [run_append, run_cons, run_nil]
    exact transcript_perform (ho.run after) hafter.2 hact
  · intro next hrecorded hspawned more
    have hafter := pump?_run ho.unread after hpump
    obtain ⟨t', ht'⟩ := exists_thread (ho.run after) hafter.2
    exact heard_of_replaced ht' hrecorded hspawned more

/-- A session whose process exits while its pump is in a read. -/
def unfinished : List Act := [.deed (.ensure none true), .look 0, .deed (.events 0 [.exit 0])]

/-- What was underway arrives after the session was replaced, while its successor prints. -/
def overlapping : List Act :=
  [.look 1, .read 1 (.data [0x3e, 0xc3]), .read 0 (.data [0xa9, 0x21]), .look 0, .look 1,
    .read 1 .ended]

/-- Half a character of the one is not made whole by what the other prints, though they have the same
buffer. -/
theorem transcripts_of_sessions_overlapping :
    let start := fresh (fun _ _ => .ok {}) {} {} []
    let o := ((start.run unfinished).perform (.deed (.ensure none true))).run overlapping
    (o.desk.pool.transcript 0).text = [Char.ofNat 0xfffd, '!'] ∧
      (o.desk.pool.transcript 1).text =
        ['>', Char.ofNat 0xfffd] ++ Interpreter.finishedNotice "tsun".toList := by
  intro start o
  have h := (transcripts_of_sessions (fun _ _ => .ok {}) {} {} []).2
  obtain ⟨-, -, -, hfirst⟩ := h [] (.ensure none true) ⟨⟨1, "*Typescript*".toList⟩, 0⟩ (.head _)
  obtain ⟨-, -, -, hsecond⟩ :=
    h unfinished (.ensure none true) ⟨⟨2, "*Typescript*".toList⟩, 1⟩ (.head _)
  constructor
  · have htold := (hfirst (unfinished.tail ++ .deed (.ensure none true) :: overlapping)).1
    refine (congrArg Transcript.text htold).trans ?_
    decide +kernel
  · refine (congrArg Transcript.text (hsecond overlapping).1).trans ?_
    decide +kernel

end Office
end Parley
