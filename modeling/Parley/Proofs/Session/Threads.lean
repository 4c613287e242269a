import Parley.Proofs.Session.Office

/-! When the thread of a pump reads. A step moves a thread in one of four ways (`moves_perform`): a
thread that ended reads no more, so the end of the output is the last thing that a pump reads
(`orderly_heard`), and a pump that was signalled takes at most the read that it is in
(`heard_of_signalled`, `heard_of_replaced`). -/
namespace Parley

open Interpreter (Reading Thread)

namespace Interpreter.Thread

/-- The last thread looks for the signal, and begins to read. -/
theorem modify_look (threads : List Thread) :
    (threads ++ [({} : Thread)]).modify threads.length look = threads ++ [⟨.reading, false⟩] := by
  induction threads with
  | nil => rfl
  | cons t threads ih =>
    rw [List.cons_append, List.length_cons, List.modify_succ_cons, ih, List.cons_append]

/-- What a step may do to a thread, and what is read in it. -/
inductive Moves (t : Thread) : List Reading → Thread → Prop
  | stay : t.Moves [] t
  | signal : t.Moves [] t.signal
  | look : t.Moves [] t.look
  | read (h : t.phase = .reading) (r : Reading) : t.Moves [r] (t.after r)

namespace Moves

variable {t t' : Thread} {readings : List Reading}

/-- A thread that ended reads no more. -/
theorem ended (h : t.Moves readings t') (ht : t.phase = .ended) :
    readings = [] ∧ t'.phase = .ended := by
  cases h with
  | stay | signal => exact ⟨rfl, ht⟩
  | look => exact ⟨rfl, by rw [Thread.look, ht]; exact ht⟩
  | read hreading => cases ht.symm.trans hreading

/-- A thread reads one thing at a time; it ends if that is the end of the output. -/
theorem ends (h : t.Moves readings t') :
    readings = [] ∨ ∃ r, readings = [r] ∧ (r.isEnd = true → t'.phase = .ended) := by
  cases h with
  | stay | signal | look => exact .inl rfl
  | read _ r => exact .inr ⟨r, rfl, fun hr => by rw [after, hr]; rfl⟩

/-- A thread that was signalled reads no more, but for the read that it is in. -/
theorem signalled (h : t.Moves readings t') (ht : t.signalled = true) :
    t'.signalled = true ∧
      (readings = [] ∧ (t'.phase = .reading → t.phase = .reading) ∨
        t.phase = .reading ∧ readings.length = 1 ∧ t'.phase ≠ .reading) := by
  cases h with
  | stay => exact ⟨ht, .inl ⟨rfl, id⟩⟩
  | signal => exact ⟨rfl, .inl ⟨rfl, id⟩⟩
  | look =>
    unfold Thread.look
    cases hphase : t.phase <;> simp [ht, hphase]
  | read hreading r =>
    refine ⟨ht, .inr ⟨hreading, rfl, ?_⟩⟩
    cases hr : r.isEnd <;> simp [after, hr]

end Moves
end Interpreter.Thread

namespace Office

variable {o : Office} {n : Nat} {t : Thread}

theorem isReading_of_thread (h : o.threads[n]? = some t) :
    o.isReading n = true ↔ t.phase = .reading := by
  rw [isReading, h, Option.any_some, decide_eq_true_iff]

@[simp] theorem length_signalled (o : Office) : o.signalled.length = o.threads.length := by
  unfold signalled
  split
  · rw [List.length_modify]
  · rfl

theorem getElem?_signalled (o : Office) (n : Nat) :
    o.signalled[n]? =
      if o.desk.registry.recorded.map Session.process = some n then o.threads[n]?.map Thread.signal
      else o.threads[n]? := by
  unfold signalled
  cases o.desk.registry.recorded with
  | none => rfl
  | some old => by_cases hn : old.process = n <;> simp [hn]

theorem moves_signalled (h : o.threads[n]? = some t) :
    ∃ t', o.signalled[n]? = some t' ∧ t.Moves [] t' := by
  rw [getElem?_signalled, h]
  split
  · exact ⟨t.signal, rfl, .signal⟩
  · exact ⟨t, rfl, .stay⟩

theorem moves_perform (h : o.threads[n]? = some t) (act : Act) :
    ∃ t', (o.perform act).threads[n]? = some t' ∧ t.Moves (o.heardBy n act) t' := by
  cases act with
  | deed deed =>
    by_cases hspawn : o.desk.spawnedBy deed = []
    · exact ⟨t, by rw [perform, if_pos hspawn, h], .stay⟩
    · simp only [perform, if_neg hspawn]
      obtain ⟨t', h', hmoves⟩ := moves_signalled h
      refine ⟨t', ?_, hmoves⟩
      rw [List.getElem?_append_left (List.getElem?_eq_some_iff.mp h').1, h']
  | attach => exact ⟨t, h, .stay⟩
  | leave =>
    exact moves_signalled h
  | look m =>
    by_cases hm : m = n
    · subst hm
      exact ⟨t.look, by simp [perform, h], .look⟩
    · exact ⟨t, by simp [perform, hm, h], .stay⟩
  | read m r =>
    rw [perform, heardBy]
    by_cases hm : m = n
    · subst hm
      by_cases hreading : o.isReading m = true
      · refine ⟨t.after r, ?_, ?_⟩
        · simp [hreading, h]
        · rw [if_pos ⟨rfl, hreading⟩]
          exact .read ((isReading_of_thread h).mp hreading) r
      · refine ⟨t, ?_, ?_⟩
        · rw [if_neg hreading, h]
        · rw [if_neg fun hr => hreading hr.2]
          exact .stay
    · refine ⟨t, ?_, ?_⟩
      · split
        · simp [hm, h]
        · exact h
      · rw [if_neg fun hr => hm hr.1]
        exact .stay

theorem heard_of_ended (h : o.threads[n]? = some t) (ht : t.phase = .ended) (acts : List Act) :
    o.heard n acts = [] := by
  induction acts generalizing o t with
  | nil => rfl
  | cons act acts ih =>
    obtain ⟨t', h', hmoves⟩ := moves_perform h act
    obtain ⟨hnone, ht'⟩ := hmoves.ended ht
    rw [heard_cons, hnone, ih h' ht', List.nil_append]

/-- A pump reads nothing after the end of its output. -/
theorem orderly_heard (h : o.threads[n]? = some t) (acts : List Act) :
    Interpreter.Orderly (o.heard n acts) := by
  induction acts generalizing o t with
  | nil => exact nofun
  | cons act acts ih =>
    obtain ⟨t', h', hmoves⟩ := moves_perform h act
    rw [heard_cons]
    rcases hmoves.ends with hnone | ⟨r, hr, hend⟩
    · rw [hnone]
      exact ih h'
    · rw [hr, List.singleton_append]
      cases hheard : (o.perform act).heard n acts with
      | nil => exact nofun
      | cons next rest =>
        rw [Interpreter.Orderly, List.dropLast_cons_cons, List.forall_mem_cons]
        refine ⟨?_, hheard ▸ ih h'⟩
        cases hrend : r.isEnd with
        | false => rfl
        | true =>
          rw [heard_of_ended h' (hend hrend)] at hheard
          cases hheard

/-- A pump that was signalled still takes the read that it is in, and no other. -/
theorem heard_of_signalled (h : o.threads[n]? = some t) (ht : t.signalled = true)
    (acts : List Act) :
    (o.heard n acts).length ≤ 1 ∧ (t.phase ≠ .reading → o.heard n acts = []) := by
  induction acts generalizing o t with
  | nil => exact ⟨Nat.zero_le 1, fun _ => rfl⟩
  | cons act acts ih =>
    obtain ⟨t', h', hmoves⟩ := moves_perform h act
    obtain ⟨ht', hread⟩ := hmoves.signalled ht
    obtain ⟨hshort, hquiet⟩ := ih h' ht'
    rw [heard_cons]
    rcases hread with ⟨hnone, hphase⟩ | ⟨hreading, hone, hphase⟩
    · rw [hnone, List.nil_append]
      exact ⟨hshort, fun hnot => hquiet (hnot ∘ hphase)⟩
    · rw [hquiet hphase, List.append_nil]
      exact ⟨Nat.le_of_eq hone, fun hnot => absurd hreading hnot⟩

/-- So does the pump of a session that was replaced. -/
theorem heard_of_replaced {old : Session} (h : o.threads[old.process]? = some t)
    (hrecorded : o.desk.registry.recorded = some old) {deed : Deed}
    (hspawned : o.desk.spawnedBy deed ≠ []) (acts : List Act) :
    ((o.perform (.deed deed)).heard old.process acts).length ≤ 1 := by
  have hsignalled : o.signalled[old.process]? = some t.signal := by
    simp [getElem?_signalled, hrecorded, h]
  have hlt := (List.getElem?_eq_some_iff.mp hsignalled).1
  have hthread : (o.perform (.deed deed)).threads[old.process]? = some t.signal := by
    rw [perform, if_neg hspawned, List.getElem?_append_left hlt, hsignalled]
  exact (heard_of_signalled hthread rfl acts).1

end Office
end Parley
