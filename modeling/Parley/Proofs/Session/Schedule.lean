import Parley.Proofs.Session.Threads
import Parley.Proofs.Session.Unread

/-! A desk as one schedule of an office. The desk reads what a process prints at the moment that it
is printed, and what is underway when a session is replaced at that moment; the threads of an office
can take turns in such a way that they read the same (`exists_schedule`). -/
namespace Parley

open Interpreter (Behaviour LaunchFailure Pool Process Pump Reading Request Thread)
open Terminal (Display)

namespace Office

/-! The desk and the office side by side. -/

/-- The office is where the desk is: the thread of a pump that still runs is in a read, and it was
signalled if that pump was. -/
structure Keeps (d : Desk) (o : Office) : Prop where
  desk : o.desk = d.unread
  count : o.threads.length = d.pool.processes.length
  placed : ∀ s, d.registry.recorded = some s → s.process < d.pool.processes.length
  ready : ∀ {n x}, d.pool.pump? n = some x → x.running = true →
    o.threads[n]? = some ⟨.reading, x.status = .stopping⟩

namespace Keeps

variable {d : Desk} {o o' : Office} {n : Nat} {p q : Process}

/-- One process changes, and its thread at most; the thread is ready if the pump still runs. -/
theorem put (h : Keeps d o) (hp : d.pool.process? n = some p)
    (hdesk : o'.desk = (d.put n q).unread) (hlength : o'.threads.length = o.threads.length)
    (hothers : ∀ k, n ≠ k → o'.threads[k]? = o.threads[k]?)
    (hown : q.pump.running = true →
      o'.threads[n]? = some ⟨.reading, q.pump.status = .stopping⟩) : Keeps (d.put n q) o' := by
  have hcount : (d.put n q).pool.processes.length = d.pool.processes.length := List.length_modify ..
  refine ⟨hdesk, by rw [hlength, h.count, hcount], fun s hs => hcount ▸ h.placed s hs, ?_⟩
  intro k x hx hrunning
  by_cases hk : n = k
  · subst hk
    obtain rfl :=
      Option.some.inj ((Pool.pump?_of_process? (Desk.process?_put hp q)).symm.trans hx)
    exact hown hrunning
  · rw [Desk.put, Pool.pump?_update, if_neg hk] at hx
    rw [hothers k hk]
    exact h.ready hx hrunning

/-- What a pump reads by itself, its thread can read; it is in the next read then, unless the output
has ended or it was told to stop. -/
theorem read (h : Keeps d o) (hp : d.pool.process? n = some p) (hrunning : p.pump.running = true)
    (r : Reading) : Keeps (d.put n (p.read [r])) (o.run [.read n r, .look n]) := by
  have ht := h.ready (Pool.pump?_of_process? hp) hrunning
  have hreading : o.isReading n = true := (isReading_of_thread ht).mpr rfl
  have hdesk : o.desk.hear n r = (d.put n (p.read [r])).unread := by
    rw [Desk.put_unread, ← Process.hear_unread hrunning, h.desk, Desk.hear, Pool.hear,
      Pool.update_of_some (Desk.process?_unread hp)]
    rfl
  have hperform : o.perform (.read n r) =
      { desk := o.desk.hear n r, threads := o.threads.modify n (·.after r) } := if_pos hreading
  rw [run_cons, run_cons, run_nil, hperform]
  refine h.put hp hdesk (by simp [perform]) (fun k hk => by simp [perform, hk]) fun hnext => ?_
  obtain ⟨hstatus, hmore, hstill⟩ := Pump.running_read hrunning hnext
  have hlooked : (Thread.after ⟨.reading, false⟩ r).look = ⟨.reading, false⟩ := by
    rw [Thread.after, hmore]
    rfl
  have hpump : (p.read [r]).pump.status = .running := hstill
  rw [hstatus] at ht
  rw [hpump, perform, List.getElem?_modify_eq, List.getElem?_modify_eq, ht]
  exact congrArg some hlooked

theorem catches (h : Keeps d o) (hp : d.pool.process? n = some p) (hc : p.Catches q) :
    ∃ acts, Keeps (d.put n q) (o.run acts) := by
  induction hc with
  | here => exact ⟨[], by rwa [Desk.put_self hp]⟩
  | @read q _ running r ih =>
    obtain ⟨acts, hacts⟩ := ih
    refine ⟨acts ++ [.read n r, .look n], ?_⟩
    have hread := hacts.read (Desk.process?_put hp q) running r
    rwa [Desk.put_put, ← run_append] at hread

/-- What is late when a session is let go can be read after the signal. -/
theorem letGo {recorded : Option Session} (h : Keeps (d.signalling recorded) o) :
    ∃ acts, Keeps (d.letGo recorded) (o.run acts) := by
  cases recorded with
  | none => exact ⟨[], h⟩
  | some old =>
    cases hp : d.pool.process? old.process with
    | none =>
      rw [Desk.signalling, Pool.update_of_none hp] at h
      rw [Desk.letGo, Pool.release, Pool.update_of_none hp]
      exact ⟨[], h⟩
    | some p =>
      have hsignalling : d.signalling (some old) = d.put old.process p.signal := by
        rw [Desk.signalling, Desk.put, Pool.update_of_some hp]
      have hletGo : d.letGo (some old) = d.put old.process p.release := by
        rw [Desk.letGo, Desk.put, Pool.release, Pool.update_of_some hp]
      rw [hsignalling] at h
      obtain ⟨acts, hacts⟩ :=
        h.catches (Desk.process?_put hp _) (p.signal.catches_read p.late.toList)
      rw [Desk.put_put] at hacts
      exact ⟨acts, hletGo ▸ hacts⟩

end Keeps

/-! Each operation at the desk is one step of the office and what its threads read after it. -/

/-- Wherever the office is next to the first desk, it gets to the second. -/
def Follows (d d' : Desk) : Prop := ∀ o, Keeps d o → ∃ acts, Keeps d' (o.run acts)

theorem Follows.refl (d : Desk) : Follows d d := fun _ h => ⟨[], h⟩

theorem Follows.trans {a b c : Desk} (h : Follows a b) (h' : Follows b c) : Follows a c := by
  intro o hkeeps
  obtain ⟨acts, hacts⟩ := h o hkeeps
  obtain ⟨more, hmore⟩ := h' _ hacts
  exact ⟨acts ++ more, by rwa [run_append]⟩

/-- Something is done at the desk, and no pump is told anything. -/
theorem Keeps.deed {d d' : Desk} {o : Office} (h : Keeps d o) {deed : Deed}
    (hdesk : d.unread.perform deed = d'.unread)
    (hrecorded : d'.registry.recorded = d.registry.recorded)
    (hcount : d'.pool.processes.length = d.pool.processes.length)
    (hpumps : d'.pool.pump? = d.pool.pump?) : Keeps d' (o.perform (.deed deed)) := by
  have hlength : ∀ e : Desk, e.unread.pool.processes.length = e.pool.processes.length :=
    fun e => List.length_map _
  have hspawned : o.desk.spawnedBy deed = [] := by
    apply Desk.spawnedBy_eq_nil
    rw [h.desk, hdesk, hlength, hlength, hcount]
  rw [perform, if_pos hspawned, h.desk, hdesk]
  refine ⟨rfl, h.count.trans hcount.symm, fun s hs => ?_, fun hx hrunning => ?_⟩
  · rw [hcount]
    exact h.placed s (hrecorded ▸ hs)
  · exact h.ready (hpumps ▸ hx) hrunning

theorem follows_edit (d : Desk) (e : Edit) : Follows d (d.perform (.edit e)) :=
  fun _ h => ⟨[.deed (.edit e)], h.deed (d.edit_unread e) rfl rfl rfl⟩

theorem follows_switch (d : Desk) (toEnd : Bool) : Follows d (d.perform (.switch toEnd)) := by
  have hpool : (d.perform (.switch toEnd)).pool = d.pool := d.pool_switch toEnd
  intro o h
  exact ⟨[.deed (.switch toEnd)], h.deed (d.switch_unread toEnd)
    (Desk.continues_switch d toEnd).recorded (by rw [hpool]) (by rw [hpool])⟩

theorem follows_events (d : Desk) (n : Nat) (events : List Interpreter.Event) :
    Follows d (d.perform (.events n events)) := by
  intro o h
  cases hp : d.pool.process? n with
  | none =>
    have hsame : d.perform (.events n events) = d := by
      rw [Desk.perform, Pool.play, Pool.update_of_none hp]
    rw [hsame]
    exact Follows.refl d o h
  | some p =>
    have hput : d.perform (.events n events) = d.put n (p.playAll events) := by
      rw [Desk.perform, Pool.play, Pool.update_of_some hp]
      rfl
    have hdesk : d.unread.perform (.events n events) = (d.put n (p.exitByAll events)).unread := by
      rw [Desk.perform, Pool.play, Pool.update_of_some (Desk.process?_unread hp),
        Process.playAll_unread, Desk.put_unread]
      rfl
    have hfirst :=
      h.deed hdesk rfl (List.length_modify ..) (Desk.pump?_put hp (p.pump_exitByAll events))
    obtain ⟨acts, hacts⟩ := hfirst.catches (Desk.process?_put hp _) (p.catches_playAll events)
    refine ⟨.deed (.events n events) :: acts, ?_⟩
    rwa [Desk.put_put, ← hput] at hacts

theorem follows_write (d : Desk) (handle : Handle) (data : Bytes) :
    Follows d (d.perform (.write handle data)) := by
  intro o h
  cases hs : d.registry.session? handle.buffer with
  | none =>
    have hsame : d.perform (.write handle data) = d := by
      simp only [Desk.perform, Desk.writeInput, hs]
    rw [hsame]
    exact Follows.refl d o h
  | some s =>
    cases hp : d.pool.process? s.process with
    | none =>
      have hsame : d.perform (.write handle data) = d := by
        simp only [Desk.perform, Desk.writeInput, hs, Pool.write, hp]
      rw [hsame]
      exact Follows.refl d o h
    | some p =>
      obtain ⟨q, hpump, hcatches, hwrite⟩ := p.write_unread
      let noted := d.noting (if p.write.2 = none then [(s.process, data)] else [])
      have hput : d.perform (.write handle data) = noted.put s.process p.write.1 :=
        Desk.writeInput_put hs hp data
      have hdesk : d.unread.perform (.write handle data) = (noted.put s.process q).unread := by
        rw [Desk.perform, Desk.writeInput_put (d := d.unread) hs (Desk.process?_unread hp), hwrite,
          Desk.put_unread]
        rfl
      have hfirst :=
        h.deed hdesk rfl (List.length_modify ..) (Desk.pump?_put (d := noted) hp hpump)
      obtain ⟨acts, hacts⟩ := hfirst.catches (Desk.process?_put hp _) hcatches
      refine ⟨.deed (.write handle data) :: acts, ?_⟩
      rwa [Desk.put_put, ← hput] at hacts

theorem Keeps.ready_signalled {d : Desk} {o : Office} {n : Nat} {x : Pump} (h : Keeps d o)
    (hx : (d.signalling d.registry.recorded).pool.pump? n = some x) (hrunning : x.running = true) :
    o.signalled[n]? = some ⟨.reading, x.status = .stopping⟩ := by
  have hrecorded : o.desk.registry.recorded = d.registry.recorded := by rw [h.desk]; rfl
  rw [Desk.pump?_signalling] at hx
  rw [getElem?_signalled, hrecorded]
  by_cases hreplaced : d.registry.recorded.map Session.process = some n
  · rw [if_pos hreplaced] at hx ⊢
    obtain ⟨y, hy, rfl⟩ := Option.map_eq_some_iff.mp hx
    rw [Pump.running_signal] at hrunning
    rw [h.ready hy hrunning, Pump.status_signal hrunning]
    rfl
  · rw [if_neg hreplaced] at hx ⊢
    exact h.ready hx hrunning

theorem Keeps.threads_spawned {d : Desk} {o : Office} {deed : Deed} (h : Keeps d o)
    (hspawn : o.desk.spawnedBy deed ≠ []) :
    (o.run [.deed deed, .look d.pool.processes.length]).threads =
      o.signalled ++ [⟨.reading, false⟩] := by
  have hlast : d.pool.processes.length = o.signalled.length := by rw [length_signalled, h.count]
  rw [run_cons, run_cons, run_nil, perform, perform, if_neg hspawn, hlast]
  exact Thread.modify_look _

/-- The office once a session was spawned in it: the new thread looked for the signal, and the one
of the session before has got it. -/
theorem Keeps.spawned {d e : Desk} {o : Office} {deed : Deed} {request : Request} {mode : Display}
    {b : Behaviour} {buffer : Text} (h : Keeps d o) (hspawn : o.desk.spawnedBy deed ≠ [])
    (hdesk : o.desk.perform deed = e.unread) (hpool : e.pool = d.launched request mode b)
    (hrecorded : e.registry.recorded = some (d.nextSession buffer)) :
    Keeps (e.signalling d.registry.recorded)
      (o.run [.deed deed, .look d.pool.processes.length]) := by
  have hlast : d.pool.processes.length = o.signalled.length := by rw [length_signalled, h.count]
  have hunread : o.desk.perform deed = (e.signalling d.registry.recorded).unread :=
    hdesk.trans (e.signalling_unread _).symm
  have hcount : (e.signalling d.registry.recorded).pool.processes.length =
      d.pool.processes.length + 1 := by
    rw [Desk.count_signalling, hpool]
    simp [Desk.launched, Desk.grown]
  refine ⟨hunread, ?_, fun s hs => ?_, fun {n x} hx hrunning => ?_⟩
  · rw [h.threads_spawned hspawn, hcount, List.length_append, ← hlast]
    rfl
  · rw [Desk.registry_signalling, hrecorded] at hs
    obtain rfl := Option.some.inj hs
    rw [hcount]
    exact Nat.lt_succ_self _
  · rw [Desk.pump?_signalling, hpool, Desk.pump?_launched] at hx
    rw [h.threads_spawned hspawn]
    by_cases hn : n = d.pool.processes.length
    · have hnew : d.registry.recorded.map Session.process ≠ some n := by
        intro hold
        obtain ⟨s, hs, hprocess⟩ := Option.map_eq_some_iff.mp hold
        have hplaced := h.placed s hs
        omega
      rw [if_neg hnew, if_pos hn] at hx
      obtain rfl := Option.some.inj hx
      rw [hn, hlast, List.getElem?_concat_length]
      cases b.opening <;> rfl
    · rw [if_neg hn, ← Desk.pump?_signalling] at hx
      have hthread := h.ready_signalled hx hrunning
      rw [List.getElem?_append_left (List.getElem?_eq_some_iff.mp hthread).1, hthread]

section
variable {d : Desk} (override : Option Config) (keepFocus : Bool)

theorem follows_reused {s : Session} (hlive : d.liveSession? = some s) :
    Follows d (d.ensureWith override keepFocus).2 := by
  intro o h
  have hpool := (d.configured override).pool_focusUnless keepFocus s.handle.buffer
  have hdesk : d.unread.perform (.ensureWith override keepFocus) =
      ((d.configured override).focusUnless keepFocus s.handle.buffer).unread := by
    rw [Desk.perform, Desk.ensureWith_of_live (d.liveSession?_unread.trans hlive),
      ← Desk.focusUnless_unread]
    rfl
  rw [Desk.ensureWith_of_live hlive]
  exact ⟨[.deed (.ensureWith override keepFocus)],
    h.deed hdesk (Desk.continues_focusUnless _ keepFocus _).recorded (by rw [hpool]; rfl)
      (by rw [hpool]; rfl)⟩

theorem follows_refused {failure : LaunchFailure} (hlive : d.liveSession? = none)
    (hanswer : (d.configured override).answer = .error failure) :
    Follows d (d.ensureWith override keepFocus).2 := by
  intro o h
  have hunread : (d.unread.configured override).answer = .error failure :=
    congrArg (Except.map Behaviour.unread) hanswer
  have hdesk : d.unread.perform (.ensureWith override keepFocus) =
      (d.configured override).rebuffed.unread := by
    rw [Desk.perform,
      Desk.ensureWith_of_refused override (d.liveSession?_unread.trans hlive) hunread]
    rfl
  rw [Desk.ensureWith_of_refused override hlive hanswer]
  exact ⟨[.deed (.ensureWith override keepFocus)], h.deed hdesk rfl rfl rfl⟩

theorem follows_launched {b : Behaviour} (hlive : d.liveSession? = none)
    (hanswer : (d.configured override).answer = .ok b) :
    Follows d (d.ensureWith override keepFocus).2 := by
  intro o h
  let c := d.configured override
  let e := (c.shown (Desk.request c.config) (.ofColor c.config.ansiColor) b).focusUnless keepFocus
    c.config.bufferName
  have hunread : (d.unread.configured override).answer = .ok b.unread :=
    congrArg (Except.map Behaviour.unread) hanswer
  have hlaunched := Desk.ensureWith_of_launched override (d.liveSession?_unread.trans hlive) hunread
    keepFocus
  have hdesk : o.desk.perform (.ensureWith override keepFocus) = e.unread := by
    rw [h.desk, Desk.perform, hlaunched, ← Desk.focusUnless_unread, ← Desk.started_unread]
    rfl
  have hspawns : Desk.Spawns o.desk (o.desk.perform (.ensureWith override keepFocus))
      (o.desk.nextSession c.config.bufferName) := by
    rw [h.desk, Desk.perform, hlaunched]
    exact Desk.spawns_of_trails (Desk.Trails.here.focusUnless keepFocus _)
  have hspawned : o.desk.spawnedBy (.ensureWith override keepFocus) ≠ [] := by
    rw [Desk.spawnedBy_of_spawns hspawns]
    exact List.cons_ne_nil _ _
  have hrecorded : e.registry.recorded = some (d.nextSession c.config.bufferName) :=
    (Desk.continues_focusUnless _ keepFocus _).recorded
  -- The session before reads what is underway, and then the new one what it prints at first.
  obtain ⟨late, hlate⟩ :=
    (h.spawned hspawned hdesk (Desk.pool_focusUnless ..) hrecorded).letGo
  obtain ⟨opening, hopening⟩ :=
    follows_events _ d.pool.processes.length (b.opening.getD []) _ hlate
  refine ⟨[.deed (.ensureWith override keepFocus), .look d.pool.processes.length] ++ late ++ opening,
    ?_⟩
  rw [run_append, run_append, Desk.ensureWith_of_launched override hlive hanswer, Desk.launching,
    Desk.started_eq]
  exact hopening

theorem follows_ensureWith (d : Desk) : Follows d (d.ensureWith override keepFocus).2 := by
  cases hlive : d.liveSession? with
  | some s => exact follows_reused override keepFocus hlive
  | none =>
    cases hanswer : (d.configured override).answer with
    | error failure => exact follows_refused override keepFocus hlive hanswer
    | ok b => exact follows_launched override keepFocus hlive hanswer

end

theorem follows_perform (d : Desk) {deed : Deed} (hsend : deed.isSend = false) :
    Follows d (d.perform deed) := by
  cases deed with
  | ensure line keepFocus =>
    rw [Desk.perform, Desk.ensure_eq]
    exact follows_ensureWith _ keepFocus d
  | ensureWith override keepFocus => exact follows_ensureWith override keepFocus d
  | switch toEnd => exact follows_switch d toEnd
  | write handle data => exact follows_write d handle data
  | send => cases hsend
  | edit e => exact follows_edit d e
  | events n events => exact follows_events d n events

theorem follows_run (d : Desk) {deeds : List Deed}
    (hsend : ∀ deed ∈ deeds, deed.isSend = false) :
    Follows d (d.run deeds) := by
  induction deeds generalizing d with
  | nil => exact .refl d
  | cons deed deeds ih =>
    rw [List.forall_mem_cons] at hsend
    exact (follows_perform d hsend.1).trans (ih _ hsend.2)

theorem follows_deed (d : Desk) (deed : Deed) : Follows d (d.perform deed) := by
  cases deed with
  | send e focus =>
    obtain ⟨deeds, hrun, hsend⟩ := d.send_eq_run e focus
    rw [Desk.perform, hrun]
    exact follows_run d hsend
  | _ => exact follows_perform d rfl

/-- Whatever is done at a desk, the threads of an office can take turns in such a way that it comes
to the same. -/
theorem exists_schedule (launcher : Interpreter.Launcher) (config : Config) (editor : Editor)
    (directory : Bytes) (deeds : List Deed) :
    ∃ acts, ((fresh launcher config editor directory).run acts).desk =
      ((Desk.fresh launcher config editor directory).run deeds).unread := by
  have hrun : ∀ d : Desk, Follows d (d.run deeds) := by
    induction deeds with
    | nil => exact Follows.refl
    | cons deed deeds ih => exact fun d => (follows_deed d deed).trans (ih _)
  have hstart : Keeps (Desk.fresh launcher config editor directory)
      (fresh launcher config editor directory) := ⟨rfl, rfl, nofun, fun hx => by cases hx⟩
  obtain ⟨acts, hacts⟩ := hrun _ _ hstart
  exact ⟨acts, hacts.desk⟩

end Office
end Parley
