import Parley.Proofs.Interpreter.Growth

/-! How a process was set up: for which program its pump speaks, and for which display it filters.
Nothing that happens to a process changes that, so whenever its output ends, the notice names the
program that it was launched for (`announces_of_program`). -/
namespace Parley

namespace Terminal.Filter

def display : Filter → Display
  | ansi _ => .ansi
  | plain => .plain

@[simp] theorem display_ofMode (mode : Display) : (ofMode mode).display = mode := by
  cases mode <;> rfl

@[simp] theorem display_apply (f : Filter) (chunk : Text) : (f.apply chunk).1.display = f.display := by
  cases f <;> rfl

end Terminal.Filter

namespace Interpreter

open Terminal (Display)

structure Setting where
  program : Text
  display : Display
  deriving DecidableEq, Repr

namespace Pump

def setting (p : Pump) : Setting := ⟨p.program, p.filter.display⟩

@[simp] theorem setting_present (p : Pump) (text : Text) : (p.present text).setting = p.setting := by
  simp [setting, present]

@[simp] theorem setting_receive (p : Pump) (bytes : Bytes) :
    (p.receive bytes).setting = p.setting := setting_present _ _

@[simp] theorem setting_flush (p : Pump) : p.flush.setting = p.setting := by
  unfold flush
  dsimp only
  split
  · rfl
  · exact setting_present _ _

@[simp] theorem setting_finish (p : Pump) : p.finish.setting = p.setting := p.setting_flush

@[simp] theorem setting_stop (p : Pump) : p.stop.setting = p.setting := rfl

@[simp] theorem setting_signal (p : Pump) : p.signal.setting = p.setting := by
  unfold signal
  split <;> rfl

@[simp] theorem setting_hear (p : Pump) (r : Reading) : (p.hear r).setting = p.setting := by
  rcases r.isEnd_or_data with h | ⟨bytes, h, rfl⟩
  · rw [hear_of_isEnd h, setting_finish]
  · rw [hear_data h, setting_receive]

@[simp] theorem setting_read (p : Pump) (r : Reading) : (p.read r).setting = p.setting := by
  unfold read
  split <;> simp

/-- A pump that comes to the end of the output says so last. -/
theorem notice_of_finish (p : Pump) : finishedNotice p.program <:+ p.finish.transcript.text := by
  have htext : p.finish.transcript.text = p.flush.transcript.text ++ finishedNotice p.program := by
    simp only [finish, Transcript.appendPlain, Transcript.text_append, Spans.text_cons,
      Spans.text_nil, List.append_nil]
  rw [htext]
  exact List.suffix_append _ _

theorem notice_of_read {p : Pump} (h : p.running = true) {r : Reading} (hr : r.isEnd = true) :
    finishedNotice p.program <:+ (p.read r).transcript.text := by
  have hnotice := p.notice_of_finish
  rw [← hear_of_isEnd hr] at hnotice
  rcases running_eq_true_iff.mp h with hstatus | hstatus
  · rwa [read_running r hstatus]
  · rwa [read_stopping r hstatus]

theorem status_foldl_read {p : Pump} (h : p.status = .running) {reads : List Bytes}
    (hreads : [] ∉ reads) : ((reads.map Reading.data).foldl read p).status = .running := by
  induction reads generalizing p with
  | nil => exact h
  | cons bytes rest ih =>
    obtain ⟨hbytes, hrest⟩ := List.ne_and_not_mem_of_not_mem_cons hreads
    rw [List.map_cons, List.foldl_cons, read_running _ h, hear_data hbytes.symm]
    exact ih (p := p.receive bytes) h hrest

end Pump

namespace Process

def setting (p : Process) : Setting := p.pump.setting

@[simp] theorem setting_read (p : Process) (readings : List Reading) :
    (p.read readings).setting = p.setting := by
  induction readings generalizing p with
  | nil => rfl
  | cons r readings ih => exact (ih (p.read [r])).trans (p.pump.setting_read r)

@[simp] theorem setting_play (p : Process) (e : Event) : (p.play e).setting = p.setting := by
  cases e with
  | data | endOfOutput | readError => exact p.setting_read _
  | exit => rfl

@[simp] theorem setting_playAll (p : Process) (events : List Event) :
    (p.playAll events).setting = p.setting := by
  induction events generalizing p with
  | nil => rfl
  | cons e events ih => exact (ih _).trans (p.setting_play e)

@[simp] theorem setting_write (p : Process) : p.write.1.setting = p.setting := by
  unfold write
  split
  · rfl
  · rfl
  · rename_i events rest _
    exact setting_playAll { p with reactions := rest } events

@[simp] theorem setting_release (p : Process) : p.release.setting = p.setting :=
  (p.signal.setting_read _).trans p.pump.setting_signal

@[simp] theorem setting_ofBehaviour (program : Text) (mode : Display) (b : Behaviour) :
    (ofBehaviour program mode b).setting = ⟨program, mode⟩ := by
  simp [setting, Pump.setting, ofBehaviour]

/-- Whatever ends the output of a process whose output has not ended, it is announced as that of a
program. Only a pump that was told to stop may be done after data, and announces nothing. -/
structure Announces (p : Process) (program : Text) : Prop where
  played : ∀ e, p.pump.running = true → (p.play e).pump.running = false →
    finishedNotice program <:+ (p.play e).transcript.text ∨
      p.pump.status = .stopping ∧ ∃ bytes, e = .data bytes
  released : ∀ r, p.late = some r → r.isEnd = true → p.pump.running = true →
    finishedNotice program <:+ p.release.transcript.text

theorem announces_of_program {p : Process} {program : Text} (h : p.setting.program = program) :
    p.Announces program := by
  subst h
  constructor
  · intro e hrunning hended
    cases e with
    | data bytes =>
      rcases Pump.running_eq_true_iff.mp hrunning with hstatus | hstatus
      · have hstill := Pump.status_foldl_read hstatus fun hnil =>
          @ne_nil_of_mem_readsOf bytes _ hnil rfl
        rw [play, read, Pump.running, hstill] at hended
        cases hended
      · exact .inr ⟨hstatus, bytes, rfl⟩
    | endOfOutput | readError => exact .inl (Pump.notice_of_read hrunning rfl)
    | exit =>
      rw [play, hrunning] at hended
      cases hended
  · intro r hr hend hrunning
    have hsignalled : p.pump.signal.running = true := by rw [Pump.running_signal, hrunning]
    have hnotice := Pump.notice_of_read hsignalled hend
    rw [release, hr]
    exact congrArg Setting.program p.pump.setting_signal ▸ hnotice

end Process

namespace Pool

def setting? (pool : Pool) (n : Nat) : Option Setting := (pool.process? n).map Process.setting

theorem setting?_update {pool : Pool} {n : Nat} {f : Process → Process}
    (h : ∀ p, pool.process? n = some p → (f p).setting = p.setting) (k : Nat) :
    (pool.update n f).setting? k = pool.setting? k := by
  simp only [setting?, process?, update, List.getElem?_modify]
  cases hk : pool.processes[k]? with
  | none => rfl
  | some p =>
    by_cases hn : n = k
    · subst hn
      simpa using h p hk
    · simp [hn]

@[simp] theorem setting?_play (pool : Pool) (n : Nat) (events : List Event) (k : Nat) :
    (pool.play n events).setting? k = pool.setting? k :=
  setting?_update (fun p _ => p.setting_playAll events) k

@[simp] theorem setting?_release (pool : Pool) (n k : Nat) :
    (pool.release n).setting? k = pool.setting? k :=
  setting?_update (fun p _ => p.setting_release) k

@[simp] theorem setting?_write (pool : Pool) (n : Nat) (data : Bytes) (k : Nat) :
    (pool.write n data).2.setting? k = pool.setting? k := by
  unfold write
  split
  · rfl
  · rename_i p hp
    have hwritten : (pool.update n fun _ => p.write.1).setting? k = pool.setting? k := by
      refine setting?_update (fun q hq => ?_) k
      obtain rfl : p = q := Option.some.inj (hp.symm.trans hq)
      exact p.setting_write
    dsimp only
    split
    · exact hwritten
    · exact hwritten

end Pool
end Interpreter
end Parley
