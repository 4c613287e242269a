import Parley.Proofs.Session.Pairs

/-! Launch attempts that are refused. One leaves nothing behind but the configuration that its step
gave and the note that it was made (`perform_of_refused`). The note is never read: two desks that
differ in the attempts behind them, with launchers that answer alike from then on, go on alike
(`Agree.run`). -/
namespace Parley.Desk

open Interpreter (Behaviour LaunchFailure Launcher Pool Request)

def result (d : Desk) : Deed → Except Failure (Option Handle)
  | .ensure line keepFocus => (d.ensure line keepFocus).1.map some
  | .ensureWith override keepFocus => (d.ensureWith override keepFocus).1.map some
  | .switch toEnd => (d.switch toEnd).1.map fun _ => none
  | .write handle data => (d.writeInput handle data).1.map fun _ => none
  | .send e focus => (d.send e focus).1.map fun _ => none
  | .edit _ => .ok none
  | .events _ _ => .ok none

def results (d : Desk) : List Deed → List (Except Failure (Option Handle))
  | [] => []
  | deed :: deeds => d.result deed :: (d.perform deed).results deeds

@[simp] theorem results_nil (d : Desk) : d.results [] = [] := rfl
@[simp] theorem results_cons (d : Desk) (deed : Deed) (deeds : List Deed) :
    d.results (deed :: deeds) = d.result deed :: (d.perform deed).results deeds := rfl

theorem perform_of_refused {d : Desk} {deed : Deed} {failure : LaunchFailure}
    (hlaunches : d.launches deed = true)
    (h : (d.configured (deed.override? d.config)).answer = .error failure) :
    d.result deed = .error failure.failure ∧
      d.perform deed = (d.configured (deed.override? d.config)).rebuffed := by
  simp only [launches, Bool.and_eq_true, Option.isNone_iff_eq_none] at hlaunches
  obtain ⟨hseeks, hlive⟩ := hlaunches
  cases deed with
  | ensure line keepFocus =>
    have hd := ensureWith_of_refused _ hlive h keepFocus
    rw [← ensure_eq] at hd
    rw [result, perform, hd]
    exact ⟨rfl, rfl⟩
  | ensureWith override keepFocus =>
    have hd := ensureWith_of_refused override hlive h keepFocus
    rw [result, perform, hd]
    exact ⟨rfl, rfl⟩
  | send e focus =>
    cases hexcerpt : d.excerpt e with
    | error f =>
      rw [seeks, hexcerpt] at hseeks
      cases hseeks
    | ok text =>
      have hd := send_of_error hexcerpt (sendText_of_refused text hlive h) focus
      rw [result, perform, hd]
      exact ⟨rfl, rfl⟩
  | switch | write | edit | events => cases hseeks

/-! Desks that go on alike. -/

/-- The desk with another launcher and other launch attempts behind it. -/
def amid (d : Desk) (launcher : Launcher) (requests : List Request) : Desk :=
  { d with pool := { d.pool with launcher, requests } }

section
variable (d : Desk) (launcher : Launcher) (requests : List Request)

theorem writeInput_amid (handle : Handle) (data : Bytes) :
    (d.amid launcher requests).writeInput handle data =
      ((d.writeInput handle data).1, (d.writeInput handle data).2.amid launcher requests) := by
  simp only [writeInput, amid]
  cases d.registry.session? handle.buffer with
  | none => rfl
  | some s =>
    simp only [Pool.write, Pool.process?]
    cases d.pool.processes[s.process]? with
    | none => rfl
    | some p =>
      dsimp only
      cases p.write.2 <;> rfl

theorem switch_amid (toEnd : Bool) :
    (d.amid launcher requests).switch toEnd =
      ((d.switch toEnd).1, (d.switch toEnd).2.amid launcher requests) := by
  have hhandle : (d.amid launcher requests).handle? = d.handle? := rfl
  simp only [switch, hhandle]
  cases d.handle? with
  | none => rfl
  | some handle =>
    have hbuffer : (d.amid launcher requests).editor = d.editor := rfl
    simp only [hbuffer]
    split
    · rfl
    · cases toEnd <;> rfl

theorem launching_amid (b : Behaviour) :
    (d.amid launcher requests).launching b =
      (d.launching b).amid launcher (requests ++ [request d.config]) := by
  simp only [launching, started, amid]
  cases d.registry.recorded <;> rfl

end

/-- Two desks that made the same attempts since some moment, when `before` and `before'` had been
made, and whose launchers answer alike from that moment on. All else is the same. -/
inductive Agree (before before' : List Request) (a : Desk) : Desk → Prop where
  | intro (launcher : Launcher) (later : List Request) (made : a.pool.requests = before ++ later)
      (answers : ∀ n, launcher (before'.length + n) = a.pool.launcher (before.length + n)) :
      Agree before before' a (a.amid launcher (before' ++ later))

namespace Agree

variable {before before' : List Request} {a b : Desk} (h : Agree before before' a b)
include h

theorem liveSession? : b.liveSession? = a.liveSession? := by
  cases h
  rfl

theorem excerpt (e : Excerpt) : b.excerpt e = a.excerpt e := by
  cases h
  cases e <;> rfl

theorem answer : b.answer = a.answer := by
  obtain ⟨launcher, later, made, answers⟩ := h
  rw [Desk.answer, Desk.answer, made]
  simp only [amid, List.length_append]
  exact congrFun (answers later.length) _

theorem configured (override : Option Config) :
    Agree before before' (a.configured override) (b.configured override) := by
  obtain ⟨launcher, later, made, answers⟩ := h
  exact .intro launcher later made answers

theorem focus (name : Text) : Agree before before' (a.focus name) (b.focus name) := by
  obtain ⟨launcher, later, made, answers⟩ := h
  exact .intro launcher later made answers

theorem edit (edit : Edit) :
    Agree before before' (a.perform (.edit edit)) (b.perform (.edit edit)) := by
  obtain ⟨launcher, later, made, answers⟩ := h
  exact .intro launcher later made answers

theorem events (n : Nat) (events : List Interpreter.Event) :
    Agree before before' (a.perform (.events n events)) (b.perform (.events n events)) := by
  obtain ⟨launcher, later, made, answers⟩ := h
  exact .intro launcher later made answers

/-- An attempt that is refused is noted on both sides. -/
theorem rebuffed : Agree before before' a.rebuffed b.rebuffed := by
  obtain ⟨launcher, later, made, answers⟩ := h
  have hmade : a.rebuffed.pool.requests = before ++ (later ++ [request a.config]) := by
    rw [← List.append_assoc, ← made]
    rfl
  have hagree := @Agree.intro before before' _ launcher _ hmade answers
  rw [← List.append_assoc] at hagree
  exact hagree

theorem launching (behaviour : Behaviour) :
    Agree before before' (a.launching behaviour) (b.launching behaviour) := by
  obtain ⟨launcher, later, made, answers⟩ := h
  rw [launching_amid, List.append_assoc]
  refine .intro launcher _ ?_ ?_
  · rw [Desk.launching, requests_started, made, List.append_assoc]
  · rw [Desk.launching, launcher_started]
    exact answers

theorem writeInput (handle : Handle) (data : Bytes) :
    Matched (Agree before before') (a.writeInput handle data) (b.writeInput handle data) := by
  have hpool := (continues_writeInput a handle data).pool
  obtain ⟨launcher, later, made, answers⟩ := h
  rw [writeInput_amid]
  exact ⟨rfl, .intro launcher later (hpool.requests.trans made) (hpool.launcher ▸ answers)⟩

theorem switch (toEnd : Bool) :
    Matched (Agree before before') (a.switch toEnd) (b.switch toEnd) := by
  have hpool := (continues_switch a toEnd).pool
  obtain ⟨launcher, later, made, answers⟩ := h
  rw [switch_amid]
  exact ⟨rfl, .intro launcher later (hpool.requests.trans made) (hpool.launcher ▸ answers)⟩

theorem spawn : Matched (Agree before before') a.spawn b.spawn := by
  cases hanswer : a.answer with
  | error failure =>
    rw [spawn_of_refused hanswer, spawn_of_refused (h.answer.trans hanswer)]
    exact ⟨rfl, h.rebuffed⟩
  | ok behaviour =>
    rw [spawn_of_launched hanswer, spawn_of_launched (h.answer.trans hanswer)]
    have hlaunched := h.launching behaviour
    cases h
    exact ⟨rfl, hlaunched⟩

omit h in
theorem parallel (before before' : List Request) : Parallel (Agree before before') where
  live h := h.liveSession?
  configured h := h.configured
  spawn h := h.spawn
  focus h := h.focus
  write h := h.writeInput
  switch h := h.switch

theorem ensure (line : Option Text) (keepFocus : Bool) :
    Matched (Agree before before') (a.ensure line keepFocus) (b.ensure line keepFocus) := by
  have hconfig : b.config = a.config := by
    cases h
    rfl
  rw [Desk.ensure, Desk.ensure, hconfig]
  exact (parallel before before').ensureWith h _ keepFocus

theorem perform (deed : Deed) :
    b.result deed = a.result deed ∧ Agree before before' (a.perform deed) (b.perform deed) := by
  cases deed with
  | ensure line keepFocus =>
    obtain ⟨hresult, hdesk⟩ := h.ensure line keepFocus
    exact ⟨congrArg (Except.map some) hresult, hdesk⟩
  | ensureWith override keepFocus =>
    obtain ⟨hresult, hdesk⟩ := (parallel before before').ensureWith h override keepFocus
    exact ⟨congrArg (Except.map some) hresult, hdesk⟩
  | switch toEnd =>
    obtain ⟨hresult, hdesk⟩ := h.switch toEnd
    exact ⟨congrArg (Except.map fun _ => none) hresult, hdesk⟩
  | write handle data =>
    obtain ⟨hresult, hdesk⟩ := h.writeInput handle data
    exact ⟨congrArg (Except.map fun _ => none) hresult, hdesk⟩
  | send e focus =>
    obtain ⟨hresult, hdesk⟩ := (parallel before before').send h (h.excerpt e) focus
    exact ⟨congrArg (Except.map fun _ => none) hresult, hdesk⟩
  | edit edit => exact ⟨rfl, h.edit edit⟩
  | events n events => exact ⟨rfl, h.events n events⟩

theorem run (deeds : List Deed) :
    b.results deeds = a.results deeds ∧ Agree before before' (a.run deeds) (b.run deeds) := by
  induction deeds generalizing a b with
  | nil => exact ⟨rfl, h⟩
  | cons deed deeds ih =>
    obtain ⟨hresult, hdesk⟩ := h.perform deed
    obtain ⟨hresults, hrun⟩ := ih hdesk
    exact ⟨by rw [results_cons, results_cons, hresult, hresults], hrun⟩

theorem editor : b.editor = a.editor := by
  cases h
  rfl

theorem registry : b.registry = a.registry := by
  cases h
  rfl

theorem processes : b.pool.processes = a.pool.processes := by
  cases h
  rfl

theorem writes : b.pool.writes = a.pool.writes := by
  cases h
  rfl

theorem requests :
    ∃ later, a.pool.requests = before ++ later ∧ b.pool.requests = before' ++ later := by
  obtain ⟨launcher, later, made, answers⟩ := h
  exact ⟨later, made, rfl⟩

end Agree

/-- A refused attempt only shifts what the launcher is going to be asked. -/
theorem agree_rebuffed (d : Desk) {launcher : Launcher}
    (h : ∀ n, d.pool.requests.length ≤ n → launcher n = d.pool.launcher (n + 1)) :
    Agree d.rebuffed.pool.requests d.pool.requests d.rebuffed
      { d with pool := { d.pool with launcher } } := by
  have hanswers : ∀ n, launcher (d.pool.requests.length + n) =
      d.rebuffed.pool.launcher (d.rebuffed.pool.requests.length + n) := by
    intro n
    have hlength : d.rebuffed.pool.requests.length = d.pool.requests.length + 1 :=
      List.length_append
    rw [h _ (Nat.le_add_right _ n), hlength, Nat.add_right_comm]
    rfl
  have hagree := @Agree.intro d.rebuffed.pool.requests d.pool.requests d.rebuffed launcher []
    (List.append_nil _).symm hanswers
  rw [List.append_nil] at hagree
  exact hagree

/-- A step whose launch attempt is refused leaves everything as it was but the configuration. Any
run goes on from there as it does where only the configuration was changed, if the launcher gives
the same answers from then on: the steps return the same, and the editor, the registry, the
processes, the writes and the further requests are the same. -/
theorem continuation_of_refused (d : Desk) (deed : Deed) (failure : LaunchFailure)
    (hlaunches : d.launches deed = true)
    (h : (d.configured (deed.override? d.config)).answer = .error failure) :
    let c := (deed.override? d.config).getD d.config
    let e := d.perform deed
    d.result deed = .error failure.failure ∧
      e.registry = { d.registry with config := c } ∧
      e.editor = d.editor ∧ e.directory = d.directory ∧
      e.pool.processes = d.pool.processes ∧ e.pool.writes = d.pool.writes ∧
      ∀ launcher : Launcher, (∀ n, d.pool.requests.length ≤ n → launcher n = d.pool.launcher (n + 1)) →
        ∀ deeds,
          let e' : Desk :=
            { d with registry := { d.registry with config := c }, pool := { d.pool with launcher } }
          let a := e.run deeds
          let b := e'.run deeds
          e'.results deeds = e.results deeds ∧ b.editor = a.editor ∧ b.registry = a.registry ∧
            b.pool.processes = a.pool.processes ∧ b.pool.writes = a.pool.writes ∧
            ∃ later, a.pool.requests = e.pool.requests ++ later ∧
              b.pool.requests = d.pool.requests ++ later := by
  intro c e
  obtain ⟨hresult, he⟩ := perform_of_refused hlaunches h
  have he : e = (d.configured (deed.override? d.config)).rebuffed := he
  rw [he]
  refine ⟨hresult, rfl, rfl, rfl, rfl, rfl, fun launcher hanswers deeds => ?_⟩
  intro e' a b
  obtain ⟨hresults, hrun⟩ :=
    (agree_rebuffed (d.configured (deed.override? d.config)) hanswers).run deeds
  exact ⟨hresults, hrun.editor, hrun.registry, hrun.processes, hrun.writes, hrun.requests⟩

/-- A launcher that refuses its second attempt, and a desk whose first session has exited. -/
def secondRefused : Launcher := fun n _ => if n = 1 then .error (.spawn []) else .ok {}

def staleDesk : Desk :=
  (fresh secondRefused {} {} []).run [.ensure none true, .events 0 [.exit 0]]

theorem continuation_of_refused_stale :
    let deed : Deed := .ensureWith (some { bufferName := "other".toList }) false
    let e := staleDesk.perform deed
    let e' : Desk :=
      { staleDesk with
        registry := { staleDesk.registry with config := { bufferName := "other".toList } }
        pool := { staleDesk.pool with launcher := fun _ _ => .ok {} } }
    staleDesk.result deed = .error (.spawn []) ∧
      e.registry = { staleDesk.registry with config := { bufferName := "other".toList } } ∧
      e.registry.recorded = some ⟨⟨1, "*Typescript*".toList⟩, 0⟩ ∧
      e'.results [.ensure none false] = e.results [.ensure none false] ∧
      (e.run [.ensure none false]).handle? = some ⟨2, "other".toList⟩ := by
  intro deed e e'
  obtain ⟨hresult, hregistry, -, -, -, -, hrest⟩ :=
    continuation_of_refused staleDesk deed (.spawn []) rfl rfl
  have hlater : ∀ n, staleDesk.pool.requests.length ≤ n →
      (fun _ => .ok {}) = staleDesk.pool.launcher (n + 1) := by
    intro n hn
    have hne : n + 1 ≠ 1 := by
      have hpos : 1 ≤ n := hn
      omega
    funext request
    exact (if_neg hne).symm
  obtain ⟨hresults, -⟩ := hrest (fun _ _ => .ok {}) hlater [.ensure none false]
  exact ⟨hresult, hregistry, rfl, hresults, rfl⟩

end Parley.Desk
