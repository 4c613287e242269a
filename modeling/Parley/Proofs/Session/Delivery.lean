import Parley.Proofs.Session.Excerpts
import Parley.Proofs.Session.Launches

/-! Where a text that is sent goes. Ensuring a session writes nothing, and the session that it
returns is the recorded one, so its buffer is found again whatever configuration was stored; what
is sent then reaches the process of that session in one write, or the process refuses it and no
write is recorded (`sendText_cases`). -/
namespace Parley.Desk

open Interpreter (Pool Process Request)

/-- The session that serves: the recorded one if it is alive, else a new one. -/
inductive Serves (d e : Desk) (s : Session) : Prop where
  | reused (live : d.liveSession? = some s) (h : Continues d e)
  | spawned (live : d.liveSession? = none) (h : Spawns d e s)

theorem recorded_of_live {d : Desk} {s : Session} (h : d.liveSession? = some s) :
    d.registry.recorded = some s ∧ d.pool.isAlive s.process = true :=
  Option.filter_eq_some_iff.mp h

theorem Serves.recorded {d e : Desk} {s : Session} (h : Serves d e s) :
    e.registry.recorded = some s := by
  cases h with
  | reused live h => rw [h.recorded, (recorded_of_live live).1]
  | spawned _ h => exact h.recorded

theorem Serves.continues {a b c : Desk} {s : Session} (h : Serves a b s) (h' : Continues b c) :
    Serves a c s := by
  cases h with
  | reused live h => exact .reused live (h.trans h')
  | spawned live h => exact .spawned live (h.continues h')

theorem exists_process {pool : Pool} {n : Nat} (h : n < pool.processes.length) :
    ∃ p, pool.process? n = some p := ⟨_, List.getElem?_eq_getElem h⟩

theorem lt_of_isAlive {pool : Pool} {n : Nat} (h : pool.isAlive n = true) :
    n < pool.processes.length := by
  rw [Pool.isAlive, Option.any_eq_true] at h
  obtain ⟨p, hp, -⟩ := h
  exact (List.getElem?_eq_some_iff.mp hp).1

/-- The process of the session that serves was launched. -/
theorem Serves.process {d e : Desk} {s : Session} (h : Serves d e s) :
    s.process < e.pool.processes.length := by
  cases h with
  | reused live h =>
    rw [h.pool.count]
    exact lt_of_isAlive (recorded_of_live live).2
  | spawned _ h =>
    rw [h.count, h.process]
    exact Nat.lt_succ_self _

/-! Ensuring a session writes nothing, and does not fail for want of one. -/

theorem writes_start (d : Desk) (request : Request) (mode : Terminal.Display) :
    (d.start request mode).2.pool.writes = d.pool.writes := by
  cases h : d.pool.launcher d.pool.requests.length request with
  | error failure =>
    rw [start_of_error _ _ _ h]
    rfl
  | ok b =>
    rw [start_of_ok _ _ _ h]
    unfold started
    cases d.registry.recorded <;> rfl

theorem start_ne_noSession (d : Desk) (request : Request) (mode : Terminal.Display) :
    (d.start request mode).1 ≠ .error .noSession := by
  cases h : d.pool.launcher d.pool.requests.length request with
  | error failure =>
    rw [start_of_error _ _ _ h]
    cases failure <;> exact nofun
  | ok b =>
    rw [start_of_ok _ _ _ h]
    exact nofun

variable (d : Desk) (override : Option Config) (keepFocus : Bool)

theorem result_ensureWith (h : d.liveSession? = none) :
    (d.ensureWith override keepFocus).1 = (d.configured override).spawn.1 := by
  cases hs : (d.configured override).spawn with
  | mk result e =>
    cases result with
    | error f => rw [ensureWith_of_error h hs]
    | ok handle => rw [ensureWith_of_ok h hs]

theorem pool_ensureWith (h : d.liveSession? = none) :
    (d.ensureWith override keepFocus).2.pool = (d.configured override).spawn.2.pool := by
  cases hs : (d.configured override).spawn with
  | mk result e =>
    cases result with
    | error f => rw [ensureWith_of_error h hs]
    | ok handle => rw [ensureWith_of_ok h hs, pool_focusUnless]

theorem writes_ensureWith :
    (d.ensureWith override keepFocus).2.pool.writes = d.pool.writes := by
  cases h : d.liveSession? with
  | some s =>
    rw [ensureWith_of_live h, pool_focusUnless]
    rfl
  | none =>
    rw [pool_ensureWith d override keepFocus h, spawn, writes_start]
    rfl

theorem ensureWith_ne_noSession : (d.ensureWith override keepFocus).1 ≠ .error .noSession := by
  cases h : d.liveSession? with
  | some s =>
    rw [ensureWith_of_live h]
    exact nofun
  | none =>
    rw [result_ensureWith d override keepFocus h, spawn]
    exact start_ne_noSession _ _ _

theorem serves_ensureWith {handle : Handle} (h : (d.ensureWith override keepFocus).1 = .ok handle) :
    ∃ s, s.handle = handle ∧ Serves d (d.ensureWith override keepFocus).2 s := by
  rcases ensures_ensureWith d override keepFocus with
    ⟨s, live, result, -, rest⟩ | ⟨f, -, result, -⟩ | ⟨s, live, result, rest⟩
  · exact ⟨s, Except.ok.inj (result.symm.trans h), .reused live rest⟩
  · rw [result] at h
    cases h
  · exact ⟨s, Except.ok.inj (result.symm.trans h), .spawned live rest⟩

/-! What a write comes to. -/

/-- One write to a process that was launched is recorded once, or refused and not recorded. -/
theorem write_cases {pool : Pool} {n : Nat} (h : n < pool.processes.length) (data : Bytes) :
    ((pool.write n data).1 = .ok () ∧ (pool.write n data).2.writes = pool.writes ++ [(n, data)]) ∨
      ∃ reason, (pool.write n data).1 = .error reason ∧
        (pool.write n data).2.writes = pool.writes := by
  obtain ⟨p, hp⟩ := exists_process h
  simp only [Pool.write, hp]
  cases p.write.2 with
  | none => exact .inl ⟨rfl, rfl⟩
  | some reason => exact .inr ⟨reason, rfl, rfl⟩

/-- The session that was ensured is found by its buffer, and written to. -/
theorem writeInput_cases {d : Desk} {s : Session} (hs : d.registry.recorded = some s)
    (hp : s.process < d.pool.processes.length) (data : Bytes) :
    ((d.writeInput s.handle data).1 = .ok () ∧
        (d.writeInput s.handle data).2.pool.writes = d.pool.writes ++ [(s.process, data)]) ∨
      ∃ reason, (d.writeInput s.handle data).1 = .error (.io reason) ∧
        (d.writeInput s.handle data).2.pool.writes = d.pool.writes := by
  have hfound : d.registry.session? s.handle.buffer = some s := by simp [Registry.session?, hs]
  simp only [writeInput, hfound]
  rcases write_cases hp data with ⟨hresult, hwrites⟩ | ⟨reason, hresult, hwrites⟩
  · rw [← Prod.eta (d.pool.write s.process data), hresult]
    exact .inl ⟨rfl, hwrites⟩
  · rw [← Prod.eta (d.pool.write s.process data), hresult]
    exact .inr ⟨reason, rfl, hwrites⟩

theorem sendText_cases (d : Desk) (text : Text) :
    ((d.sendText text).1 = .ok () ∧ ∃ s, Serves d (d.sendText text).2 s ∧
        (d.sendText text).2.pool.writes =
          d.pool.writes ++ [(s.process, Utf8.encode (inputLine text))]) ∨
      ∃ f, (d.sendText text).1 = .error f ∧ f ≠ .noSession ∧
        (d.sendText text).2.pool.writes = d.pool.writes := by
  have hwrites := writes_ensureWith d none true
  have hsession := ensureWith_ne_noSession d none true
  have hserves := @serves_ensureWith d none true
  have hrest := continues_sendText d text
  simp only [sendText, ensure, Option.bind_none] at hrest ⊢
  cases h : d.ensureWith none true with
  | mk result e =>
    rw [h] at hwrites hsession hserves hrest
    cases result with
    | error f => exact .inr ⟨f, rfl, fun hf => hsession (by rw [hf]), hwrites⟩
    | ok handle =>
      obtain ⟨s, rfl, hs⟩ := hserves rfl
      rcases writeInput_cases hs.recorded hs.process (Utf8.encode (inputLine text)) with
        ⟨hresult, hwritten⟩ | ⟨reason, hresult, hwritten⟩
      · exact .inl ⟨hresult, s, hs.continues hrest, by rw [hwritten, hwrites]⟩
      · exact .inr ⟨.io reason, hresult, nofun, by rw [hwritten, hwrites]⟩

theorem send_unfocused {d : Desk} {e : Excerpt} {text : Text} (h : d.excerpt e = .ok text) :
    d.send e false = d.sendText text := by
  simp only [send, h]
  rcases d.sendText text with ⟨result, after⟩
  cases result <;> rfl

/-- An excerpt that is sent successfully is written once, trimmed and ended by a newline, to the
process of the session that is recorded afterwards: the one recorded before, if it was alive, else
a new one. Sending a text never fails for want of a session, and writes nothing if it fails. -/
theorem writes_of_send (d : Desk) :
    (∀ e, (d.send e false).1 = .ok () →
      ∃ text kept s, d.Names e text ∧ IsTrimmed text kept ∧ Serves d (d.send e false).2 s ∧
        (d.send e false).2.handle? = some s.handle ∧
        (∃ p, (d.send e false).2.pool.process? s.process = some p) ∧
        (d.send e false).2.pool.writes =
          d.pool.writes ++ [(s.process, Utf8.encode (kept ++ ['\n']))]) ∧
      (∀ text, (d.sendText text).1 ≠ .error .noSession) ∧
      ∀ text f, (d.sendText text).1 = .error f →
        (d.sendText text).2.pool.writes = d.pool.writes := by
  refine ⟨?_, ?_, ?_⟩
  · intro e h
    cases hexcerpt : d.excerpt e with
    | error f => simp [send, hexcerpt] at h
    | ok text =>
      rw [send_unfocused hexcerpt] at h ⊢
      rcases sendText_cases d text with ⟨-, s, hserves, hwrites⟩ | ⟨f, hfailed, -⟩
      · have hhandle : (d.sendText text).2.handle? = some s.handle := by
          rw [handle?, Registry.handle?, hserves.recorded, Option.map_some]
        exact ⟨text, text.trimEnd, s, names_of_excerpt hexcerpt, isTrimmed_trimEnd text, hserves,
          hhandle, exists_process hserves.process, hwrites⟩
      · rw [hfailed] at h
        cases h
  · intro text h
    rcases sendText_cases d text with ⟨hok, -⟩ | ⟨f, hfailed, hne, -⟩
    · rw [hok] at h
      cases h
    · exact hne (Except.error.inj (hfailed.symm.trans h))
  · intro text f h
    rcases sendText_cases d text with ⟨hok, -⟩ | ⟨f, -, -, hwrites⟩
    · rw [hok] at h
      cases h
    · exact hwrites

/-- A desk whose session is alive while the configuration names another buffer. -/
def renamedDesk (reactions : List Interpreter.Reaction) : Desk :=
  (fresh (fun _ _ => .ok { reactions }) {} {} []).run
    [.ensure none true, .ensureWith (some { bufferName := "other".toList }) true]

theorem writes_of_send_renamed :
    (((renamedDesk []).send (.text "x + 1 ".toList) false).1 = .ok () ∧
      ∃ (text kept : Text) (s : Session),
        (renamedDesk []).Names (.text "x + 1 ".toList) text ∧ IsTrimmed text kept ∧
        ((renamedDesk []).send (.text "x + 1 ".toList) false).2.handle? = some s.handle ∧
        ((renamedDesk []).send (.text "x + 1 ".toList) false).2.pool.writes =
          [(s.process, Utf8.encode (kept ++ ['\n']))]) ∧
      ((renamedDesk [.refuse []]).sendText []).1 = .error (.io []) ∧
      ((renamedDesk [.refuse []]).sendText []).2.pool.writes = [] := by
  have hsent : ((renamedDesk []).send (.text "x + 1 ".toList) false).1 = .ok () := rfl
  have hrefused : ((renamedDesk [.refuse []]).sendText []).1 = .error (.io []) := rfl
  obtain ⟨text, kept, s, hnames, hkept, -, hhandle, -, hwrites⟩ :=
    (writes_of_send (renamedDesk [])).1 _ hsent
  exact ⟨⟨hsent, text, kept, s, hnames, hkept, hhandle, hwrites⟩, hrefused,
    (writes_of_send (renamedDesk [.refuse []])).2.2 _ _ hrefused⟩

end Parley.Desk
