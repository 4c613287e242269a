import Parley.Proofs.Session.Run

/-! Which steps of a run launch a process. A step continues with what was there, or a launch fails,
or it spawns a session (`Continues`, `Fails`, `Spawns`); the last two only where no live session is
recorded (`advances_perform`). The invariant is that a session's number is one more than the number
of its process and that no process is alive but that of the recorded session: a process is let go
only once it has exited, so when none is found alive, none is. -/
namespace Parley.Desk

open Interpreter (Behaviour LaunchFailure Pool Process Request)
open Terminal (Display)

/-- The recorded session is as before; no process was launched or came back to life. -/
structure Continues (a b : Desk) : Prop where
  recorded : b.registry.recorded = a.registry.recorded
  nextId : b.registry.nextId = a.registry.nextId
  pool : a.pool.Ages b.pool

structure Fails (a b : Desk) : Prop where
  recorded : b.registry.recorded = a.registry.recorded
  nextId : b.registry.nextId = a.registry.nextId
  requests : b.pool.requests.length = a.pool.requests.length + 1
  count : b.pool.processes.length = a.pool.processes.length
  alive : ∀ n, b.pool.isAlive n = true → a.pool.isAlive n = true

/-- A launch that succeeded, and recorded its session. -/
structure Spawns (a b : Desk) (s : Session) : Prop where
  recorded : b.registry.recorded = some s
  id : s.handle.id = a.registry.nextId
  process : s.process = a.pool.processes.length
  nextId : b.registry.nextId = a.registry.nextId + 1
  requests : b.pool.requests.length = a.pool.requests.length + 1
  count : b.pool.processes.length = a.pool.processes.length + 1
  alive : ∀ n, b.pool.isAlive n = true → n = a.pool.processes.length ∨ a.pool.isAlive n = true

theorem Continues.refl (d : Desk) : Continues d d := ⟨rfl, rfl, .refl _⟩

theorem Continues.trans {a b c : Desk} (h : Continues a b) (h' : Continues b c) : Continues a c :=
  ⟨h'.recorded.trans h.recorded, h'.nextId.trans h.nextId, h.pool.trans h'.pool⟩

theorem Continues.of_pool_eq {a b : Desk} (hr : b.registry.recorded = a.registry.recorded)
    (hi : b.registry.nextId = a.registry.nextId) (hp : b.pool = a.pool) : Continues a b :=
  ⟨hr, hi, hp ▸ .refl _⟩

theorem continues_focus (d : Desk) (name : Text) : Continues d (d.focus name) :=
  .of_pool_eq rfl rfl rfl

theorem continues_switch (d : Desk) (toEnd : Bool) : Continues d (d.switch toEnd).2 := by
  unfold switch
  split
  · exact .refl d
  · split
    · exact .refl d
    · cases toEnd
      · exact .of_pool_eq rfl rfl rfl
      · exact .of_pool_eq rfl rfl rfl

theorem continues_writeInput (d : Desk) (handle : Handle) (data : Bytes) :
    Continues d (d.writeInput handle data).2 := by
  unfold writeInput
  split
  · exact .refl d
  · rename_i s hs
    have hwrite := Pool.ages_write d.pool s.process data
    split
    · rename_i reason pool hpool
      rw [hpool] at hwrite
      exact ⟨rfl, rfl, hwrite⟩
    · rename_i pool hpool
      rw [hpool] at hwrite
      exact ⟨rfl, rfl, hwrite⟩

def grown (pool : Pool) (request : Request) (p : Process) : Pool :=
  { pool with requests := pool.requests ++ [request], processes := pool.processes ++ [p] }

/-- Only the last process of a pool that launched one may be alive besides those before. -/
theorem alive_of_grown {pool : Pool} {request : Request} {p : Process} {n : Nat}
    (h : (grown pool request p).isAlive n = true) :
    n = pool.processes.length ∨ pool.isAlive n = true := by
  by_cases hn : n < pool.processes.length
  · right
    simpa [grown, Pool.isAlive, Pool.process?, List.getElem?_append_left hn] using h
  · left
    by_cases hlast : n = pool.processes.length
    · exact hlast
    · have hnone : (pool.processes ++ [p])[n]? = none := by
        apply List.getElem?_eq_none
        rw [List.length_append, List.length_singleton]
        omega
      simp [grown, Pool.isAlive, Pool.process?, hnone] at h

theorem spawns_of_ages {a b : Desk} {s : Session} {p : Process}
    {request : Request} (recorded : b.registry.recorded = some s)
    (id : s.handle.id = a.registry.nextId) (process : s.process = a.pool.processes.length)
    (nextId : b.registry.nextId = a.registry.nextId + 1)
    (h : (grown a.pool request p).Ages b.pool) : Spawns a b s where
  recorded := recorded
  id := id
  process := process
  nextId := nextId
  requests := by simp [h.requests, grown]
  count := by simp [h.count, grown]
  alive n hn := alive_of_grown (h.alive n hn)

/-! What a launch attempt leaves behind. -/

/-- An attempt that was refused: it is noted, and that is all. -/
def refused (d : Desk) (request : Request) : Desk :=
  { d with pool := { d.pool with requests := d.pool.requests ++ [request] } }

def nextSession (d : Desk) (buffer : Text) : Session :=
  ⟨⟨d.registry.nextId, buffer⟩, d.pool.processes.length⟩

def launched (d : Desk) (request : Request) (mode : Display) (b : Behaviour) : Pool :=
  grown d.pool request (.ofBehaviour request.invocation.program mode b)

/-- An attempt that succeeded: the session is shown and recorded, the one before is let go, and the
process begins to print. -/
def started (d : Desk) (request : Request) (mode : Display) (b : Behaviour) : Desk :=
  let s := d.nextSession request.buffer
  let pool := match d.registry.recorded with
    | some old => (d.launched request mode b).release old.process
    | none => d.launched request mode b
  { d with
    editor := d.editor.attach (d.launched request mode b).transcript request.buffer s.handle.id mode
      (.process s.process)
    registry := { d.registry with recorded := some s, nextId := d.registry.nextId + 1 }
    pool := pool.play s.process (b.opening.getD []) }

section
variable (d : Desk) (request : Request) (mode : Display)

theorem start_of_error {failure : LaunchFailure}
    (h : d.pool.launcher d.pool.requests.length request = .error failure) :
    d.start request mode = (.error failure.failure, d.refused request) := by
  simp only [start, Pool.launch, h]
  rfl

theorem start_of_ok {b : Behaviour}
    (h : d.pool.launcher d.pool.requests.length request = .ok b) :
    d.start request mode = (.ok (d.nextSession request.buffer).handle, d.started request mode b) := by
  simp only [start, Pool.launch, h]
  rfl

theorem fails_refused : Fails d (d.refused request) where
  recorded := rfl
  nextId := rfl
  requests := List.length_append
  count := rfl
  alive _ h := h

theorem spawns_started (b : Behaviour) :
    Spawns d (d.started request mode b) (d.nextSession request.buffer) := by
  refine @spawns_of_ages d _ _ (.ofBehaviour request.invocation.program mode b) request
    rfl rfl rfl rfl ?_
  refine .trans ?_ (Pool.ages_play _ _ _)
  cases d.registry.recorded with
  | none => exact .refl _
  | some old => exact Pool.ages_release _ old.process

theorem requests_started (b : Behaviour) :
    (d.started request mode b).pool.requests = d.pool.requests ++ [request] := by
  unfold started
  cases d.registry.recorded <;> rfl

theorem launcher_started (b : Behaviour) :
    (d.started request mode b).pool.launcher = d.pool.launcher := by
  unfold started
  cases d.registry.recorded <;> rfl

theorem start_cases :
    (∃ f, (d.start request mode).1 = .error f ∧ Fails d (d.start request mode).2) ∨
      ∃ s, (d.start request mode).1 = .ok s.handle ∧ Spawns d (d.start request mode).2 s := by
  cases h : d.pool.launcher d.pool.requests.length request with
  | error failure =>
    rw [start_of_error d request mode h]
    exact .inl ⟨failure.failure, rfl, d.fails_refused request⟩
  | ok b =>
    rw [start_of_ok d request mode h]
    exact .inr ⟨_, rfl, d.spawns_started request mode b⟩

end

theorem Fails.continues {a b c : Desk} (h : Fails a b) (h' : Continues b c) : Fails a c where
  recorded := h'.recorded.trans h.recorded
  nextId := h'.nextId.trans h.nextId
  requests := (congrArg List.length h'.pool.requests).trans h.requests
  count := h'.pool.count.trans h.count
  alive n hn := h.alive n (h'.pool.alive n hn)

theorem Spawns.continues {a b c : Desk} {s : Session} (h : Spawns a b s) (h' : Continues b c) :
    Spawns a c s where
  recorded := h'.recorded.trans h.recorded
  id := h.id
  process := h.process
  nextId := h'.nextId.trans h.nextId
  requests := (congrArg List.length h'.pool.requests).trans h.requests
  count := h'.pool.count.trans h.count
  alive n hn := h.alive n (h'.pool.alive n hn)

inductive Ensures (d : Desk) (o : Outcome Handle) : Prop where
  | reused (s : Session) (live : d.liveSession? = some s) (result : o.1 = .ok s.handle)
      (pool : o.2.pool = d.pool) (registry : Continues d o.2)
  | failed (f : Failure) (live : d.liveSession? = none) (result : o.1 = .error f) (h : Fails d o.2)
  | spawned (s : Session) (live : d.liveSession? = none) (result : o.1 = .ok s.handle)
      (h : Spawns d o.2 s)

theorem Continues.fails {a b c : Desk} (h : Continues a b) (h' : Fails b c) : Fails a c where
  recorded := h'.recorded.trans h.recorded
  nextId := h'.nextId.trans h.nextId
  requests := by rw [h'.requests, h.pool.requests]
  count := h'.count.trans h.pool.count
  alive n hn := h.pool.alive n (h'.alive n hn)

theorem Continues.spawns {a b c : Desk} {s : Session} (h : Continues a b) (h' : Spawns b c s) :
    Spawns a c s where
  recorded := h'.recorded
  id := h'.id.trans h.nextId
  process := h'.process.trans h.pool.count
  nextId := by rw [h'.nextId, h.nextId]
  requests := by rw [h'.requests, h.pool.requests]
  count := by rw [h'.count, h.pool.count]
  alive n hn := by
    rcases h'.alive n hn with hlast | halive
    · exact .inl (hlast.trans h.pool.count)
    · exact .inr (h.pool.alive n halive)

def configured (d : Desk) (override : Option Config) : Desk :=
  { d with registry := d.registry.configure override }

def focusUnless (d : Desk) (keepFocus : Bool) (name : Text) : Desk :=
  if keepFocus then d else d.focus name

theorem liveSession?_configured (d : Desk) (override : Option Config) :
    (d.configured override).liveSession? = d.liveSession? := rfl

theorem continues_configured (d : Desk) (override : Option Config) :
    Continues d (d.configured override) := .of_pool_eq rfl rfl rfl

theorem continues_focusUnless (d : Desk) (keepFocus : Bool) (name : Text) :
    Continues d (d.focusUnless keepFocus name) := by
  cases keepFocus with
  | false => exact continues_focus d name
  | true => exact .refl d

theorem pool_focusUnless (d : Desk) (keepFocus : Bool) (name : Text) :
    (d.focusUnless keepFocus name).pool = d.pool := by
  cases keepFocus <;> rfl

theorem ensureWith_of_live {d : Desk} {s : Session} (h : d.liveSession? = some s)
    (override : Option Config) (keepFocus : Bool) :
    d.ensureWith override keepFocus =
      (.ok s.handle, (d.configured override).focusUnless keepFocus s.handle.buffer) := by
  rw [← liveSession?_configured d override] at h
  rw [configured] at h
  simp only [ensureWith, h]
  rfl

theorem ensureWith_of_error {d e : Desk} {override : Option Config} {f : Failure}
    (h : d.liveSession? = none) (hs : (d.configured override).spawn = (.error f, e))
    (keepFocus : Bool) : d.ensureWith override keepFocus = (.error f, e) := by
  rw [← liveSession?_configured d override] at h
  rw [configured] at h hs
  simp only [ensureWith, h, hs]

theorem ensureWith_of_ok {d e : Desk} {override : Option Config} {handle : Handle}
    (h : d.liveSession? = none) (hs : (d.configured override).spawn = (.ok handle, e))
    (keepFocus : Bool) :
    d.ensureWith override keepFocus = (.ok handle, e.focusUnless keepFocus handle.buffer) := by
  rw [← liveSession?_configured d override] at h
  rw [configured] at h hs
  simp only [ensureWith, h, hs]
  rfl

theorem ensures_ensureWith (d : Desk) (override : Option Config) (keepFocus : Bool) :
    Ensures d (d.ensureWith override keepFocus) := by
  have hconfigured := continues_configured d override
  cases h : d.liveSession? with
  | some s =>
    rw [ensureWith_of_live h]
    exact .reused s h rfl (pool_focusUnless _ keepFocus _)
      (hconfigured.trans (continues_focusUnless _ keepFocus _))
  | none =>
    have hspawn := start_cases (d.configured override) (request (d.configured override).config)
      (.ofColor (d.configured override).config.ansiColor)
    rw [← spawn] at hspawn
    rcases hspawn with ⟨f, hf, hfails⟩ | ⟨s, hs, hspawns⟩
    · rw [ensureWith_of_error h (Prod.ext hf rfl)]
      exact .failed f h rfl (hconfigured.fails hfails)
    · rw [ensureWith_of_ok h (Prod.ext hs rfl)]
      exact .spawned s h rfl
        ((hconfigured.spawns hspawns).continues (continues_focusUnless _ keepFocus _))

theorem ensures_ensure (d : Desk) (line : Option Text) (keepFocus : Bool) :
    Ensures d (d.ensure line keepFocus) := ensures_ensureWith d _ keepFocus

def seeks (d : Desk) : Deed → Bool
  | .ensure _ _ => true
  | .ensureWith _ _ => true
  | .send e _ => (d.excerpt e).isOk
  | _ => false

def launches (d : Desk) (deed : Deed) : Bool := d.seeks deed && d.liveSession?.isNone

/-- What a step comes to: at most one launch attempt, and that where it has to. -/
inductive Advances (d : Desk) (launches : Bool) (e : Desk) : Prop where
  | continued (h : launches = false) (rest : Continues d e)
  | failed (h : launches = true) (rest : Fails d e)
  | spawned (s : Session) (h : launches = true) (rest : Spawns d e s)

theorem Advances.continues {a b c : Desk} {launches : Bool} (h : Advances a launches b)
    (h' : Continues b c) : Advances a launches c := by
  rcases h with ⟨hl, h⟩ | ⟨hl, h⟩ | ⟨s, hl, h⟩
  · exact .continued hl (h.trans h')
  · exact .failed hl (h.continues h')
  · exact .spawned s hl (h.continues h')

theorem Ensures.advances {d : Desk} {o : Outcome Handle} (h : Ensures d o) :
    Advances d d.liveSession?.isNone o.2 := by
  rcases h with ⟨s, live, -, -, h⟩ | ⟨f, live, -, h⟩ | ⟨s, live, -, h⟩
  · exact .continued (by rw [live]; rfl) h
  · exact .failed (by rw [live]; rfl) h
  · exact .spawned s (by rw [live]; rfl) h

theorem continues_sendText (d : Desk) (text : Text) :
    Continues (d.ensure none true).2 (d.sendText text).2 := by
  unfold sendText
  cases d.ensure none true with
  | mk result e =>
    cases result with
    | error f => exact .refl e
    | ok handle => exact continues_writeInput e handle _

theorem continues_send {d : Desk} {e : Excerpt} {text : Text} (h : d.excerpt e = .ok text)
    (focus : Bool) : Continues (d.sendText text).2 (d.send e focus).2 := by
  unfold send
  rw [h]
  dsimp only
  cases d.sendText text with
  | mk result e =>
    cases result with
    | error f => exact .refl e
    | ok u =>
      cases focus with
      | false => exact .refl e
      | true => exact continues_switch e true

theorem advances_send (d : Desk) (e : Excerpt) (focus : Bool) :
    Advances d (d.launches (.send e focus)) (d.send e focus).2 := by
  cases h : d.excerpt e with
  | error f =>
    have hsend : d.send e focus = (.error f, d) := by simp [send, h]
    have hnone : d.launches (.send e focus) = false := by
      simp [launches, seeks, h, Except.isOk, Except.toBool]
    rw [hsend]
    exact .continued hnone (.refl d)
  | ok text =>
    have hsome : d.launches (.send e focus) = d.liveSession?.isNone := by
      simp [launches, seeks, h, Except.isOk, Except.toBool]
    rw [hsome]
    exact ((ensures_ensure d none true).advances.continues (continues_sendText d text)).continues
      (continues_send h focus)

theorem advances_perform (d : Desk) (deed : Deed) :
    Advances d (d.launches deed) (d.perform deed) := by
  cases deed with
  | ensure line keepFocus => exact (ensures_ensure d line keepFocus).advances
  | ensureWith override keepFocus => exact (ensures_ensureWith d override keepFocus).advances
  | switch toEnd => exact .continued rfl (continues_switch d toEnd)
  | write handle data => exact .continued rfl (continues_writeInput d handle data)
  | send e focus => exact advances_send d e focus
  | edit e => exact .continued rfl (.of_pool_eq rfl rfl rfl)
  | events n events => exact .continued rfl ⟨rfl, rfl, Pool.ages_play d.pool n events⟩

/-! The invariant of all runs. -/

structure Sound (d : Desk) : Prop where
  nextId : d.registry.nextId = d.pool.processes.length + 1
  alive : ∀ n, d.pool.isAlive n = true → ∃ s, d.registry.recorded = some s ∧ s.process = n

theorem sound_fresh (launcher : Interpreter.Launcher) (config : Config) (editor : Editor)
    (directory : Bytes) : (fresh launcher config editor directory).Sound where
  nextId := rfl
  alive n h := by simp [fresh, Pool.isAlive, Pool.process?] at h

/-- With no live session recorded, nothing is alive. -/
theorem Sound.none_alive {d : Desk} (h : d.Sound) (hlive : d.liveSession? = none) (n : Nat) :
    d.pool.isAlive n = false := by
  cases hn : d.pool.isAlive n with
  | false => rfl
  | true =>
    obtain ⟨s, hs, rfl⟩ := h.alive n hn
    simp [liveSession?, hs, hn] at hlive

theorem Sound.continues {a b : Desk} (h : a.Sound) (h' : Continues a b) : b.Sound where
  nextId := by rw [h'.nextId, h.nextId, h'.pool.count]
  alive n hn := by
    rw [h'.recorded]
    exact h.alive n (h'.pool.alive n hn)

theorem Sound.fails {a b : Desk} (h : a.Sound) (h' : Fails a b) : b.Sound where
  nextId := by rw [h'.nextId, h.nextId, h'.count]
  alive n hn := by
    rw [h'.recorded]
    exact h.alive n (h'.alive n hn)

theorem Sound.spawns {a b : Desk} {s : Session} (h : a.Sound) (hlive : a.liveSession? = none)
    (h' : Spawns a b s) : b.Sound where
  nextId := by rw [h'.nextId, h.nextId, h'.count]
  alive n hn := by
    refine ⟨s, h'.recorded, ?_⟩
    -- The processes launched before had exited, else one of them would have been reused.
    rcases h'.alive n hn with hlast | halive
    · rw [h'.process, hlast]
    · rw [h.none_alive hlive n] at halive
      contradiction

theorem Sound.perform {d : Desk} (h : d.Sound) (deed : Deed) : (d.perform deed).Sound := by
  rcases advances_perform d deed with ⟨-, h'⟩ | ⟨-, h'⟩ | ⟨s, hl, h'⟩
  · exact h.continues h'
  · exact h.fails h'
  · refine h.spawns ?_ h'
    simp only [launches, Bool.and_eq_true, Option.isNone_iff_eq_none] at hl
    exact hl.2

theorem Sound.run {d : Desk} (h : d.Sound) (deeds : List Deed) : (d.run deeds).Sound := by
  induction deeds generalizing d with
  | nil => exact h
  | cons deed deeds ih => exact ih (h.perform deed)

/-! The sessions of a run, in the order in which they were spawned. -/

/-- The session that a step recorded, if it launched a process. -/
def spawnedBy (d : Desk) (deed : Deed) : List Session :=
  if (d.perform deed).pool.processes.length = d.pool.processes.length then []
  else (d.perform deed).registry.recorded.toList

def spawned (d : Desk) : List Deed → List Session
  | [] => []
  | deed :: deeds => d.spawnedBy deed ++ (d.perform deed).spawned deeds

@[simp] theorem spawned_nil (d : Desk) : d.spawned [] = [] := rfl
@[simp] theorem spawned_cons (d : Desk) (deed : Deed) (deeds : List Deed) :
    d.spawned (deed :: deeds) = d.spawnedBy deed ++ (d.perform deed).spawned deeds := rfl

def numbers (s : Session) : Nat × Nat := (s.handle.id, s.process)

def firstNumbers (count : Nat) : List (Nat × Nat) := (List.range count).map fun k => (k + 1, k)

theorem numbers_spawnedBy {d : Desk} (h : d.Sound) (deed : Deed) :
    firstNumbers d.pool.processes.length ++ (d.spawnedBy deed).map numbers =
      firstNumbers (d.perform deed).pool.processes.length := by
  rcases advances_perform d deed with ⟨-, h'⟩ | ⟨-, h'⟩ | ⟨s, -, h'⟩
  · rw [spawnedBy, if_pos h'.pool.count, h'.pool.count, List.map_nil, List.append_nil]
  · rw [spawnedBy, if_pos h'.count, h'.count, List.map_nil, List.append_nil]
  · have hcount : (d.perform deed).pool.processes.length ≠ d.pool.processes.length := by
      rw [h'.count]
      omega
    have hs : numbers s = (d.pool.processes.length + 1, d.pool.processes.length) := by
      rw [numbers, h'.id, h.nextId, h'.process]
    rw [spawnedBy, if_neg hcount, h'.recorded, h'.count, firstNumbers, firstNumbers,
      List.range_succ, List.map_append]
    simp [hs]

theorem numbers_spawned {d : Desk} (h : d.Sound) (deeds : List Deed) :
    firstNumbers d.pool.processes.length ++ (d.spawned deeds).map numbers =
      firstNumbers (d.run deeds).pool.processes.length := by
  induction deeds generalizing d with
  | nil => exact List.append_nil _
  | cons deed deeds ih =>
    rw [spawned_cons, List.map_append, ← List.append_assoc, numbers_spawnedBy h, run_cons,
      ih (h.perform deed)]

theorem Advances.length_requests {d e : Desk} {launches : Bool} (h : Advances d launches e) :
    e.pool.requests.length = d.pool.requests.length + if launches then 1 else 0 := by
  rcases h with ⟨rfl, h⟩ | ⟨rfl, h⟩ | ⟨s, rfl, h⟩
  · rw [h.pool.requests]
    rfl
  · exact h.requests
  · exact h.requests

/-- At every moment of a run a session is launched if and only if none is alive, the sessions are
numbered in the order in which they were spawned, and only the process of the last is alive. -/
theorem launches_of_run (launcher : Interpreter.Launcher) (config : Config) (editor : Editor)
    (directory : Bytes) (deeds : List Deed) :
    let start := fresh launcher config editor directory
    let d := start.run deeds
    (∀ override keepFocus, Ensures d (d.ensureWith override keepFocus)) ∧
      (∀ line keepFocus, Ensures d (d.ensure line keepFocus)) ∧
      (∀ deed, (d.perform deed).pool.requests.length =
        d.pool.requests.length + if d.launches deed then 1 else 0) ∧
      (start.spawned deeds).map numbers = firstNumbers d.pool.processes.length ∧
      ∀ n, d.pool.isAlive n = true → ∃ s, d.registry.recorded = some s ∧ s.process = n := by
  intro start d
  have hstart := sound_fresh launcher config editor directory
  refine ⟨ensures_ensureWith d, ensures_ensure d, ?_, ?_, ?_⟩
  · intro deed
    exact (advances_perform d deed).length_requests
  · exact numbers_spawned hstart deeds
  · exact (hstart.run deeds).alive

end Parley.Desk
