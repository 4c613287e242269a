import Parley.Proofs.Interpreter.Setting
import Parley.Proofs.Session.Attachments

/-! The configuration that is stored, and the sessions that were started with it. After every step
the stored configuration is the last that was given (`lastOverride_run`). A session takes its launch
request, the mode of its buffer and the set-up of its pump from the configuration that was stored
when it was spawned, and nothing that is done afterwards changes them (`Bound.run`). -/
namespace Parley.Desk

open Interpreter (Behaviour Pool Process Request)
open Terminal (Display)

/-- A step that gives no configuration, whatever the one before. -/
def Silent (deed : Deed) : Prop := ∀ c, deed.override? c = none

/-- The configuration given last, if any was given: each is seen from the one before it. -/
inductive LastOverride (initial : Config) : List Deed → Config → Prop where
  | never {deeds : List Deed} (silent : ∀ deed ∈ deeds, Silent deed) :
      LastOverride initial deeds initial
  | last {before after : List Deed} {deed : Deed} {b c : Config}
      (earlier : LastOverride initial before b) (given : deed.override? b = some c)
      (silent : ∀ x ∈ after, Silent x) : LastOverride initial (before ++ deed :: after) c

/-- Whether a step gives a configuration does not depend on the one before. -/
theorem silent_of_none {deed : Deed} {b : Config} (h : deed.override? b = none) : Silent deed := by
  intro c
  cases deed with
  | ensure line keepFocus =>
    cases line with
    | none => rfl
    | some line =>
      simp only [Deed.override?] at h ⊢
      cases hwords : line.words with
      | nil => rfl
      | cons program args =>
        rw [hwords] at h
        cases h
  | ensureWith override keepFocus => exact h
  | switch | write | send | edit | events => rfl

namespace LastOverride

variable {initial b : Config} {deeds : List Deed}

theorem snoc_silent (h : LastOverride initial deeds b) {deed : Deed} (silent : Silent deed) :
    LastOverride initial (deeds ++ [deed]) b := by
  have hsnoc : ∀ xs : List Deed, (∀ x ∈ xs, Silent x) → ∀ x ∈ xs ++ [deed], Silent x := by
    intro xs hxs x hx
    rcases List.mem_append.mp hx with hx | hx
    · exact hxs x hx
    · rw [List.mem_singleton.mp hx]
      exact silent
  cases h with
  | never hdeeds => exact .never (hsnoc _ hdeeds)
  | last earlier given hafter =>
    rw [List.append_assoc, List.cons_append]
    exact .last earlier given (hsnoc _ hafter)

theorem snoc_given (h : LastOverride initial deeds b) {deed : Deed} {c : Config}
    (given : deed.override? b = some c) : LastOverride initial (deeds ++ [deed]) c :=
  .last h given nofun

end LastOverride

theorem lastOverride_run (d : Desk) (deeds : List Deed) :
    LastOverride d.config deeds (d.run deeds).config := by
  induction deeds using List.reverseRecOn with
  | nil => exact .never nofun
  | append_singleton deeds deed ih =>
    rw [run_append, run_cons, run_nil, config_perform]
    cases h : deed.override? (d.run deeds).config with
    | none => exact ih.snoc_silent (silent_of_none h)
    | some c => exact ih.snoc_given h

/-- A blank line is as good as none. -/
theorem ensure_blank (d : Desk) {line : Text} (h : line.allBlank = true) (keepFocus : Bool) :
    d.ensure (some line) keepFocus = d.ensure none keepFocus := by
  have hwords := (Text.words_eq_nil line).mpr h
  rw [ensure_eq, ensure_eq]
  simp only [Deed.override?, hwords]

/-! What a session keeps of the configuration that it was spawned with. -/

/-- What a launch is asked for under a configuration. -/
def asked (c : Config) : Request where
  invocation := c.invocation
  environment := if c.ansiColor then [] else [("NODE_NO_READLINE".toList, ['1'])]
  buffer := c.bufferName

theorem request_eq_asked (c : Config) : request c = asked c := by
  simp only [request, asked]
  cases c.ansiColor <;> rfl

/-- A session goes by a configuration; `attempt` is the number of its launch attempt. -/
structure Bound (d : Desk) (c : Config) (s : Session) (attempt : Nat) : Prop where
  given : s.handle.id < d.registry.nextId
  launched : s.process < d.pool.processes.length
  request : d.pool.requests[attempt]? = some (asked c)
  setting : d.pool.setting? s.process = some ⟨c.invocation.program, .ofColor c.ansiColor⟩
  attached : ∀ x, d.editor.attachment? s.handle.buffer = some x → x.sessionId = s.handle.id →
    x.mode = .ofColor c.ansiColor
  recorded : ∀ t, d.registry.recorded = some t → t.handle.id = s.handle.id → t = s

theorem setting?_started (d : Desk) (request : Request) (mode : Display) (b : Behaviour) (k : Nat) :
    (d.started request mode b).pool.setting? k = (d.launched request mode b).setting? k := by
  unfold started
  cases d.registry.recorded <;> simp

theorem setting?_launched_of_lt {d : Desk} (request : Request) (mode : Display) (b : Behaviour)
    {k : Nat} (h : k < d.pool.processes.length) :
    (d.launched request mode b).setting? k = d.pool.setting? k := by
  simp [launched, grown, Pool.setting?, Pool.process?, List.getElem?_append_left h]

theorem setting?_launched_last (d : Desk) (request : Request) (mode : Display) (b : Behaviour) :
    (d.launched request mode b).setting? d.pool.processes.length =
      some ⟨request.invocation.program, mode⟩ := by
  simp [launched, grown, Pool.setting?, Pool.process?]

/-- Nothing that is done at a desk changes what a session goes by. -/
theorem law_bound {c : Config} {s : Session} {attempt : Nat} :
    Law fun a b => a.Bound c s attempt → b.Bound c s attempt where
  refl _ h := h
  trans h h' := h' ∘ h
  configured _ _ h := ⟨h.given, h.launched, h.request, h.setting, h.attached, h.recorded⟩
  start d request mode h := by
    have hattempt := (List.getElem?_eq_some_iff.mp h.request).1
    have hrequest : (d.pool.requests ++ [request])[attempt]? = some (asked c) :=
      (List.getElem?_append_left hattempt).trans h.request
    cases hl : d.pool.launcher d.pool.requests.length request with
    | error failure =>
      rw [start_of_error _ _ _ hl]
      exact ⟨h.given, h.launched, hrequest, h.setting, h.attached, h.recorded⟩
    | ok b =>
      rw [start_of_ok _ _ _ hl]
      refine ⟨Nat.lt_succ_of_lt h.given, ?_, ?_, ?_, fun x hx hid => ?_, fun t ht hid => ?_⟩
      · rw [(d.spawns_started request mode b).count]
        exact Nat.lt_succ_of_lt h.launched
      · rw [requests_started, hrequest]
      · rw [setting?_started, setting?_launched_of_lt request mode b h.launched, h.setting]
      · -- The session that took the name of the buffer has a number of its own.
        rw [started, Editor.attachment?_attach] at hx
        split at hx
        · obtain rfl := Option.some.inj hx
          exact absurd hid (Nat.ne_of_gt h.given)
        · exact h.attached x hx hid
      · obtain rfl := Option.some.inj ht
        exact absurd hid (Nat.ne_of_gt h.given)
  write d handle data h := by
    rcases d.desk_writeInput handle data with same | ⟨n, written⟩
    · rwa [same]
    · have hages := Pool.ages_write d.pool n data
      rw [written]
      exact ⟨h.given, hages.count ▸ h.launched, hages.requests ▸ h.request,
        (Pool.setting?_write _ _ _ _).trans h.setting, h.attached, h.recorded⟩
  focus d name h := ⟨h.given, h.launched, h.request, h.setting,
    fun x hx => h.attached x (Editor.attachment?_focus _ _ _ ▸ hx), h.recorded⟩
  pushMark d h := ⟨h.given, h.launched, h.request, h.setting,
    fun x hx => h.attached x (Editor.attachment?_pushMark _ _ ▸ hx), h.recorded⟩
  gotoEnd d h := ⟨h.given, h.launched, h.request, h.setting,
    fun x hx => h.attached x (Editor.attachment?_gotoEnd _ _ _ ▸ hx), h.recorded⟩
  events d n events h := ⟨h.given, (Pool.ages_play d.pool n events).count ▸ h.launched,
    h.request, (Pool.setting?_play _ _ _ _).trans h.setting, h.attached, h.recorded⟩

theorem Bound.edit {d : Desk} {c : Config} {s : Session} {attempt : Nat}
    (h : d.Bound c s attempt) (edit : Edit) : (d.perform (.edit edit)).Bound c s attempt := by
  refine ⟨h.given, h.launched, h.request, h.setting, fun x hx => ?_, h.recorded⟩
  by_cases hkill : edit = .kill s.handle.buffer
  · rw [hkill, attachment?_perform_kill] at hx
    cases hx
  · exact h.attached x ((Editor.attachment?_edit _ _ hkill).symm.trans hx)

theorem Bound.run {d : Desk} {c : Config} {s : Session} {attempt : Nat}
    (h : d.Bound c s attempt) (deeds : List Deed) : (d.run deeds).Bound c s attempt := by
  induction deeds generalizing d with
  | nil => exact h
  | cons deed deeds ih => exact ih (law_bound.perform d (fun e he => he ▸ fun h => h.edit e) h)

theorem bound_launching (d : Desk) (b : Behaviour) :
    (d.launching b).Bound d.config (d.nextSession d.config.bufferName) d.pool.requests.length where
  given := Nat.lt_succ_self _
  launched := by
    rw [launching, (d.spawns_started _ _ b).count]
    exact Nat.lt_succ_self _
  request := by
    rw [launching, requests_started, List.getElem?_concat_length, request_eq_asked]
  setting := by
    rw [launching, setting?_started]
    exact setting?_launched_last _ _ _ _
  attached x hx _ := by
    rw [attachment?_launching] at hx
    obtain rfl := Option.some.inj ((if_pos rfl).symm.trans hx)
    rfl
  recorded t ht _ := (Option.some.inj ht).symm

/-- A session goes by the configuration that is stored once it was spawned. -/
theorem Founds.bound {d : Desk} {deed : Deed} {s : Session} {b : Behaviour}
    (h : Founds d deed s b) :
    (d.perform deed).Bound (d.perform deed).config s d.pool.requests.length := by
  have hbound := law_bound.trails h.rest (bound_launching _ b)
  rw [h.session, config_perform]
  exact hbound

theorem Founds.requests {d : Desk} {deed : Deed} {s : Session} {b : Behaviour}
    (h : Founds d deed s b) :
    (d.perform deed).pool.requests = d.pool.requests ++ [asked (d.perform deed).config] := by
  rw [h.rest.continues.pool.requests, launching, requests_started, request_eq_asked, config_perform]
  rfl

/-- What a session shows and does is as a configuration says; `attempt` is the number of its launch
attempt. -/
structure Follows (d : Desk) (c : Config) (s : Session) (attempt : Nat) : Prop where
  request : d.pool.requests[attempt]? = some (asked c)
  process : ∃ p, d.pool.process? s.process = some p ∧
    p.pump.filter.display = .ofColor c.ansiColor ∧ p.Announces c.invocation.program
  buffer : ∀ b, d.editor.sessions.get? s.handle.buffer = some b → b.sessionId = s.handle.id →
    b.mode = .ofColor c.ansiColor
  recorded : ∀ t, d.registry.recorded = some t → t.handle.id = s.handle.id → t = s

theorem Bound.follows {d : Desk} {c : Config} {s : Session} {attempt : Nat}
    (h : d.Bound c s attempt) : d.Follows c s attempt where
  request := h.request
  process := by
    obtain ⟨p, hp, hsetting⟩ := Option.map_eq_some_iff.mp h.setting
    exact ⟨p, hp, congrArg Interpreter.Setting.display hsetting,
      Process.announces_of_program (congrArg Interpreter.Setting.program hsetting)⟩
  buffer b hb hid := h.attached b.attachment (by rw [Editor.attachment?, hb]; rfl) hid
  recorded := h.recorded

/-- At every moment of a run the stored configuration is the last that was given, where a blank line
gives none. A session is launched, shown and announced as the configuration says that is stored by
then, the override of its own step included. It stays as that says whatever is done afterwards, and
its buffer stays attached until it is killed or a later session takes the name. -/
theorem configuration_of_spawned (launcher : Interpreter.Launcher) (config : Config)
    (editor : Editor) (directory : Bytes) :
    let start := fresh launcher config editor directory
    (∀ deeds, LastOverride config deeds (start.run deeds).config) ∧
      (∀ deeds line keepFocus, Text.allBlank line = true →
        (start.run deeds).ensure (some line) keepFocus =
          (start.run deeds).ensure none keepFocus) ∧
      ∀ before deed s, s ∈ (start.run before).spawnedBy deed →
        let d := start.run before
        let e := d.perform deed
        let c := e.config
        s.handle = ⟨d.registry.nextId, c.bufferName⟩ ∧
          e.pool.requests = d.pool.requests ++ [asked c] ∧
          (∃ b, d.pool.launcher d.pool.requests.length (asked c) = .ok b) ∧
          ∀ after, (e.run after).Follows c s d.pool.requests.length ∧
            (Deed.edit (.kill c.bufferName) ∉ after →
              (∀ t ∈ e.spawned after, t.handle.buffer ≠ c.bufferName) →
              ∃ b, (e.run after).editor.sessions.get? c.bufferName = some b ∧
                b.sessionId = s.handle.id ∧ b.mode = .ofColor c.ansiColor ∧
                b.source = .process s.process) := by
  intro start
  refine ⟨lastOverride_run start, fun deeds line keepFocus h => ensure_blank _ h keepFocus, ?_⟩
  intro before deed s hs d e c
  obtain ⟨b, h⟩ := exists_founds hs
  have hhandle : s.handle = ⟨d.registry.nextId, c.bufferName⟩ := congrArg Session.handle h.session
  have hanswer : d.pool.launcher d.pool.requests.length (asked c) = .ok b := by
    have hconfig : c = _ := config_perform d deed
    rw [← request_eq_asked, hconfig]
    exact h.answer
  refine ⟨hhandle, h.requests, ⟨b, hanswer⟩, fun after => ⟨(h.bound.run after).follows, ?_⟩⟩
  intro hkeep hname
  rcases attachment?_run hname with ⟨hkill, -⟩ | ⟨-, hsame⟩
  · exact absurd hkill hkeep
  · have hattached := h.attachment?
    rw [hhandle] at hattached
    obtain ⟨b, hb, hb'⟩ := Option.map_eq_some_iff.mp (hsame.trans hattached)
    rw [hhandle]
    exact ⟨b, hb, congrArg Attachment.sessionId hb', congrArg Attachment.mode hb',
      congrArg Attachment.source hb'⟩

/-- A session without colours, then two configurations given while it is alive. -/
def plainFirst : Deed := .ensureWith (some { ansiColor := false, bufferName := "other".toList }) true

def colorsLater : List Deed := [.ensureWith (some {}) true, .ensure (some "node -i".toList) true]

theorem configuration_of_spawned_plain :
    let start := fresh (fun _ _ => .ok {}) {} {} []
    let d := (start.perform plainFirst).run colorsLater
    start.ensure (some " ".toList) true = start.ensure none true ∧
      d.config = { invocation := ⟨"node".toList, ["-i".toList]⟩ } ∧
      ∃ s b, s ∈ start.spawnedBy plainFirst ∧ s.handle = ⟨1, "other".toList⟩ ∧
        d.Follows { ansiColor := false, bufferName := "other".toList } s 0 ∧
        d.editor.sessions.get? "other".toList = some b ∧ b.sessionId = 1 ∧ b.mode = .plain := by
  intro start d
  obtain ⟨-, hblank, hspawned⟩ := configuration_of_spawned (fun _ _ => .ok {}) {} {} []
  obtain ⟨hhandle, -, -, hrest⟩ := hspawned [] plainFirst _ (List.mem_singleton_self _)
  obtain ⟨hfollows, hbuffer⟩ := hrest colorsLater
  obtain ⟨b, hb, hid, hmode, -⟩ := hbuffer (by simp [colorsLater]) nofun
  exact ⟨hblank [] _ true (by decide), rfl, _, b, List.mem_singleton_self _, hhandle, hfollows, hb,
    hid, hmode⟩

end Parley.Desk
