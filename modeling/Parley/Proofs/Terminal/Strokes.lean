import Parley.Proofs.Utf8.Heads
import Parley.Terminal.Renderer

/-! What a machine does to a canvas, apart from the canvas. A stroke is an action that a canvas
heeds; `run_eq` splits a run into the machine after some octets and the strokes they cause. Text is
read by whole characters: outside sequences a character changes nothing but the canvas
(`read_char`), and after one, wherever it was read, no character is unfinished (`calm_char`). -/
namespace Parley.Terminal

inductive Stroke where
  | put (c : Char)
  | back
  | restyle (params : List Parameter)
  deriving DecidableEq, Repr

def Action.stroke? : Action → Option Stroke
  | .print c => some (.put c)
  | .execute b =>
    if b = 0x0A then some (.put '\n')
    else if b = 0x09 then some (.put '\t')
    else if b = 0x08 then some .back
    else none
  | .dispatch s final => if Canvas.isRendition s final then some (.restyle s.params) else none

namespace Canvas

def draw (c : Canvas) : Stroke → Canvas
  | .put ch => { c with pending := ch :: c.pending }
  | .back => { c with pending := c.pending.tail }
  | .restyle params => { c.flush with style := applyRendition c.style params }

def drawAll (c : Canvas) (strokes : List Stroke) : Canvas := strokes.foldl draw c

theorem perform_eq (c : Canvas) (a : Action) :
    c.perform a = (a.stroke?.map c.draw).getD c := by
  cases a with
  | print ch => rfl
  | execute b =>
    simp only [perform, Action.stroke?]
    split_ifs <;> rfl
  | dispatch s final =>
    simp only [perform, Action.stroke?]
    split_ifs <;> rfl

theorem foldl_perform (c : Canvas) (actions : List Action) :
    actions.foldl perform c = c.drawAll (actions.filterMap Action.stroke?) := by
  induction actions generalizing c with
  | nil => rfl
  | cons a actions ih =>
    rw [List.foldl_cons, ih, perform_eq]
    cases h : a.stroke? <;> simp [h, drawAll]

@[simp] theorem drawAll_nil (c : Canvas) : c.drawAll [] = c := rfl
@[simp] theorem drawAll_cons (c : Canvas) (k : Stroke) (strokes : List Stroke) :
    c.drawAll (k :: strokes) = (c.draw k).drawAll strokes := rfl
theorem drawAll_append (c : Canvas) (a b : List Stroke) :
    c.drawAll (a ++ b) = (c.drawAll a).drawAll b := by simp [drawAll]

end Canvas

namespace Machine

def after (m : Machine) (bytes : Bytes) : Machine := bytes.foldl (fun m b => (m.step b).1) m

def strokesOf (m : Machine) : Bytes → List Stroke
  | [] => []
  | b :: rest => (m.step b).2.filterMap Action.stroke? ++ (m.step b).1.strokesOf rest

@[simp] theorem after_nil (m : Machine) : m.after [] = m := rfl
@[simp] theorem after_cons (m : Machine) (b : UInt8) (rest : Bytes) :
    m.after (b :: rest) = (m.step b).1.after rest := rfl
theorem after_append (m : Machine) (a b : Bytes) : m.after (a ++ b) = (m.after a).after b := by
  simp [after]
@[simp] theorem strokesOf_nil (m : Machine) : m.strokesOf [] = [] := rfl
@[simp] theorem strokesOf_cons (m : Machine) (b : UInt8) (rest : Bytes) :
    m.strokesOf (b :: rest) =
      (m.step b).2.filterMap Action.stroke? ++ (m.step b).1.strokesOf rest := rfl
theorem strokesOf_append (m : Machine) (a b : Bytes) :
    m.strokesOf (a ++ b) = m.strokesOf a ++ (m.after a).strokesOf b := by
  induction a generalizing m with
  | nil => rfl
  | cons x a ih => simp [ih]

theorem run_eq (m : Machine) (c : Canvas) (bytes : Bytes) :
    m.run Canvas.perform c bytes = (m.after bytes, c.drawAll (m.strokesOf bytes)) := by
  induction bytes generalizing m c with
  | nil => rfl
  | cons b rest ih => simp [ih, Canvas.foldl_perform, Canvas.drawAll_append]

/-! Text is read character by character. -/

def read (m : Machine) (text : Text) : Machine := m.after (Utf8.encode text)

def strokes (m : Machine) (text : Text) : List Stroke := m.strokesOf (Utf8.encode text)

@[simp] theorem read_nil (m : Machine) : m.read [] = m := rfl
@[simp] theorem strokes_nil (m : Machine) : m.strokes [] = [] := rfl
theorem read_append (m : Machine) (a b : Text) : m.read (a ++ b) = (m.read a).read b := by
  simp [read, after_append]
theorem strokes_append (m : Machine) (a b : Text) :
    m.strokes (a ++ b) = m.strokes a ++ (m.read a).strokes b := by
  simp [strokes, read, strokesOf_append]

/-! What a machine carries of an unfinished character is left alone within sequences. -/

def carry (m : Machine) : Bytes × Bool := (m.held, m.resumed)

/-- No character is unfinished. -/
def Calm (m : Machine) : Prop := m.carry = ([], false)

@[simp] theorem carry_mk (m : Machine) (mode : Mode) (s : Sequence) :
    carry { m with mode, sequence := s } = m.carry := rfl
@[simp] theorem carry_enter (m : Machine) (mode : Mode) : (m.enter mode).carry = m.carry := rfl
@[simp] theorem carry_enterEscape (m : Machine) : m.enterEscape.carry = m.carry := rfl
@[simp] theorem carry_parameter (m : Machine) (b : UInt8) : (m.parameter b).carry = m.carry := rfl
@[simp] theorem carry_dispatch (m : Machine) (b : UInt8) : (m.dispatch b).1.carry = m.carry := rfl
@[simp] theorem carry_anywhere (m : Machine) (b : UInt8) : (m.anywhere b).1.carry = m.carry := by
  unfold anywhere
  split_ifs <;> rfl
@[simp] theorem carry_untilEnd (t : UInt8) (m : Machine) (b : UInt8) :
    (untilEnd t m b).1.carry = m.carry := by
  unfold untilEnd
  split_ifs <;> simp
@[simp] theorem carry_select (m : Machine) (b : UInt8) : (m.select b).1.carry = m.carry := by
  unfold select
  split_ifs <;> rfl
@[simp] theorem carry_control (start : Bool) (m : Machine) (b : UInt8) :
    (control start m b).1.carry = m.carry := by
  unfold control
  split_ifs <;> simp
@[simp] theorem carry_device (start : Bool) (m : Machine) (b : UInt8) :
    (device start m b).1.carry = m.carry := by
  unfold device
  split_ifs <;> simp

theorem carry_step {m : Machine} (h : m.mode ≠ .ground) (b : UInt8) :
    (m.step b).1.carry = m.carry := by
  cases hm : m.mode with
  | ground => contradiction
  | escape => simp [step, hm]
  | escapeMarks =>
    simp only [step, hm]
    split_ifs <;> simp
  | controlStart => simp [step, hm]
  | controlParams => simp [step, hm]
  | controlMarks =>
    simp only [step, hm]
    split_ifs <;> simp
  | controlIgnored =>
    simp only [step, hm]
    split_ifs <;> simp
  | deviceStart => simp [step, hm]
  | deviceParams => simp [step, hm]
  | deviceMarks =>
    simp only [step, hm]
    split_ifs <;> simp
  | deviceBody => simp [step, hm]
  | deviceIgnored => simp [step, hm]
  | command => simp [step, hm]
  | ignoredString => simp [step, hm]

/-! Outside sequences a character is read whole. -/

theorem step_of_ground {m : Machine} (h : m.mode = .ground) (b : UInt8) :
    m.step b = m.ground b := by simp [step, h]

def charStrokes (c : Char) : List Stroke := [character c].filterMap Action.stroke?

/-- The octets that end a character begun before. -/
theorem read_rest {m : Machine} {c : Char} {more : Bytes} (hg : m.mode = .ground)
    (hr : m.resumed = false) (hm : m.held ≠ []) (hmore : more ≠ [])
    (hc : Utf8.encodeChar c = m.held ++ more) :
    m.after more = { m with held := [] } ∧ m.strokesOf more = charStrokes c := by
  induction more generalizing m with
  | nil => contradiction
  | cons b more ih =>
    by_cases hb : more = []
    · subst hb
      have hstep : m.step b = ({ m with held := [] }, [character c]) := by
        rw [step_of_ground hg, ground, if_neg hm, ← hc, Utf8.classify_encodeChar]
        simp [hr]
      simp [hstep, charStrokes]
    · have hu : Utf8.classify (m.held ++ [b]) = .unfinished := by
        rw [Utf8.classify_eq_unfinished_iff]
        exact ⟨by simp, c, more, hb, by simpa using hc⟩
      have hstep : m.step b = ({ m with held := m.held ++ [b] }, []) := by
        rw [step_of_ground hg, ground, if_neg hm, hu]
      have hrest := @ih { m with held := m.held ++ [b] } hg hr (by simp) hb (by simpa using hc)
      simpa [hstep] using hrest

theorem calm_iff (m : Machine) : m.Calm ↔ m.held = [] ∧ m.resumed = false := by
  simp [Calm, carry]

/-- A character read outside sequences leaves the machine as it was, unless it is an escape. -/
theorem read_char {m : Machine} (hg : m.mode = .ground) (h : m.Calm) {c : Char} (hc : c ≠ '\x1b') :
    m.after (Utf8.encodeChar c) = m ∧ m.strokesOf (Utf8.encodeChar c) = charStrokes c := by
  obtain ⟨hh, hr⟩ := (calm_iff m).mp h
  have hm : { m with held := [], resumed := false } = m := by
    rw [← hh, ← hr]
  have hfresh : ∀ b, m.step b = m.fresh b := by
    intro b
    rw [step_of_ground hg, ground, if_pos hh]
  have hchar := Utf8.classify_encodeChar c
  cases he : Utf8.encodeChar c with
  | nil => exact absurd he String.utf8EncodeChar_ne_nil
  | cons b more =>
    rw [he] at hchar
    have hesc : ¬ isEscape b = true := by
      rw [isEscape, decide_eq_true_eq]
      rintro rfl
      exact hc (Utf8.eq_of_encodeChar_cons he (by decide)).1
    by_cases hmore : more = []
    · subst hmore
      have hstep : m.step b = (m, [character c]) := by
        rw [hfresh, fresh, if_neg hesc, hchar, hm]
      simp [hstep, charStrokes]
    · have hu : Utf8.classify [b] = .unfinished := by
        rw [Utf8.classify_eq_unfinished_iff]
        exact ⟨by simp, c, more, hmore, by simpa using he⟩
      have hstep : m.step b = ({ m with held := [b] }, []) := by
        rw [hfresh, fresh, if_neg hesc, hu, hm]
      have hrest := @read_rest { m with held := [b] } c more hg hr (by simp) hmore
        (by simpa using he)
      have hm' : { m with held := [] } = m := by rw [← hh]
      simpa [hstep, hm'] using hrest

theorem calm_step_of_invalid {m : Machine} (h : m.Calm) {b : UInt8}
    (hb : Utf8.classify [b] = .invalid) : (m.step b).1.Calm := by
  by_cases hg : m.mode = .ground
  · rw [step_of_ground hg, ground, if_pos ((calm_iff m).mp h).1, fresh, hb]
    split_ifs <;> rfl
  · rw [Calm, carry_step hg]
    exact h

theorem calm_after_of_invalid {m : Machine} (h : m.Calm) {bytes : Bytes}
    (hb : ∀ b ∈ bytes, Utf8.classify [b] = .invalid) : (m.after bytes).Calm := by
  induction bytes generalizing m with
  | nil => exact h
  | cons b bytes ih =>
    simp only [List.forall_mem_cons] at hb
    exact ih (calm_step_of_invalid h hb.1) hb.2

theorem after_escape {m : Machine} (hg : m.mode = .ground) (h : m.Calm) :
    m.after (Utf8.encodeChar '\x1b') = m.enterEscape := by
  obtain ⟨hh, hr⟩ := (calm_iff m).mp h
  have hm : { m with held := [], resumed := false } = m := by rw [← hh, ← hr]
  have he : Utf8.encodeChar '\x1b' = [0x1B] := by decide
  simp [he, step_of_ground hg, ground, hh, fresh, isEscape, hm]

/-- After a whole character none is unfinished, even where a part of it ended a sequence. -/
theorem calm_char {m : Machine} (h : m.Calm) (c : Char) : (m.after (Utf8.encodeChar c)).Calm := by
  by_cases hg : m.mode = .ground
  · by_cases hc : c = '\x1b'
    · subst hc
      rw [after_escape hg h]
      exact h
    · rw [(read_char hg h hc).1]
      exact h
  · cases he : Utf8.encodeChar c with
    | nil => exact h
    | cons b more =>
      have hstep : (m.step b).1.Calm := by
        rw [Calm, carry_step hg]
        exact h
      exact calm_after_of_invalid hstep fun t ht => Utf8.invalid_of_mem_tail he ht

theorem calm_read {m : Machine} (h : m.Calm) (text : Text) : (m.read text).Calm := by
  induction text generalizing m with
  | nil => exact h
  | cons c text ih =>
    rw [read, Utf8.encode_cons, after_append]
    exact ih (calm_char h c)

theorem endChunk_of_calm {m : Machine} (h : m.Calm) : m.endChunk = m := by
  obtain ⟨hh, hr⟩ := (calm_iff m).mp h
  have hresumed : (!m.held.isEmpty) = m.resumed := by rw [hh, hr]; rfl
  rw [endChunk, hresumed]

end Machine

/-- A chunk of whole characters. -/
theorem Renderer.render_text {r : Renderer} (h : r.machine.Calm) (text : Text) :
    r.render (Utf8.encode text) =
      ({ machine := r.machine.read text
         style := (Canvas.drawAll { style := r.style } (r.machine.strokes text)).style },
        (Canvas.drawAll { style := r.style } (r.machine.strokes text)).flush.spans) := by
  have hheld : r.machine.held = [] := ((Machine.calm_iff _).mp h).1
  have hcalm := Machine.calm_read h text
  rw [render, draw, Machine.intake_of_held_nil _ hheld, Machine.run_eq]
  dsimp only
  rw [← Machine.read, ← Machine.strokes, Machine.endChunk_of_calm hcalm]

end Parley.Terminal
