import Parley.Proofs.Terminal.Chunks

/-! An escape cuts short whatever a machine is in the middle of. A character can be unfinished
outside sequences only (`Tidy`), so that an escape leaves nothing of it but a U+FFFD and begins a
sequence in every mode (`escape_step`). A selection of a rendition is therefore read alike wherever
it is read: all it depends on of what came before is the style (`render_selection`). -/
namespace Parley.Terminal

def selectionText (params : List Parameter) : Text := renditionText (params.map parameterText)

theorem selectionText_eq (params : List Parameter) : selectionText params =
    '\x1b' :: '[' :: (joinWith [';'] (params.map parameterText) ++ ['m']) := by
  simp [selectionText, renditionText]

/-- Parameters that a control sequence has room for, each of one or more numbers. -/
structure Fits (params : List Parameter) : Prop where
  nonempty : params ≠ []
  numbers : ∀ p ∈ params, p ≠ [] ∧ ∀ n ∈ p, n ≤ Sequence.maxValue
  room : params.flatten.length ≤ Sequence.maxNumbers

namespace Machine

/-- A character is left unfinished outside sequences only. -/
def Tidy (m : Machine) : Prop := m.mode ≠ .ground → m.Calm

theorem Calm.tidy {m : Machine} (h : m.Calm) : m.Tidy := fun _ => h

theorem tidy_of_ground {m : Machine} (h : m.mode = .ground) : m.Tidy := fun hne => absurd h hne

theorem tidy_fresh {m : Machine} (h : m.mode = .ground) (b : UInt8) : (m.fresh b).1.Tidy := by
  by_cases he : isEscape b = true
  · have hcalm : (m.fresh b).1.Calm := by rw [fresh, if_pos he]; rfl
    exact hcalm.tidy
  · rw [fresh, if_neg he]
    cases Utf8.classify [b] <;> exact tidy_of_ground h

theorem tidy_step {m : Machine} (h : m.Tidy) (b : UInt8) : (m.step b).1.Tidy := by
  by_cases hg : m.mode = .ground
  · rw [step_of_ground hg, ground]
    split
    · exact tidy_fresh hg b
    · cases Utf8.classify (m.held ++ [b]) with
      | char c => exact tidy_of_ground hg
      | unfinished => exact tidy_of_ground hg
      | invalid => exact tidy_fresh hg b
  · have hcalm : (m.step b).1.Calm := (carry_step hg b).trans (h hg)
    exact hcalm.tidy

theorem tidy_after {m : Machine} (h : m.Tidy) (bytes : Bytes) : (m.after bytes).Tidy := by
  induction bytes generalizing m with
  | nil => exact h
  | cons b rest ih => exact ih (tidy_step h b)

theorem tidy_endChunk {m : Machine} (h : m.Tidy) : m.endChunk.Tidy := by
  intro hne
  have hcalm : m.Calm := h hne
  rw [endChunk_of_calm hcalm]
  exact hcalm

/-- What an escape shows, if anything, is that it cut a character short. -/
def Cut (strokes : List Stroke) : Prop := ∀ k ∈ strokes, k = .put Utf8.replacement

theorem cut_nil : Cut [] := fun _ hk => absurd hk List.not_mem_nil

theorem escape_fresh (m : Machine) :
    m.fresh 0x1B = ({ m with held := [], resumed := false, mode := .escape, sequence := {} }, []) :=
  rfl

theorem escape_of_not_ground {m : Machine} (hg : m.mode ≠ .ground) :
    (m.step 0x1B).1.mode = .escape ∧ (m.step 0x1B).2 = [] := by
  cases hm : m.mode with
  | ground => contradiction
  | escape => simp [step, hm, select, isControl, isMark, isCancel]
  | controlStart | controlParams =>
    simp [step, hm, control, isControl, isMark, isDigit, isPrivate, isFinal, anywhere, isCancel,
      isEscape, enterEscape]
  | deviceStart | deviceParams =>
    simp [step, hm, device, isMark, isDigit, isPrivate, isFinal, anywhere, isCancel, isEscape,
      enterEscape]
  | deviceBody | command => simp [step, hm, untilEnd, anywhere, isCancel, isEscape, enterEscape]
  | escapeMarks | controlMarks | controlIgnored | deviceMarks | deviceIgnored | ignoredString =>
    simp [step, hm, isControl, isMark, isFinal, anywhere, isCancel, isEscape, enterEscape]

/-- An escape begins a sequence in every mode, whatever character was unfinished. -/
theorem escape_step {m : Machine} (h : m.Tidy) :
    (m.step 0x1B).1.mode = .escape ∧ (m.step 0x1B).1.Calm ∧
      Cut ((m.step 0x1B).2.filterMap Action.stroke?) := by
  by_cases hg : m.mode = .ground
  · rw [step_of_ground hg, ground]
    by_cases hh : m.held = []
    · rw [if_pos hh, escape_fresh]
      exact ⟨rfl, rfl, cut_nil⟩
    · -- An escape goes on with no character.
      have hinvalid : Utf8.classify (m.held ++ [0x1B]) = .invalid := by
        by_contra hne
        have htail := Utf8.isTail_of_append hh hne
        revert htail
        decide
      rw [if_neg hh, hinvalid, escape_fresh]
      exact ⟨rfl, rfl, fun k hk => List.mem_singleton.mp hk⟩
  · obtain ⟨hmode, hactions⟩ := escape_of_not_ground hg
    rw [hactions]
    exact ⟨hmode, (carry_step hg _).trans (h hg), cut_nil⟩

/-- What opens a control sequence opens it wherever it is read. -/
theorem exists_opening {m : Machine} (h : m.Tidy) :
    ∃ (n : Machine) (shown : List Stroke),
      n.mode = .controlStart ∧ n.sequence = {} ∧ n.Calm ∧ Cut shown ∧
      ∀ text, m.read ('\x1b' :: '[' :: text) = n.read text ∧
        m.strokes ('\x1b' :: '[' :: text) = shown ++ n.strokes text := by
  obtain ⟨hmode, hcalm, hcut⟩ := escape_step h
  refine ⟨{ (m.step 0x1B).1 with mode := .controlStart, sequence := {} },
    (m.step 0x1B).2.filterMap Action.stroke?, rfl, rfl, hcalm, hcut, fun text => ?_⟩
  have he : UInt8.ofNat '\x1b'.toNat = 0x1B := by decide
  have hb : UInt8.ofNat '['.toNat = 0x5B := by decide
  rw [read_cons_of_lt _ (by decide), strokes_cons_of_lt _ (by decide), he,
    read_cons_of_lt _ (by decide), strokes_cons_of_lt _ (by decide), hb, step_bracket hmode]
  exact ⟨rfl, rfl⟩

/-- A selection ends outside sequences, wherever it was read, with no character unfinished. -/
theorem read_selection {m : Machine} (h : m.Tidy) {params : List Parameter} (hp : Fits params) :
    ((m.read (selectionText params)).mode = .ground ∧ (m.read (selectionText params)).Calm) ∧
      ∃ shown, Cut shown ∧ m.strokes (selectionText params) = shown ++ [.restyle params] := by
  obtain ⟨n, shown, hmode, hsequence, hcalm, hcut, hopening⟩ := exists_opening h
  have hstart : n.sequence = { params := [] } := hsequence
  obtain ⟨⟨s, hread⟩, hstrokes⟩ :=
    read_parameters (.inl hmode) hstart hp.nonempty hp.numbers hp.room
  obtain ⟨hopen, hopened⟩ :=
    hopening (joinWith [';'] (params.map parameterText) ++ ['m'])
  rw [selectionText_eq, hopen, hopened, hread, hstrokes]
  exact ⟨⟨rfl, hcalm⟩, shown, hcut, rfl⟩

/-- No octet before an escape sequence is lost for its sake, and none of it is. -/
theorem intake_append (m : Machine) (before rest : Bytes) :
    m.intake (before ++ 0x1B :: 0x5B :: rest) = m.intake before ++ 0x1B :: 0x5B :: rest := by
  cases hm : m.held with
  | nil => rw [intake_of_held_nil _ hm, intake_of_held_nil _ hm]
  | cons lead more =>
    cases more with
    | cons second more => simp [intake, hm]
    | nil =>
      -- Whether an octet is lost is told by the first three.
      rcases before with _ | ⟨second, _ | ⟨between, _ | ⟨last, behind⟩⟩⟩
      · cases rest <;> simp [intake, hm, Utf8.isTail]
      · simp [intake, hm]
      · simp [intake, hm]
      · simp only [List.cons_append, intake, hm]
        split <;> rfl

theorem intake_selection (m : Machine) (before : Bytes) (params : List Parameter) :
    m.intake (before ++ Utf8.encode (selectionText params)) =
      m.intake before ++ Utf8.encode (selectionText params) := by
  have hencode : ∃ rest, Utf8.encode (selectionText params) = 0x1B :: 0x5B :: rest := ⟨_, rfl⟩
  obtain ⟨rest, hrest⟩ := hencode
  rw [hrest, intake_append]

end Machine

theorem Canvas.style_drawAll_cut {c : Canvas} {strokes : List Stroke} (h : Machine.Cut strokes) :
    (c.drawAll strokes).style = c.style := by
  induction strokes generalizing c with
  | nil => rfl
  | cons k strokes ih =>
    obtain ⟨rfl, hrest⟩ := List.forall_mem_cons.mp h
    exact ih hrest

namespace Renderer

theorem tidy_render {r : Renderer} (h : r.machine.Tidy) (chunk : Bytes) :
    (r.render chunk).1.machine.Tidy := by
  rw [render, draw, Machine.run_eq]
  exact Machine.tidy_endChunk (Machine.tidy_after h _)

theorem tidy_renderEach {r : Renderer} (h : r.machine.Tidy) (chunks : List Bytes) :
    (r.renderEach chunks).1.machine.Tidy := by
  induction chunks generalizing r with
  | nil => exact h
  | cons chunk rest ih => exact ih (tidy_render h chunk)

/-- A chunk that ends in a selection: the machine is left outside sequences, and the style is what
the selection makes of the style it would be without. -/
theorem render_selection {r : Renderer} (h : r.machine.Tidy) (before : Bytes)
    {params : List Parameter} (hp : Fits params) :
    let next := (r.render (before ++ Utf8.encode (selectionText params))).1
    (next.machine.mode = .ground ∧ next.machine.Calm) ∧
      next.style = applyRendition (r.render before).1.style params := by
  have hintake := r.machine.intake_selection before params
  obtain ⟨⟨hmode, hcalm⟩, shown, hcut, hstrokes⟩ :=
    Machine.read_selection (Machine.tidy_after h (r.machine.intake before)) hp
  simp only [render, draw, hintake, Machine.run_eq, Machine.after_append, Machine.strokesOf_append]
  rw [← Machine.read, ← Machine.strokes, Machine.endChunk_of_calm hcalm, hstrokes,
    Canvas.drawAll_append, Canvas.drawAll_append, Canvas.drawAll_cons, Canvas.drawAll_nil]
  refine ⟨⟨hmode, hcalm⟩, ?_⟩
  rw [Canvas.draw, Canvas.style_drawAll_cut hcut]

/-- The machine of any renderer that has read something is tidy. -/
theorem tidy_rendered (chunks : List Bytes) :
    (({} : Renderer).renderEach chunks).1.machine.Tidy :=
  tidy_renderEach (Machine.tidy_of_ground rfl) chunks

end Renderer
end Parley.Terminal
