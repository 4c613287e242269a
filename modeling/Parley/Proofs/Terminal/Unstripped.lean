import Parley.Proofs.Terminal.Chunks

/-! Output that is stripped and then rendered, beside output that is rendered as it is. Where every
cursor code that is stripped begins outside sequences, both give the same spans chunk by chunk: a
code leaves the machine as it was but for the sequence that it read last (`read_strip`). A code that
is cut between two chunks is never stripped, and gives nothing either (`Omits.results`). -/
namespace Parley.Terminal

open CursorCode

namespace Machine

theorem Alike.calm {m n : Machine} (h : Alike m n) (hm : m.Calm) : n.Calm := by
  rcases h with rfl | ⟨-, s, rfl⟩
  · exact hm
  · exact hm

/-- Whether each cursor code of a text that is read begins outside sequences. -/
def CodesOutside (m : Machine) (text : Text) : Prop :=
  ∀ i < text.length, 0 < lengthAt (text.drop i) → (m.read (text.take i)).mode = .ground

instance (m : Machine) (text : Text) : Decidable (m.CodesOutside text) := by
  unfold CodesOutside
  infer_instance

theorem CodesOutside.of_append {m : Machine} {a b : Text} (h : m.CodesOutside (a ++ b)) :
    (m.read a).CodesOutside b := by
  intro i hi hcode
  have hlt : a.length + i < (a ++ b).length := by
    rw [List.length_append]
    omega
  have hdrop : (a ++ b).drop (a.length + i) = b.drop i := List.drop_length_add_append i
  have htake : (a ++ b).take (a.length + i) = a ++ b.take i := List.take_length_add_append i
  have hmode := h (a.length + i) hlt (by rw [hdrop]; exact hcode)
  rwa [htake, read_append] at hmode

theorem CodesOutside.ground {m : Machine} {code : Text} (hc : IsCode code) {rest : Text}
    (h : m.CodesOutside (code ++ rest)) : m.mode = .ground := by
  have hpos : 0 < code.length := List.length_pos_iff.mpr hc.ne_nil
  have hlt : 0 < (code ++ rest).length := by
    rw [List.length_append]
    omega
  exact h 0 hlt (by rw [List.drop_zero, lengthAt_append hc]; exact hpos)

/-- A text read as it is and the text without its cursor codes, by machines that are alike. -/
theorem read_strip {m n : Machine} (halike : Alike n m) (hm : m.Calm) {text : Text}
    (h : m.CodesOutside text) :
    Alike (n.read (strip text)) (m.read text) ∧ m.strokes text = n.strokes (strip text) := by
  induction hlength : text.length using Nat.strongRecOn generalizing m n text with
  | _ length ih =>
  subst hlength
  rcases lengthAt_cases text with hzero | ⟨code, rest, hcode, rfl⟩
  · cases text with
    | nil => exact ⟨halike, rfl⟩
    | cons c rest =>
      have hsplit : c :: rest = [c] ++ rest := rfl
      have hhead := halike.read [c]
      have hrest := ih rest.length (by simp) hhead.1 (calm_read hm [c])
        (CodesOutside.of_append (a := [c]) h) rfl
      rw [strip_cons hzero, hsplit, show c :: strip rest = [c] ++ strip rest from rfl, read_append,
        read_append, strokes_append, strokes_append, hhead.2, hrest.2]
      exact ⟨hrest.1, rfl⟩
  · have hground : m.mode = .ground := h.ground hcode
    obtain ⟨hread, hnone⟩ := read_code hground hm hcode
    have hlt : rest.length < (code ++ rest).length := by
      have hpos := List.length_pos_iff.mpr hcode.ne_nil
      rw [List.length_append]
      omega
    have hrest := ih rest.length hlt (halike.trans hread) (calm_read hm code) h.of_append rfl
    rw [strip_code hcode, read_append, strokes_append, hnone, hrest.2]
    exact ⟨hrest.1, rfl⟩

/-- A cursor code read outside sequences might as well not be there. -/
theorem read_around {m : Machine} (hm : m.Calm) {x code : Text} (hc : IsCode code)
    (hg : (m.read x).mode = .ground) (y : Text) :
    Alike (m.read (x ++ y)) (m.read (x ++ code ++ y)) ∧
      m.strokes (x ++ code ++ y) = m.strokes (x ++ y) := by
  obtain ⟨hread, hnone⟩ := read_code hg (calm_read hm x) hc
  obtain ⟨hrest, hstrokes⟩ := hread.read y
  rw [List.append_assoc, read_append, read_append, read_append, strokes_append, strokes_append,
    strokes_append, hnone, hstrokes]
  exact ⟨hrest, rfl⟩

/-- Cut in two, it gives nothing before the cut and nothing behind. -/
theorem read_halves {m : Machine} (hm : m.Calm) {x code₁ code₂ : Text}
    (hc : IsCode (code₁ ++ code₂)) (hg : (m.read x).mode = .ground) (y : Text) :
    m.strokes (x ++ code₁) = m.strokes x ∧
      (m.read (x ++ code₁)).strokes (code₂ ++ y) = (m.read x).strokes y ∧
        Alike ((m.read x).read y) ((m.read (x ++ code₁)).read (code₂ ++ y)) := by
  obtain ⟨hread, hnone⟩ := read_code hg (calm_read hm x) hc
  obtain ⟨hrest, hstrokes⟩ := hread.read y
  rw [strokes_append, List.append_eq_nil_iff] at hnone
  rw [read_append] at hrest hstrokes
  refine ⟨?_, ?_, ?_⟩
  · rw [strokes_append, hnone.1, List.append_nil]
  · rw [read_append, strokes_append, hnone.2, List.nil_append, hstrokes]
  · rw [read_append, read_append]
    exact hrest

end Machine

namespace Renderer

/-- The renderers differ at most in the sequence that their machines read last. -/
structure Alike (r s : Renderer) : Prop where
  machine : r.machine.Alike s.machine
  style : r.style = s.style

/-- Texts that machines make the same of are rendered alike. -/
theorem render_alike {r s : Renderer} (hr : r.machine.Calm) (hs : s.machine.Calm)
    (hstyle : r.style = s.style) {a b : Text}
    (hread : (r.machine.read a).Alike (s.machine.read b))
    (hstrokes : s.machine.strokes b = r.machine.strokes a) :
    Alike (r.render (Utf8.encode a)).1 (s.render (Utf8.encode b)).1 ∧
      (r.render (Utf8.encode a)).2 = (s.render (Utf8.encode b)).2 := by
  rw [render_text hr, render_text hs, hstrokes, hstyle]
  exact ⟨⟨hread, rfl⟩, rfl⟩

theorem Alike.render {r s : Renderer} (h : Alike r s) (hr : r.machine.Calm) (text : Text) :
    Alike (r.render (Utf8.encode text)).1 (s.render (Utf8.encode text)).1 ∧
      (r.render (Utf8.encode text)).2 = (s.render (Utf8.encode text)).2 :=
  render_alike hr (h.machine.calm hr) h.style (h.machine.read text).1 (h.machine.read text).2

theorem Alike.renderEach {r s : Renderer} (h : Alike r s) (hr : r.machine.Calm)
    (chunks : List Text) :
    (r.renderEach (chunks.map Utf8.encode)).2 = (s.renderEach (chunks.map Utf8.encode)).2 := by
  induction chunks generalizing r s with
  | nil => rfl
  | cons chunk rest ih =>
    obtain ⟨hnext, hspans⟩ := h.render hr chunk
    have hrest := ih hnext (calm_render hr chunk)
    rw [List.map_cons, renderEach_cons, renderEach_cons, hspans, hrest]

/-- Whether each cursor code within one of the chunks begins outside sequences when all of them are
rendered as they are. -/
def CodesOutside (r : Renderer) : List Text → Prop
  | [] => True
  | chunk :: rest =>
    r.machine.CodesOutside chunk ∧ (r.render (Utf8.encode chunk)).1.CodesOutside rest

instance decidableCodesOutside : ∀ (r : Renderer) (chunks : List Text),
    Decidable (r.CodesOutside chunks)
  | _, [] => .isTrue trivial
  | r, chunk :: rest =>
    have := decidableCodesOutside (r.render (Utf8.encode chunk)).1 rest
    inferInstanceAs (Decidable (_ ∧ _))

/-- Chunks that are stripped and chunks that are not, by renderers that are alike. -/
theorem CodesOutside.applyEach {r s : Renderer} {chunks : List Text} (h : r.CodesOutside chunks)
    (halike : Alike s r) (hs : s.machine.Calm) :
    ((Filter.ansi s).applyEach chunks).2 = (r.renderEach (chunks.map Utf8.encode)).2 := by
  induction chunks generalizing r s with
  | nil => rfl
  | cons chunk rest ih =>
    obtain ⟨hchunk, hlater⟩ := h
    have hr : r.machine.Calm := halike.machine.calm hs
    obtain ⟨hread, hstrokes⟩ := Machine.read_strip halike.machine hr hchunk
    obtain ⟨hnext, hspans⟩ := render_alike hs hr halike.style hread hstrokes
    have hrest := ih hlater hnext (calm_render hs _)
    rw [Filter.applyEach_cons, Filter.apply_ansi, List.map_cons, renderEach_cons, hspans, hrest]

/-- The second chunks are the first but for a cursor code that begins outside sequences: it stands
within a chunk, or is cut between two. -/
inductive Omits : Renderer → List Text → List Text → Prop where
  | within {r : Renderer} {x code : Text} (hc : IsCode code)
      (hg : (r.machine.read x).mode = .ground) (y : Text) (rest : List Text) :
      Omits r ((x ++ code ++ y) :: rest) ((x ++ y) :: rest)
  | cut {r : Renderer} {x code₁ code₂ : Text} (hc : IsCode (code₁ ++ code₂))
      (hg : (r.machine.read x).mode = .ground) (y : Text) (rest : List Text) :
      Omits r ((x ++ code₁) :: (code₂ ++ y) :: rest) (x :: y :: rest)
  | later {r : Renderer} {chunk : Text} {a b : List Text}
      (h : Omits (r.render (Utf8.encode chunk)).1 a b) : Omits r (chunk :: a) (chunk :: b)

/-- The code that is left out gave nothing, in one piece or in two. -/
theorem Omits.results {r : Renderer} {a b : List Text} (h : Omits r a b) (hr : r.machine.Calm) :
    (r.renderEach (a.map Utf8.encode)).2 = (r.renderEach (b.map Utf8.encode)).2 := by
  induction h with
  | @within r x code hc hg y rest =>
    obtain ⟨hread, hstrokes⟩ := Machine.read_around hr hc hg y
    obtain ⟨hnext, hspans⟩ := render_alike hr hr rfl hread hstrokes
    have hrest := hnext.renderEach (calm_render hr _) rest
    rw [List.map_cons, List.map_cons, renderEach_cons, renderEach_cons, hspans, hrest]
  | @cut r x code₁ code₂ hc hg y rest =>
    obtain ⟨hfirst, hsecond, hread⟩ := Machine.read_halves hr hc hg y
    have hx := render_text hr x
    have hxcode := render_text hr (x ++ code₁)
    rw [hfirst] at hxcode
    have hstyle : (r.render (Utf8.encode x)).1.style =
        (r.render (Utf8.encode (x ++ code₁))).1.style := by rw [hx, hxcode]
    have hspans : (r.render (Utf8.encode (x ++ code₁))).2 = (r.render (Utf8.encode x)).2 := by
      rw [hx, hxcode]
    obtain ⟨hnext, hspans'⟩ := render_alike (calm_render hr x) (calm_render hr (x ++ code₁)) hstyle
      (a := y) (b := code₂ ++ y) (by rw [hx, hxcode]; exact hread)
      (by rw [hx, hxcode]; exact hsecond)
    have hrest := hnext.renderEach (calm_render (calm_render hr x) y) rest
    simp only [List.map_cons, renderEach_cons]
    rw [hspans, hspans', hrest]
  | later h ih =>
    simp only [List.map_cons, renderEach_cons]
    rw [ih (calm_render hr _)]

end Renderer

/-- Where every cursor code that is stripped begins outside sequences, a filter in `ansi` mode gives
for each chunk what a renderer gives for the chunk as it is; and a code that begins outside
sequences gives nothing, within a chunk or cut between two. -/
theorem applyEach_of_codesOutside {chunks : List Text} (h : ({} : Renderer).CodesOutside chunks) :
    ((Filter.ofMode .ansi).applyEach chunks).2 =
        (({} : Renderer).renderEach (chunks.map Utf8.encode)).2 ∧
      ∀ others, Renderer.Omits {} chunks others →
        ((Filter.ofMode .ansi).applyEach chunks).2 =
          (({} : Renderer).renderEach (others.map Utf8.encode)).2 := by
  have hcalm : ({} : Renderer).machine.Calm := rfl
  have hall : ((Filter.ofMode .ansi).applyEach chunks).2 =
      (({} : Renderer).renderEach (chunks.map Utf8.encode)).2 :=
    h.applyEach ⟨.refl _, rfl⟩ hcalm
  exact ⟨hall, fun others ho => hall.trans (ho.results hcalm)⟩

/-- A prompt with cursor codes of which one is cut between two chunks, and a colour that is cut as
well. -/
def tornPrompt : List Text :=
  ["\x1b[1G> \x1b[0K\x1b[3".toList, "3m2\x1b[4".toList, "Ko\x1b[3G\x1b[m".toList]

theorem applyEach_of_codesOutside_prompt :
    ({} : Renderer).CodesOutside tornPrompt ∧
      ((Filter.ofMode .ansi).applyEach tornPrompt).2 =
          (({} : Renderer).renderEach (tornPrompt.map Utf8.encode)).2 ∧
        ((Filter.ofMode .ansi).applyEach tornPrompt).2 =
          (({} : Renderer).renderEach
            (["\x1b[1G> \x1b[0K\x1b[3".toList, "3m2".toList,
              "o\x1b[3G\x1b[m".toList].map Utf8.encode)).2 := by
  have h : ({} : Renderer).CodesOutside tornPrompt := by decide +kernel
  have hcode : IsCode ("\x1b[4".toList ++ ['K']) :=
    ⟨['4'], 'K', rfl, by simp, by simp, rfl⟩
  have homits : Renderer.Omits {} tornPrompt
      ["\x1b[1G> \x1b[0K\x1b[3".toList, "3m2".toList, "o\x1b[3G\x1b[m".toList] :=
    .later (.cut hcode (x := "3m2".toList) (by decide +kernel) _ _)
  exact ⟨h, (applyEach_of_codesOutside h).1, (applyEach_of_codesOutside h).2 _ homits⟩

end Parley.Terminal
