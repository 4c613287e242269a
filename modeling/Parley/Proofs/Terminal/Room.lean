import Parley.Proofs.Terminal.Escapes

/-! The room of a control sequence. A sequence that is to read more numbers than it keeps overflows
at the first that has no place, and never recovers; a selection that overflows is not heeded. So the
parameters that a selection has room for (`Fits`) are all that could select anything
(`style_of_overfull`). -/
namespace Parley.Terminal

namespace Sequence

/-- A sequence that overflows, or will before it has ended so many more numbers. -/
def Overfull (s : Sequence) (coming : Nat) : Prop :=
  s.overflow = true ∨ maxNumbers < s.count + coming

namespace Overfull

variable {s : Sequence} {coming : Nat}

theorem digit (h : s.Overfull coming) (d : Nat) : (s.digit d).Overfull coming := by
  rw [Sequence.digit]
  split
  · exact .inl rfl
  · exact h

theorem foldl_digit (h : s.Overfull coming) (digits : Text) :
    (digits.foldl (fun t d => t.digit (d.toNat - 0x30)) s).Overfull coming := by
  induction digits generalizing s with
  | nil => exact h
  | cons d digits ih => exact ih (h.digit _)

/-- The number being read takes a place, if there is one. -/
theorem close (h : s.Overfull (coming + 1)) : s.close.Overfull coming := by
  rw [Sequence.close]
  split
  · exact .inl rfl
  · refine h.imp_right fun hlt => ?_
    simp only [count, List.flatten_append, List.flatten_singleton, List.length_append,
      List.length_singleton, List.length_nil] at hlt ⊢
    omega

theorem separate (h : s.Overfull (coming + 1)) : s.separate.Overfull coming := by
  rw [Sequence.separate]
  split
  · exact h.close
  · exact h.close

theorem subdivide (h : s.Overfull (coming + 1)) : s.subdivide.Overfull coming := by
  rw [Sequence.subdivide]
  split
  · exact .inl rfl
  · refine h.imp_right fun hlt => ?_
    simp only [count, List.length_append, List.length_singleton] at hlt ⊢
    omega

/-- With no place left for the last number the sequence overflows. -/
theorem overflow_close (h : s.Overfull 1) : s.close.overflow = true := by
  rw [Sequence.close]
  split
  · rfl
  · rename_i hfull
    simp only [isFull, decide_eq_true_eq] at hfull
    exact h.resolve_right (by omega)

end Overfull
end Sequence

namespace Machine

/-- What the numbers of a parameter leave of the room, the last of them not ended yet. -/
theorem overfull_parameter {m : Machine} (h : m.Collects) {p : Parameter} (hp : p ≠ [])
    {coming : Nat} (hm : m.sequence.Overfull (p.length + coming)) :
    ∃ s : Sequence, s.Overfull (coming + 1) ∧
      m.read (parameterText p) = { m with mode := .controlParams, sequence := s } ∧
      m.strokes (parameterText p) = [] := by
  induction p generalizing m with
  | nil => contradiction
  | cons n p ih =>
    have hne : decimal n ≠ [] := Nat.toDigits_ne_nil
    obtain ⟨hread, hstrokes⟩ := read_digits h hne fun d hd => isDigit_of_mem_decimal hd
    have hdigits := hm.foldl_digit (decimal n)
    cases p with
    | nil =>
      rw [List.length_singleton, Nat.add_comm] at hdigits
      refine ⟨_, hdigits, ?_, ?_⟩
      · simpa [parameterText] using hread
      · simpa [parameterText] using hstrokes
    | cons next rest =>
      have hcolon : UInt8.ofNat ':'.toNat = 0x3A := by decide
      have htext : parameterText (n :: next :: rest) =
          decimal n ++ ':' :: parameterText (next :: rest) := by simp [parameterText]
      rw [List.length_cons, Nat.add_right_comm] at hdigits
      obtain ⟨s, hs, hread', hstrokes'⟩ :=
        @ih { m with mode := .controlParams, sequence := Sequence.subdivide _ } (.inr rfl)
          (List.cons_ne_nil _ _) hdigits.subdivide
      refine ⟨s, hs, ?_, ?_⟩
      · rw [htext, read_append, hread, read_cons_of_lt _ (by decide), hcolon, step_colon (.inr rfl),
          hread']
      · rw [htext, strokes_append, hstrokes, hread, strokes_cons_of_lt _ (by decide), hcolon,
          step_colon (.inr rfl), hstrokes']
        rfl

/-- Parameters with more numbers than there is room for are not heeded. -/
theorem overfull_parameters {m : Machine} (h : m.Collects) {params : List Parameter}
    (hn : params ≠ []) (hp : ∀ p ∈ params, p ≠ [])
    (hm : m.sequence.Overfull params.flatten.length) :
    m.strokes (joinWith [';'] (params.map parameterText) ++ ['m']) = [] := by
  induction params generalizing m with
  | nil => contradiction
  | cons p params ih =>
    rw [List.forall_mem_cons] at hp
    rw [List.flatten_cons, List.length_append] at hm
    obtain ⟨s, hs, hread, hstrokes⟩ := overfull_parameter h hp.1 hm
    cases params with
    | nil =>
      have hoverflow : s.close.overflow = true := hs.overflow_close
      have hm' : UInt8.ofNat 'm'.toNat = 0x6D := by decide
      rw [List.map_singleton, joinWith_singleton, strokes_append, hread, hstrokes,
        strokes_cons_of_lt _ (by decide), hm', step_final (.inr rfl) (by decide), dispatch]
      simp [Action.stroke?, Canvas.isRendition, hoverflow, strokes]
    | cons next rest =>
      have hsemi : UInt8.ofNat ';'.toNat = 0x3B := by decide
      simp only [List.map_cons, joinWith_cons_cons, List.append_assoc]
      rw [strokes_append, hread, hstrokes, List.singleton_append, strokes_cons_of_lt _ (by decide),
        hsemi, step_semicolon (.inr rfl)]
      exact @ih { m with mode := .controlParams, sequence := s.separate } (.inr rfl)
        (List.cons_ne_nil _ _) hp.2 hs.separate

end Machine

namespace Renderer

/-- A selection with more numbers than there is room for leaves every style as it was. -/
theorem style_of_overfull {r : Renderer} (h : r.machine.Tidy) (before : Bytes)
    {params : List Parameter} (hp : ∀ p ∈ params, p ≠ [])
    (hmany : Sequence.maxNumbers < params.flatten.length) :
    (r.render (before ++ Utf8.encode (selectionText params))).1.style =
      (r.render before).1.style := by
  have hn : params ≠ [] := by
    rintro rfl
    cases hmany
  have hintake := r.machine.intake_selection before params
  obtain ⟨n, shown, hmode, hsequence, -, hcut, hopening⟩ :=
    Machine.exists_opening (Machine.tidy_after h (r.machine.intake before))
  have hover : n.sequence.Overfull params.flatten.length := by
    rw [hsequence]
    exact .inr (by rwa [Sequence.count_empty, Nat.zero_add])
  have hstrokes := Machine.overfull_parameters (.inl hmode) hn hp hover
  simp only [render, draw, hintake, Machine.run_eq, Machine.strokesOf_append]
  rw [← Machine.strokes, selectionText_eq, (hopening _).2, hstrokes, List.append_nil,
    Canvas.drawAll_append, Canvas.style_drawAll_cut hcut]

end Renderer
end Parley.Terminal
