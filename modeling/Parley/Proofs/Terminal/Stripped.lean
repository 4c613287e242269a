import Mathlib.Data.List.TakeWhile
import Parley.Terminal.CursorCode

/-! What stripping removes, apart from how it walks. A text opens with a cursor code or `strip`
keeps its first character. Where a text is cut, stripping the two parts gives the same as
stripping the whole, unless the cut falls within a code; then the parts of that code are kept and
nothing else differs (`strip_cut`). -/
namespace Parley.CursorCode

def IsCode (code : Text) : Prop :=
  ∃ digits final, code = '\x1b' :: '[' :: (digits ++ [final]) ∧ digits ≠ [] ∧
    (∀ d ∈ digits, d.isDigit = true) ∧ isFinal final = true

theorem IsCode.ne_nil {code : Text} (h : IsCode code) : code ≠ [] := by
  obtain ⟨digits, final, rfl, -⟩ := h
  simp

theorem isDigit_of_isFinal {c : Char} (h : isFinal c = true) : c.isDigit = false := by
  simp only [isFinal, Bool.or_eq_true, decide_eq_true_eq] at h
  rcases h with (rfl | rfl) | rfl <;> rfl

/-- A code is seen whatever follows it. -/
theorem lengthAt_append {code : Text} (h : IsCode code) (rest : Text) :
    lengthAt (code ++ rest) = code.length := by
  obtain ⟨digits, final, rfl, hne, hd, hf⟩ := h
  have htake : (digits ++ final :: rest).takeWhile Char.isDigit = digits := by
    rw [List.takeWhile_append_of_pos hd, List.takeWhile_cons, isDigit_of_isFinal hf]
    simp
  obtain ⟨d, digits, rfl⟩ := List.exists_cons_of_ne_nil hne
  have hdrop : (d :: digits ++ final :: rest).drop (d :: digits).length = final :: rest :=
    List.drop_left
  have happend : '\x1b' :: '[' :: (d :: digits ++ [final]) ++ rest =
      '\x1b' :: '[' :: (d :: digits ++ final :: rest) := by simp
  rw [happend]
  simp only [lengthAt, htake, hdrop, hf, if_true]
  simp

theorem takeWhile_append_drop (p : Char → Bool) (text : Text) :
    text.takeWhile p ++ text.drop (text.takeWhile p).length = text := by
  have htake : text.takeWhile p = text.take (text.takeWhile p).length :=
    List.prefix_iff_eq_take.mp (List.takeWhile_prefix p)
  have hdrop := List.take_append_drop (text.takeWhile p).length text
  rwa [← htake] at hdrop

/-- A text opens with a code or it does not. -/
theorem lengthAt_cases (text : Text) :
    lengthAt text = 0 ∨ ∃ code rest, IsCode code ∧ text = code ++ rest := by
  unfold lengthAt
  split
  · rename_i rest
    have hrest := takeWhile_append_drop Char.isDigit rest
    have hdigits : ∀ d ∈ rest.takeWhile Char.isDigit, d.isDigit = true := fun d hd =>
      List.mem_takeWhile_imp hd
    dsimp only
    split
    · rename_i d ds final after hd hafter
      by_cases hf : isFinal final = true
      · right
        rw [hafter, hd] at hrest
        rw [hd] at hdigits
        refine ⟨'\x1b' :: '[' :: ((d :: ds) ++ [final]), after, ?_, ?_⟩
        · exact ⟨d :: ds, final, rfl, by simp, hdigits, hf⟩
        · rw [← hrest]
          simp
      · left
        simp [hf]
    · exact .inl rfl
  · exact .inl rfl

theorem lengthAt_eq_zero_of_append {x y : Text} (h : lengthAt (x ++ y) = 0) : lengthAt x = 0 := by
  rcases lengthAt_cases x with hx | ⟨code, rest, hcode, rfl⟩
  · exact hx
  · rw [List.append_assoc, lengthAt_append hcode] at h
    exact absurd (List.length_eq_zero_iff.mp h) hcode.ne_nil

theorem lengthAt_of_ne_escape {c : Char} (h : c ≠ '\x1b') (rest : Text) :
    lengthAt (c :: rest) = 0 := by
  rcases lengthAt_cases (c :: rest) with h' | ⟨code, rest', ⟨digits, final, rfl, -⟩, heq⟩
  · exact h'
  · exact absurd (List.cons.inj heq).1 h

theorem walk_succ (n : Nat) (kept text : Text) : walk n kept text = walk 0 kept (text.drop n) := by
  induction n generalizing text with
  | zero => rfl
  | succ n ih =>
    cases text with
    | nil => simp [walk]
    | cons c text => simp [walk, ih]

theorem strip_cons {c : Char} {rest : Text} (h : lengthAt (c :: rest) = 0) :
    strip (c :: rest) = c :: strip rest := by
  rw [strip, walk, h, walk_eq]
  rfl

/-- A code that a text opens with is removed. -/
theorem strip_code {code : Text} (h : IsCode code) (rest : Text) :
    strip (code ++ rest) = strip rest := by
  have hlength := lengthAt_append h rest
  obtain ⟨c, code, rfl⟩ := List.exists_cons_of_ne_nil h.ne_nil
  rw [List.cons_append] at hlength ⊢
  rw [strip, walk, hlength, List.length_cons]
  simp only
  rw [walk_succ, List.drop_left]
  rfl

/-- Without an escape there is nothing to remove. -/
theorem strip_of_no_escape {text : Text} (h : ∀ c ∈ text, c ≠ '\x1b') (rest : Text) :
    strip (text ++ rest) = text ++ strip rest := by
  induction text with
  | nil => rfl
  | cons c text ih =>
    rw [List.forall_mem_cons] at h
    rw [List.cons_append, strip_cons (lengthAt_of_ne_escape h.1 _), ih h.2, List.cons_append]

/-- Only the first character of a code is an escape. -/
theorem IsCode.no_escape {c : Char} {code : Text} (h : IsCode (c :: code)) :
    ∀ d ∈ code, d ≠ '\x1b' := by
  obtain ⟨digits, final, hcode, -, hd, hf⟩ := h
  rw [(List.cons.inj hcode).2]
  intro d hmem
  rcases List.mem_cons.mp hmem with rfl | hmem
  · decide
  rcases List.mem_append.mp hmem with hmem | hmem
  · rintro rfl
    exact absurd (hd _ hmem) (by decide)
  · rw [List.mem_singleton.mp hmem]
    rintro rfl
    exact absurd hf (by decide)

/-- The beginning of a code is kept where its end is missing. -/
theorem strip_of_opening {x y : Text} (h : IsCode (x ++ y)) (hy : y ≠ []) : strip x = x := by
  cases x with
  | nil => rfl
  | cons c x =>
    have hescape := h.no_escape
    have hzero : lengthAt (c :: x) = 0 := by
      rcases lengthAt_cases (c :: x) with h' | ⟨code, rest, hcode, heq⟩
      · exact h'
      · have hlong := lengthAt_append hcode (rest ++ y)
        have hwhole := lengthAt_append h []
        rw [← List.append_assoc, ← heq] at hlong
        rw [List.append_nil, hlong] at hwhole
        have hlength := congrArg List.length heq
        have hpos := List.length_pos_iff.mpr hy
        simp only [List.length_append] at hwhole hlength
        omega
    have hrest : strip x = x := by
      have := strip_of_no_escape (fun d hd => hescape d (List.mem_append_left y hd)) []
      simpa using this
    rw [strip_cons hzero, hrest]

/-- Two parts of a text are stripped like the whole, or the cut falls within a code. -/
theorem strip_cut (x y : Text) :
    strip (x ++ y) = strip x ++ strip y ∨
      ∃ a code₁ code₂ b, x = a ++ code₁ ∧ y = code₂ ++ b ∧ code₁ ≠ [] ∧ code₂ ≠ [] ∧
        IsCode (code₁ ++ code₂) ∧ strip (x ++ y) = strip a ++ strip b ∧
          strip x = strip a ++ code₁ ∧ strip y = code₂ ++ strip b := by
  induction hn : x.length using Nat.strongRecOn generalizing x with
  | _ n ih =>
  subst hn
  cases x with
  | nil => exact .inl rfl
  | cons c x =>
    rcases lengthAt_cases (c :: x ++ y) with hzero | ⟨code, rest, hcode, heq⟩
    · have hx : lengthAt (c :: x) = 0 := lengthAt_eq_zero_of_append hzero
      rw [List.cons_append] at hzero
      rw [List.cons_append, strip_cons hzero, strip_cons hx]
      rcases ih x.length (by simp) x rfl with h | ⟨a, code₁, code₂, b, rfl, hy, h₁, h₂, hc, hs⟩
      · exact .inl (by rw [h, List.cons_append])
      · refine .inr ⟨c :: a, code₁, code₂, b, rfl, hy, h₁, h₂, hc, ?_⟩
        have ha : lengthAt (c :: a) = 0 := lengthAt_eq_zero_of_append hx
        rw [strip_cons ha, hs.1, hs.2.1]
        exact ⟨rfl, rfl, hs.2.2⟩
    · rcases List.append_eq_append_iff.mp heq with ⟨code₂, hcut, hy⟩ | ⟨x', hx', hrest⟩
      · by_cases h₂ : code₂ = []
        · left
          subst h₂
          simp only [List.append_nil, List.nil_append] at hcut hy
          have hstrip : strip (c :: x) = [] := by
            have := strip_code hcode []
            simpa [hcut] using this
          rw [heq, strip_code hcode, hstrip, hy]
          rfl
        · right
          subst hcut
          refine ⟨[], c :: x, code₂, rest, rfl, hy, by simp, h₂, hcode, ?_, ?_, ?_⟩
          · rw [heq, strip_code hcode]
            rfl
          · rw [strip_of_opening hcode h₂]
            rfl
          · rw [hy]
            exact strip_of_no_escape (fun d hd => hcode.no_escape d (List.mem_append_right x hd)) _
      · have hlt : x'.length < (c :: x).length := by
          have := List.length_pos_iff.mpr hcode.ne_nil
          rw [hx', List.length_append]
          omega
        rw [hx', List.append_assoc, strip_code hcode, strip_code hcode]
        rcases ih x'.length hlt x' rfl with h | ⟨a, code₁, code₂, b, rfl, hy, h₁, h₂, hc, hs⟩
        · exact .inl h
        · refine .inr ⟨code ++ a, code₁, code₂, b, by simp, hy, h₁, h₂, hc, ?_⟩
          rw [strip_code hcode]
          exact hs

end Parley.CursorCode
