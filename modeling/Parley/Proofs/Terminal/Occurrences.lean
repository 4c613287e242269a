import Parley.Proofs.Terminal.Stripped

/-! Where the cursor codes of a text stand. No two of them overlap (`apart_of_occurs`), since only
the first character of a code is an escape. So it does not matter in which order they are looked
for: `strip` keeps the characters that lie in none of them (`strip_eq_uncovered`), and a text can be
stripped in two parts exactly where no code lies across the cut (`strip_append_iff`). -/
namespace Parley.CursorCode

/-- A cursor code stands in a text, from a position on. -/
structure Occurs (text : Text) (start : Nat) (code : Text) : Prop where
  isCode : IsCode code
  stands : code <+: text.drop start

def Covered (text : Text) (i : Nat) : Prop :=
  ∃ start code, Occurs text start code ∧ start ≤ i ∧ i < start + code.length

/-- A cursor code lies across the cut between two parts. -/
def Straddles (x y : Text) (start : Nat) (code : Text) : Prop :=
  Occurs (x ++ y) start code ∧ start < x.length ∧ x.length < start + code.length

variable {text x y code : Text} {start i : Nat}

/-! Codes are found by their lengths, so it can be computed whether a position belongs to one. -/

theorem Occurs.lengthAt_eq (h : Occurs text start code) :
    lengthAt (text.drop start) = code.length := by
  obtain ⟨rest, hrest⟩ := h.stands
  rw [← hrest, lengthAt_append h.isCode]

theorem occurs_of_lengthAt (h : lengthAt (text.drop start) ≠ 0) :
    ∃ code, Occurs text start code := by
  rcases lengthAt_cases (text.drop start) with hzero | ⟨code, rest, hcode, hdrop⟩
  · exact absurd hzero h
  · exact ⟨code, hcode, rest, hdrop.symm⟩

theorem covered_iff :
    Covered text i ↔ ∃ start < i + 1, i < start + lengthAt (text.drop start) := by
  constructor
  · rintro ⟨start, code, h, hstart, hi⟩
    exact ⟨start, by omega, by rwa [h.lengthAt_eq]⟩
  · rintro ⟨start, hstart, hi⟩
    obtain ⟨code, h⟩ := @occurs_of_lengthAt text start (by omega)
    exact ⟨start, code, h, by omega, by rwa [← h.lengthAt_eq]⟩

instance (text : Text) (i : Nat) : Decidable (Covered text i) :=
  decidable_of_iff' _ covered_iff

/-- The characters that belong to no cursor code, in order. -/
def uncovered (text : Text) : Text :=
  (text.zipIdx.filter fun c => ¬ Covered text c.2).map Prod.fst

/-! Two codes are the same or apart. -/

theorem Occurs.getElem? (h : Occurs text start code) (hi : i < code.length) :
    text[start + i]? = code[i]? := by
  obtain ⟨rest, hrest⟩ := h.stands
  rw [← List.getElem?_drop, ← hrest, List.getElem?_append_left hi]

/-- A code begins with an escape, and holds no other. -/
theorem Occurs.escape_iff (h : Occurs text start code) (hi : i < code.length) :
    text[start + i]? = some '\x1b' ↔ i = 0 := by
  rw [h.getElem? hi]
  obtain ⟨c, more, rfl⟩ := List.exists_cons_of_ne_nil h.isCode.ne_nil
  constructor
  · intro hescape
    cases i with
    | zero => rfl
    | succ i => exact absurd rfl (h.isCode.no_escape _ (List.mem_of_getElem? hescape))
  · rintro rfl
    obtain ⟨digits, final, hcode, -⟩ := h.isCode
    rw [(List.cons.inj hcode).1]
    rfl

theorem Occurs.length_pos (h : Occurs text start code) : 0 < code.length :=
  List.length_pos_iff.mpr h.isCode.ne_nil

theorem Occurs.eq_of_within {start' : Nat} {code' : Text} (h : Occurs text start code)
    (h' : Occurs text start' code') (hle : start ≤ start') (hlt : start' < start + code.length) :
    start = start' ∧ code = code' := by
  obtain ⟨k, rfl⟩ := Nat.exists_eq_add_of_le hle
  have hescape := (h'.escape_iff h'.length_pos).mpr rfl
  obtain rfl : k = 0 := (h.escape_iff (by omega)).mp hescape
  have hlength : code.length = code'.length := by
    rw [← h.lengthAt_eq, ← h'.lengthAt_eq, Nat.add_zero]
  exact ⟨rfl, (List.prefix_of_prefix_length_le h.stands h'.stands hlength.le).eq_of_length hlength⟩

/-- Codes never overlap. -/
theorem apart_of_occurs {start' : Nat} {code' : Text} (h : Occurs text start code)
    (h' : Occurs text start' code') :
    (start = start' ∧ code = code') ∨ start + code.length ≤ start' ∨
      start' + code'.length ≤ start := by
  rcases Nat.lt_or_ge start' (start + code.length) with hlt | hge
  · rcases Nat.lt_or_ge start (start' + code'.length) with hlt' | hge'
    · left
      rcases Nat.le_total start start' with hle | hle
      · exact h.eq_of_within h' hle hlt
      · obtain ⟨hstart, hcode⟩ := h'.eq_of_within h hle hlt'
        exact ⟨hstart.symm, hcode.symm⟩
    · exact .inr (.inr hge')
  · exact .inr (.inl hge)

/-! The codes of a text are those of its parts, but for one that lies across the cut. -/

theorem Occurs.append (h : Occurs x start code) (y : Text) : Occurs (x ++ y) start code := by
  refine ⟨h.isCode, ?_⟩
  rw [List.drop_append]
  exact h.stands.trans (List.prefix_append _ _)

theorem occurs_append_right :
    Occurs (x ++ y) (x.length + start) code ↔ Occurs y start code := by
  have hdrop : (x ++ y).drop (x.length + start) = y.drop start := by
    rw [← List.drop_drop, List.drop_left]
  constructor
  · rintro ⟨hcode, hstands⟩
    exact ⟨hcode, hdrop ▸ hstands⟩
  · rintro ⟨hcode, hstands⟩
    exact ⟨hcode, hdrop.symm ▸ hstands⟩

theorem Occurs.left (h : Occurs (x ++ y) start code) (hend : start + code.length ≤ x.length) :
    Occurs x start code := by
  have hstands := h.stands
  rw [List.drop_append_of_le_length (by omega)] at hstands
  have hlength : code.length ≤ (x.drop start).length := by
    rw [List.length_drop]
    omega
  exact ⟨h.isCode, List.prefix_of_prefix_length_le hstands (List.prefix_append _ _) hlength⟩

theorem covered_append_left (hcut : ∀ start code, ¬ Straddles x y start code)
    (hi : i < x.length) : Covered (x ++ y) i ↔ Covered x i := by
  constructor
  · rintro ⟨start, code, h, hstart, hlt⟩
    have hend : start + code.length ≤ x.length := by
      by_contra hover
      exact hcut start code ⟨h, by omega, by omega⟩
    exact ⟨start, code, h.left hend, hstart, hlt⟩
  · rintro ⟨start, code, h, hstart, hlt⟩
    exact ⟨start, code, h.append y, hstart, hlt⟩

theorem covered_append_right (hcut : ∀ start code, ¬ Straddles x y start code) :
    Covered (x ++ y) (x.length + i) ↔ Covered y i := by
  constructor
  · rintro ⟨start, code, h, hstart, hlt⟩
    have hge : x.length ≤ start := by
      by_contra hbefore
      exact hcut start code ⟨h, by omega, by omega⟩
    obtain ⟨k, rfl⟩ := Nat.exists_eq_add_of_le hge
    exact ⟨k, code, occurs_append_right.mp h, by omega, by omega⟩
  · rintro ⟨start, code, h, hstart, hlt⟩
    exact ⟨x.length + start, code, occurs_append_right.mpr h, by omega, by omega⟩

theorem uncovered_append (hcut : ∀ start code, ¬ Straddles x y start code) :
    uncovered (x ++ y) = uncovered x ++ uncovered y := by
  have hleft : x.zipIdx.filter (fun c => ¬ Covered (x ++ y) c.2) =
      x.zipIdx.filter fun c => ¬ Covered x c.2 := by
    refine List.filter_congr fun c hc => ?_
    have hi : c.2 < x.length := by simpa using List.snd_lt_of_mem_zipIdx hc
    rw [decide_eq_decide, covered_append_left hcut hi]
  have hright : (y.zipIdx x.length).filter (fun c => ¬ Covered (x ++ y) c.2) =
      (y.zipIdx.filter fun c => ¬ Covered y c.2).map fun c => (c.1, x.length + c.2) := by
    rw [List.zipIdx_eq_map_add, List.filter_map]
    simp only [Function.comp_def, covered_append_right hcut]
  rw [uncovered, List.zipIdx_append, List.filter_append, List.map_append, Nat.zero_add, hleft,
    hright, List.map_map]
  rfl

/-! Stripping goes from code to code, and where one begins or ends nothing lies across. -/

theorem not_straddles (h : Occurs (x ++ y) start code)
    (hedge : x.length = start ∨ x.length = start + code.length) (start' : Nat) (code' : Text) :
    ¬ Straddles x y start' code' := by
  rintro ⟨h', hbefore, hafter⟩
  rcases apart_of_occurs h h' with ⟨rfl, rfl⟩ | hleft | hright
  · omega
  · omega
  · omega

theorem Straddles.append (h : Straddles x y start code) (z : Text) :
    Straddles x (y ++ z) start code :=
  ⟨List.append_assoc x y z ▸ h.1.append z, h.2⟩

theorem uncovered_singleton {c : Char} (h : lengthAt [c] = 0) : uncovered [c] = [c] := by
  have hout : ¬ Covered [c] 0 := by
    rw [covered_iff]
    rintro ⟨start, hstart, hlt⟩
    obtain rfl : start = 0 := by omega
    rw [List.drop_zero, h] at hlt
    omega
  simp [uncovered, hout]

theorem uncovered_code (h : IsCode code) : uncovered code = [] := by
  have hall : ∀ c ∈ code.zipIdx, Covered code c.2 := fun c hc =>
    ⟨0, code, ⟨h, List.prefix_refl _⟩, Nat.zero_le _, by
      simpa using List.snd_lt_of_mem_zipIdx hc⟩
  rw [uncovered, List.filter_eq_nil_iff.mpr, List.map_nil]
  simpa using hall

/-- A single pass keeps the characters that belong to no cursor code, and no others. -/
theorem strip_eq_uncovered (text : Text) : strip text = uncovered text := by
  induction hn : text.length using Nat.strongRecOn generalizing text with
  | _ n ih =>
  subst hn
  rcases lengthAt_cases text with hzero | ⟨code, rest, hcode, rfl⟩
  · cases text with
    | nil => rfl
    | cons c rest =>
      have hcut : ∀ start code, ¬ Straddles [c] rest start code := by
        rintro start code ⟨h, hstart, -⟩
        obtain rfl : start = 0 := by simpa using hstart
        have hlength := h.lengthAt_eq
        rw [List.drop_zero, List.singleton_append, hzero] at hlength
        exact absurd hlength.symm h.length_pos.ne'
      have hc : lengthAt [c] = 0 := @lengthAt_eq_zero_of_append [c] rest hzero
      calc strip (c :: rest) = c :: strip rest := strip_cons hzero
        _ = c :: uncovered rest := by rw [ih rest.length (by simp) rest rfl]
        _ = uncovered [c] ++ uncovered rest := by rw [uncovered_singleton hc]; rfl
        _ = uncovered (c :: rest) := (uncovered_append hcut).symm
  · have hfirst : Occurs (code ++ rest) 0 code := ⟨hcode, List.prefix_append _ _⟩
    have hcut := not_straddles hfirst (.inr (Nat.zero_add _).symm)
    have hlt : rest.length < (code ++ rest).length := by
      have := hfirst.length_pos
      rw [List.length_append]
      omega
    rw [strip_code hcode, ih _ hlt rest rfl, uncovered_append hcut, uncovered_code hcode]
    rfl

theorem strip_append (hcut : ∀ start code, ¬ Straddles x y start code) :
    strip (x ++ y) = strip x ++ strip y := by
  simp only [strip_eq_uncovered]
  exact uncovered_append hcut

/-- The parts of a code that lies across a cut. -/
theorem Straddles.exists_parts (h : Straddles x y start code) :
    ∃ a code₁ code₂ b, x = a ++ code₁ ∧ y = code₂ ++ b ∧ code = code₁ ++ code₂ ∧
      a.length = start ∧ code₁ ≠ [] ∧ code₂ ≠ [] := by
  obtain ⟨hoccurs, hstart, hend⟩ := h
  obtain ⟨b, hb⟩ := hoccurs.stands
  rw [List.drop_append_of_le_length hstart.le] at hb
  have hlength := congrArg List.length hb
  simp only [List.length_append, List.length_drop] at hlength
  rcases List.append_eq_append_iff.mp hb with ⟨code₂, hdrop, -⟩ | ⟨code₂, hcode, hy⟩
  · -- The code would end before the cut.
    have := congrArg List.length hdrop
    simp only [List.length_append, List.length_drop] at this
    omega
  · have hcodes := congrArg List.length hcode
    simp only [List.length_append, List.length_drop] at hcodes
    refine ⟨x.take start, x.drop start, code₂, b, (List.take_append_drop _ _).symm, hy, hcode,
      List.length_take_of_le hstart.le, ?_, ?_⟩
    · exact List.length_pos_iff.mp (by rw [List.length_drop]; omega)
    · exact List.length_pos_iff.mp (by omega)

/-- A code that a cut goes through is stripped from the whole, and kept where the parts are stripped
by themselves. -/
theorem Straddles.strip_eq (h : Straddles x y start code) :
    ∃ a b, x ++ y = a ++ code ++ b ∧ a.length = start ∧ strip (x ++ y) = strip a ++ strip b ∧
      strip x ++ strip y = strip a ++ code ++ strip b := by
  obtain ⟨a, code₁, code₂, b, rfl, rfl, rfl, ha, h₁, h₂⟩ := h.exists_parts
  have hcode : IsCode (code₁ ++ code₂) := h.1.isCode
  have hwhole : a ++ code₁ ++ (code₂ ++ b) = a ++ (code₁ ++ code₂ ++ b) := by simp
  have hoccurs := h.1
  rw [hwhole] at hoccurs
  have hcut := not_straddles hoccurs (.inl ha)
  have hcut₁ : ∀ start' code', ¬ Straddles a code₁ start' code' := by
    intro start' code' hstraddles
    refine hcut start' code' ?_
    rw [List.append_assoc]
    exact hstraddles.append _
  have hsecond : strip (code₂ ++ b) = code₂ ++ strip b := by
    obtain ⟨c, more, rfl⟩ := List.exists_cons_of_ne_nil h₁
    exact strip_of_no_escape (fun d hd => hcode.no_escape d (List.mem_append_right more hd)) b
  refine ⟨a, b, by simp, ha, ?_, ?_⟩
  · rw [hwhole, strip_append hcut, strip_code hcode]
  · rw [strip_append hcut₁, strip_of_opening hcode h₂, hsecond]
    simp

theorem strip_append_iff :
    strip (x ++ y) = strip x ++ strip y ↔ ∀ start code, ¬ Straddles x y start code := by
  constructor
  · intro h start code hstraddles
    obtain ⟨a, b, -, -, hwhole, hparts⟩ := hstraddles.strip_eq
    rw [hwhole, hparts] at h
    have hlength := congrArg List.length h
    have hpos := hstraddles.1.length_pos
    simp only [List.length_append] at hlength
    omega
  · exact strip_append

/-- What is kept of a text, and how that depends on where it is cut. The cursor codes of the text
are apart from each other; exactly the characters outside them are kept, in order; and stripping
two parts gives the same as stripping the whole exactly where no code lies across the cut. One that
does is kept whole, between what is kept of the text before it and of the text behind it. -/
theorem strip_of_occurrences (text : Text) :
    strip text = uncovered text ∧
      (∀ start code start' code', Occurs text start code → Occurs text start' code' →
        (start = start' ∧ code = code') ∨ start + code.length ≤ start' ∨
          start' + code'.length ≤ start) ∧
      ∀ x y, text = x ++ y →
        (strip text = strip x ++ strip y ↔ ∀ start code, ¬ Straddles x y start code) ∧
          ∀ start code, Straddles x y start code →
            ∃ a b, text = a ++ code ++ b ∧ a.length = start ∧
              strip text = strip a ++ strip b ∧
              strip x ++ strip y = strip a ++ code ++ strip b := by
  refine ⟨strip_eq_uncovered text, fun _ _ _ _ => apart_of_occurs, ?_⟩
  rintro x y rfl
  exact ⟨strip_append_iff, fun _ _ h => h.strip_eq⟩

/-- A code can begin within one that failed, and what a removal brings together is no code. -/
example :
    uncovered "a\x1b[1\x1b[2K;\x1b[\x1b[3J4Gb\x1b[K".toList = "a\x1b[1;\x1b[4Gb\x1b[K".toList := by
  decide +kernel

end Parley.CursorCode
