import Parley.Proofs.Text.Blanks
import Parley.Text.Numeral

/-! The numerals of positions: digits, with a plus sign in front or not, whose value is below the
limit. Reading finds exactly these (`readPosition_eq_ok_iff`), and what is written is one of them. -/
namespace Parley

def IsPosition (text : Text) (n : Nat) : Prop :=
  ∃ sign digits, text = sign ++ digits ∧ (sign = [] ∨ sign = ['+']) ∧ digits ≠ [] ∧
    (∀ d ∈ digits, d.isDigit = true) ∧ Nat.ofDigitChars 10 digits 0 = n ∧ n < positionLimit

theorem le_ofDigitChars (digits : Text) (value : Nat) :
    value ≤ Nat.ofDigitChars 10 digits value := by
  induction digits generalizing value with
  | nil => simp
  | cons d digits ih =>
    have hnext := ih (10 * value + (d.toNat - '0'.toNat))
    rw [Nat.ofDigitChars_cons]
    omega

theorem readDigits_eq_ok_iff {value : Nat} (hv : value < positionLimit) (digits : Text) (n : Nat) :
    readDigits value digits = .ok n ↔
      (∀ d ∈ digits, d.isDigit = true) ∧ Nat.ofDigitChars 10 digits value = n ∧
        n < positionLimit := by
  induction digits generalizing value with
  | nil =>
    simp only [readDigits, Except.ok.injEq, List.not_mem_nil, false_implies, implies_true,
      Nat.ofDigitChars_nil, true_and]
    constructor
    · rintro rfl
      exact ⟨rfl, hv⟩
    · exact And.left
  | cons d digits ih =>
    rw [readDigits, Nat.ofDigitChars_cons, Nat.mul_comm 10, List.forall_mem_cons]
    by_cases hd : d.isDigit = true
    · by_cases hnext : positionLimit ≤ value * 10 + (d.toNat - '0'.toNat)
      · have hle := le_ofDigitChars digits (value * 10 + (d.toNat - '0'.toNat))
        simp only [hd, hnext, Bool.not_true, Bool.false_eq_true, if_true, if_false, reduceCtorEq,
          true_and, false_iff, not_and, not_lt]
        intro _ hn
        omega
      · have hrest := ih (Nat.lt_of_not_le hnext)
        simp only [hd, hnext, Bool.not_true, Bool.false_eq_true, if_false, true_and]
        exact hrest
    · simp [hd]

theorem readPosition_eq_ok_iff (text : Text) (n : Nat) :
    readPosition text = .ok n ↔ IsPosition text n := by
  have hlimit : 0 < positionLimit := by decide
  constructor
  · intro h
    unfold readPosition at h
    split at h
    · cases h
    · cases h
    · rename_i digits hne
      obtain ⟨hd, hn, hlt⟩ := (readDigits_eq_ok_iff hlimit digits n).mp h
      have hdigits : digits ≠ [] := by
        rintro rfl
        exact hne rfl
      exact ⟨['+'], digits, rfl, .inr rfl, hdigits, hd, hn, hlt⟩
    · rename_i hne _ _
      obtain ⟨hd, hn, hlt⟩ := (readDigits_eq_ok_iff hlimit text n).mp h
      exact ⟨[], text, rfl, .inl rfl, hne, hd, hn, hlt⟩
  · rintro ⟨sign, digits, rfl, hsign, hne, hd, hn, hlt⟩
    have hdigits : readDigits 0 digits = .ok n :=
      (readDigits_eq_ok_iff hlimit digits n).mpr ⟨hd, hn, hlt⟩
    obtain ⟨d, digits, rfl⟩ := List.exists_cons_of_ne_nil hne
    rcases hsign with rfl | rfl
    · have hplus : d ≠ '+' := by
        rintro rfl
        exact absurd (hd '+' List.mem_cons_self) (by decide)
      unfold readPosition
      split
      · simp_all
      · simp_all
      · simp_all
      · exact hdigits
    · exact hdigits

/-- A position is written as one of its numerals. -/
theorem isPosition_writePosition {n : Nat} (h : n < positionLimit) :
    IsPosition (writePosition n) n := by
  have hne : writePosition n ≠ [] := Nat.toDigits_ne_nil
  have hdigits : ∀ d ∈ writePosition n, d.isDigit = true :=
    fun d hd => Nat.isDigit_of_mem_toDigits (by decide) (by decide) hd
  have hvalue : Nat.ofDigitChars 10 (writePosition n) 0 = n := by
    simp [writePosition, decimal, Nat.ofDigitChars_ten_toDigits]
  exact ⟨[], writePosition n, rfl, .inl rfl, hne, hdigits, hvalue, h⟩

theorem isBlank_of_isDigit {c : Char} (h : c.isDigit = true) : isBlank c = false := by
  have hc : 48 ≤ c.toNat ∧ c.toNat ≤ 57 := Char.isDigit_iff_toNat.mp h
  simp only [isBlank, Bool.or_eq_false_iff, Bool.and_eq_false_iff, decide_eq_false_iff_not]
  omega

theorem solid_writePosition (n : Nat) : Text.Solid (writePosition n) :=
  fun _ hd => isBlank_of_isDigit (Nat.isDigit_of_mem_toDigits (by decide) (by decide) hd)

end Parley
