import Mathlib.Data.List.Induction
import Parley.Text.Utf8

/-! What `classify` finds at the beginning of some octets, told by the encodings of characters
alone: octets are a character where they are its encoding (`classify_encodeChar`,
`encodeChar_of_classify`), and unfinished where they are a proper beginning of one
(`classify_eq_unfinished_iff`). All comparisons are first carried over to natural numbers. -/
namespace Parley.Utf8

theorem isTail_iff (b : UInt8) : isTail b = true ↔ 0x80 ≤ b.toNat ∧ b.toNat ≤ 0xBF := by
  simp [isTail, UInt8.le_iff_toNat_le]

theorem isSecond_iff (lead b : UInt8) :
    isSecond lead b = true ↔ (0x80 ≤ b.toNat ∧ b.toNat ≤ 0xBF) ∧
      (lead.toNat = 0xE0 → 0xA0 ≤ b.toNat) ∧ (lead.toNat = 0xED → b.toNat ≤ 0x9F) ∧
      (lead.toNat = 0xF0 → 0x90 ≤ b.toNat) ∧ (lead.toNat = 0xF4 → b.toNat ≤ 0x8F) := by
  simp [isSecond, isTail_iff, UInt8.le_iff_toNat_le, ← UInt8.toNat_inj, and_assoc,
    imp_iff_not_or]

theorem classify_one (a : UInt8) :
    classify [a] =
      if a.toNat < 0x80 then .char (Char.ofNat a.toNat)
      else if 0xC2 ≤ a.toNat ∧ a.toNat ≤ 0xF4 then .unfinished else .invalid := by
  simp [classify, UInt8.lt_iff_toNat_lt, UInt8.le_iff_toNat_le]

theorem classify_two (a b : UInt8) :
    classify [a, b] =
      if (0xC2 ≤ a.toNat ∧ a.toNat ≤ 0xF4) ∧ isSecond a b then
        if a.toNat < 0xE0 then .char (Char.ofNat (a.toNat % 32 * 64 + b.toNat % 64))
        else .unfinished
      else .invalid := by
  simp [classify, tailBits, UInt8.lt_iff_toNat_lt, UInt8.le_iff_toNat_le]

theorem classify_three (a b c : UInt8) :
    classify [a, b, c] =
      if (0xE0 ≤ a.toNat ∧ a.toNat ≤ 0xF4) ∧ isSecond a b ∧ isTail c then
        if a.toNat < 0xF0 then
          .char (Char.ofNat ((a.toNat % 16 * 64 + b.toNat % 64) * 64 + c.toNat % 64))
        else .unfinished
      else .invalid := by
  simp [classify, tailBits, UInt8.lt_iff_toNat_lt, UInt8.le_iff_toNat_le, and_assoc]

theorem classify_four (a b c d : UInt8) :
    classify [a, b, c, d] =
      if (0xF0 ≤ a.toNat ∧ a.toNat ≤ 0xF4) ∧ isSecond a b ∧ isTail c ∧ isTail d then
        .char (Char.ofNat
          (((a.toNat % 8 * 64 + b.toNat % 64) * 64 + c.toNat % 64) * 64 + d.toNat % 64))
      else .invalid := by
  simp [classify, tailBits, UInt8.le_iff_toNat_le, and_assoc]

theorem classify_encodeChar (c : Char) : classify (encodeChar c) = .char c := by
  have hv : c.toNat < 0xD800 ∨ 0xDFFF < c.toNat ∧ c.toNat < 0x110000 := c.valid
  have hc : Char.ofNat c.toNat = c := Char.ofNat_toNat c
  have hn : c.val.toNat = c.toNat := rfl
  unfold encodeChar String.utf8EncodeChar
  simp only [hn]
  generalize c.toNat = n at *
  split
  · rw [classify_one, UInt8.toNat_ofNat', if_pos (by omega), Nat.mod_eq_of_lt (by omega), hc]
  split
  · simp only [classify_two, isSecond_iff, UInt8.toNat_ofNat']
    rw [if_pos (by omega), if_pos (by omega), ← hc]
    congr 2
    omega
  split
  · simp only [classify_three, isSecond_iff, isTail_iff, UInt8.toNat_ofNat']
    rw [if_pos (by omega), if_pos (by omega), ← hc]
    congr 2
    omega
  · simp only [classify_four, isSecond_iff, isTail_iff, UInt8.toNat_ofNat']
    rw [if_pos (by omega), ← hc]
    congr 2
    omega

theorem toNat_ofNat_of_isValidChar {n : Nat} (h : n.isValidChar) : (Char.ofNat n).toNat = n := by
  rw [Char.ofNat, dif_pos h]
  rfl

theorem encodeChar_ofNat {n : Nat} (h : n.isValidChar) :
    encodeChar (Char.ofNat n) =
      if n ≤ 0x7F then [UInt8.ofNat n]
      else if n ≤ 0x7FF then [UInt8.ofNat (n / 64 % 32 + 0xC0), UInt8.ofNat (n % 64 + 0x80)]
      else if n ≤ 0xFFFF then
        [UInt8.ofNat (n / 4096 % 16 + 0xE0), UInt8.ofNat (n / 64 % 64 + 0x80),
          UInt8.ofNat (n % 64 + 0x80)]
      else
        [UInt8.ofNat (n / 262144 % 8 + 0xF0), UInt8.ofNat (n / 4096 % 64 + 0x80),
          UInt8.ofNat (n / 64 % 64 + 0x80), UInt8.ofNat (n % 64 + 0x80)] := by
  have hn : (Char.ofNat n).val.toNat = n := toNat_ofNat_of_isValidChar h
  simp only [encodeChar, String.utf8EncodeChar, hn]

theorem ofNat_eq_of_toNat {a : UInt8} {n : Nat} (h : n = a.toNat) : UInt8.ofNat n = a := by
  rw [h, UInt8.ofNat_toNat]

theorem encodeChar_of_classify {bytes : Bytes} {c : Char} (h : classify bytes = .char c) :
    encodeChar c = bytes := by
  match bytes with
  | [] => simp [classify] at h
  | [a] =>
    rw [classify_one] at h
    split at h
    · obtain rfl := Head.char.inj h
      rw [encodeChar_ofNat (.inl (by omega)), if_pos (by omega), UInt8.ofNat_toNat]
    split at h <;> simp at h
  | [a, b] =>
    simp only [classify_two, isSecond_iff] at h
    split at h
    · split at h
      · obtain rfl := Head.char.inj h
        rw [encodeChar_ofNat (.inl (by omega)), if_neg (by omega), if_pos (by omega)]
        rw [ofNat_eq_of_toNat (a := a) (by omega), ofNat_eq_of_toNat (a := b) (by omega)]
      · simp at h
    · simp at h
  | [a, b, c] =>
    simp only [classify_three, isSecond_iff, isTail_iff] at h
    split at h
    · split at h
      · obtain rfl := Head.char.inj h
        rw [encodeChar_ofNat (by simp only [Nat.isValidChar]; omega), if_neg (by omega),
          if_neg (by omega), if_pos (by omega)]
        rw [ofNat_eq_of_toNat (a := a) (by omega), ofNat_eq_of_toNat (a := b) (by omega),
          ofNat_eq_of_toNat (a := c) (by omega)]
      · simp at h
    · simp at h
  | [a, b, c, d] =>
    simp only [classify_four, isSecond_iff, isTail_iff] at h
    split at h
    · obtain rfl := Head.char.inj h
      rw [encodeChar_ofNat (by simp only [Nat.isValidChar]; omega), if_neg (by omega),
        if_neg (by omega), if_neg (by omega)]
      rw [ofNat_eq_of_toNat (a := a) (by omega), ofNat_eq_of_toNat (a := b) (by omega),
        ofNat_eq_of_toNat (a := c) (by omega), ofNat_eq_of_toNat (a := d) (by omega)]
    · simp at h
  | _ :: _ :: _ :: _ :: _ :: _ => simp [classify] at h

theorem length_le_of_unfinished {bytes : Bytes} (h : classify bytes = .unfinished) :
    bytes ≠ [] ∧ bytes.length ≤ 3 := by
  match bytes with
  | [] => simp [classify] at h
  | [_] | [_, _] | [_, _, _] => simp
  | [a, b, c, d] => rw [classify_four] at h; split at h <;> simp at h
  | _ :: _ :: _ :: _ :: _ :: _ => simp [classify] at h

theorem unfinished_of_append {bytes : Bytes} {b : UInt8} (hb : bytes ≠ [])
    (h : classify (bytes ++ [b]) ≠ .invalid) : classify bytes = .unfinished := by
  match bytes with
  | [] => exact absurd rfl hb
  | [a] =>
    have h' : classify [a, b] ≠ .invalid := h
    rw [classify_two] at h'
    split at h'
    · rw [classify_one, if_neg (by omega), if_pos (by omega)]
    · simp at h'
  | [a₁, a₂] =>
    have h' : classify [a₁, a₂, b] ≠ .invalid := h
    rw [classify_three] at h'
    split at h'
    · rename_i hc
      rw [classify_two, if_pos ⟨by omega, hc.2.1⟩, if_neg (by omega)]
    · simp at h'
  | [a₁, a₂, a₃] =>
    have h' : classify [a₁, a₂, a₃, b] ≠ .invalid := h
    rw [classify_four] at h'
    split at h'
    · rename_i hc
      rw [classify_three, if_pos ⟨by omega, hc.2.1, hc.2.2.1⟩, if_neg (by omega)]
    · simp at h'
  | _ :: _ :: _ :: _ :: _ => simp [classify] at h

theorem unfinished_of_opening {bytes more : Bytes} (hb : bytes ≠ []) (hm : more ≠ [])
    (h : classify (bytes ++ more) ≠ .invalid) : classify bytes = .unfinished := by
  induction more using List.reverseRecOn with
  | nil => exact absurd rfl hm
  | append_singleton more b ih =>
    rw [← List.append_assoc] at h
    have hu := unfinished_of_append (by simp [hb]) h
    by_cases he : more = []
    · simpa [he] using hu
    · exact ih he (by simp [hu])

theorem invalid_append {bytes : Bytes} (more : Bytes) (hb : bytes ≠ [])
    (h : classify bytes = .invalid) : classify (bytes ++ more) = .invalid := by
  by_cases hm : more = []
  · simpa [hm] using h
  · by_cases hc : classify (bytes ++ more) = .invalid
    · exact hc
    · simp [unfinished_of_opening hb hm hc] at h

/-- A second octet that every lead allows that allows one. -/
def anySecond (lead : UInt8) : UInt8 :=
  if lead = 0xE0 then 0xA0 else if lead = 0xF0 then 0x90 else 0x80

theorem isSecond_anySecond (lead : UInt8) : isSecond lead (anySecond lead) = true := by
  unfold anySecond
  split
  · subst lead; decide
  · split
    · subst lead; decide
    · simp_all [isSecond, isTail]

theorem exists_next {bytes : Bytes} (h : classify bytes = .unfinished) :
    ∃ b, classify (bytes ++ [b]) ≠ .invalid := by
  have h80 : isTail 0x80 = true := by decide
  match bytes with
  | [] => simp [classify] at h
  | [a] =>
    rw [classify_one] at h
    split at h
    · simp at h
    split at h
    · rename_i ha
      refine ⟨anySecond a, ?_⟩
      rw [List.singleton_append, classify_two, if_pos ⟨ha, isSecond_anySecond a⟩]
      split <;> simp
    · simp at h
  | [a₁, a₂] =>
    rw [classify_two] at h
    split at h
    · rename_i hc
      split at h
      · simp at h
      · refine ⟨0x80, ?_⟩
        rw [List.cons_append, List.singleton_append, classify_three,
          if_pos ⟨by omega, hc.2, h80⟩]
        split <;> simp
    · simp at h
  | [a₁, a₂, a₃] =>
    rw [classify_three] at h
    split at h
    · rename_i hc
      split at h
      · simp at h
      · refine ⟨0x80, ?_⟩
        rw [List.cons_append, List.cons_append, List.singleton_append, classify_four,
          if_pos ⟨by omega, hc.2.1, hc.2.2, h80⟩]
        simp
    · simp at h
  | _ :: _ :: _ :: _ :: _ =>
    have := (length_le_of_unfinished h).2
    simp only [List.length_cons] at this
    omega

theorem exists_ending {bytes : Bytes} (h : classify bytes = .unfinished) :
    ∃ c more, more ≠ [] ∧ encodeChar c = bytes ++ more := by
  obtain ⟨b, hb⟩ := exists_next h
  cases hc : classify (bytes ++ [b]) with
  | char c => exact ⟨c, [b], by simp, encodeChar_of_classify hc⟩
  | unfinished =>
    obtain ⟨c, more, -, hm⟩ := exists_ending hc
    exact ⟨c, b :: more, by simp, by simpa using hm⟩
  | invalid => exact absurd hc hb
termination_by 4 - bytes.length
decreasing_by
  have := (length_le_of_unfinished hc).2
  simp only [List.length_append, List.length_cons, List.length_nil] at this ⊢
  omega

/-- Octets are unfinished where they are the beginning of a character and not the whole of it. -/
theorem classify_eq_unfinished_iff (bytes : Bytes) :
    classify bytes = .unfinished ↔
      bytes ≠ [] ∧ ∃ c more, more ≠ [] ∧ encodeChar c = bytes ++ more := by
  constructor
  · intro h
    exact ⟨(length_le_of_unfinished h).1, exists_ending h⟩
  · rintro ⟨hb, c, more, hm, hc⟩
    apply unfinished_of_opening hb hm
    rw [← hc, classify_encodeChar]
    simp

theorem encodeChar_of_lt {c : Char} (h : c.toNat < 0x80) :
    encodeChar c = [UInt8.ofNat c.toNat] := by
  have hc : classify [UInt8.ofNat c.toNat] = .char c := by
    rw [classify_one, UInt8.toNat_ofNat', Nat.mod_eq_of_lt (by omega), if_pos h,
      Char.ofNat_toNat]
  exact encodeChar_of_classify hc

/-- An octet below 0x80 that opens a character is all of it. -/
theorem eq_of_encodeChar_cons {c : Char} {b : UInt8} {more : Bytes}
    (h : encodeChar c = b :: more) (hb : b.toNat < 0x80) : c = Char.ofNat b.toNat ∧ more = [] := by
  have hone : classify [b] = .char (Char.ofNat b.toNat) := by rw [classify_one, if_pos hb]
  have hbytes := encodeChar_of_classify hone
  by_cases hm : more = []
  · subst hm
    have := classify_encodeChar c
    rw [h, hone] at this
    exact ⟨(Head.char.inj this).symm, rfl⟩
  · have hu : classify [b] = .unfinished := by
      rw [classify_eq_unfinished_iff]
      exact ⟨by simp, c, more, hm, by simpa using h⟩
    rw [hone] at hu
    simp at hu

theorem isTail_of_append {part : Bytes} {b : UInt8} (hp : part ≠ [])
    (h : classify (part ++ [b]) ≠ .invalid) : isTail b = true := by
  match part with
  | [] => exact absurd rfl hp
  | [a] =>
    have h' : classify [a, b] ≠ .invalid := h
    rw [classify_two] at h'
    split at h'
    · rename_i hc
      exact (isTail_iff b).mpr ((isSecond_iff a b).mp hc.2).1
    · simp at h'
  | [a₁, a₂] =>
    have h' : classify [a₁, a₂, b] ≠ .invalid := h
    rw [classify_three] at h'
    split at h'
    · rename_i hc
      exact hc.2.2
    · simp at h'
  | [a₁, a₂, a₃] =>
    have h' : classify [a₁, a₂, a₃, b] ≠ .invalid := h
    rw [classify_four] at h'
    split at h'
    · rename_i hc
      exact hc.2.2.2
    · simp at h'
  | _ :: _ :: _ :: _ :: _ => simp [classify] at h

/-- The octets of a character after its first begin none themselves. -/
theorem invalid_of_mem_tail {c : Char} {b t : UInt8} {more : Bytes} (h : encodeChar c = b :: more)
    (ht : t ∈ more) : classify [t] = .invalid := by
  obtain ⟨before, behind, rfl⟩ := List.append_of_mem ht
  have hi : classify ((b :: before) ++ [t]) ≠ .invalid := by
    intro hi
    have := invalid_append behind (by simp) hi
    rw [show b :: before ++ [t] ++ behind = encodeChar c by simp [h], classify_encodeChar] at this
    simp at this
  have htail := (isTail_iff t).mp (isTail_of_append (by simp) hi)
  rw [classify_one, if_neg (by omega), if_neg (by omega)]

end Parley.Utf8
