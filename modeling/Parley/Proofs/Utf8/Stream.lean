import Parley.Proofs.Utf8.Heads

/-! A decoder that is fed a stream octet by octet gives what `lossy` gives by looking at its
prefixes. `lossy` is first described at each beginning of a stream: a character, one that the end
leaves unfinished, one that an octet cuts short, and an octet that begins nothing. One octet read by
the decoder then neither adds to the decoding nor takes from it (`lossy_step`). -/
namespace Parley.Utf8

theorem firstPiece_of_char {bytes : Bytes} {c : Char} (rest : Bytes)
    (h : classify bytes = .char c) : firstPiece (bytes ++ rest) = (c, bytes.length) := by
  have hp : ∀ p q, p ≠ [] → q ≠ [] → p ++ q = bytes → classify p = .unfinished := by
    rintro p q hp hq rfl
    exact unfinished_of_opening hp hq (by simp [h])
  match bytes with
  | [] => simp [classify] at h
  | [a] => simp [firstPiece, h]
  | [a₁, a₂] =>
    have h₁ := hp [a₁] [a₂] (by simp) (by simp) rfl
    simp [firstPiece, h₁, h]
  | [a₁, a₂, a₃] =>
    have h₁ := hp [a₁] [a₂, a₃] (by simp) (by simp) rfl
    have h₂ := hp [a₁, a₂] [a₃] (by simp) (by simp) rfl
    simp [firstPiece, h₁, h₂, h]
  | [a₁, a₂, a₃, a₄] =>
    have h₁ := hp [a₁] [a₂, a₃, a₄] (by simp) (by simp) rfl
    have h₂ := hp [a₁, a₂] [a₃, a₄] (by simp) (by simp) rfl
    have h₃ := hp [a₁, a₂, a₃] [a₄] (by simp) (by simp) rfl
    simp [firstPiece, h₁, h₂, h₃, h]
  | _ :: _ :: _ :: _ :: _ :: _ => simp [classify] at h

theorem classify_opening {part : Bytes} (h : classify part = .unfinished) (n : Nat) :
    classify (part.take (n + 1)) = .unfinished := by
  have hl := length_le_of_unfinished h
  by_cases hn : n + 1 < part.length
  · have hi : classify (part.take (n + 1) ++ part.drop (n + 1)) ≠ .invalid := by simp [h]
    exact unfinished_of_opening (by simpa using hl.1) (by simpa using hn) hi
  · rwa [List.take_of_length_le (by omega)]

/-- An unfinished character at the very end is the first piece there. -/
theorem firstPiece_of_unfinished {part : Bytes} (h : classify part = .unfinished) :
    firstPiece part = (replacement, part.length) := by
  have hl := length_le_of_unfinished h
  have hp := classify_opening h
  match part with
  | [] => simp at hl
  | [a] => simp [firstPiece, stubLength, h]
  | [a₁, a₂] =>
    have h₁ := hp 0
    simp at h₁
    simp [firstPiece, stubLength, h, h₁]
  | [a₁, a₂, a₃] =>
    have h₁ := hp 0
    have h₂ := hp 1
    simp at h₁ h₂
    simp [firstPiece, stubLength, h, h₁, h₂]
  | _ :: _ :: _ :: _ :: _ =>
    simp only [List.length_cons] at hl
    omega

/-- What an octet cuts short is the first piece; nothing at all is one octet. -/
theorem firstPiece_of_invalid {part : Bytes} {b : UInt8} (rest : Bytes)
    (hu : part = [] ∨ classify part = .unfinished) (h : classify (part ++ [b]) = .invalid) :
    firstPiece (part ++ b :: rest) = (replacement, max 1 part.length) := by
  have hi : ∀ n, classify (part ++ b :: rest.take n) = .invalid := by
    intro n
    simpa using invalid_append (rest.take n) (by simp) h
  have h₀ := hi 0
  have h₁ := hi 1
  have h₂ := hi 2
  have h₃ := hi 3
  rcases hu with rfl | hu
  · simp at h₀ h₁ h₂ h₃
    simp [firstPiece, stubLength, h₀, h₁, h₂, h₃]
  have hl := length_le_of_unfinished hu
  have hp := classify_opening hu
  match part with
  | [] => simp at hl
  | [a] =>
    simp at h₀ h₁ h₂
    simp [firstPiece, stubLength, hu, h₀, h₁, h₂]
  | [a₁, a₂] =>
    have hp₁ := hp 0
    simp at h₀ h₁ hp₁
    simp [firstPiece, stubLength, hu, h₀, h₁, hp₁]
  | [a₁, a₂, a₃] =>
    have hp₁ := hp 0
    have hp₂ := hp 1
    simp at h₀ hp₁ hp₂
    simp [firstPiece, stubLength, hu, h₀, hp₁, hp₂]
  | _ :: _ :: _ :: _ :: _ =>
    simp only [List.length_cons] at hl
    omega

theorem lossy_of_ne_nil {bytes : Bytes} (h : bytes ≠ []) :
    lossy bytes = (firstPiece bytes).1 :: lossy (bytes.drop (firstPiece bytes).2) := by
  cases bytes with
  | nil => exact absurd rfl h
  | cons b rest => rw [lossy]

theorem lossy_of_char {bytes : Bytes} {c : Char} (rest : Bytes) (h : classify bytes = .char c) :
    lossy (bytes ++ rest) = c :: lossy rest := by
  have hb : bytes ≠ [] := by
    rintro rfl
    simp [classify] at h
  rw [lossy_of_ne_nil (by simp [hb]), firstPiece_of_char rest h, List.drop_left]

theorem lossy_of_unfinished {part : Bytes} (h : classify part = .unfinished) :
    lossy part = [replacement] := by
  rw [lossy_of_ne_nil (length_le_of_unfinished h).1, firstPiece_of_unfinished h]
  simp

theorem lossy_of_cut {part : Bytes} {b : UInt8} (rest : Bytes)
    (hu : classify part = .unfinished) (h : classify (part ++ [b]) = .invalid) :
    lossy (part ++ b :: rest) = replacement :: lossy (b :: rest) := by
  have hl := (length_le_of_unfinished hu).1
  have : max 1 part.length = part.length := by
    have := List.length_pos_iff.mpr hl
    omega
  rw [lossy_of_ne_nil (by simp), firstPiece_of_invalid rest (.inr hu) h, this, List.drop_left]

theorem lossy_of_invalid {b : UInt8} (rest : Bytes) (h : classify [b] = .invalid) :
    lossy (b :: rest) = replacement :: lossy rest := by
  have hp : firstPiece (b :: rest) = (replacement, 1) := by
    simpa using firstPiece_of_invalid rest (.inl rfl) h
  rw [lossy_of_ne_nil (by simp), hp, List.drop_one, List.tail_cons]

/-! What a decoder holds between two octets is nothing or the beginning of a character. -/

def Pending (held : Bytes) : Prop := held = [] ∨ classify held = .unfinished

theorem pending_start (b : UInt8) : Pending (start b).held := by
  unfold start
  split
  · exact .inl rfl
  · exact .inr ‹_›
  · exact .inl rfl

theorem pending_step (held : Bytes) (b : UInt8) : Pending (step held b).held := by
  unfold step
  split
  · exact pending_start b
  split
  · exact .inl rfl
  · exact .inr ‹_›
  · exact pending_start b

/-- The octets held back are fewer than four and begin some character that they do not end. -/
theorem Pending.begins {held : Bytes} (h : Pending held) :
    held.length ≤ 3 ∧ ∃ c more, more ≠ [] ∧ encodeChar c = held ++ more := by
  rcases h with rfl | h
  · exact ⟨by simp, 'a', encodeChar 'a', by decide, rfl⟩
  · exact ⟨(length_le_of_unfinished h).2, exists_ending h⟩

theorem lossy_start (b : UInt8) (rest : Bytes) :
    (start b).out ++ lossy ((start b).held ++ rest) = lossy (b :: rest) := by
  unfold start
  split
  · rename_i c hc
    exact (lossy_of_char rest hc).symm
  · rfl
  · rename_i hi
    exact (lossy_of_invalid rest hi).symm

/-- One octet neither adds to the decoding of a stream nor takes from it. -/
theorem lossy_step {held : Bytes} (h : Pending held) (b : UInt8) (rest : Bytes) :
    (step held b).out ++ lossy ((step held b).held ++ rest) = lossy (held ++ b :: rest) := by
  rcases h with rfl | h
  · exact lossy_start b rest
  simp only [step, (length_le_of_unfinished h).1, if_false]
  split
  · rename_i c hc
    simpa using (lossy_of_char rest hc).symm
  · simp
  · rename_i hi
    rw [List.cons_append, lossy_start, lossy_of_cut rest h hi]

namespace Decoder

/-- A stream in pieces: the decoder after the last of them, and the text that each gave. -/
def feedAll (d : Decoder) : List Bytes → Decoder × List Text
  | [] => (d, [])
  | piece :: rest =>
    (((d.feed piece).1.feedAll rest).1, (d.feed piece).2 :: ((d.feed piece).1.feedAll rest).2)

@[simp] theorem feedAll_nil (d : Decoder) : d.feedAll [] = (d, []) := rfl
@[simp] theorem feedAll_cons (d : Decoder) (piece : Bytes) (rest : List Bytes) :
    d.feedAll (piece :: rest) =
      (((d.feed piece).1.feedAll rest).1, (d.feed piece).2 :: ((d.feed piece).1.feedAll rest).2) :=
  rfl

theorem feed_cons (held : Bytes) (b : UInt8) (rest : Bytes) :
    (⟨held⟩ : Decoder).feed (b :: rest) =
      (((⟨(step held b).held⟩ : Decoder).feed rest).1,
        (step held b).out ++ ((⟨(step held b).held⟩ : Decoder).feed rest).2) := by
  simp only [feed, List.foldl_cons, advance, List.append_nil]
  rw [foldl_advance]
  simp

theorem feedAll_eq_feed (d : Decoder) (pieces : List Bytes) :
    (d.feedAll pieces).1 = (d.feed pieces.flatten).1 ∧
      (d.feedAll pieces).2.flatten = (d.feed pieces.flatten).2 := by
  induction pieces generalizing d with
  | nil => simp
  | cons piece rest ih => simp [ih, feed_append]

theorem pending_feed {d : Decoder} (h : Pending d.held) (bytes : Bytes) :
    Pending (d.feed bytes).1.held := by
  induction bytes generalizing d with
  | nil => exact h
  | cons b rest ih =>
    rw [feed_cons d.held]
    exact ih (pending_step d.held b)

/-- What a decoder still gives for a stream after the octets it holds. -/
theorem feed_finish {held : Bytes} (h : Pending held) (bytes : Bytes) :
    ((⟨held⟩ : Decoder).feed bytes).2 ++ ((⟨held⟩ : Decoder).feed bytes).1.finish =
      lossy (held ++ bytes) := by
  induction bytes generalizing held with
  | nil =>
    rcases h with rfl | h
    · simp [finish]
    · simp [finish, (length_le_of_unfinished h).1, lossy_of_unfinished h]
  | cons b rest ih =>
    rw [feed_cons, List.append_assoc, ih (pending_step held b), lossy_step h]

/-- The texts that come out of a stream in pieces, with what its end flushes as the last. -/
def texts (d : Decoder) (pieces : List Bytes) : List Text :=
  (d.feedAll pieces).2 ++ [(d.feedAll pieces).1.finish]

theorem texts_nil (d : Decoder) : d.texts [] = [d.finish] := rfl
theorem texts_cons (d : Decoder) (piece : Bytes) (rest : List Bytes) :
    d.texts (piece :: rest) = (d.feed piece).2 :: (d.feed piece).1.texts rest := rfl

theorem flatten_texts (pieces : List Bytes) :
    (({} : Decoder).texts pieces).flatten = lossy pieces.flatten := by
  have hfeed := feedAll_eq_feed {} pieces
  have hfinish := feed_finish (.inl rfl : Pending []) pieces.flatten
  rw [texts, List.flatten_append, hfeed.1, hfeed.2, List.flatten_singleton]
  exact hfinish

end Decoder

end Parley.Utf8
