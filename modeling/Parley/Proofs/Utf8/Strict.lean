import Parley.Proofs.Utf8.Heads

/-! Decoding that replaces nothing. It is the inverse of encoding: a text comes out exactly where the
octets encode it (`decode?_eq_some_iff`), and nothing comes out where they encode no text. -/
namespace Parley.Utf8

/-- What is decoded was encoded, the held octets in front. -/
theorem encode_of_decodeFrom {held bytes : Bytes} {text : Text}
    (h : decodeFrom held bytes = some text) : encode text = held ++ bytes := by
  induction bytes generalizing held text with
  | nil =>
    rw [decodeFrom] at h
    split at h
    · rename_i hheld
      obtain rfl : [] = text := Option.some.inj h
      rw [hheld]
      rfl
    · cases h
  | cons b rest ih =>
    rw [decodeFrom] at h
    cases hb : classify (held ++ [b]) with
    | char c =>
      rw [hb] at h
      obtain ⟨more, hmore, rfl⟩ := Option.map_eq_some_iff.mp h
      rw [encode_cons, encodeChar_of_classify hb, ih hmore, List.append_assoc]
      rfl
    | unfinished =>
      rw [hb] at h
      rw [ih h, List.append_assoc]
      rfl
    | invalid =>
      rw [hb] at h
      cases h

/-- The octets that end a character begun before. -/
theorem decodeFrom_rest {held more : Bytes} {c : Char} (hmore : more ≠ [])
    (h : encodeChar c = held ++ more) (bytes : Bytes) :
    decodeFrom held (more ++ bytes) = (decodeFrom [] bytes).map (c :: ·) := by
  induction more generalizing held with
  | nil => contradiction
  | cons b more ih =>
    rw [List.cons_append, decodeFrom]
    by_cases hlast : more = []
    · subst hlast
      rw [← h, classify_encodeChar]
      rfl
    · have hu : classify (held ++ [b]) = .unfinished := by
        rw [classify_eq_unfinished_iff]
        exact ⟨by simp, c, more, hlast, by simpa using h⟩
      rw [hu]
      exact ih hlast (by simpa using h)

theorem decode?_encode (text : Text) : decode? (encode text) = some text := by
  induction text with
  | nil => rfl
  | cons c text ih =>
    have hne : encodeChar c ≠ [] := String.utf8EncodeChar_ne_nil
    rw [encode_cons, decode?, decodeFrom_rest hne (List.nil_append _).symm, ← decode?, ih]
    rfl

theorem decode?_eq_some_iff {bytes : Bytes} {text : Text} :
    decode? bytes = some text ↔ encode text = bytes := by
  constructor
  · exact encode_of_decodeFrom
  · rintro rfl
    exact decode?_encode text

theorem decode?_eq_none {bytes : Bytes} (h : ∀ text, encode text ≠ bytes) :
    decode? bytes = none := by
  rw [Option.eq_none_iff_forall_ne_some]
  exact fun text htext => h text (decode?_eq_some_iff.mp htext)

end Parley.Utf8
