import Parley.Proofs.Utf8.Stream

/-! The lossy decoding of a stream, told without a decoder: the stream falls into encodings of
characters and ill-formed parts, and each such part is as long as octets can be that begin a
character. `repairs_iff` says that `lossy` gives this text and no other, `text_of_pieces` that a
decoder gives it however the stream is cut. -/
namespace Parley.Utf8

def Opens (bytes : Bytes) : Prop := ∃ c, bytes <+: encodeChar c

/-- The octets in front of `rest` that one U+FFFD stands for: no character begins there, and they
are as many as open one, or a single octet that opens none. -/
structure IllFormed (part rest : Bytes) : Prop where
  no_char : ∀ c, ¬ encodeChar c <+: part ++ rest
  opens : part.length = 1 ∨ part ≠ [] ∧ Opens part
  longest : ∀ more, more ≠ [] → more <+: rest → ¬ Opens (part ++ more)

/-- A stream as text, character by character, each ill-formed part as one U+FFFD. -/
inductive Repairs : Bytes → Text → Prop
  | nil : Repairs [] []
  | char (c : Char) {rest : Bytes} {text : Text} :
    Repairs rest text → Repairs (encodeChar c ++ rest) (c :: text)
  | illFormed {part rest : Bytes} {text : Text} :
    IllFormed part rest → Repairs rest text → Repairs (part ++ rest) (replacement :: text)

theorem opens_iff {bytes : Bytes} (h : bytes ≠ []) :
    Opens bytes ↔ classify bytes ≠ .invalid := by
  constructor
  · rintro ⟨c, more, hc⟩
    by_cases hm : more = []
    · have := classify_encodeChar c
      simp_all
    · rw [(classify_eq_unfinished_iff bytes).mpr ⟨h, c, more, hm, hc.symm⟩]
      simp
  · intro hi
    cases hc : classify bytes with
    | char c => exact ⟨c, [], by simp [encodeChar_of_classify hc]⟩
    | unfinished =>
      obtain ⟨c, more, -, hm⟩ := exists_ending hc
      exact ⟨c, more, hm.symm⟩
    | invalid => exact absurd hc hi

/-- The character that opens a stream, the end that leaves one open, or the octet that breaks it
off. -/
theorem stream_cases {held : Bytes} (h : Pending held) (bytes : Bytes) :
    held ++ bytes = [] ∨ classify (held ++ bytes) = .unfinished ∨
      (∃ c part rest, held ++ bytes = part ++ rest ∧ classify part = .char c) ∨
      ∃ part b rest, held ++ bytes = part ++ b :: rest ∧ Pending part ∧
        classify (part ++ [b]) = .invalid := by
  induction bytes generalizing held with
  | nil =>
    rcases h with rfl | h
    · simp
    · simp [h]
  | cons b rest ih =>
    cases hc : classify (held ++ [b]) with
    | char c => exact .inr (.inr (.inl ⟨c, held ++ [b], rest, by simp, hc⟩))
    | unfinished => simpa using ih (.inr hc)
    | invalid => exact .inr (.inr (.inr ⟨held, b, rest, rfl, h, hc⟩))

theorem not_encodeChar_of_unfinished {bytes : Bytes} (h : classify bytes = .unfinished) (c : Char) :
    ¬ encodeChar c <+: bytes := by
  rintro ⟨more, rfl⟩
  have hc := classify_encodeChar c
  by_cases hm : more = []
  · simp_all
  · have hi : classify (encodeChar c ++ more) ≠ .invalid := by simp [h]
    have hu := unfinished_of_opening String.utf8EncodeChar_ne_nil hm hi
    exact absurd (hc.symm.trans hu) (by simp)

theorem not_opens_of_invalid {part : Bytes} {b : UInt8} (more : Bytes)
    (h : classify (part ++ [b]) = .invalid) : ¬ Opens (part ++ b :: more) := by
  rw [opens_iff (by simp), not_not]
  simpa using invalid_append more (by simp) h

theorem not_encodeChar_of_invalid {part rest : Bytes} {b : UInt8} (hp : Pending part)
    (h : classify (part ++ [b]) = .invalid) (c : Char) : ¬ encodeChar c <+: part ++ b :: rest := by
  intro hc
  have hp' : part ++ [b] <+: part ++ b :: rest := ⟨rest, by simp⟩
  rcases List.prefix_or_prefix_of_prefix hc hp' with hs | hs
  · rcases List.prefix_concat_iff.mp hs with hs | hs
    · simp [← hs, classify_encodeChar] at h
    · rcases hp with rfl | hu
      · have := classify_encodeChar c
        simp [List.prefix_nil.mp hs, classify] at this
      · exact not_encodeChar_of_unfinished hu c hs
  · exact not_opens_of_invalid [] h ⟨c, hs⟩

theorem illFormed_of_unfinished {part : Bytes} (h : classify part = .unfinished) :
    IllFormed part [] where
  no_char := by simpa using not_encodeChar_of_unfinished h
  opens := by
    have hl := (length_le_of_unfinished h).1
    exact .inr ⟨hl, (opens_iff hl).mpr (by simp [h])⟩
  longest := by
    intro more hm hr
    exact absurd (List.prefix_nil.mp hr) hm

theorem illFormed_of_cut {part rest : Bytes} {b : UInt8} (h : classify part = .unfinished)
    (hb : classify (part ++ [b]) = .invalid) : IllFormed part (b :: rest) where
  no_char := not_encodeChar_of_invalid (.inr h) hb
  opens := (illFormed_of_unfinished h).opens
  longest := by
    intro more hm hr
    obtain ⟨more, rfl, -⟩ := (List.prefix_cons_iff.mp hr).resolve_left hm
    exact not_opens_of_invalid more hb

theorem illFormed_of_invalid {b : UInt8} (rest : Bytes) (h : classify [b] = .invalid) :
    IllFormed [b] rest where
  no_char := by simpa using not_encodeChar_of_invalid (.inl rfl) (by simpa using h)
  opens := .inl rfl
  longest := by
    intro more _ _
    have hb : classify ([] ++ [b]) = .invalid := h
    exact not_opens_of_invalid more hb

theorem length_pos_of_char {bytes : Bytes} {c : Char} (h : classify bytes = .char c) :
    0 < bytes.length := by
  cases bytes with
  | nil => simp [Utf8.classify] at h
  | cons b rest => simp

/-- Every ill-formed part is unfinished or a single octet that begins nothing. -/
theorem IllFormed.classify {part rest : Bytes} (h : IllFormed part rest) :
    classify part = .unfinished ∨ ∃ b, part = [b] ∧ Utf8.classify [b] = .invalid := by
  cases hc : Utf8.classify part with
  | char c =>
    refine absurd ⟨rest, ?_⟩ (h.no_char c)
    rw [encodeChar_of_classify hc]
  | unfinished => exact .inl rfl
  | invalid =>
    rcases h.opens with hl | ⟨hn, ho⟩
    · obtain ⟨b, rfl⟩ := List.length_eq_one_iff.mp hl
      exact .inr ⟨b, rfl, hc⟩
    · exact absurd hc ((opens_iff hn).mp ho)

theorem lossy_of_repairs {bytes : Bytes} {text : Text} (h : Repairs bytes text) :
    lossy bytes = text := by
  induction h with
  | nil => exact lossy_nil
  | char c _ ih => rw [lossy_of_char _ (classify_encodeChar c), ih]
  | @illFormed part rest text hp _ ih =>
    rcases hp.classify with hu | ⟨b, rfl, hi⟩
    · cases rest with
      | nil => rw [List.append_nil, lossy_of_unfinished hu, ← ih, lossy_nil]
      | cons b rest =>
        have hb : classify (part ++ [b]) = .invalid := by
          have := hp.longest [b] (by simp) (by simp)
          rwa [opens_iff (by simp), not_not] at this
        rw [lossy_of_cut rest hu hb, ih]
    · rw [List.singleton_append, lossy_of_invalid rest hi, ih]

theorem repairs_lossy (bytes : Bytes) : Repairs bytes (lossy bytes) := by
  induction hn : bytes.length using Nat.strongRecOn generalizing bytes with
  | _ n ih =>
    subst hn
    have hc := stream_cases (.inl rfl) bytes
    rw [List.nil_append] at hc
    rcases hc with rfl | h | ⟨c, part, rest, rfl, hc⟩ | ⟨part, b, rest, rfl, rfl | hu, hb⟩
    · rw [lossy_nil]
      exact .nil
    · rw [lossy_of_unfinished h]
      simpa using Repairs.illFormed (illFormed_of_unfinished h) .nil
    · have := length_pos_of_char hc
      rw [lossy_of_char rest hc, ← encodeChar_of_classify hc]
      exact .char c (ih rest.length (by simp; omega) rest rfl)
    · rw [List.nil_append, lossy_of_invalid rest hb]
      exact .illFormed (illFormed_of_invalid rest hb) (ih rest.length (by simp) rest rfl)
    · have := List.length_pos_iff.mpr (length_le_of_unfinished hu).1
      rw [lossy_of_cut rest hu hb]
      exact .illFormed (illFormed_of_cut hu hb) (ih _ (by simp; omega) (b :: rest) rfl)

/-- `lossy` is the one way to mend a stream. -/
theorem repairs_iff (bytes : Bytes) (text : Text) : Repairs bytes text ↔ text = lossy bytes := by
  constructor
  · intro h
    exact (lossy_of_repairs h).symm
  · rintro rfl
    exact repairs_lossy bytes

namespace Decoder

/-- However a stream is cut, what the pieces and the end give is its lossy decoding, and what is held
back in between begins some character that it does not end. -/
theorem text_of_pieces (pieces : List Bytes) :
    let run := ({} : Decoder).feedAll pieces
    run.2.flatten ++ run.1.finish = lossy pieces.flatten ∧
      Repairs pieces.flatten (run.2.flatten ++ run.1.finish) ∧
      run.1.held.length ≤ 3 ∧ ∃ c more, more ≠ [] ∧ encodeChar c = run.1.held ++ more := by
  intro run
  have hrun := feedAll_eq_feed {} pieces
  have htext : run.2.flatten ++ run.1.finish = lossy pieces.flatten := by
    rw [hrun.1, hrun.2]
    exact feed_finish (.inl rfl) pieces.flatten
  refine ⟨htext, (repairs_iff _ _).mpr htext, ?_⟩
  rw [hrun.1]
  exact (pending_feed (.inl rfl) pieces.flatten).begins

end Decoder

end Parley.Utf8
