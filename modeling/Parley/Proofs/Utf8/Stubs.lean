import Parley.Proofs.Utf8.Stream

/-! What a decoder holds back of a stream. If the stream so far ends in the beginning of a character,
that beginning is held, whatever came before it (`held_feed_of_unfinished`); what came out is the
lossy decoding of all that stands before (`stopsShort_feed`). -/
namespace Parley.Utf8

/-- The beginning of a character, and not the whole of it. -/
def IsStub (part : Bytes) : Prop := part ≠ [] ∧ ∃ c more, more ≠ [] ∧ encodeChar c = part ++ more

/-- A stream taken apart before the stub that it ends in, if it ends in one. -/
structure StopsShort (bytes body stub : Bytes) : Prop where
  split : bytes = body ++ stub
  isStub : stub = [] ∨ IsStub stub
  only : ∀ before part, bytes = before ++ part → IsStub part → part = stub

theorem not_isTail_of_unfinished {b : UInt8} (h : classify [b] = .unfinished) :
    isTail b = false := by
  rw [Bool.eq_false_iff]
  intro htail
  have hb := (isTail_iff b).mp htail
  rw [classify_one, if_neg (by omega), if_neg (by omega)] at h
  cases h

/-- An octet that begins a character is held, whatever was held before. -/
theorem step_of_unfinished (held : Bytes) {b : UInt8} (h : classify [b] = .unfinished) :
    (step held b).held = [b] := by
  have hstart : (start b).held = [b] := by rw [start, h]
  rw [step]
  by_cases hheld : held = []
  · rw [if_pos hheld, hstart]
  · have hcut : classify (held ++ [b]) = .invalid := by
      by_contra hne
      have htail := isTail_of_append hheld hne
      rw [not_isTail_of_unfinished h] at htail
      cases htail
    rw [if_neg hheld, hcut]
    exact hstart

theorem step_of_append {part : Bytes} {b : UInt8} (hpart : part ≠ [])
    (h : classify (part ++ [b]) = .unfinished) : (step part b).held = part ++ [b] := by
  rw [step, if_neg hpart, h]

/-- An octet leaves nothing held, or is held with what was held before, or cuts that short. -/
theorem step_cases {held : Bytes} (h : Pending held) (b : UInt8) :
    (step held b).held = [] ∨ step held b = ⟨held ++ [b], []⟩ ∨
      classify held = .unfinished ∧ step held b = ⟨[b], [replacement]⟩ := by
  have hstart : (start b).held = [] ∨ start b = ⟨[b], []⟩ := by
    rw [start]
    cases classify [b] with
    | char | invalid => exact .inl rfl
    | unfinished => exact .inr rfl
  rcases h with rfl | h
  · exact hstart.imp id .inl
  · rw [step, if_neg (length_le_of_unfinished h).1]
    cases classify (held ++ [b]) with
    | char => exact .inl rfl
    | unfinished => exact .inr (.inl rfl)
    | invalid =>
      rcases hstart with hnone | hheld
      · exact .inl hnone
      · exact .inr (.inr ⟨h, by rw [hheld]⟩)

namespace Decoder

theorem held_feed_snoc (d : Decoder) (bytes : Bytes) (b : UInt8) :
    (d.feed (bytes ++ [b])).1.held = (step (d.feed bytes).1.held b).held := by
  rw [feed_append]
  rfl

theorem held_feed_of_unfinished (d : Decoder) {part : Bytes} (h : classify part = .unfinished) :
    (d.feed part).1.held = part := by
  induction part using List.reverseRecOn with
  | nil => cases h
  | append_singleton part b ih =>
    rw [held_feed_snoc]
    by_cases hpart : part = []
    · rw [hpart, List.nil_append] at h ⊢
      exact step_of_unfinished _ h
    · have hinit : classify part = .unfinished :=
        unfinished_of_opening hpart (List.cons_ne_nil b []) (by rw [h]; exact nofun)
      rw [ih hinit, step_of_append hpart h]

/-- What comes out of a stream is the decoding of it up to what is held in the end. Either all of it
is still held, or what was held at first came out. -/
theorem exists_body {held : Bytes} (h : Pending held) (bytes : Bytes) :
    ∃ body, held ++ bytes = body ++ ((⟨held⟩ : Decoder).feed bytes).1.held ∧
      ((⟨held⟩ : Decoder).feed bytes).2 = lossy body ∧ (body = [] ∨ held <+: body) := by
  induction bytes generalizing held with
  | nil => exact ⟨[], by simp, by simp, .inl rfl⟩
  | cons b rest ih =>
    obtain ⟨body, hsplit, hout, hbody⟩ := ih (pending_step held b)
    rw [feed_cons]
    generalize (⟨(step held b).held⟩ : Decoder).feed rest = after at hsplit hout ⊢
    dsimp only
    rw [hout]
    by_cases hopening : (step held b).held <+: body
    · obtain ⟨more, rfl⟩ := hopening
      rw [List.append_assoc, List.append_cancel_left_eq] at hsplit
      exact ⟨held ++ b :: more, by simp [hsplit], lossy_step h b more, .inr (List.prefix_append _ _)⟩
    · obtain rfl : body = [] := hbody.resolve_right hopening
      rw [List.nil_append] at hsplit
      rcases step_cases h b with hnone | hstep | ⟨hcut, hstep⟩
      · exact absurd (hnone ▸ List.nil_prefix) hopening
      · rw [hstep] at hsplit ⊢
        exact ⟨[], by simpa using hsplit, by simp, .inl rfl⟩
      · rw [hstep] at hsplit ⊢
        refine ⟨held, by rw [← hsplit]; rfl, ?_, .inr (List.prefix_refl held)⟩
        rw [lossy_nil, lossy_of_unfinished hcut]
        rfl

theorem stopsShort_feed (bytes : Bytes) :
    ∃ body, StopsShort bytes body (({} : Decoder).feed bytes).1.held ∧
      (({} : Decoder).feed bytes).2 = lossy body := by
  obtain ⟨body, hsplit, hout, -⟩ := exists_body (.inl rfl) bytes
  refine ⟨body, ⟨hsplit, ?_, ?_⟩, hout⟩
  · rcases pending_feed (d := {}) (.inl rfl) bytes with hnone | hstub
    · exact .inl hnone
    · exact .inr ((classify_eq_unfinished_iff _).mp hstub)
  · rintro before part rfl hpart
    rw [feed_append]
    exact (held_feed_of_unfinished _ ((classify_eq_unfinished_iff part).mpr hpart)).symm

end Decoder
end Parley.Utf8
