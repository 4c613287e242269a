import Parley.Proofs.Terminal.Painted

/-! What an octet can make a machine do, whatever has been read before it (`yields_step`). A control
is executed where its own octet is read; a character is printed where it is none, or where it was
cut between two chunks. So a backspace comes from nothing but a backspace (`back_notMem_strokes`),
and where no character was cut, all that is put on a canvas may be shown (`isShown_of_mem_strokes`).
-/
namespace Parley.Terminal

namespace Machine

inductive Yields (m : Machine) (b : UInt8) : Action → Prop where
  | execute : Yields m b (.execute b)
  | replacement : Yields m b (.print Utf8.replacement)
  | character {before : Bytes} {c : Char} (h : Utf8.encodeChar c = before ++ [b]) :
      Yields m b (character c)
  | resumed (c : Char) (h : m.resumed = true) : Yields m b (.print c)
  | dispatch (s : Sequence) : Yields m b (.dispatch s b)

section
variable (m : Machine) (b : UInt8)

theorem yields_fresh : ∀ a ∈ (m.fresh b).2, Yields m b a := by
  intro a ha
  by_cases he : isEscape b = true
  · simp only [fresh, if_pos he] at ha
    cases ha
  · cases hb : Utf8.classify [b] with
    | char c =>
      have hc : Utf8.encodeChar c = [] ++ [b] := Utf8.encodeChar_of_classify hb
      simp only [fresh, if_neg he, hb, List.mem_singleton] at ha
      exact ha ▸ .character hc
    | unfinished =>
      simp only [fresh, if_neg he, hb] at ha
      cases ha
    | invalid =>
      simp only [fresh, if_neg he, hb, List.mem_singleton] at ha
      by_cases hle : b ≤ 0x9F
      · rw [if_pos hle] at ha
        exact ha ▸ .execute
      · rw [if_neg hle] at ha
        exact ha ▸ .replacement

theorem yields_ground : ∀ a ∈ (m.ground b).2, Yields m b a := by
  intro a ha
  have hfresh := yields_fresh m b a
  unfold ground at ha
  by_cases hh : m.held = []
  · rw [if_pos hh] at ha
    exact hfresh ha
  · rw [if_neg hh] at ha
    cases hb : Utf8.classify (m.held ++ [b]) with
    | char c =>
      have hc := Utf8.encodeChar_of_classify hb
      simp only [hb, List.mem_singleton] at ha
      by_cases hr : m.resumed = true
      · rw [if_pos hr] at ha
        exact ha ▸ .resumed c hr
      · rw [if_neg hr] at ha
        exact ha ▸ .character hc
    | unfinished => simp [hb] at ha
    | invalid =>
      simp only [hb, List.mem_cons] at ha
      rcases ha with rfl | ha
      · exact .replacement
      · exact hfresh ha

theorem yields_of_execute {a : Action} (ha : a ∈ [Action.execute b]) : Yields m b a :=
  List.mem_singleton.mp ha ▸ .execute

theorem yields_anywhere : ∀ a ∈ (m.anywhere b).2, Yields m b a := by
  intro a ha
  unfold anywhere at ha
  split_ifs at ha
  · exact yields_of_execute m b ha
  · cases ha
  · cases ha

theorem yields_untilEnd (terminator : UInt8) : ∀ a ∈ (untilEnd terminator m b).2, Yields m b a := by
  intro a ha
  unfold untilEnd at ha
  split_ifs at ha
  · cases ha
  · exact yields_anywhere m b a ha

theorem yields_select : ∀ a ∈ (m.select b).2, Yields m b a := by
  intro a ha
  unfold select at ha
  split_ifs at ha <;> first | exact yields_of_execute m b ha | cases ha

theorem yields_dispatch : ∀ a ∈ (m.dispatch b).2, Yields m b a := by
  intro a ha
  have heq : a = .dispatch m.sequence.close b := List.mem_singleton.mp ha
  exact heq ▸ .dispatch _

theorem yields_control (start : Bool) : ∀ a ∈ (control start m b).2, Yields m b a := by
  intro a ha
  unfold control at ha
  split_ifs at ha <;> first
    | exact yields_of_execute m b ha
    | exact yields_dispatch m b a ha
    | exact yields_anywhere m b a ha
    | cases ha

theorem yields_device (start : Bool) : ∀ a ∈ (device start m b).2, Yields m b a := by
  intro a ha
  unfold device at ha
  split_ifs at ha <;> first | exact yields_anywhere m b a ha | cases ha

/-- One case for each mode. -/
theorem yields_step : ∀ a ∈ (m.step b).2, Yields m b a := by
  intro a ha
  unfold step at ha
  cases hm : m.mode with
  | ground => exact yields_ground m b a (by simpa only [hm] using ha)
  | escape => exact yields_select m b a (by simpa only [hm] using ha)
  | controlStart => exact yields_control m b true a (by simpa only [hm] using ha)
  | controlParams => exact yields_control m b false a (by simpa only [hm] using ha)
  | deviceStart => exact yields_device m b true a (by simpa only [hm] using ha)
  | deviceParams => exact yields_device m b false a (by simpa only [hm] using ha)
  | deviceBody => exact yields_untilEnd m b 0x9C a (by simpa only [hm] using ha)
  | command => exact yields_untilEnd m b 0x07 a (by simpa only [hm] using ha)
  | deviceIgnored | ignoredString => exact yields_anywhere m b a (by simpa only [hm] using ha)
  | escapeMarks | controlMarks | controlIgnored | deviceMarks =>
    simp only [hm] at ha
    split_ifs at ha <;> first
      | exact yields_of_execute m b ha
      | exact yields_dispatch m b a ha
      | exact yields_anywhere m b a ha
      | cases ha

end

/-! What the actions do to a canvas. -/

theorem eq_backspace_of_execute {b : UInt8} (h : (Action.execute b).stroke? = some .back) :
    b = 0x08 := by
  simp only [Action.stroke?] at h
  split_ifs at h with _ _ hback
  · cases h
  · cases h
  · exact hback

theorem isShown_of_execute {b : UInt8} {ch : Char}
    (h : (Action.execute b).stroke? = some (.put ch)) : IsShown ch := by
  simp only [Action.stroke?] at h
  split_ifs at h
  · have hch : '\n' = ch := by simpa using h
    exact .inl hch.symm
  · have hch : '\t' = ch := by simpa using h
    exact .inr (.inl hch.symm)
  · cases h

/-- Only a backspace takes anything back. -/
theorem eq_backspace_of_yields {m : Machine} {b : UInt8} {a : Action} (h : Yields m b a)
    (hs : a.stroke? = some .back) : b = 0x08 := by
  cases h with
  | execute => exact eq_backspace_of_execute hs
  | replacement => cases hs
  | @character before c hc =>
    rw [character] at hs
    split_ifs at hs with hcontrol
    · have hbyte : UInt8.ofNat c.toNat = 0x08 := eq_backspace_of_execute hs
      have hmod : c.toNat % 2 ^ 8 = 8 := by
        have := congrArg UInt8.toNat hbyte
        rwa [UInt8.toNat_ofNat'] at this
      simp only [Bool.or_eq_true, Bool.and_eq_true, decide_eq_true_eq] at hcontrol
      have hlt : c.toNat < 0x80 := by omega
      rw [Utf8.encodeChar_of_lt hlt, hbyte] at hc
      exact (List.mem_singleton.mp (hc ▸ List.mem_append_right before (List.mem_singleton_self b)))
    · cases hs
  | resumed c hr => cases hs
  | dispatch s =>
    simp only [Action.stroke?] at hs
    split_ifs at hs
    cases hs

theorem isShown_replacement : IsShown Utf8.replacement := by decide

/-- What is put may be shown, unless it was cut between chunks. -/
theorem isShown_of_yields {m : Machine} {b : UInt8} {a : Action} {ch : Char}
    (hm : m.resumed = false) (h : Yields m b a) (hs : a.stroke? = some (.put ch)) : IsShown ch := by
  have hprint : ∀ c : Char, (Action.print c).stroke? = some (.put ch) → c = ch := by
    intro c hc
    simpa only [Action.stroke?, Option.some.injEq, Stroke.put.injEq] using hc
  cases h with
  | execute => exact isShown_of_execute hs
  | replacement => exact hprint _ hs ▸ isShown_replacement
  | @character before c hc =>
    rw [character] at hs
    split_ifs at hs with hcontrol
    · exact isShown_of_execute hs
    · have hch : c = ch := hprint c hs
      simp only [Bool.or_eq_true, Bool.and_eq_true, decide_eq_true_eq] at hcontrol
      right; right
      rw [← hch]
      omega
  | resumed c hr => rw [hm] at hr; cases hr
  | dispatch s =>
    simp only [Action.stroke?] at hs
    split_ifs at hs
    cases hs

/-- No character that was cut between chunks comes out of nothing. -/
theorem resumed_step {m : Machine} (h : m.resumed = false) (b : UInt8) :
    (m.step b).1.resumed = false := by
  by_cases hg : m.mode = .ground
  · have hfresh : (m.fresh b).1.resumed = false := by
      unfold fresh
      by_cases he : isEscape b = true
      · simp [he, enterEscape]
      · cases hb : Utf8.classify [b] <;> simp [he]
    rw [step_of_ground hg, ground]
    by_cases hh : m.held = []
    · rw [if_pos hh]
      exact hfresh
    · rw [if_neg hh]
      cases hb : Utf8.classify (m.held ++ [b]) with
      | char c => rfl
      | unfinished => exact h
      | invalid => exact hfresh
  · have hcarry := congrArg Prod.snd (carry_step hg b)
    exact hcarry.trans h

/-- Each stroke comes from an action of an octet. -/
theorem exists_of_mem_strokesOf {m : Machine} {k : Stroke} {bytes : Bytes}
    (h : k ∈ m.strokesOf bytes) : ∃ n b a, b ∈ bytes ∧ Yields n b a ∧ a.stroke? = some k ∧
      (m.resumed = false → n.resumed = false) := by
  induction bytes generalizing m with
  | nil => cases h
  | cons b rest ih =>
    rw [strokesOf_cons, List.mem_append] at h
    rcases h with h | h
    · obtain ⟨a, ha, hk⟩ := List.mem_filterMap.mp h
      exact ⟨m, b, a, List.mem_cons_self, yields_step m b a ha, hk, id⟩
    · obtain ⟨n, x, a, hx, hn, hk, hr⟩ := ih h
      exact ⟨n, x, a, List.mem_cons_of_mem b hx, hn, hk, fun hm => hr (resumed_step hm b)⟩

theorem mem_of_mem_encode {c : Char} (hc : c.toNat < 0x80) {text : Text}
    (h : UInt8.ofNat c.toNat ∈ Utf8.encode text) : c ∈ text := by
  obtain ⟨d, hd, hmem⟩ := List.mem_flatMap.mp h
  have hbyte : (UInt8.ofNat c.toNat).toNat = c.toNat := by
    rw [UInt8.toNat_ofNat', Nat.mod_eq_of_lt (by omega)]
  cases he : Utf8.encodeChar d with
  | nil => exact absurd he String.utf8EncodeChar_ne_nil
  | cons b more =>
    rw [he] at hmem
    rcases List.mem_cons.mp hmem with hb | htail
    · have hlt : b.toNat < 0x80 := by rw [← hb, hbyte]; exact hc
      have hd' : d = Char.ofNat b.toNat := (Utf8.eq_of_encodeChar_cons he hlt).1
      rw [← hb, hbyte, Char.ofNat_toNat] at hd'
      exact hd' ▸ hd
    · have hinvalid := Utf8.invalid_of_mem_tail he htail
      rw [Utf8.classify_one, hbyte, if_pos hc] at hinvalid
      cases hinvalid

/-- Text without backspaces takes nothing back, wherever it is read. -/
theorem back_notMem_strokes (m : Machine) {text : Text} (h : '\x08' ∉ text) :
    Stroke.back ∉ m.strokes text := by
  intro hback
  obtain ⟨n, b, a, hb, hn, hk, -⟩ := exists_of_mem_strokesOf hback
  have heq : b = 0x08 := eq_backspace_of_yields hn hk
  subst heq
  exact h (mem_of_mem_encode (c := '\x08') (by decide) hb)

theorem isShown_of_mem_strokes {m : Machine} (hm : m.Calm) {text : Text} {ch : Char}
    (h : Stroke.put ch ∈ m.strokes text) : IsShown ch := by
  obtain ⟨n, b, a, -, hn, hk, hr⟩ := exists_of_mem_strokesOf h
  exact isShown_of_yields (hr ((calm_iff m).mp hm).2) hn hk

end Machine
end Parley.Terminal
