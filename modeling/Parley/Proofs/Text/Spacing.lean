import Parley.Proofs.Text.Blanks

/-! Words put together with single spaces. Splitting gives them back (`splits_joinWith`), and the
words of a text so put together are the trimmed text with one space for each run of blanks
(`joinWith_words`). -/
namespace Parley.Text

structure IsWord (t : Text) : Prop where
  ne_nil : t ≠ []
  solid : t.Solid

theorem isWord_iff (t : Text) :
    t.IsWord ↔ t ≠ [] ∧ (t.all fun c => !isBlank c) = true := by
  rw [← solid_iff_all]
  exact ⟨fun h => ⟨h.ne_nil, h.solid⟩, fun h => ⟨h.1, h.2⟩⟩

instance (t : Text) : Decidable t.IsWord := decidable_of_iff _ t.isWord_iff.symm

/-- One space for each run of blanks: a blank with another one behind it is left out. -/
def singleSpaced : Text → Text
  | [] => []
  | c :: rest =>
    if isBlank c then
      if rest.head?.any isBlank then singleSpaced rest else ' ' :: singleSpaced rest
    else c :: singleSpaced rest

@[simp] theorem singleSpaced_nil : singleSpaced [] = [] := rfl

theorem singleSpaced_solid {word : Text} (h : word.Solid) (tail : Text) :
    singleSpaced (word ++ tail) = word ++ singleSpaced tail := by
  induction word with
  | nil => rfl
  | cons c word ih =>
    have hc : isBlank c = false := h c List.mem_cons_self
    have hword : Solid word := fun d hd => h d (List.mem_cons_of_mem c hd)
    simp [singleSpaced, hc, ih hword]

/-- The blanks that follow a blank are of the same run. -/
theorem singleSpaced_blank {b : Char} (hb : isBlank b = true) (tail : Text) :
    singleSpaced (b :: tail) = ' ' :: singleSpaced (trimStart tail) := by
  induction tail generalizing b with
  | nil => simp [singleSpaced, hb]
  | cons c tail ih =>
    by_cases hc : isBlank c = true
    · have hskip : singleSpaced (b :: c :: tail) = singleSpaced (c :: tail) := by
        rw [singleSpaced]
        simp [hb, hc]
      have htail : trimStart (c :: tail) = trimStart tail := by simp [trimStart, hc]
      rw [hskip, ih hc, htail]
    · have htail : trimStart (c :: tail) = c :: tail := by simp [trimStart, hc]
      rw [singleSpaced, htail]
      simp [hb, hc]

theorem Splits.isWord {t : Text} {words : List Text} (h : Splits t words) :
    ∀ word ∈ words, IsWord word := by
  induction h with
  | blank h => simp
  | word hb hne hw htail h ih =>
    intro word hword
    rcases List.mem_cons.mp hword with rfl | hword
    · exact ⟨hne, hw⟩
    · exact ih word hword

theorem splits_joinWith {words : List Text} (h : ∀ word ∈ words, IsWord word) :
    Splits (joinWith [' '] words) words := by
  induction words with
  | nil => exact .blank blank_nil
  | cons word words ih =>
    have hword : IsWord word := h word List.mem_cons_self
    have hwords := ih fun next hnext => h next (List.mem_cons_of_mem word hnext)
    cases words with
    | nil =>
      have hlast : Splits ([] ++ word ++ []) [word] :=
        .word blank_nil hword.ne_nil hword.solid Leaves.nothing.parted hwords
      rwa [List.nil_append, List.append_nil] at hlast
    | cons next rest =>
      rw [joinWith_cons_cons, List.append_assoc]
      have hparted : Parted ([' '] ++ joinWith [' '] (next :: rest)) :=
        (Leaves.rest isBlank_space _).parted
      exact .word blank_nil hword.ne_nil hword.solid hparted (hwords.behind blank_space)

/-- A text that does not end in a blank has a word behind every blank, so that each run of blanks
inside stands where words are put together. -/
theorem Splits.joinWith_eq {t : Text} {words : List Text} (h : Splits t words)
    (hstop : Unindented t.reverse) : joinWith [' '] words = singleSpaced t.trimStart := by
  induction h with
  | @blank t h =>
    have hnone : t.trimStart = [] := (trimStart_eq_nil t).mpr ((allBlank_iff t).mpr h)
    rw [hnone, joinWith_nil, singleSpaced_nil]
  | @word blanks word tail words hb hne hw htail h ih =>
    have hstart : Unindented (word ++ tail) := (unindented_append_iff hne tail).mpr hw.unindented
    rw [List.append_assoc, trimStart_append hb, trimStart_of_unindented hstart,
      singleSpaced_solid hw]
    cases tail with
    | nil =>
      have hnone : words = [] := h.words_eq.symm
      rw [hnone, joinWith_singleton, singleSpaced_nil, List.append_nil]
    | cons b rest =>
      have hblank : isBlank b = true := htail b rfl
      have htrim : trimStart (b :: rest) = trimStart rest := by simp [trimStart, hblank]
      have hlast : Unindented (b :: rest).reverse := by
        rw [List.reverse_append] at hstop
        exact (unindented_append_iff (by simp) _).mp hstop
      rw [singleSpaced_blank hblank, ← htrim, ← ih hlast]
      cases words with
      | nil =>
        have hrest : Blank (b :: rest) := (allBlank_iff _).mp ((words_eq_nil _).mp h.words_eq)
        have hnone : (b :: rest).reverse = [] := hlast.eq_nil_of_parted hrest.reverse.parted
        simp at hnone
      | cons next words => simp

theorem joinWith_words (t : Text) : joinWith [' '] t.words = t.trim.singleSpaced := by
  have hsplits : Splits t.trim t.words := words_trim t ▸ splits_words t.trim
  have htight : t.trim.Tight := (pads_trim t).tight
  rw [hsplits.joinWith_eq htight.stop, trimStart_of_unindented htight.start]

example : joinWith [' '] (words " a\t \u3000b  c\n".toList) = "a b c".toList := by decide +kernel

end Parley.Text
