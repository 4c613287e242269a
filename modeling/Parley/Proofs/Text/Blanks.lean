import Mathlib.Data.List.TakeWhile
import Parley.Text.Blank

/-! Trimming, breaking at a blank and splitting into words, told by how a text is put together. What
is trimmed off is all blank and what is left neither begins nor ends in a blank (`pads_trim`,
`trim_of_pads`); the words of a text stand between runs of blanks (`splits_iff`). -/
namespace Parley

/-- A list falls apart into the longest ending of elements of a kind and what stands before. -/
theorem split_ending {α : Type} (p : α → Bool) (l : List α) :
    ∃ ending, l = (l.reverse.dropWhile p).reverse ++ ending ∧ (∀ a ∈ ending, p a = true) ∧
      ∀ a, (l.reverse.dropWhile p).reverse.getLast? = some a → p a = false := by
  refine ⟨(l.reverse.takeWhile p).reverse, ?_, ?_, ?_⟩
  · rw [← List.reverse_append, List.takeWhile_append_dropWhile, List.reverse_reverse]
  · intro a ha
    exact List.mem_takeWhile_imp (List.mem_reverse.mp ha)
  · intro a ha
    rw [List.getLast?_reverse] at ha
    have hhead := List.head?_dropWhile_not p l.reverse
    rwa [ha] at hhead

theorem isBlank_space : isBlank ' ' = true := by decide +kernel

namespace Text

/-- Nothing but blanks. -/
def Blank (t : Text) : Prop := ∀ c ∈ t, isBlank c = true

def Solid (t : Text) : Prop := ∀ c ∈ t, isBlank c = false

def Unindented (t : Text) : Prop := ∀ c ∈ t.head?, isBlank c = false

structure Tight (t : Text) : Prop where
  start : t.Unindented
  stop : Unindented t.reverse

/-- Nothing, or a blank first. -/
def Parted (t : Text) : Prop := ∀ c ∈ t.head?, isBlank c = true

theorem allBlank_iff (t : Text) : t.allBlank = true ↔ t.Blank := List.all_eq_true

theorem solid_iff_all (t : Text) : t.Solid ↔ (t.all fun c => !isBlank c) = true := by
  simp [Solid]

instance (t : Text) : Decidable t.Blank := decidable_of_iff _ t.allBlank_iff

theorem blank_nil : Blank [] := by simp [Blank]

theorem blank_space : Blank [' '] := fun _ hc => List.mem_singleton.mp hc ▸ isBlank_space

theorem Blank.append {a b : Text} (ha : a.Blank) (hb : b.Blank) : (a ++ b).Blank := by
  intro c hc
  rcases List.mem_append.mp hc with h | h
  · exact ha c h
  · exact hb c h

theorem Blank.parted {t : Text} (h : t.Blank) : t.Parted :=
  fun c hc => h c (List.mem_of_mem_head? hc)

/-- What begins neither with a blank nor with anything else is empty. -/
theorem Unindented.eq_nil_of_parted {t : Text} (h : t.Unindented) (hparted : t.Parted) :
    t = [] := by
  cases t with
  | nil => rfl
  | cons c t =>
    have hblank : isBlank c = true := hparted c rfl
    rw [h c rfl] at hblank
    cases hblank

theorem Blank.reverse {t : Text} (h : t.Blank) : Blank t.reverse :=
  fun c hc => h c (List.mem_reverse.mp hc)

theorem Solid.reverse {t : Text} (h : t.Solid) : Solid t.reverse :=
  fun c hc => h c (List.mem_reverse.mp hc)

theorem Solid.unindented {t : Text} (h : t.Solid) : t.Unindented :=
  fun c hc => h c (List.mem_of_mem_head? hc)

theorem Solid.tight {t : Text} (h : t.Solid) : t.Tight := ⟨h.unindented, h.reverse.unindented⟩

/-- Only the first character counts. -/
theorem unindented_append_iff {t : Text} (hne : t ≠ []) (more : Text) :
    Unindented (t ++ more) ↔ t.Unindented := by
  cases t with
  | nil => exact absurd rfl hne
  | cons c t => exact Iff.rfl

/-! Trimming -/

theorem trimStart_of_unindented {t : Text} (h : t.Unindented) : trimStart t = t := by
  cases t with
  | nil => rfl
  | cons c t =>
    have hc : isBlank c = false := h c rfl
    simp [trimStart, hc]

theorem trimStart_append {blanks : Text} (hb : blanks.Blank) (t : Text) :
    trimStart (blanks ++ t) = trimStart t := List.dropWhile_append_of_pos hb

theorem unindented_trimStart (t : Text) : (trimStart t).Unindented := by
  intro c hc
  have hhead := List.head?_dropWhile_not isBlank t
  rw [trimStart] at hc
  rw [Option.mem_def.mp hc] at hhead
  exact hhead

theorem trimStart_eq_iff (t rest : Text) :
    trimStart t = rest ↔ ∃ blanks, blanks.Blank ∧ t = blanks ++ rest ∧ rest.Unindented := by
  constructor
  · rintro rfl
    refine ⟨t.takeWhile isBlank, ?_, ?_, unindented_trimStart t⟩
    · exact fun c hc => List.mem_takeWhile_imp hc
    · exact List.takeWhile_append_dropWhile.symm
  · rintro ⟨blanks, hb, rfl, hrest⟩
    rw [trimStart_append hb, trimStart_of_unindented hrest]

theorem trimEnd_eq (t : Text) : trimEnd t = (trimStart t.reverse).reverse := rfl

/-- A text is its core with blanks around it. -/
def Pads (t core : Text) : Prop :=
  ∃ before after, before.Blank ∧ after.Blank ∧ t = before ++ core ++ after ∧ core.Tight

theorem Pads.tight {t core : Text} (h : t.Pads core) : core.Tight := by
  obtain ⟨-, -, -, -, -, hcore⟩ := h
  exact hcore

theorem Tight.pads {t : Text} (h : t.Tight) : t.Pads t :=
  ⟨[], [], blank_nil, blank_nil, by simp, h⟩

theorem Blank.pads {t : Text} (h : t.Blank) : t.Pads [] :=
  ⟨t, [], h, blank_nil, by simp, by simp [Unindented], by simp [Unindented]⟩

theorem pads_trim (t : Text) : t.Pads t.trim := by
  obtain ⟨before, hbefore, ht, hstarts⟩ := (trimStart_eq_iff t _).mp rfl
  obtain ⟨after, hafter, hrest, hstop⟩ := (trimStart_eq_iff (trimStart t).reverse _).mp rfl
  have hcore : trimStart t = t.trim ++ after.reverse := by
    have := congrArg List.reverse hrest
    rwa [List.reverse_reverse, List.reverse_append] at this
  have hstart : t.trim.Unindented := by
    by_cases hne : t.trim = []
    · rw [hne]
      simp [Unindented]
    · rw [hcore] at hstarts
      exact (unindented_append_iff hne after.reverse).mp hstarts
  have hend : Unindented t.trim.reverse := by
    rw [trim, trimEnd_eq, List.reverse_reverse]
    exact hstop
  refine ⟨before, after.reverse, hbefore, hafter.reverse, ?_, hstart, hend⟩
  rw [List.append_assoc, ← hcore]
  exact ht

theorem trim_of_pads {t core : Text} (h : t.Pads core) : t.trim = core := by
  obtain ⟨before, after, hbefore, hafter, rfl, hcore⟩ := h
  by_cases hne : core = []
  · subst hne
    have hblank : (before ++ [] ++ after).Blank := (hbefore.append blank_nil).append hafter
    have hnone : trimStart (before ++ [] ++ after) = [] :=
      (trimStart_eq_nil _).mpr ((allBlank_iff _).mpr hblank)
    rw [trim, hnone, trimEnd_nil]
  · have hstarts : Unindented (core ++ after) := (unindented_append_iff hne after).mpr hcore.start
    have hrest : trimStart (before ++ core ++ after) = core ++ after := by
      rw [List.append_assoc, trimStart_append hbefore, trimStart_of_unindented hstarts]
    rw [trim, hrest, trimEnd_eq, List.reverse_append, trimStart_append hafter.reverse,
      trimStart_of_unindented hcore.stop, List.reverse_reverse]

theorem pads_nil_iff (t : Text) : t.Pads [] ↔ t.Blank := by
  constructor
  · rintro ⟨before, after, hbefore, hafter, rfl, -⟩
    exact (hbefore.append blank_nil).append hafter
  · exact Blank.pads

/-! Breaking at the first blank -/

/-- What stands behind a word that a blank or the end of the text ends, and what of it comes after
that blank. -/
inductive Leaves : Text → Text → Prop where
  | nothing : Leaves [] []
  | rest {b : Char} (hb : isBlank b = true) (rest : Text) : Leaves (b :: rest) rest

theorem Leaves.parted {tail rest : Text} (h : Leaves tail rest) : tail.Parted := by
  cases h with
  | nothing => simp [Parted]
  | rest hb rest => simp [Parted, hb]

theorem breakAtBlank_append {word tail rest : Text} (hw : word.Solid) (h : Leaves tail rest) :
    breakAtBlank (word ++ tail) = (word, rest) := by
  have hword : ∀ c ∈ word, (!isBlank c) = true := fun c hc => by simp [hw c hc]
  rw [breakAtBlank, List.takeWhile_append_of_pos hword, List.dropWhile_append_of_pos hword]
  cases h with
  | nothing => simp
  | rest hb rest => simp [hb]

theorem leaves_breakAtBlank (t : Text) :
    (breakAtBlank t).1.Solid ∧ ∃ tail, Leaves tail (breakAtBlank t).2 ∧
      t = (breakAtBlank t).1 ++ tail := by
  refine ⟨fun c hc => ?_, t.dropWhile (!isBlank ·), ?_, ?_⟩
  · simpa using List.mem_takeWhile_imp hc
  · have hhead := List.head?_dropWhile_not (!isBlank ·) t
    simp only [breakAtBlank]
    cases htail : t.dropWhile (!isBlank ·) with
    | nil => exact .nothing
    | cons b rest =>
      rw [htail] at hhead
      exact .rest (by simpa using hhead) rest
  · exact List.takeWhile_append_dropWhile.symm

/-! Splitting into words -/

/-- The words of a text: each is ended by blanks or by the end of the text. -/
inductive Splits : Text → List Text → Prop where
  | blank {t : Text} (h : t.Blank) : Splits t []
  | word {blanks word tail : Text} {words : List Text} (hb : blanks.Blank) (hne : word ≠ [])
      (hw : word.Solid) (htail : tail.Parted) (h : Splits tail words) :
      Splits (blanks ++ word ++ tail) (word :: words)

theorem wordsFrom_solid (part : Text) {word : Text} (h : word.Solid) (tail : Text) :
    wordsFrom part (word ++ tail) = wordsFrom (word.reverse ++ part) tail := by
  induction word generalizing part with
  | nil => rfl
  | cons c word ih =>
    have hc : isBlank c = false := h c List.mem_cons_self
    have hword : Solid word := fun d hd => h d (List.mem_cons_of_mem c hd)
    rw [List.cons_append, wordsFrom]
    simp only [hc]
    rw [if_neg Bool.false_ne_true, ih (c :: part) hword]
    simp

/-- A word that has been read is ended by a blank. -/
theorem wordsFrom_parted {part : Text} (hne : part ≠ []) {tail : Text} (h : tail.Parted) :
    wordsFrom part tail = part.reverse :: words tail := by
  cases tail with
  | nil => simp [wordsFrom, hne, words]
  | cons b tail =>
    have hb : isBlank b = true := h b rfl
    simp [wordsFrom, words, hb, hne]

theorem words_append {blanks : Text} (h : blanks.Blank) (t : Text) :
    words (blanks ++ t) = words t := by
  induction blanks with
  | nil => rfl
  | cons b blanks ih =>
    have hb : isBlank b = true := h b List.mem_cons_self
    have hblanks : Blank blanks := fun c hc => h c (List.mem_cons_of_mem b hc)
    have hskip : words (b :: (blanks ++ t)) = words (blanks ++ t) := by
      simp [words, wordsFrom, hb]
    rw [List.cons_append, hskip, ih hblanks]

theorem Splits.words_eq {t : Text} {words : List Text} (h : Splits t words) : t.words = words := by
  induction h with
  | blank h => exact (words_eq_nil _).mpr ((allBlank_iff _).mpr h)
  | @word blanks word tail words hb hne hw htail h ih =>
    have hword : word.reverse ++ [] ≠ [] := by simpa using hne
    rw [List.append_assoc, words_append hb, Text.words, wordsFrom_solid [] hw,
      wordsFrom_parted hword htail, ih]
    simp

theorem splits_words (t : Text) : Splits t t.words := by
  induction hlength : t.length using Nat.strongRecOn generalizing t with
  | _ length ih =>
  subst hlength
  obtain ⟨blanks, hb, ht, hstarts⟩ := (trimStart_eq_iff t _).mp rfl
  obtain ⟨hword, tail, htail, hrest⟩ := leaves_breakAtBlank (trimStart t)
  by_cases hne : (breakAtBlank (trimStart t)).1 = []
  · -- With no word to read there is nothing behind the blanks.
    rw [hne, List.nil_append] at hrest
    have hparted := htail.parted
    rw [← hrest] at hparted
    have hnil : trimStart t = [] := hstarts.eq_nil_of_parted hparted
    have hblank : t.Blank := (allBlank_iff t).mp ((trimStart_eq_nil t).mp hnil)
    rw [(words_eq_nil t).mpr ((allBlank_iff t).mpr hblank)]
    exact .blank hblank
  · have hlt : tail.length < t.length := by
      have hpos := List.length_pos_iff.mpr hne
      have hlengths := congrArg List.length ht
      rw [hrest, List.length_append, List.length_append] at hlengths
      omega
    have hsplits : Splits (blanks ++ (breakAtBlank (trimStart t)).1 ++ tail)
        ((breakAtBlank (trimStart t)).1 :: tail.words) :=
      .word hb hne hword htail.parted (ih tail.length hlt tail rfl)
    have heq : blanks ++ (breakAtBlank (trimStart t)).1 ++ tail = t := by
      rw [List.append_assoc, ← hrest, ← ht]
    rw [heq] at hsplits
    rw [hsplits.words_eq]
    exact hsplits

theorem splits_iff (t : Text) (words : List Text) : Splits t words ↔ t.words = words :=
  ⟨Splits.words_eq, fun h => h ▸ splits_words t⟩

theorem Splits.behind {t : Text} {words : List Text} (h : Splits t words) {blanks : Text}
    (hb : blanks.Blank) : Splits (blanks ++ t) words := by
  rw [splits_iff, words_append hb, h.words_eq]

/-- Trimming changes no word. -/
theorem Splits.of_pads {t core : Text} {words : List Text} (ht : t.Pads core)
    (h : Splits core words) : Splits t words := by
  obtain ⟨before, after, hbefore, hafter, rfl, -⟩ := ht
  have hparted : after.Parted := hafter.parted
  have hend : Splits (core ++ after) words := by
    clear hbefore before
    induction h with
    | blank hb => exact .blank (hb.append hafter)
    | @word blanks word tail words hb hne hw htail h ih =>
      have htail' : (tail ++ after).Parted := by
        cases tail with
        | nil => exact hparted
        | cons b tail => exact htail
      rw [List.append_assoc]
      exact .word hb hne hw htail' ih
  rw [List.append_assoc]
  exact hend.behind hbefore

theorem words_trim (t : Text) : t.trim.words = t.words :=
  (Splits.of_pads (pads_trim t) (splits_words t.trim)).words_eq.symm

end Text
end Parley
