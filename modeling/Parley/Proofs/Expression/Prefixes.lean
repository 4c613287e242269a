import Parley.Editor
import Parley.Proofs.Expression.Passing

/-! Looking backward from a position sees nothing of what comes after it. The classes of the
characters before it are found by reading the whole text, one character ahead, so what follows can
change the class of one of them: of a slash right before the position, which opens a comment or not
(`matches_classesFrom`). Such a slash is passed over either way. -/
namespace Parley.Expression

/-- The classes of some characters, in two readings: they match but for that of a slash at the end. -/
inductive Matches (text : Text) (as bs : List Class) : Prop where
  | same (h : as = bs)
  | slash (before : Text) (cs : List Class) (a b : Class) (hlength : cs.length = before.length)
      (ht : text = before ++ ['/']) (ha : as = cs ++ [a]) (hb : bs = cs ++ [b])

theorem Matches.cons {text : Text} {as bs : List Class} (h : Matches text as bs) (c : Char)
    (a : Class) : Matches (c :: text) (a :: as) (a :: bs) := by
  cases h with
  | same h => exact .same (by rw [h])
  | slash before cs d e hlength ht ha hb =>
    exact .slash (c :: before) (a :: cs) d e (by simp [hlength]) (by simp [ht]) (by simp [ha])
      (by simp [hb])

theorem ne_slash_of_isQuote {c : Char} (h : isQuote c = true) : c ≠ '/' := by
  rintro rfl
  cases h

/-- Whether two characters are read together shows in the first two of what is left. -/
theorem not_pair_append {a b c : Char} {rest : Text} (hrest : rest ≠ [])
    (h : ∀ more, c = a → rest = b :: more → False) (v more : Text) (hc : c = a)
    (hv : rest ++ v = b :: more) : False := by
  obtain ⟨d, rest, rfl⟩ := List.exists_cons_of_ne_nil hrest
  obtain ⟨rfl, -⟩ := List.cons.inj hv
  exact h rest hc rfl

theorem take_one_of_block (c : Char) (rest : Text) :
    (classesFrom .block (c :: rest)).take 1 = [.blockComment] := by
  by_cases hpair : ∃ more, c = '*' ∧ rest = '/' :: more
  · obtain ⟨more, rfl, rfl⟩ := hpair
    rfl
  · rw [classesFrom]
    · rfl
    · exact fun more hc hrest => hpair ⟨more, hc, hrest⟩

theorem take_one_of_literal (q c : Char) (rest : Text) :
    (classesFrom (.literal q) (c :: rest)).take 1 = [.literal] := by
  by_cases hpair : ∃ d more, c = '\\' ∧ rest = d :: more
  · obtain ⟨d, more, rfl, rfl⟩ := hpair
    rfl
  · rw [classesFrom]
    · rfl
    · exact fun d more hc hrest => hpair ⟨d, more, hc, hrest⟩

/-- Reading a text gives its beginning the classes that reading the beginning alone gives it. -/
theorem matches_classesFrom (context : Context) (u v : Text) :
    Matches u ((classesFrom context (u ++ v)).take u.length) (classesFrom context u) := by
  fun_induction classesFrom context u with
  | case1 => exact .same rfl
  | case2 _ ih | case3 _ ih | case8 _ ih | case10 _ _ _ ih => exact (ih.cons _ _).cons _ _
  | case4 c rest hline hblock hquote ih =>
    have hc : c ≠ '/' := ne_slash_of_isQuote hquote
    rw [List.cons_append, classesFrom, if_pos hquote]
    · exact ih.cons c _
    · exact fun _ h _ => hc h
    · exact fun _ h _ => hc h
  | case5 c rest hline hblock hquote ih =>
    by_cases hlast : c = '/' ∧ rest = []
    · obtain ⟨rfl, rfl⟩ := hlast
      have hone : ((classesFrom .code (['/'] ++ v)).take 1).length = 1 := by simp
      obtain ⟨a, ha⟩ := List.length_eq_one_iff.mp hone
      exact .slash [] [] a .code rfl rfl ha rfl
    · rw [List.cons_append, classesFrom, if_neg hquote]
      · exact ih.cons c _
      · intro more hc
        exact not_pair_append (fun hrest => hlast ⟨hc, hrest⟩) hline v more hc
      · intro more hc
        exact not_pair_append (fun hrest => hlast ⟨hc, hrest⟩) hblock v more hc
  | case6 rest ih =>
    rw [List.cons_append, classesFrom, if_pos rfl]
    exact ih.cons _ _
  | case7 c rest hc ih =>
    rw [List.cons_append, classesFrom, if_neg hc]
    exact ih.cons _ _
  | case9 c rest hpair ih =>
    by_cases hrest : rest = []
    · subst hrest
      exact .same (take_one_of_block c v)
    · rw [List.cons_append, classesFrom]
      · exact ih.cons _ _
      · intro more hc
        exact not_pair_append hrest hpair v more hc
  | case11 q c rest hpair ih =>
    by_cases hrest : rest = []
    · subst hrest
      exact .same (take_one_of_literal q c v)
    · have hc : c ≠ '\\' := by
        rintro rfl
        obtain ⟨d, more, rfl⟩ := List.exists_cons_of_ne_nil hrest
        exact hpair d more rfl rfl
      rw [List.cons_append, classesFrom]
      · exact ih.cons _ _
      · exact fun _ _ h _ => hc h

theorem startFrom_slash (comment : Bool) (before : Before) :
    startFrom (('/', comment) :: before) = startFrom before := by
  cases comment with
  | true => rfl
  | false => rfl

/-- Characters with their classes, nearest first. -/
def reading (text : Text) (cs : List Class) : Before := (text.zip (cs.map Class.isComment)).reverse

theorem before_eq_reading (text : Text) (pos : Nat) :
    before text pos = reading (text.take pos) ((classes text).take (text.take pos).length) := by
  have hpos : (classes text).take (text.take pos).length = (classes text).take pos := by
    rw [List.length_take, List.take_eq_take_iff]
    simp
  rw [before, commentMask, reading, hpos, List.map_take, List.zip_eq_zipWith, List.take_zipWith,
    List.zip_eq_zipWith]

theorem startFrom_of_matches {text : Text} {as bs : List Class} (h : Matches text as bs) :
    startFrom (reading text as) = startFrom (reading text bs) := by
  cases h with
  | same h => rw [h]
  | slash before cs a b hlength ht ha hb =>
    have hlast : ∀ d, reading text (cs ++ [d]) = ('/', d.isComment) :: reading before cs := by
      intro d
      rw [reading, reading, ht, List.map_append, List.zip_append (by simp [hlength]),
        List.reverse_append]
      rfl
    rw [ha, hb, hlast, hlast, startFrom_slash, startFrom_slash]

/-- The expression before a position is found in what stands before it. -/
theorem start?_take (text : Text) (pos : Nat) : start? (text.take pos) pos = start? text pos := by
  have h := matches_classesFrom .code (text.take pos) (text.drop pos)
  rw [List.take_append_drop] at h
  have hall : (classes (text.take pos)).take (text.take pos).length = classes (text.take pos) :=
    List.take_of_length_le (Nat.le_of_eq (length_classes _))
  rw [start?, start?, before_eq_reading text pos, before_eq_reading (text.take pos) pos,
    List.take_take, Nat.min_self, hall]
  exact (startFrom_of_matches h).symm

theorem start?_congr {a b : Text} {pos : Nat} (h : a.take pos = b.take pos) :
    start? a pos = start? b pos := by
  rw [← start?_take a, h, start?_take]

end Parley.Expression
