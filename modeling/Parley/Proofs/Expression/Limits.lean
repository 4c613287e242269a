import Parley.Proofs.Expression.Starts

/-! Where an expression found by looking backward begins and ends, whatever the text. What stands
before the position falls apart into what was passed over, the expression, and the rest
(`exists_split`). The expression is as the search sees it: a quote may be that of another literal or
of a comment, and a bracket may stand in a literal, but no bracket stands in a comment. -/
namespace Parley.Expression

/-- The characters of an expression, nearest first, and what stands before it. -/
inductive Ends : Before → Before → Prop where
  | word {c : Char} {body rest : Before} (hc : isWord c = true) (hblank : isBlank c = false)
      (hbody : ∀ m ∈ body, isWord m.1 = true)
      (hrest : ∀ m, rest.head? = some m → isWord m.1 = false) : Ends ((c, false) :: body) rest
  | literal {quote : Char} {comment : Bool} {body rest : Before} (hquote : isQuote quote = true)
      (hbody : ∀ near mark far, body = near ++ (quote, mark) :: far →
        isEscaped (far ++ (quote, comment) :: rest) = true)
      (hrest : isEscaped rest = false) : Ends ((quote, false) :: body ++ [(quote, comment)]) rest
  | group {closing opening : Char} (body rest : Before) (h : openingFor closing = some opening) :
      Ends ((closing, false) :: body ++ [(opening, false)]) rest

/-- An expression ends in a character that is neither blank nor in a comment. -/
theorem Ends.exists_last {body rest : Before} (h : Ends body rest) :
    ∃ c more, body = (c, false) :: more ∧ isBlank c = false := by
  cases h with
  | word hc hblank => exact ⟨_, _, rfl, hblank⟩
  | literal hquote => exact ⟨_, _, rfl, isBlank_of_isQuote hquote⟩
  | group _ _ hopening => exact ⟨_, _, rfl, isBlank_of_openingFor hopening⟩

theorem exists_split_of_literalStart {quote : Char} {before : Before} {s : Nat}
    (h : literalStart quote before = some s) :
    ∃ body b rest, before = body ++ (quote, b) :: rest ∧ rest.length = s ∧
      isEscaped rest = false ∧ ∀ near comment far, body = near ++ (quote, comment) :: far →
        isEscaped (far ++ (quote, b) :: rest) = true := by
  fun_induction literalStart quote before with
  | case1 => cases h
  | case2 c comment rest hc =>
    rw [Bool.and_eq_true, decide_eq_true_iff, Bool.not_eq_true'] at hc
    obtain ⟨rfl, hescaped⟩ := hc
    exact ⟨[], comment, rest, rfl, Option.some.inj h, hescaped, by simp⟩
  | case3 c comment rest hc ih =>
    obtain ⟨body, b, rest, rfl, hs, hescaped, hbody⟩ := ih h
    refine ⟨(c, comment) :: body, b, rest, rfl, hs, hescaped, ?_⟩
    intro near comment' far hnear
    cases near with
    | nil =>
      obtain ⟨hm, rfl⟩ := List.cons.inj hnear
      obtain ⟨rfl, rfl⟩ := Prod.mk.inj hm
      simpa using hc
    | cons m near => exact hbody near comment' far (List.cons.inj hnear).2

/-- The search for the brackets awaited comes to the last of them, and in no comment. -/
theorem exists_split_of_groupStart {quote : Option Char} {awaited : List Char} {before : Before}
    {s : Nat} (hne : awaited ≠ []) (h : groupStart quote awaited before = some s) :
    ∃ body opening rest, before = body ++ (opening, false) :: rest ∧ rest.length = s ∧
      awaited.getLast? = some opening := by
  fun_induction groupStart quote awaited before with
  | case1 => cases h
  | case2 quote awaited c comment rest ih =>
    obtain ⟨body, opening, rest, rfl, hs⟩ := ih hne h
    exact ⟨(c, comment) :: body, opening, rest, rfl, hs⟩
  | case3 awaited c rest ih =>
    obtain ⟨body, opening, rest, rfl, hs⟩ := ih hne h
    exact ⟨(c, true) :: body, opening, rest, rfl, hs⟩
  | case4 awaited c comment rest hcomment hquote ih =>
    obtain ⟨body, opening, rest, rfl, hs⟩ := ih hne h
    exact ⟨(c, comment) :: body, opening, rest, rfl, hs⟩
  | case5 awaited c comment rest hcomment hquote opening' hopening ih =>
    obtain ⟨body, opening, rest, rfl, hs, hlast⟩ := ih (List.cons_ne_nil _ _) h
    obtain ⟨a, more, rfl⟩ := List.exists_cons_of_ne_nil hne
    exact ⟨(c, comment) :: body, opening, rest, rfl, hs, by simpa using hlast⟩
  | case6 awaited c comment rest hcomment hquote hopening hhead htail =>
    obtain ⟨a, more, rfl⟩ := List.exists_cons_of_ne_nil hne
    obtain rfl : a = c := Option.some.inj hhead
    obtain rfl : more = [] := htail
    obtain rfl : comment = false := eq_false_of_ne_true hcomment
    exact ⟨[], a, rest, rfl, Option.some.inj h, rfl⟩
  | case7 awaited c comment rest hcomment hquote hopening hhead htail ih =>
    obtain ⟨body, opening, rest, rfl, hs, hlast⟩ := ih htail h
    obtain ⟨a, more, rfl⟩ := List.exists_cons_of_ne_nil hne
    refine ⟨(c, comment) :: body, opening, rest, rfl, hs, ?_⟩
    rw [List.tail_cons] at hlast
    rw [List.getLast?_cons, hlast]
    rfl
  | case8 => cases h
  | case9 awaited c comment rest hcomment hquote hopening hhead hfar ih =>
    obtain ⟨body, opening, rest, rfl, hs⟩ := ih hne h
    exact ⟨(c, comment) :: body, opening, rest, rfl, hs⟩

theorem exists_split_of_wordStart {c : Char} {before : Before} (hc : isWord c = true)
    (hblank : isBlank c = false) :
    ∃ body rest, (c, false) :: before = body ++ rest ∧ rest.length = wordStart before ∧
      Ends body rest := by
  refine ⟨(c, false) :: before.takeWhile (isWord ·.1), before.dropWhile (isWord ·.1), ?_, rfl,
    .word hc hblank (fun m hm => List.all_eq_true.mp List.all_takeWhile m hm) ?_⟩
  · rw [List.cons_append, List.takeWhile_append_dropWhile]
  · intro m hm
    have hhead := List.head?_dropWhile_not (isWord ·.1) before
    rw [hm] at hhead
    simpa using hhead

/-- Whether looking backward goes past a character that stands after the expression. -/
def isSkipped (m : Char × Bool) : Bool := isBlank m.1 || m.2 || isOperator m.1

/-- An expression is found where one ends, past characters that are skipped. -/
theorem exists_split {before : Before} {s : Nat} (h : startFrom before = some s) :
    ∃ skipped body rest, before = skipped ++ body ++ rest ∧ rest.length = s ∧ Ends body rest ∧
      ∀ m ∈ skipped, isSkipped m = true := by
  fun_induction startFrom before with
  | case1 => cases h
  | case2 c comment rest hskip ih =>
    obtain ⟨skipped, body, rest, rfl, hs, hends, hskipped⟩ := ih h
    refine ⟨(c, comment) :: skipped, body, rest, rfl, hs, hends, ?_⟩
    rw [List.forall_mem_cons]
    exact ⟨by rw [isSkipped, hskip, Bool.true_or], hskipped⟩
  | case3 c comment rest hskip opening hopening =>
    obtain ⟨body, found, rest, rfl, hs, hlast⟩ :=
      exists_split_of_groupStart (List.cons_ne_nil _ _) h
    obtain rfl : opening = found := Option.some.inj hlast
    obtain rfl : comment = false := eq_false_of_ne_true (fun hc => hskip (by simp [hc]))
    exact ⟨[], _, rest, by simp, hs, .group body rest hopening, by simp⟩
  | case4 c comment rest hskip hopening hquote =>
    obtain ⟨body, mark, rest, rfl, hs, hescaped, hbody⟩ := exists_split_of_literalStart h
    obtain rfl : comment = false := eq_false_of_ne_true (fun hc => hskip (by simp [hc]))
    exact ⟨[], _, rest, by simp, hs, .literal hquote hbody hescaped, by simp⟩
  | case5 c comment rest hskip hopening hquote hword =>
    obtain rfl : comment = false := eq_false_of_ne_true (fun hc => hskip (by simp [hc]))
    have hblank : isBlank c = false := eq_false_of_ne_true (fun hc => hskip (by simp [hc]))
    obtain ⟨body, rest', hbefore, hs, hends⟩ := exists_split_of_wordStart hword hblank
    exact ⟨[], body, rest', hbefore, hs.trans (Option.some.inj h), hends, by simp⟩
  | case6 => cases h
  | case7 c comment rest hskip hopening hquote hword hfar ih =>
    obtain ⟨skipped, body, rest, rfl, hs, hends, hskipped⟩ := ih h
    refine ⟨(c, comment) :: skipped, body, rest, rfl, hs, hends, ?_⟩
    rw [List.forall_mem_cons]
    refine ⟨?_, hskipped⟩
    simp_all [isSkipped, isOperator, isBracket]

/-- The characters that are left over before a position are those before an earlier one. -/
theorem eq_before_of_append {text : Text} {pos : Nat} {near far : Before}
    (h : before text pos = near ++ far) : far = before text far.length := by
  have hlength := congrArg List.length h
  rw [length_before, List.length_append] at hlength
  have htake : (text.zip (commentMask text)).take pos = far.reverse ++ near.reverse := by
    rw [← List.reverse_append, ← h, before, List.reverse_reverse]
  have hfar : far.reverse = (text.zip (commentMask text)).take far.length := by
    have hcut := congrArg (List.take far.reverse.length) htake
    rw [List.take_left, List.take_take, List.length_reverse, Nat.min_eq_left (by omega)] at hcut
    exact hcut.symm
  rw [before, ← hfar, List.reverse_reverse]

/-- What stands before a position where an expression is found: the expression and what is skipped
after it. -/
theorem exists_ends_of_start? {text : Text} {pos s : Nat} (h : start? text pos = some s) :
    ∃ skipped body, before text pos = skipped ++ body ++ before text s ∧
      Ends body (before text s) ∧ ∀ m ∈ skipped, isSkipped m = true := by
  obtain ⟨skipped, body, rest, hbefore, rfl, hends, hskipped⟩ := exists_split h
  have hrest := eq_before_of_append hbefore
  rw [← hrest]
  exact ⟨skipped, body, hbefore, hends, hskipped⟩

theorem map_fst_before (text : Text) (pos : Nat) :
    (before text pos).map Prod.fst = (text.take pos).reverse := by
  rw [before, List.map_reverse, List.map_take, List.map_fst_zip]
  exact Nat.le_of_eq (length_commentMask text).symm

/-- Not everything from the start of an expression on is blank. -/
theorem exists_solid_of_start? {text : Text} {pos s : Nat} (h : start? text pos = some s) :
    ∃ c ∈ (text.take pos).drop s, isBlank c = false := by
  obtain ⟨skipped, body, rest, hbefore, rfl, hends, -⟩ := exists_split h
  obtain ⟨c, more, rfl, hblank⟩ := hends.exists_last
  have htake : text.take pos = (rest.map Prod.fst).reverse ++
      ((skipped ++ (c, false) :: more).map Prod.fst).reverse := by
    rw [← List.reverse_append, ← List.map_append, ← hbefore, map_fst_before, List.reverse_reverse]
  refine ⟨c, ?_, hblank⟩
  rw [htake, List.drop_left' (by simp)]
  simp

/-- An expression starts before the position it is looked for from. -/
theorem lt_of_start? {text : Text} {pos s : Nat} (h : start? text pos = some s) :
    s < min pos text.length := by
  obtain ⟨skipped, body, rest, hbefore, rfl, hends, -⟩ := exists_split h
  have hlength := congrArg List.length hbefore
  obtain ⟨c, more, rfl, -⟩ := hends.exists_last
  rw [length_before, List.length_append, List.length_append, List.length_cons] at hlength
  omega

end Parley.Expression
