import Mathlib.Data.List.Induction
import Parley.Proofs.Expression.Groups

/-! Looking backward passes over whole lexemes. Where no backslash stands before the quote that
opens a literal, the quotes that are met unescaped are the two that delimit it, so a literal is
left through its opening quote (`groupStart_literal`, `literalStart_literal`); a comment is left
by its marks. What counts towards a group are then the brackets of the code
(`groupStart_behind`). -/
namespace Parley.Expression

def behind (ls : List Lexeme) : Before := ((marks ls).map fun m => (m.1, m.2.isComment)).reverse

def bodyBehind (body : Text) : Before := (body.map (·, false)).reverse

@[simp] theorem behind_nil : behind [] = [] := rfl

@[simp] theorem behind_append (a b : List Lexeme) : behind (a ++ b) = behind b ++ behind a := by
  simp [behind]

@[simp] theorem length_behind (ls : List Lexeme) : (behind ls).length = (texts ls).length := by
  simp [behind]

theorem behind_code (c : Char) : behind [.code c] = [(c, false)] := rfl

theorem behind_literal (quote : Char) (body : Text) :
    behind [.literal quote body true] = (quote, false) :: (bodyBehind body ++ [(quote, false)]) := by
  simp [behind, bodyBehind, marks, Lexeme.marks, Lexeme.text, Lexeme.kind, Class.isComment,
    Function.comp_def]

theorem map_fst_behind (ls : List Lexeme) : (behind ls).map Prod.fst = (texts ls).reverse := by
  rw [behind, List.map_reverse, List.map_map, ← map_fst_marks]
  rfl

theorem before_eq (text : Text) (pos : Nat) :
    before text pos = (((marked text).take pos).map fun m => (m.1, m.2.isComment)).reverse := by
  rw [before, commentMask, List.zip_map_right, ← List.map_take]
  rfl

theorem isQuote_backslash : isQuote backslash = false := rfl

theorem ne_backslash_of_isQuote {c : Char} (h : isQuote c = true) : c ≠ backslash := by
  rintro rfl
  rw [isQuote_backslash] at h
  contradiction

theorem openingFor_of_isQuote {c : Char} (h : isQuote c = true) : openingFor c = none := by
  simp only [isQuote, Bool.or_eq_true, decide_eq_true_eq] at h
  rcases h with (rfl | rfl) | rfl <;> rfl

@[simp] theorem isEscaped_nil : isEscaped [] = false := rfl

theorem isEscaped_cons {c : Char} (h : c ≠ backslash) (comment : Bool) (before : Before) :
    isEscaped ((c, comment) :: before) = false := by
  simp [isEscaped, h]

theorem isEscaped_backslash (comment : Bool) (before : Before) :
    isEscaped ((backslash, comment) :: before) = !isEscaped before := by
  simp only [isEscaped, List.takeWhile_cons, decide_true, if_true, List.length_cons]
  grind

theorem isEscaped_of_head {before : Before} (h : (before.map Prod.fst).head? ≠ some backslash) :
    isEscaped before = false := by
  cases before with
  | nil => rfl
  | cons m before => exact isEscaped_cons (by simpa using h) m.2 before

theorem bodyBehind_cons (c : Char) (rest : Text) (before : Before) :
    bodyBehind (c :: rest) ++ before = bodyBehind rest ++ (c, false) :: before := by
  simp [bodyBehind]

/-- What a backslash escapes, be it another one, does not escape what comes next. -/
theorem isEscaped_pair (c : Char) {before : Before} (h : isEscaped before = false) :
    isEscaped ((c, false) :: (backslash, false) :: before) = false := by
  by_cases hc : c = backslash
  · rw [hc, isEscaped_backslash, isEscaped_backslash, h]
    rfl
  · exact isEscaped_cons hc false _

theorem isEscaped_body {quote : Char} {body : Text} (h : Body quote body) {before : Before}
    (hb : isEscaped before = false) : isEscaped (bodyBehind body ++ before) = false := by
  induction h generalizing before with
  | nil => exact hb
  | @plain c rest hq hc _ ih =>
    rw [bodyBehind_cons]
    exact ih (isEscaped_cons hc false before)
  | @escaped c rest _ ih =>
    rw [bodyBehind_cons, bodyBehind_cons]
    exact ih (isEscaped_pair c hb)

theorem isEscaped_after_backslash {before : Before} (h : isEscaped before = false) :
    isEscaped ((backslash, false) :: before) = true := by
  rw [isEscaped_backslash, h]
  rfl

/-- A search that heeds nothing but the unescaped quotes of a kind goes past a body. -/
theorem Body.pass {α : Type} {quote : Char} (hq : isQuote quote = true) {body : Text}
    (h : Body quote body) (search : Before → α)
    (hsearch : ∀ c before, c ≠ quote ∨ isEscaped before = true →
      search ((c, false) :: before) = search before)
    {before : Before} (hb : isEscaped before = false) :
    search (bodyBehind body ++ before) = search before := by
  induction h generalizing before with
  | nil => rfl
  | @plain c rest hc hplain _ ih =>
    rw [bodyBehind_cons, ih (isEscaped_cons hplain false before), hsearch c before (.inl hc)]
  | @escaped c rest _ ih =>
    have hne : backslash ≠ quote := (ne_backslash_of_isQuote hq).symm
    rw [bodyBehind_cons, bodyBehind_cons, ih (isEscaped_pair c hb),
      hsearch c _ (.inr (isEscaped_after_backslash hb)), hsearch backslash before (.inl hne)]

/-- A search that does not heed what is in comments goes past one. -/
theorem pass_comment {α : Type} (search : Before → α)
    (hsearch : ∀ c before, search ((c, true) :: before) = search before) {l : Lexeme}
    (h : l.kind.isComment = true) (us : List Lexeme) :
    search (behind (us ++ [l])) = search (behind us) := by
  have hmarks : ∀ m ∈ behind [l], m.2 = true := by
    simp [behind, marks, Lexeme.marks, h]
  rw [behind_append]
  generalize behind [l] = marks at hmarks
  induction marks with
  | nil => rfl
  | cons m marks ih =>
    obtain ⟨c, comment⟩ := m
    rw [List.forall_mem_cons] at hmarks
    obtain rfl : comment = true := hmarks.1
    rw [List.cons_append, hsearch]
    exact ih hmarks.2

theorem literalStart_cons {quote c : Char} {before : Before}
    (h : c ≠ quote ∨ isEscaped before = true) (comment : Bool) :
    literalStart quote ((c, comment) :: before) = literalStart quote before := by
  rw [literalStart]
  rcases h with h | h <;> simp [h]

theorem groupStart_within {quote c : Char} {before : Before}
    (h : c ≠ quote ∨ isEscaped before = true) (awaited : List Char) (comment : Bool) :
    groupStart (some quote) awaited ((c, comment) :: before) =
      groupStart (some quote) awaited before := by
  rw [groupStart]
  rcases h with h | h <;> simp [h]

/-- The quote that opens a literal is found from its closing one. -/
theorem literalStart_literal {quote : Char} (hq : isQuote quote = true) {body : Text}
    (h : Body quote body) {us : List Lexeme} (hus : isEscaped (behind us) = false) :
    literalStart quote (bodyBehind body ++ (quote, false) :: behind us) =
      some (texts us).length := by
  have hne : quote ≠ backslash := ne_backslash_of_isQuote hq
  rw [h.pass hq (literalStart quote) (fun c before hc => literalStart_cons hc false)
    (isEscaped_cons hne false _)]
  simp [literalStart, hus]

/-- A literal is passed over from its closing quote to the one that opens it. -/
theorem groupStart_literal {quote : Char} (hq : isQuote quote = true) {body : Text}
    (h : Body quote body) {us : List Lexeme} (hus : isEscaped (behind us) = false)
    (awaited : List Char) :
    groupStart none awaited (behind (us ++ [.literal quote body true])) =
      groupStart none awaited (behind us) := by
  have hne : quote ≠ backslash := ne_backslash_of_isQuote hq
  have hopening : isEscaped ((quote, false) :: behind us) = false := isEscaped_cons hne false _
  have hclosing : isEscaped (bodyBehind body ++ (quote, false) :: behind us) = false :=
    isEscaped_body h hopening
  rw [behind_append, behind_literal, List.cons_append, List.append_assoc, List.singleton_append,
    groupStart]
  simp only [hq, hclosing, Bool.not_false, Bool.and_self, if_true, if_false, Bool.false_eq_true]
  rw [h.pass hq (groupStart (some quote) awaited)
    (fun c before hc => groupStart_within hc awaited false) hopening, groupStart]
  simp [hus]

theorem groupStart_comment {l : Lexeme} (h : l.kind.isComment = true) (us : List Lexeme)
    (awaited : List Char) :
    groupStart none awaited (behind (us ++ [l])) = groupStart none awaited (behind us) :=
  pass_comment (groupStart none awaited) (fun _ _ => rfl) h us

theorem groupStart_closing {c o : Char} (hq : isQuote c = false) (h : openingFor c = some o)
    (us : List Lexeme) (awaited : List Char) :
    groupStart none awaited (behind (us ++ [.code c])) =
      groupStart none (o :: awaited) (behind us) := by
  rw [behind_append, behind_code, List.singleton_append, groupStart]
  simp [hq, h]

/-- What goes for the characters of code that are no closing brackets. -/
theorem groupStart_code {c : Char} (hq : isQuote c = false) (h : openingFor c = none)
    (us : List Lexeme) (next : Char) (more : List Char) :
    groupStart none (next :: more) (behind (us ++ [.code c])) =
      if next = c then if more = [] then some (texts us).length else groupStart none more (behind us)
      else if isOpening c then none else groupStart none (next :: more) (behind us) := by
  rw [behind_append, behind_code, List.singleton_append, groupStart]
  simp only [hq, h, Bool.false_and, Bool.false_eq_true, if_false, List.head?_cons,
    Option.some.injEq, List.tail_cons]
  cases more <;> simp

/-- The lexemes before a place in code, or before a literal: they are closed, and no backslash
stands before the literals among them. -/
structure Settled (ls : List Lexeme) : Prop where
  wellFormed : ∀ l ∈ ls, l.WellFormed
  closed : ∀ l ∈ ls, l.isClosed = true
  free : ∀ us quote body closed vs, ls = us ++ .literal quote body closed :: vs →
    isEscaped (behind us) = false

theorem Settled.of_append {a b : List Lexeme} (h : Settled (a ++ b)) : Settled a where
  wellFormed l hl := h.wellFormed l (List.mem_append_left b hl)
  closed l hl := h.closed l (List.mem_append_left b hl)
  free us quote body closed vs ha := h.free us quote body closed (vs ++ b) (by simp [ha])

def spotsBehind (ls : List Lexeme) : List Spot := (spotsFrom 0 (marks ls)).reverse

theorem spotsFrom_eq_nil {place : Nat} {marks : List (Char × Class)}
    (h : ∀ m ∈ marks, m.2 ≠ .code) : spotsFrom place marks = [] := by
  induction marks generalizing place with
  | nil => rfl
  | cons m marks ih =>
    rw [List.forall_mem_cons] at h
    rw [spotsFrom, if_neg (by simp [h.1]), ih h.2]

theorem spotsBehind_append (ls : List Lexeme) (l : Lexeme) :
    spotsBehind (ls ++ [l]) =
      (spotsFrom (texts ls).length l.marks).reverse ++ spotsBehind ls := by
  rw [spotsBehind, marks_append, spotsFrom_append, Nat.zero_add, length_marks, marks_cons,
    marks_nil, List.append_nil, List.reverse_append]
  rfl

theorem spotsBehind_of_kind {l : Lexeme} (h : l.kind ≠ .code) (ls : List Lexeme) :
    spotsBehind (ls ++ [l]) = spotsBehind ls := by
  have hmarks : ∀ m ∈ l.marks, m.2 ≠ .code := by
    intro m hm
    obtain ⟨c, -, rfl⟩ := List.mem_map.mp hm
    exact h
  rw [spotsBehind_append, spotsFrom_eq_nil hmarks, List.reverse_nil, List.nil_append]

theorem spotsBehind_of_bracket {c : Char} (h : isBracket c = true) (ls : List Lexeme) :
    spotsBehind (ls ++ [.code c]) = (c, (texts ls).length) :: spotsBehind ls := by
  rw [spotsBehind_append]
  simp [Lexeme.marks, Lexeme.text, Lexeme.kind, spotsFrom, h]

theorem spotsBehind_of_no_bracket {c : Char} (h : isBracket c = false) (ls : List Lexeme) :
    spotsBehind (ls ++ [.code c]) = spotsBehind ls := by
  rw [spotsBehind_append]
  simp [Lexeme.marks, Lexeme.text, Lexeme.kind, spotsFrom, h]

/-- The brackets alone decide as the characters of code do. -/
theorem answer_code {c next : Char} (h : openingFor c = none) (hnext : isOpening next = true)
    (us : List Lexeme) (more : List Char) :
    answer (next :: more) (spotsBehind (us ++ [.code c])) =
      if next = c then if more = [] then some (texts us).length else answer more (spotsBehind us)
      else if isOpening c then none else answer (next :: more) (spotsBehind us) := by
  cases ho : isOpening c with
  | true =>
    rw [spotsBehind_of_bracket (by simp [isBracket, ho])]
    cases more <;> simp [answer, h]
  | false =>
    have hne : next ≠ c := by
      rintro rfl
      rw [hnext] at ho
      contradiction
    rw [spotsBehind_of_no_bracket (by simp [isBracket, ho, h]), if_neg hne]
    rfl

/-- Behind lexemes the search for a group only meets the brackets of the code. -/
theorem groupStart_behind {ls : List Lexeme} (h : Settled ls) {awaited : List Char}
    (hne : awaited ≠ []) (hawaited : ∀ o ∈ awaited, isOpening o = true) :
    groupStart none awaited (behind ls) = answer awaited (spotsBehind ls) := by
  induction ls using List.reverseRecOn generalizing awaited with
  | nil => rfl
  | append_singleton ls l ih =>
    have hwf : l.WellFormed := h.wellFormed l (by simp)
    have hclosed : l.isClosed = true := h.closed l (by simp)
    have hls : Settled ls := h.of_append
    cases l with
    | line | block =>
      rw [groupStart_comment rfl, spotsBehind_of_kind (by simp [Lexeme.kind]), ih hls hne hawaited]
    | literal quote body closed =>
      obtain rfl : closed = true := hclosed
      have hfree : isEscaped (behind ls) = false := h.free ls quote body true [] rfl
      rw [groupStart_literal hwf.1 (hwf.2 rfl) hfree, spotsBehind_of_kind (by simp [Lexeme.kind]),
        ih hls hne hawaited]
    | code c =>
      cases hc : openingFor c with
      | some o =>
        have hmore : ∀ a ∈ o :: awaited, isOpening a = true :=
          List.forall_mem_cons.mpr ⟨isOpening_of_openingFor hc, hawaited⟩
        rw [groupStart_closing hwf hc, spotsBehind_of_bracket (by simp [isBracket, hc]),
          answer_closing hc, ih hls (List.cons_ne_nil _ _) hmore]
      | none =>
        obtain ⟨next, more, rfl⟩ := List.exists_cons_of_ne_nil hne
        have hnext : isOpening next = true := hawaited next (by simp)
        have hmore : ∀ a ∈ more, isOpening a = true := fun a ha => hawaited a (by simp [ha])
        rw [groupStart_code hwf hc, answer_code hc hnext, ih hls hne hawaited]
        by_cases hnil : more = []
        · rw [if_pos hnil, if_pos hnil]
        · rw [ih hls hnil hmore]

end Parley.Expression
