import Mathlib.Data.List.TakeWhile
import Parley.Proofs.Expression.Lexemes

/-! Taking a source text apart from left to right, as a rule rather than a reader: what each lexeme
is made of and where it ends (`Reads`). Every text can be taken apart so and in no other way, and
the lexemes are those that the reader finds (`reads_iff`). -/
namespace Parley.Expression

/-- A text and the lexemes that it is taken apart into. A closed literal ends at the next quote of
its kind that no backslash escapes, a line comment before the next newline, a closed block comment
at the first end mark behind its opening mark; what is not closed has no end in the text. -/
inductive Reads : Text → List Lexeme → Prop where
  | nil : Reads [] []
  | code {c : Char} {rest : Text} {ls : List Lexeme} (hquote : isQuote c = false)
      (hline : ¬ ['/', '/'] <+: c :: rest) (hblock : ¬ ['/', '*'] <+: c :: rest)
      (hrest : Reads rest ls) : Reads (c :: rest) (.code c :: ls)
  | line {body rest : Text} {ls : List Lexeme} (hbody : '\n' ∉ body)
      (hends : ∀ c ∈ rest.head?, c = '\n') (hrest : Reads rest ls) :
      Reads ('/' :: '/' :: (body ++ rest)) (.line body :: ls)
  | block {body rest : Text} {ls : List Lexeme} (hbody : ¬ ['*', '/'] <:+: body)
      (hrest : Reads rest ls) :
      Reads ('/' :: '*' :: (body ++ '*' :: '/' :: rest)) (.block body true :: ls)
  | openBlock {body : Text} (hbody : ¬ ['*', '/'] <:+: body) :
      Reads ('/' :: '*' :: body) [.block body false]
  | literal {quote : Char} {body rest : Text} {ls : List Lexeme} (hquote : isQuote quote = true)
      (hbody : Body quote body) (hrest : Reads rest ls) :
      Reads (quote :: (body ++ quote :: rest)) (.literal quote body true :: ls)
  | openLiteral {quote : Char} {body : Text} (hquote : isQuote quote = true)
      (hopen : ∀ inner rest, Body quote inner → body ≠ inner ++ quote :: rest) :
      Reads (quote :: body) [.literal quote body false]

/-! The reader keeps to the rule: one lemma for each way in which a lexeme ends. -/

theorem lexemesFrom_line {body rest : Text} (hbody : '\n' ∉ body)
    (hends : ∀ c ∈ rest.head?, c = '\n') (held : Text) :
    lexemesFrom .line held (body ++ rest) =
      .line (held.reverse ++ body) :: lexemesFrom .code [] rest := by
  induction body generalizing held with
  | nil =>
    rw [List.append_nil]
    cases rest with
    | nil => rfl
    | cons c rest =>
      obtain rfl : c = '\n' := hends c rfl
      rfl
  | cons c body ih =>
    rw [List.mem_cons, not_or] at hbody
    have hcons : lexemesFrom .line held (c :: (body ++ rest)) =
        lexemesFrom .line (c :: held) (body ++ rest) := if_neg (Ne.symm hbody.1)
    rw [List.cons_append, hcons, ih hbody.2]
    simp

theorem lexemesFrom_block_cons {c : Char} {rest : Text} (h : ¬ ['*', '/'] <+: c :: rest)
    (held : Text) :
    lexemesFrom .block held (c :: rest) = lexemesFrom .block (c :: held) rest := by
  rw [lexemesFrom]
  rintro more rfl rfl
  exact h ⟨more, rfl⟩

theorem lexemesFrom_block {body : Text} (hbody : ¬ ['*', '/'] <:+: body) (held rest : Text) :
    lexemesFrom .block held (body ++ '*' :: '/' :: rest) =
      .block (held.reverse ++ body) true :: lexemesFrom .code [] rest := by
  induction body generalizing held with
  | nil =>
    rw [List.append_nil]
    rfl
  | cons c body ih =>
    rw [List.infix_cons_iff, not_or] at hbody
    have hpair : ¬ ['*', '/'] <+: c :: (body ++ '*' :: '/' :: rest) := by
      intro hprefix
      cases body with
      | nil => simp [List.cons_prefix_cons] at hprefix
      | cons d body =>
        simp only [List.cons_append, List.cons_prefix_cons, List.nil_prefix, and_true] at hprefix
        exact hbody.1 ⟨body, by rw [← hprefix.1, ← hprefix.2]; rfl⟩
    rw [List.cons_append, lexemesFrom_block_cons hpair, ih hbody.2]
    simp

theorem lexemesFrom_openBlock {body : Text} (hbody : ¬ ['*', '/'] <:+: body) (held : Text) :
    lexemesFrom .block held body = [.block (held.reverse ++ body) false] := by
  induction body generalizing held with
  | nil =>
    rw [List.append_nil]
    rfl
  | cons c body ih =>
    rw [List.infix_cons_iff, not_or] at hbody
    rw [lexemesFrom_block_cons hbody.1, ih hbody.2]
    simp

theorem lexemesFrom_literal_cons {quote c : Char} {rest : Text} (h : c ≠ backslash ∨ rest = [])
    (hc : c ≠ quote) (held : Text) :
    lexemesFrom (.literal quote) held (c :: rest) =
      lexemesFrom (.literal quote) (c :: held) rest := by
  rw [lexemesFrom, if_neg hc]
  rintro d more rfl rfl
  rcases h with h | h
  · exact h rfl
  · cases h

theorem lexemesFrom_literal_quote {quote : Char} (hquote : isQuote quote = true)
    (held rest : Text) :
    lexemesFrom (.literal quote) held (quote :: rest) =
      .literal quote held.reverse true :: lexemesFrom .code [] rest := by
  rw [lexemesFrom, if_pos rfl]
  rintro d more rfl
  cases hquote

theorem lexemesFrom_literal_escaped (quote c : Char) (held rest : Text) :
    lexemesFrom (.literal quote) held (backslash :: c :: rest) =
      lexemesFrom (.literal quote) (c :: backslash :: held) rest := rfl

theorem lexemesFrom_literal {quote : Char} {body : Text} (hquote : isQuote quote = true)
    (hbody : Body quote body) (held rest : Text) :
    lexemesFrom (.literal quote) held (body ++ quote :: rest) =
      .literal quote (held.reverse ++ body) true :: lexemesFrom .code [] rest := by
  induction hbody generalizing held with
  | nil => simp [lexemesFrom_literal_quote hquote]
  | plain hq hb _ ih =>
    rw [List.cons_append, lexemesFrom_literal_cons (.inl hb) hq, ih]
    simp
  | escaped _ ih =>
    rw [List.cons_append, List.cons_append, lexemesFrom_literal_escaped, ih]
    simp

theorem lexemesFrom_openLiteral {quote : Char} {body : Text}
    (hopen : ∀ inner rest, Body quote inner → body ≠ inner ++ quote :: rest) (held : Text) :
    lexemesFrom (.literal quote) held body = [.literal quote (held.reverse ++ body) false] := by
  induction hn : body.length using Nat.strongRecOn generalizing body held with
  | _ n ih =>
  subst hn
  cases body with
  | nil =>
    rw [List.append_nil]
    rfl
  | cons c body =>
    have hc : c ≠ quote := by
      rintro rfl
      exact hopen [] body .nil rfl
    by_cases hpair : c ≠ backslash ∨ body = []
    · have hrest : ∀ inner rest, Body quote inner → body ≠ inner ++ quote :: rest := by
        rintro inner rest hinner rfl
        have hb : c ≠ backslash := hpair.resolve_right (by simp)
        exact hopen (c :: inner) rest (.plain hc hb hinner) rfl
      rw [lexemesFrom_literal_cons hpair hc, ih body.length (by simp) hrest _ rfl]
      simp
    · -- The character behind a backslash belongs to the literal, be it a quote.
      rw [not_or, not_not] at hpair
      obtain ⟨rfl, hne⟩ := hpair
      obtain ⟨d, body, rfl⟩ := List.exists_cons_of_ne_nil hne
      have hrest : ∀ inner rest, Body quote inner → body ≠ inner ++ quote :: rest := by
        rintro inner rest hinner rfl
        exact hopen (backslash :: d :: inner) rest (.escaped hinner) rfl
      have hshorter : body.length < (backslash :: d :: body).length := by
        simp only [List.length_cons]
        omega
      rw [lexemesFrom_literal_escaped, ih body.length hshorter hrest _ rfl]
      simp

theorem lexemesFrom_code_line (held rest : Text) :
    lexemesFrom .code held ('/' :: '/' :: rest) = lexemesFrom .line [] rest := rfl

theorem lexemesFrom_code_block (held rest : Text) :
    lexemesFrom .code held ('/' :: '*' :: rest) = lexemesFrom .block [] rest := rfl

theorem lexemesFrom_code_cons {c : Char} {rest : Text} (hquote : isQuote c = false)
    (hline : ¬ ['/', '/'] <+: c :: rest) (hblock : ¬ ['/', '*'] <+: c :: rest) (held : Text) :
    lexemesFrom .code held (c :: rest) = .code c :: lexemesFrom .code [] rest := by
  rw [lexemesFrom, if_neg (by simp [hquote])]
  · rintro more rfl rfl
    exact hline ⟨more, rfl⟩
  · rintro more rfl rfl
    exact hblock ⟨more, rfl⟩

theorem lexemesFrom_code_quote {quote : Char} (hquote : isQuote quote = true)
    (held rest : Text) :
    lexemesFrom .code held (quote :: rest) = lexemesFrom (.literal quote) [] rest := by
  rw [lexemesFrom, if_pos hquote]
  · rintro more rfl
    cases hquote
  · rintro more rfl
    cases hquote

theorem Reads.lexemes_eq {text : Text} {ls : List Lexeme} (h : Reads text ls) :
    lexemes text = ls := by
  induction h with
  | nil => rfl
  | code hquote hline hblock _ ih =>
    rw [lexemes, lexemesFrom_code_cons hquote hline hblock, ← lexemes, ih]
  | line hbody hends _ ih =>
    rw [lexemes, lexemesFrom_code_line, lexemesFrom_line hbody hends, ← lexemes, ih]
    rfl
  | block hbody _ ih =>
    rw [lexemes, lexemesFrom_code_block, lexemesFrom_block hbody, ← lexemes, ih]
    rfl
  | openBlock hbody =>
    rw [lexemes, lexemesFrom_code_block, lexemesFrom_openBlock hbody]
    rfl
  | literal hquote hbody _ ih =>
    rw [lexemes, lexemesFrom_code_quote hquote, lexemesFrom_literal hquote hbody, ← lexemes, ih]
    rfl
  | openLiteral hquote hopen =>
    rw [lexemes, lexemesFrom_code_quote hquote, lexemesFrom_openLiteral hopen]
    rfl

/-! Every text can be taken apart. -/

/-- The first of the end marks in a text. -/
theorem exists_first_end {text : Text} (h : ['*', '/'] <:+: text) :
    ∃ body rest, ¬ ['*', '/'] <:+: body ∧ text = body ++ '*' :: '/' :: rest := by
  induction text with
  | nil => simp at h
  | cons c text ih =>
    by_cases hhere : ['*', '/'] <+: c :: text
    · obtain ⟨rest, hrest⟩ := hhere
      exact ⟨[], rest, by simp, hrest.symm⟩
    · obtain ⟨body, rest, hbody, rfl⟩ := ih ((List.infix_cons_iff.mp h).resolve_left hhere)
      refine ⟨c :: body, rest, ?_, rfl⟩
      rw [List.infix_cons_iff, not_or]
      refine ⟨fun hprefix => hhere ?_, hbody⟩
      rw [← List.cons_append]
      exact hprefix.trans (List.prefix_append _ _)

/-- The line that a text begins with. -/
theorem exists_line_end (text : Text) :
    ∃ body rest, '\n' ∉ body ∧ (∀ c ∈ rest.head?, c = '\n') ∧ text = body ++ rest := by
  induction text with
  | nil => exact ⟨[], [], by simp, by simp, rfl⟩
  | cons c text ih =>
    by_cases hc : c = '\n'
    · exact ⟨[], c :: text, by simp, by simp [hc], rfl⟩
    · obtain ⟨body, rest, hbody, hends, rfl⟩ := ih
      refine ⟨c :: body, rest, ?_, hends, rfl⟩
      rw [List.mem_cons, not_or]
      exact ⟨Ne.symm hc, hbody⟩

theorem exists_reads (text : Text) : ∃ ls, Reads text ls := by
  induction hn : text.length using Nat.strongRecOn generalizing text with
  | _ n ih =>
  subst hn
  cases text with
  | nil => exact ⟨[], .nil⟩
  | cons c rest =>
    by_cases hquote : isQuote c = true
    · by_cases hclosed : ∃ body more, Body c body ∧ rest = body ++ c :: more
      · obtain ⟨body, more, hbody, rfl⟩ := hclosed
        obtain ⟨ls, hls⟩ := ih more.length (by simp; omega) more rfl
        exact ⟨_, .literal hquote hbody hls⟩
      · exact ⟨_, .openLiteral hquote fun body more hbody heq => hclosed ⟨body, more, hbody, heq⟩⟩
    by_cases hline : ['/', '/'] <+: c :: rest
    · obtain ⟨after, hafter⟩ := hline
      obtain ⟨rfl, rfl⟩ := List.cons.inj hafter
      obtain ⟨body, more, hbody, hends, rfl⟩ := exists_line_end after
      obtain ⟨ls, hls⟩ := ih more.length (by simp; omega) more rfl
      have hreads : Reads ('/' :: '/' :: (body ++ more)) (.line body :: ls) :=
        .line hbody hends hls
      exact ⟨_, hreads⟩
    by_cases hblock : ['/', '*'] <+: c :: rest
    · obtain ⟨after, hafter⟩ := hblock
      obtain ⟨rfl, rfl⟩ := List.cons.inj hafter
      by_cases hends : ['*', '/'] <:+: after
      · obtain ⟨body, more, hbody, rfl⟩ := exists_first_end hends
        obtain ⟨ls, hls⟩ := ih more.length (by simp; omega) more rfl
        exact ⟨_, .block hbody hls⟩
      · exact ⟨_, .openBlock hends⟩
    · obtain ⟨ls, hls⟩ := ih rest.length (by simp) rest rfl
      exact ⟨_, .code (by simpa using hquote) hline hblock hls⟩

/-- A text is taken apart in exactly one way, and the reader finds it. -/
theorem reads_iff {text : Text} {ls : List Lexeme} : Reads text ls ↔ ls = lexemes text := by
  constructor
  · exact fun h => h.lexemes_eq.symm
  · rintro rfl
    obtain ⟨ls, hls⟩ := exists_reads text
    rwa [hls.lexemes_eq]

end Parley.Expression
