import Parley.Proofs.Expression.Starts
import Parley.Proofs.Expression.Words

/-! What looking backward finds in a text with comments and literals. From a place outside literals
it is an expression of the text as it reads forward: a group of brackets, a literal or a word of the
code (`isExpression_of_lastBefore`), so that neither it nor a literal passed over starts in a comment
(`outside_of_start?`). From a place within a literal this fails, for quotes: the search for the one
that opens a literal does not heed comments (`start?_in_comment`). Brackets and words in comments
are never found, wherever one looks from (`isQuote_of_start?`); so only a quote is, and only from
within a literal (`within_of_start?`). -/
namespace Parley.Expression

/-! The last character that is not passed over. -/

theorem exists_last {α : Type} (p : α → Bool) {l : List α} (h : ¬∀ a ∈ l, p a = true) :
    ∃ k < l.length, l[k]?.map p = some false ∧ ∀ a ∈ l.drop (k + 1), p a = true := by
  obtain ⟨ending, hl, hending, hlast⟩ := split_ending p l
  generalize (l.reverse.dropWhile p).reverse = front at hl hlast
  subst hl
  rcases List.eq_nil_or_concat front with rfl | ⟨front, a, rfl⟩
  · exact absurd hending h
  · have ha : p a = false := hlast a (by simp)
    exact ⟨front.length, by simp, by simp [ha], by simpa using hending⟩

theorem exists_lastBefore {text : Text} {pos s : Nat} (h : start? text pos = some s) :
    ∃ k, LastBefore text pos k := by
  have hstands : ¬∀ m ∈ (marked text).take pos, isPassed m = true := by
    intro hall
    have hnone := startFrom_passed_all hall []
    rw [List.append_nil, ← before_eq] at hnone
    rw [start?, hnone] at h
    cases h
  obtain ⟨k, hk, hstands, hpassed⟩ := exists_last isPassed hstands
  have hpos : k < pos := hk.trans_le (List.length_take_le _ _)
  rw [List.getElem?_take_of_lt hpos] at hstands
  exact ⟨k, hpos, hstands, hpassed⟩

/-! Literals. -/

/-- A character of a literal stands in one. -/
theorem lexeme_of_literal {ls : List Lexeme} {c : Char} {k : Nat}
    (h : (marks ls)[k]? = some (c, .literal)) :
    ∃ us quote body closed vs, ls = us ++ .literal quote body closed :: vs ∧
      (texts us).length ≤ k ∧
      k < (texts us).length + (Lexeme.literal quote body closed).text.length := by
  induction ls generalizing k with
  | nil => simp at h
  | cons l ls ih =>
    rw [marks_cons] at h
    by_cases hk : k < l.marks.length
    · rw [List.getElem?_append_left hk, Lexeme.marks, List.getElem?_map] at h
      obtain ⟨d, hd, hm⟩ := Option.map_eq_some_iff.mp h
      have hkind : l.kind = .literal := congrArg Prod.snd hm
      cases l with
      | literal quote body closed =>
        rw [Lexeme.length_marks] at hk
        exact ⟨[], quote, body, closed, ls, rfl, Nat.zero_le k, by simpa using hk⟩
      | code | line | block => cases hkind
    · rw [List.getElem?_append_right (by omega)] at h
      obtain ⟨us, quote, body, closed, vs, rfl, hfirst, hlast⟩ := ih h
      rw [Lexeme.length_marks] at hk hfirst hlast
      refine ⟨l :: us, quote, body, closed, vs, rfl, ?_, ?_⟩
      · rw [texts_cons, List.length_append]
        omega
      · rw [texts_cons, List.length_append]
        omega

/-- Whether a position is in a literal: past the quote that opens it and not past the one that
closes it, if any does. -/
def Within (text : Text) (pos : Nat) : Prop :=
  ∃ e ∈ literals text, e.opening < pos ∧ ∀ c, e.closing = some c → pos ≤ c

theorem getElem?_marked {text : Text} {us vs : List Lexeme} {l : Lexeme}
    (h : lexemes text = us ++ l :: vs) {i : Nat} (hi : i < l.text.length) :
    (marked text)[(texts us).length + i]? = (l.text[i]?).map (·, l.kind) := by
  have hmarks : marked text = marks us ++ (l.marks ++ marks vs) := by
    rw [marked_eq, h, marks_append, marks_cons]
  rw [hmarks, ← length_marks us, List.getElem?_append_right (Nat.le_add_right _ i),
    Nat.add_sub_cancel_left, List.getElem?_append_left (by rwa [Lexeme.length_marks]), Lexeme.marks,
    List.getElem?_map]

/-- The quotes of a literal are of its class. -/
theorem quotes_of_literal {text : Text} {e : Extent} (h : e ∈ literals text) :
    ∃ quote, isQuote quote = true ∧ (marked text)[e.opening]? = some (quote, .literal) ∧
      ∀ c, e.closing = some c → (marked text)[c]? = some (quote, .literal) := by
  obtain ⟨us, quote, body, closed, vs, hls, rfl⟩ := mem_extentsFrom.mp h
  have hmem : Lexeme.literal quote body closed ∈ lexemes text := by simp [hls]
  refine ⟨quote, (wellFormed_of_mem hmem).1, ?_, ?_⟩
  · rw [Extent.ofBody, Nat.zero_add, ← Nat.add_zero (texts us).length,
      getElem?_marked hls (by simp [Lexeme.text])]
    rfl
  · intro c hc
    cases closed with
    | false => cases hc
    | true =>
      obtain rfl := Option.some.inj hc
      rw [Nat.zero_add, Nat.add_assoc, getElem?_marked hls (by simp [Lexeme.text])]
      simp [Lexeme.text, Lexeme.kind]

theorem isPassed_of_isQuote {c : Char} (h : isQuote c = true) : isPassed (c, .literal) = false := by
  simp [isPassed, isOperator, isBlank_of_isQuote h, h, Class.isComment]

/-- Outside literals, a literal that the last character belongs to is closed by it. -/
theorem closes_of_lastBefore {text : Text} {pos k : Nat} (hout : ¬Within text pos)
    (hlast : LastBefore text pos k) {c : Char} (hk : (marked text)[k]? = some (c, .literal)) :
    ∃ s, ⟨s, some k⟩ ∈ literals text := by
  rw [marked_eq] at hk
  obtain ⟨us, quote, body, closed, vs, hls, hfirst, hlength⟩ := lexeme_of_literal hk
  have he : Extent.ofBody (0 + (texts us).length) body closed ∈ literals text :=
    mem_extentsFrom.mpr ⟨us, quote, body, closed, vs, hls, rfl⟩
  rw [Nat.zero_add] at he
  cases closed with
  | false => exact absurd ⟨_, he, hfirst.trans_lt hlast.before, nofun⟩ hout
  | true =>
    obtain ⟨quote', hquote, -, hclosing⟩ := quotes_of_literal he
    have hc := hclosing _ rfl
    have hlt : (texts us).length + body.length + 1 < pos := by
      by_contra hle
      refine hout ⟨_, he, hfirst.trans_lt hlast.before, fun c hc => ?_⟩
      obtain rfl := Option.some.inj hc
      omega
    -- The closing quote is not passed over, so it does not stand behind the last character.
    have hle : (texts us).length + body.length + 1 ≤ k := by
      by_contra hle
      have hmem : (quote', Class.literal) ∈ ((marked text).take pos).drop (k + 1) := by
        obtain ⟨i, hi⟩ := Nat.exists_eq_add_of_lt (Nat.lt_of_not_le hle)
        apply List.mem_of_getElem? (i := i)
        rw [List.getElem?_drop, List.getElem?_take_of_lt (by omega), ← hc]
        congr 1
        omega
      have hpassed := hlast.passed _ hmem
      rw [isPassed_of_isQuote hquote] at hpassed
      cases hpassed
    obtain rfl : (texts us).length + body.length + 1 = k := by
      simp [Lexeme.text] at hlength
      omega
    exact ⟨_, he⟩

/-- Where an expression of a text stands, from its first character to its last. -/
inductive IsExpression (text : Text) (first last : Nat) : Prop where
  | group (h : IsGroup text first last)
  | literal (h : ⟨first, some last⟩ ∈ literals text)
  | word (h : IsCodeWord text first last)

theorem before_succ {text : Text} {k : Nat} {m : Char × Class} (h : (marked text)[k]? = some m) :
    before text (k + 1) = (m.1, m.2.isComment) :: before text k := by
  rw [before_eq, before_eq, List.take_add_one, h, List.map_append, List.reverse_append]
  rfl

/-- From a place outside literals the search finds an expression of the text. -/
theorem isExpression_of_lastBefore {text : Text} (hfree : QuotesFree text) {pos k s : Nat}
    (hout : ¬Within text pos) (hlast : LastBefore text pos k) (h : start? text pos = some s) :
    IsExpression text s k := by
  rw [start?_eq hlast] at h
  obtain ⟨⟨c, kind⟩, hk, hstands⟩ := Option.map_eq_some_iff.mp hlast.stands
  cases kind with
  | lineComment | blockComment => simp [isPassed, Class.isComment] at hstands
  | literal =>
    obtain ⟨s', hs'⟩ := closes_of_lastBefore hout hlast hk
    obtain rfl : s' = s := Option.some.inj ((startFrom_literal hfree hs').symm.trans h)
    exact .literal hs'
  | code =>
    cases hopening : openingFor c with
    | some o => exact .group ((startFrom_group hfree hk hopening s).mp h)
    | none =>
      have hquote : isQuote c = false := by
        rw [marked_eq] at hk
        obtain ⟨us, vs, hls, -⟩ := lexeme_of_code hk
        have hmem : Lexeme.code c ∈ lexemes text := by simp [hls]
        exact wellFormed_of_mem hmem
      obtain ⟨hblank, hkinds⟩ : isBlank c = false ∧ (isBlank c = false → isWord c = false →
          isOpening c = true) := by
        simpa [isPassed, isOperator, isBracket, Class.isComment, hopening, hquote] using hstands
      rw [before_succ hk, startFrom] at h
      simp only [hblank, hopening, hquote, Class.isComment, Bool.or_false, Bool.false_eq_true,
        if_false] at h
      by_cases hword : isWord c = true
      · rw [if_pos hword] at h
        obtain rfl := Option.some.inj h
        exact .word (isCodeWord_of_wordStart hk hword)
      · rw [if_neg hword, if_pos (hkinds hblank (eq_false_of_ne_true hword))] at h
        cases h

theorem mem_spotsFrom {place : Nat} {ms : List (Char × Class)} {c : Char} {i : Nat}
    (h : (c, i) ∈ spotsFrom place ms) : place ≤ i ∧ ms[i - place]? = some (c, .code) := by
  induction ms generalizing place with
  | nil => cases h
  | cons m ms ih =>
    obtain ⟨d, kind⟩ := m
    have hlater : (c, i) ∈ spotsFrom (place + 1) ms →
        place ≤ i ∧ ((d, kind) :: ms)[i - place]? = some (c, .code) := by
      intro hmem
      obtain ⟨hle, hget⟩ := ih hmem
      have hsucc : i - place = i - (place + 1) + 1 := by omega
      exact ⟨by omega, by rw [hsucc, List.getElem?_cons_succ, hget]⟩
    rw [spotsFrom] at h
    split at h
    · rename_i hspot
      rcases List.mem_cons.mp h with heq | hmem
      · obtain ⟨rfl, rfl⟩ := Prod.mk.inj heq
        rw [Bool.and_eq_true, decide_eq_true_eq] at hspot
        rw [Nat.sub_self, hspot.1]
        exact ⟨le_rfl, rfl⟩
      · exact hlater hmem
    · exact hlater h

theorem marked_of_take {text : Text} {n i : Nat} {m : Char × Class}
    (h : ((marked text).take n)[i]? = some m) : (marked text)[i]? = some m := by
  rw [List.getElem?_take] at h
  split at h
  · exact h
  · cases h

/-- An expression of a text begins in the code or in a literal. -/
theorem IsExpression.begins {text : Text} {first last : Nat} (h : IsExpression text first last) :
    ∃ m, (marked text)[first]? = some m ∧ m.2.isComment = false := by
  cases h with
  | group h =>
    obtain ⟨before, o, inner, c, hspots, -⟩ := h
    have hmem : (o, first) ∈ codeBrackets text (last + 1) := by simp [hspots]
    obtain ⟨-, hget⟩ := mem_spotsFrom hmem
    exact ⟨_, marked_of_take hget, rfl⟩
  | literal h =>
    obtain ⟨quote, -, hopening, -⟩ := quotes_of_literal h
    exact ⟨_, hopening, rfl⟩
  | word h =>
    obtain ⟨word, hne, hplaces, htake, -⟩ := h
    obtain ⟨c, rest, rfl⟩ := List.exists_cons_of_ne_nil hne
    have hlength := congrArg List.length htake
    simp only [List.length_take, List.length_append, List.length_map, List.length_cons] at hlength
    rw [List.length_cons] at hplaces
    have hget : ((marked text).take (last + 1))[first]? = some (c, .code) := by
      rw [htake, List.getElem?_append_right (List.length_take_le _ _), List.length_take,
        Nat.min_eq_left (by omega), Nat.sub_self]
      rfl
    exact ⟨_, marked_of_take hget, rfl⟩

theorem commentMask_of_marked {text : Text} {i : Nat} {m : Char × Class}
    (h : (marked text)[i]? = some m) : (commentMask text)[i]? = some m.2.isComment := by
  rw [marked, List.getElem?_zip_eq_some] at h
  rw [commentMask, List.getElem?_map, h.2]
  rfl

/-! Brackets and words in comments. -/

theorem Ends.exists_first {body rest : Before} (h : Ends body rest)
    (hchain : body.IsChain fun m next => Joined next m) :
    ∃ near m, body = near ++ [m] ∧ (m.2 = true → isQuote m.1 = true) := by
  cases h with
  | @word c body _ hc _ hbody =>
    have hmarks : ∀ m ∈ (c, false) :: body, m.2 = false :=
      List.forall_mem_cons.mpr ⟨rfl, kind_of_mem hchain hc hbody⟩
    have hne : (c, false) :: body ≠ [] := List.cons_ne_nil _ _
    refine ⟨_, _, (List.dropLast_append_getLast hne).symm, fun hmark => ?_⟩
    rw [hmarks _ (List.getLast_mem hne)] at hmark
    cases hmark
  | literal hquote => exact ⟨_, _, rfl, fun _ => hquote⟩
  | group => exact ⟨_, _, rfl, nofun⟩

theorem getElem?_of_before {text : Text} {pos s : Nat} {near : Before} {m : Char × Bool}
    (h : before text pos = near ++ m :: before text s) (hs : s ≤ text.length) :
    (text.zip (commentMask text))[s]? = some m := by
  have hnext := eq_before_of_append h
  rw [List.length_cons, length_before, Nat.min_eq_left hs] at hnext
  have htake : (text.zip (commentMask text)).take (s + 1) = (before text s).reverse ++ [m] := by
    rw [← List.reverse_cons, hnext, before, List.reverse_reverse]
  have hget : ((text.zip (commentMask text)).take (s + 1))[s]? = some m := by
    have hlength : (before text s).reverse.length = s := by
      rw [List.length_reverse, length_before, Nat.min_eq_left hs]
    rw [htake, List.getElem?_append_right (Nat.le_of_eq hlength), hlength, Nat.sub_self]
    rfl
  rwa [List.getElem?_take_of_lt (Nat.lt_succ_self s)] at hget

/-- A bracket in a comment is never the start of an expression, nor is a word there: what starts in
a comment is taken for a literal. -/
theorem isQuote_of_start? {text : Text} {pos s : Nat} (h : start? text pos = some s)
    (hmark : (commentMask text)[s]? = some true) : ∃ q, text[s]? = some q ∧ isQuote q = true := by
  obtain ⟨skipped, body, hbefore, hends, -⟩ := exists_ends_of_start? h
  have hchain : body.IsChain fun m next => Joined next m := by
    have hall := isChain_before text pos
    rw [hbefore] at hall
    exact hall.left_of_append.right_of_append
  obtain ⟨near, m, rfl, hfirst⟩ := hends.exists_first hchain
  have hs : s ≤ text.length := (Nat.le_of_lt (lt_of_start? h)).trans (Nat.min_le_right _ _)
  have hget : (text.zip (commentMask text))[s]? = some m := by
    rw [List.append_assoc, List.append_assoc, ← List.append_assoc] at hbefore
    exact getElem?_of_before hbefore hs
  rw [List.getElem?_zip_eq_some] at hget
  rw [hget.2] at hmark
  exact ⟨m.1, hget.1, hfirst (Option.some.inj hmark)⟩

/-! The literals that are passed over on the way to a bracket. -/

/-- Likewise the place of the bracket, with those of the quotes that open the literals passed over. -/
def groupTrace : Option Char → List Char → Before → Option Nat × List Nat
  | _, _, [] => (none, [])
  | some quote, awaited, (c, _) :: rest =>
    let closes := c = quote && !isEscaped rest
    let t := groupTrace (if closes then none else some quote) awaited rest
    (t.1, if closes then rest.length :: t.2 else t.2)
  | none, awaited, (c, comment) :: rest =>
    if comment then groupTrace none awaited rest
    else if isQuote c && !isEscaped rest then groupTrace (some c) awaited rest
    else match openingFor c with
      | some opening => groupTrace none (opening :: awaited) rest
      | none =>
        if awaited.head? = some c then
          match awaited.tail with
          | [] => (some rest.length, [])
          | more => groupTrace none more rest
        else if isOpening c then (none, [])
        else groupTrace none awaited rest

theorem fst_groupTrace (quote : Option Char) (awaited : List Char) (before : Before) :
    (groupTrace quote awaited before).1 = groupStart quote awaited before := by
  fun_induction groupStart quote awaited before with
  | case1 => rfl
  | case2 quote awaited c mark rest ih => rw [groupTrace, ← ih]
  | case3 awaited c rest ih => rw [groupTrace, if_pos rfl, ih]
  | case4 awaited c comment rest hcomment hquote ih =>
    rw [groupTrace, if_neg hcomment, if_pos hquote, ih]
  | case5 awaited c comment rest hcomment hquote opening hopening ih =>
    rw [groupTrace, if_neg hcomment, if_neg hquote, hopening]
    exact ih
  | case6 awaited c comment rest hcomment hquote hopening hhead htail =>
    rw [groupTrace, if_neg hcomment, if_neg hquote, hopening]
    simp only [if_pos hhead, htail]
  | case7 awaited c comment rest hcomment hquote hopening hhead htail ih =>
    rw [groupTrace, if_neg hcomment, if_neg hquote, hopening]
    simp only [if_pos hhead]
    exact ih
  | case8 awaited c comment rest hcomment hquote hopening hhead hfar =>
    rw [groupTrace, if_neg hcomment, if_neg hquote, hopening]
    simp only [if_neg hhead, if_pos hfar]
  | case9 awaited c comment rest hcomment hquote hopening hhead hfar ih =>
    rw [groupTrace, if_neg hcomment, if_neg hquote, hopening]
    simp only [if_neg hhead, if_neg hfar, ih]

theorem groupTrace_within {quote c : Char} {before : Before}
    (h : c ≠ quote ∨ isEscaped before = true) (awaited : List Char) (comment : Bool) :
    groupTrace (some quote) awaited ((c, comment) :: before) =
      groupTrace (some quote) awaited before := by
  rw [groupTrace]
  rcases h with h | h <;> simp [h]

theorem snd_groupTrace_literal {quote : Char} (hq : isQuote quote = true) {body : Text}
    (h : Body quote body) {us : List Lexeme} (hus : isEscaped (behind us) = false)
    (awaited : List Char) :
    (groupTrace none awaited (behind (us ++ [.literal quote body true]))).2 =
      (texts us).length :: (groupTrace none awaited (behind us)).2 := by
  have hne : quote ≠ backslash := ne_backslash_of_isQuote hq
  have hopening : isEscaped ((quote, false) :: behind us) = false := isEscaped_cons hne false _
  have hclosing : isEscaped (bodyBehind body ++ (quote, false) :: behind us) = false :=
    isEscaped_body h hopening
  rw [behind_append, behind_literal, List.cons_append, List.append_assoc, List.singleton_append,
    groupTrace]
  simp only [hq, hclosing, Bool.not_false, Bool.and_self, if_true, if_false, Bool.false_eq_true]
  rw [h.pass hq (groupTrace (some quote) awaited)
    (fun c before hc => groupTrace_within hc awaited false) hopening, groupTrace]
  simp [hus]

/-- Behind lexemes the search for a group passes over literals of the text only. -/
theorem mem_groupTrace {ls : List Lexeme} (h : Settled ls) {awaited : List Char} {n : Nat}
    (hn : n ∈ (groupTrace none awaited (behind ls)).2) :
    ∃ us quote body closed vs, ls = us ++ .literal quote body closed :: vs ∧
      n = (texts us).length := by
  induction ls using List.reverseRecOn generalizing awaited with
  | nil => cases hn
  | append_singleton ls l ih =>
    have hwf : l.WellFormed := h.wellFormed l (by simp)
    have hclosed : l.isClosed = true := h.closed l (by simp)
    have hls : Settled ls := h.of_append
    -- A literal that was passed over before this lexeme.
    have hearlier : ∀ {awaited}, n ∈ (groupTrace none awaited (behind ls)).2 →
        ∃ us quote body closed vs, ls ++ [l] = us ++ .literal quote body closed :: vs ∧
          n = (texts us).length := by
      intro awaited hmem
      obtain ⟨us, quote, body, closed, vs, rfl, hplace⟩ := ih hls hmem
      exact ⟨us, quote, body, closed, vs ++ [l], by simp, hplace⟩
    cases l with
    | line | block =>
      rw [pass_comment (groupTrace none awaited) (fun _ _ => rfl) rfl] at hn
      exact hearlier hn
    | literal quote body closed =>
      obtain rfl : closed = true := hclosed
      have hfree : isEscaped (behind ls) = false := h.free ls quote body true [] rfl
      rw [snd_groupTrace_literal hwf.1 (hwf.2 rfl) hfree] at hn
      rcases List.mem_cons.mp hn with rfl | hn
      · exact ⟨ls, quote, body, true, [], rfl, rfl⟩
      · exact hearlier hn
    | code c =>
      have hq : isQuote c = false := hwf
      rw [behind_append, behind_code, List.singleton_append, groupTrace] at hn
      simp only [hq, Bool.false_and, Bool.false_eq_true, if_false] at hn
      cases hc : openingFor c with
      | some o =>
        rw [hc] at hn
        exact hearlier hn
      | none =>
        rw [hc] at hn
        dsimp only at hn
        split at hn
        · split at hn
          · cases hn
          · exact hearlier hn
        · split at hn
          · cases hn
          · exact hearlier hn

/-- From a place outside literals, where none opens after a backslash, what is found starts outside
comments, and so does every literal that is passed over on the way to a bracket. -/
theorem outside_of_start? {text : Text} (hfree : QuotesFree text) {pos s : Nat}
    (hout : ¬Within text pos) (h : start? text pos = some s) :
    (commentMask text)[s]? = some false ∧
      ∀ k c o, LastBefore text pos k → (marked text)[k]? = some (c, .code) → openingFor c = some o →
        (groupTrace none [o] (before text k)).1 = some s ∧
        ∀ n ∈ (groupTrace none [o] (before text k)).2,
          (∃ e ∈ literals text, e.opening = n) ∧ (commentMask text)[n]? = some false := by
  constructor
  · obtain ⟨k, hlast⟩ := exists_lastBefore h
    obtain ⟨m, hm, hmark⟩ := (isExpression_of_lastBefore hfree hout hlast h).begins
    rw [commentMask_of_marked hm, hmark]
  · intro k c o hlast hk hopening
    constructor
    · rw [start?_eq hlast, before_succ hk] at h
      exact (fst_groupTrace _ _ _).trans ((startFrom_closing hopening _).symm.trans h)
    · intro n hn
      rw [marked_eq] at hk
      obtain ⟨us, vs, hls, rfl⟩ := lexeme_of_code hk
      rw [before_of_lexemes hls] at hn
      have hsettled : Settled us := settled_of_lexemes hfree hls (List.cons_ne_nil _ _)
      obtain ⟨ws, quote, body, closed, xs, rfl, rfl⟩ := mem_groupTrace hsettled hn
      have he : Extent.ofBody (0 + (texts ws).length) body closed ∈ literals text :=
        mem_extentsFrom.mpr ⟨ws, quote, body, closed, xs ++ .code c :: vs, by simp [hls], rfl⟩
      rw [Nat.zero_add] at he
      obtain ⟨quote', -, hquote, -⟩ := quotes_of_literal he
      exact ⟨⟨_, he, rfl⟩, commentMask_of_marked hquote⟩

/-- What is found in a comment is a quote, and one looked for it from within a literal. -/
theorem within_of_start? {text : Text} (hfree : QuotesFree text) {pos s : Nat}
    (h : start? text pos = some s) (hmark : (commentMask text)[s]? = some true) :
    Within text pos ∧ ∃ q, text[s]? = some q ∧ isQuote q = true := by
  refine ⟨?_, isQuote_of_start? h hmark⟩
  by_contra hout
  have houtside := (outside_of_start? hfree hout h).1
  rw [hmark] at houtside
  cases houtside

/-- Looking backward from within a literal, a quote in a comment is taken for one that opens a
literal: for the start of the expression, and on the way to a bracket. -/
theorem start?_in_comment :
    start? "// it's\nsay('hi')".toList 13 = some 5 ∧
      (commentMask "// it's\nsay('hi')".toList)[5]? = some true ∧
      groupTrace none ['('] (before "( // it's\n ( ')".toList 14) = (some 0, [7]) ∧
      (commentMask "( // it's\n ( ')".toList)[7]? = some true := by
  decide +kernel

end Parley.Expression
