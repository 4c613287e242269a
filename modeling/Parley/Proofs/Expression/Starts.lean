import Parley.Editor
import Parley.Proofs.Expression.Passing

/-! Looking backward for an expression agrees with reading the text forward. Blanks, comments and
operator punctuation before the position are passed over. From the quote that closes a literal the
search comes to the quote that opens it; from a closing bracket of the code it comes to the start
of the group which that bracket ends, and to nothing if it ends none. For this no backslash may
stand directly before a literal, since the search would take its quote for an escaped one. -/
namespace Parley.Expression

def isOperator (c : Char) : Bool := !(isBlank c || isWord c || isQuote c || isBracket c)

/-- Whether a character may stand between an expression and the position it is looked for from. -/
def isPassed (m : Char × Class) : Bool := isBlank m.1 || m.2.isComment || isOperator m.1

/-- The last character before `pos` that is not passed over is at `k`. -/
structure LastBefore (text : Text) (pos k : Nat) : Prop where
  before : k < pos
  stands : (marked text)[k]?.map isPassed = some false
  passed : ∀ m ∈ ((marked text).take pos).drop (k + 1), isPassed m = true

/-- No literal opens directly after a backslash. -/
def QuotesFree (text : Text) : Prop :=
  ∀ e ∈ literals text, (text.take e.opening).getLast? ≠ some backslash

instance (text : Text) : Decidable (QuotesFree text) :=
  inferInstanceAs (Decidable (∀ e ∈ literals text, _))

theorem isBlank_of_openingFor {c o : Char} (h : openingFor c = some o) : isBlank c = false := by
  unfold openingFor at h
  split at h
  · rename_i hc; subst hc; rfl
  · split at h
    · rename_i hc; subst hc; rfl
    · split at h
      · rename_i hc; subst hc; rfl
      · cases h

theorem isBlank_of_isQuote {c : Char} (h : isQuote c = true) : isBlank c = false := by
  simp only [isQuote, Bool.or_eq_true, decide_eq_true_eq] at h
  rcases h with (rfl | rfl) | rfl <;> rfl

theorem startFrom_passed {m : Char × Class} (h : isPassed m = true) (before : Before) :
    startFrom ((m.1, m.2.isComment) :: before) = startFrom before := by
  obtain ⟨c, kind⟩ := m
  rw [startFrom]
  by_cases hskip : (isBlank c || kind.isComment) = true
  · rw [if_pos hskip]
  · rw [if_neg hskip]
    have hop : isOperator c = true := by
      simp only [isPassed, Bool.or_eq_true] at h hskip
      exact h.resolve_left hskip
    simp only [isOperator, isBracket, Bool.not_eq_true', Bool.or_eq_false_iff,
      Option.isSome_eq_false_iff, Option.isNone_iff_eq_none] at hop
    obtain ⟨⟨⟨-, hword⟩, hquote⟩, hopen, hclose⟩ := hop
    simp [hword, hquote, hopen, hclose]

theorem startFrom_passed_all {ms : List (Char × Class)} (h : ∀ m ∈ ms, isPassed m = true)
    (before : Before) :
    startFrom ((ms.map fun m => (m.1, m.2.isComment)).reverse ++ before) = startFrom before := by
  induction ms generalizing before with
  | nil => rfl
  | cons m ms ih =>
    rw [List.forall_mem_cons] at h
    rw [List.map_cons, List.reverse_cons, List.append_assoc, List.singleton_append, ih h.2,
      startFrom_passed h.1]

theorem startFrom_closing {c o : Char} (h : openingFor c = some o) (before : Before) :
    startFrom ((c, false) :: before) = groupStart none [o] before := by
  simp [startFrom, isBlank_of_openingFor h, h]

theorem startFrom_quote {c : Char} (h : isQuote c = true) (before : Before) :
    startFrom ((c, false) :: before) = literalStart c before := by
  simp [startFrom, isBlank_of_isQuote h, openingFor_of_isQuote h, h]

/-- The search starts at the last character that is not passed over. -/
theorem start?_eq {text : Text} {pos k : Nat} (h : LastBefore text pos k) :
    start? text pos = startFrom (before text (k + 1)) := by
  have htake : (marked text).take pos =
      (marked text).take (k + 1) ++ ((marked text).take pos).drop (k + 1) := by
    have hmin : min (k + 1) pos = k + 1 := Nat.min_eq_left h.before
    have hsplit := (List.take_append_drop (k + 1) ((marked text).take pos)).symm
    rwa [List.take_take, hmin] at hsplit
  rw [start?, before_eq, htake, List.map_append, List.reverse_append, startFrom_passed_all h.passed,
    before_eq]

theorem take_marked {text : Text} {us vs : List Lexeme} (h : lexemes text = us ++ vs) :
    (marked text).take (texts us).length = marks us := by
  rw [marked_eq, h, marks_append, ← length_marks, List.take_left]

theorem before_of_lexemes {text : Text} {us vs : List Lexeme} (h : lexemes text = us ++ vs) :
    before text (texts us).length = behind us := by
  rw [before_eq, take_marked h]
  rfl

theorem lexemes_snoc {text : Text} {us vs : List Lexeme} {l : Lexeme}
    (h : lexemes text = us ++ l :: vs) : lexemes text = (us ++ [l]) ++ vs := by
  rw [h]
  simp

/-- No backslash stands before a literal. -/
theorem isEscaped_behind {text : Text} (hfree : QuotesFree text) {us vs : List Lexeme}
    {quote : Char} {body : Text} {closed : Bool}
    (h : lexemes text = us ++ .literal quote body closed :: vs) : isEscaped (behind us) = false := by
  have hmem : Extent.ofBody (0 + (texts us).length) body closed ∈ literals text :=
    mem_extentsFrom.mpr ⟨us, quote, body, closed, vs, h, rfl⟩
  have htake : text.take (texts us).length = texts us := by
    rw [← texts_lexemes text, h, texts_append, List.take_left]
  have hlast := hfree _ hmem
  rw [Extent.ofBody, Nat.zero_add, htake] at hlast
  apply isEscaped_of_head
  rwa [map_fst_behind, List.head?_reverse]

/-- The lexemes before another one are settled if no literal opens after a backslash. -/
theorem settled_of_lexemes {text : Text} (hfree : QuotesFree text) {us vs : List Lexeme}
    (h : lexemes text = us ++ vs) (hvs : vs ≠ []) : Settled us where
  wellFormed l hl := wellFormed_of_mem (by rw [h]; exact List.mem_append_left vs hl)
  closed l hl := by
    have hmem : l ∈ (lexemes text).dropLast := by
      rw [h, List.dropLast_append_of_ne_nil hvs]
      exact List.mem_append_left _ hl
    exact isClosed_of_mem_dropLast hmem
  free ws quote body closed xs hus := by
    have hshape : lexemes text = ws ++ .literal quote body closed :: (xs ++ vs) := by
      rw [h, hus]
      simp
    exact isEscaped_behind hfree hshape

/-- From a closing bracket the search comes to the start of the group that it ends. -/
theorem startFrom_group {text : Text} (hfree : QuotesFree text) {k : Nat} {c o : Char}
    (hk : (marked text)[k]? = some (c, .code)) (hc : openingFor c = some o) (s : Nat) :
    startFrom (before text (k + 1)) = some s ↔ IsGroup text s k := by
  rw [marked_eq] at hk
  obtain ⟨us, vs, hls, rfl⟩ := lexeme_of_code hk
  have hsettled : Settled us := settled_of_lexemes hfree hls (List.cons_ne_nil _ _)
  have hlength : (texts us).length + 1 = (texts (us ++ [.code c])).length := by
    simp [Lexeme.text]
  have hbehind : before text ((texts us).length + 1) = (c, false) :: behind us := by
    rw [hlength, before_of_lexemes (lexemes_snoc hls), behind_append, behind_code,
      List.singleton_append]
  have hbrackets : codeBrackets text ((texts us).length + 1) =
      (spotsBehind us).reverse ++ [(c, (texts us).length)] := by
    have hspots := spotsBehind_of_bracket (by simp [isBracket, hc] : isBracket c = true) us
    rw [codeBrackets, hlength, take_marked (lexemes_snoc hls), ← List.reverse_cons, ← hspots,
      spotsBehind, List.reverse_reverse]
  have hopening : isOpening o = true := isOpening_of_openingFor hc
  have hfound : startFrom (before text ((texts us).length + 1)) =
      answer [o] (spotsBehind us).reverse.reverse := by
    rw [hbehind, startFrom_closing hc, groupStart_behind hsettled (List.cons_ne_nil _ _),
      List.reverse_reverse]
    simpa using hopening
  rw [hfound, answer_eq_some_iff hopening, IsGroup, hbrackets]
  constructor
  · rintro ⟨before, inner, hspots, hnested⟩
    exact ⟨before, o, inner, c, by rw [hspots], hc, hnested⟩
  · rintro ⟨before, o', inner, c', heq, hc', hnested⟩
    obtain ⟨hspots, hlast⟩ := List.append_inj' heq rfl
    obtain rfl : c = c' := congrArg Prod.fst (List.singleton_inj.mp hlast)
    obtain rfl : o = o' := Option.some.inj (hc.symm.trans hc')
    exact ⟨before, inner, hspots, hnested⟩

/-- From the quote that closes a literal the search comes to the one that opens it. -/
theorem startFrom_literal {text : Text} (hfree : QuotesFree text) {s k : Nat}
    (h : ⟨s, some k⟩ ∈ literals text) : startFrom (before text (k + 1)) = some s := by
  obtain ⟨us, quote, body, closed, vs, hls, he⟩ := mem_extentsFrom.mp h
  obtain ⟨rfl, hclosing⟩ := Extent.mk.inj he
  cases closed with
  | false => simp at hclosing
  | true =>
    obtain rfl : k = 0 + (texts us).length + body.length + 1 := by simpa using hclosing
    have hmem : Lexeme.literal quote body true ∈ lexemes text := by simp [hls]
    obtain ⟨hquote, hbody⟩ := wellFormed_of_mem hmem
    have hlength : 0 + (texts us).length + body.length + 1 + 1 =
        (texts (us ++ [.literal quote body true])).length := by
      simp [Lexeme.text]
      omega
    rw [hlength, before_of_lexemes (lexemes_snoc hls), behind_append, behind_literal,
      List.cons_append, List.append_assoc, List.singleton_append, startFrom_quote hquote,
      literalStart_literal hquote (hbody rfl) (isEscaped_behind hfree hls), Nat.zero_add]

end Parley.Expression

namespace Parley.Editor

open Expression

/-- The expression that ends where a literal is closed is that literal, and the one that ends in a
closing bracket of the code is the group that the bracket ends; without such a group there is
none. -/
theorem backwardExpression_of_lastBefore (e : Editor) (outputs : Outputs) (pos k : Nat)
    (hfree : QuotesFree (e.currentText outputs))
    (hlast : LastBefore (e.currentText outputs) pos k) :
    (∀ c o, (marked (e.currentText outputs))[k]? = some (c, .code) → openingFor c = some o →
      (∀ s, e.backwardExpression outputs pos = some s ↔ IsGroup (e.currentText outputs) s k) ∧
      (e.backwardExpression outputs pos = none ↔ ¬∃ s, IsGroup (e.currentText outputs) s k)) ∧
    (∀ s, ⟨s, some k⟩ ∈ literals (e.currentText outputs) →
      e.backwardExpression outputs pos = some s) := by
  rw [backwardExpression, start?_eq hlast]
  refine ⟨fun c o hk hc => ?_, fun s hs => startFrom_literal hfree hs⟩
  have hgroup := startFrom_group hfree hk hc
  refine ⟨hgroup, ?_⟩
  rw [Option.eq_none_iff_forall_ne_some]
  simp only [ne_eq, hgroup, not_exists]

/-- A call with a bracket in a literal, behind an escaped quote, and a quote in a comment. -/
def callEditor : Editor :=
  ({} : Editor).openText "main".toList "g(\x22\\\x22)\x22, /* ' ] */ [x]) + ".toList

theorem backwardExpression_of_call :
    QuotesFree (callEditor.currentText fun _ => {}) ∧
      LastBefore (callEditor.currentText fun _ => {}) 26 22 ∧
      LastBefore (callEditor.currentText fun _ => {}) 8 6 ∧
      callEditor.backwardExpression (fun _ => {}) 26 = some 1 ∧
      callEditor.backwardExpression (fun _ => {}) 8 = some 2 := by
  have hfree : QuotesFree (callEditor.currentText fun _ => {}) := by decide
  have hbracket : LastBefore (callEditor.currentText fun _ => {}) 26 22 :=
    ⟨by decide, by decide, by decide⟩
  have hquote : LastBefore (callEditor.currentText fun _ => {}) 8 6 :=
    ⟨by decide, by decide, by decide⟩
  have hgroup : IsGroup (callEditor.currentText fun _ => {}) 1 22 :=
    ⟨[], '(', [('[', 19), (']', 21)], ')', by decide, rfl, .group rfl .nil .nil⟩
  have hclosing := (backwardExpression_of_lastBefore callEditor (fun _ => {}) 26 22 hfree
    hbracket).1 ')' '(' (by decide) rfl
  have hliteral := (backwardExpression_of_lastBefore callEditor (fun _ => {}) 8 6 hfree hquote).2
  exact ⟨hfree, hbracket, hquote, (hclosing.1 1).mpr hgroup, hliteral 2 (by decide)⟩

end Parley.Editor
