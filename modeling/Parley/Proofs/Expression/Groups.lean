import Parley.Expression.Backward
import Parley.Proofs.Expression.Lexemes

/-! Groups of brackets. A sequence of brackets is nested if each of them is answered by one of its
kind, those in between being nested too. Looking backward for the bracket that a closing one
answers finds the start of the group which that one ends, and finds none if it ends none
(`answer_eq_some_iff`). -/
namespace Parley.Expression

def isBracket (c : Char) : Bool := isOpening c || (openingFor c).isSome

theorem isOpening_of_openingFor {c o : Char} (h : openingFor c = some o) : isOpening o = true := by
  unfold openingFor at h
  split at h
  · cases h; rfl
  · split at h
    · cases h; rfl
    · split at h
      · cases h; rfl
      · cases h

theorem openingFor_of_isOpening {c : Char} (h : isOpening c = true) : openingFor c = none := by
  simp only [isOpening, Bool.or_eq_true, decide_eq_true_eq] at h
  rcases h with (rfl | rfl) | rfl <;> rfl

/-- Properly nested brackets, each answered by one of its kind. -/
inductive Nested : List Char → Prop where
  | nil : Nested []
  | group {c o : Char} {inner rest : List Char} (h : openingFor c = some o) (hi : Nested inner)
      (hr : Nested rest) : Nested (o :: (inner ++ c :: rest))

theorem Nested.append {a b : List Char} (ha : Nested a) (hb : Nested b) : Nested (a ++ b) := by
  induction ha with
  | nil => exact hb
  | group h hi _ _ ih => simpa using Nested.group h hi ih

abbrev Spot := Char × Nat

/-- The brackets of code, each with its place; the first character is at `place`. -/
def spotsFrom (place : Nat) : List (Char × Class) → List Spot
  | [] => []
  | (c, kind) :: rest =>
    if kind = .code && isBracket c then (c, place) :: spotsFrom (place + 1) rest
    else spotsFrom (place + 1) rest

/-- The brackets of code among the first `n` characters of a text, each with its place. -/
def codeBrackets (text : Text) (n : Nat) : List Spot := spotsFrom 0 ((marked text).take n)

/-- The brackets of code from one place to another are a group: the last answers the first, and
those in between are nested. -/
def IsGroup (text : Text) (first last : Nat) : Prop :=
  ∃ before o inner c, codeBrackets text (last + 1) = before ++ (o, first) :: inner ++ [(c, last)] ∧
    openingFor c = some o ∧ Nested (inner.map Prod.fst)

theorem spotsFrom_append (place : Nat) (a b : List (Char × Class)) :
    spotsFrom place (a ++ b) = spotsFrom place a ++ spotsFrom (place + a.length) b := by
  induction a generalizing place with
  | nil => rfl
  | cons m a ih =>
    have hplace : place + 1 + a.length = place + (a.length + 1) := by omega
    simp only [List.cons_append, spotsFrom, List.length_cons, ih, hplace]
    split <;> simp

/-- Looks for the bracket that answers the last of those awaited, among brackets nearest first. -/
def answer : List Char → List Spot → Option Nat
  | _, [] => none
  | awaited, (c, place) :: rest =>
    match openingFor c with
    | some opening => answer (opening :: awaited) rest
    | none =>
      if awaited.head? = some c then
        match awaited.tail with
        | [] => some place
        | more => answer more rest
      else none

theorem answer_closing {c o : Char} (h : openingFor c = some o) (awaited : List Char) (place : Nat)
    (rest : List Spot) : answer awaited ((c, place) :: rest) = answer (o :: awaited) rest := by
  rw [answer, h]

theorem answer_last {c : Char} (h : openingFor c = none) (place : Nat) (rest : List Spot) :
    answer [c] ((c, place) :: rest) = some place := by
  simp [answer, h]

theorem answer_more {c next : Char} (h : openingFor c = none) (more : List Char) (place : Nat)
    (rest : List Spot) :
    answer (c :: next :: more) ((c, place) :: rest) = answer (next :: more) rest := by
  simp [answer, h]

/-- Nested brackets are passed over. -/
theorem answer_nested {word : List Char} (h : Nested word) {spots : List Spot}
    (hword : spots.map Prod.fst = word) (next : Char) (more : List Char) (rest : List Spot) :
    answer (next :: more) (spots.reverse ++ rest) = answer (next :: more) rest := by
  induction h generalizing spots next more rest with
  | nil => rw [List.map_eq_nil_iff.mp hword, List.reverse_nil, List.nil_append]
  | @group c o inner after h _ _ ihi iha =>
    obtain ⟨⟨o', i⟩, tail, rfl, rfl, htail⟩ := List.map_eq_cons_iff.mp hword
    obtain ⟨within, tail, rfl, hwithin, htail⟩ := List.map_eq_append_iff.mp htail
    obtain ⟨⟨c', j⟩, behind, rfl, rfl, hbehind⟩ := List.map_eq_cons_iff.mp htail
    have hshape : ((o', i) :: (within ++ (c', j) :: behind)).reverse ++ rest =
        behind.reverse ++ (c', j) :: (within.reverse ++ (o', i) :: rest) := by simp
    have ho : openingFor o' = none := openingFor_of_isOpening (isOpening_of_openingFor h)
    rw [hshape, iha hbehind, answer_closing h, ihi hwithin, answer_more ho]

/-- What is left of a sequence of brackets once the awaited ones have been found: each with nested
brackets after it, and the one awaited last in front. -/
inductive Answers : List Char → List Char → Prop where
  | last {o : Char} {inner : List Char} (h : Nested inner) : Answers [o] (o :: inner)
  | more {o : Char} {awaited word inner : List Char} (hw : Answers awaited word)
      (h : Nested inner) : Answers (o :: awaited) (word ++ o :: inner)

theorem Answers.append {awaited word inner : List Char} (hw : Answers awaited word)
    (h : Nested inner) : Answers awaited (word ++ inner) := by
  cases hw with
  | last h' => exact .last (h'.append h)
  | more hw h' => simpa using Answers.more hw (h'.append h)

/-- A closing bracket and what answers it are nested. -/
theorem Answers.closing {c o : Char} (h : openingFor c = some o) {awaited word : List Char}
    (hne : awaited ≠ []) (hw : Answers (o :: awaited) word) : Answers awaited (word ++ [c]) := by
  cases hw with
  | last => exact absurd rfl hne
  | more hw hi => simpa using hw.append (.group h hi .nil)

theorem answers_of_answer {awaited : List Char} {spots : List Spot} {place : Nat}
    (hne : awaited ≠ []) (h : answer awaited spots = some place) :
    ∃ before o after, spots.reverse = before ++ (o, place) :: after ∧
      Answers awaited (o :: after.map Prod.fst) := by
  induction spots generalizing awaited with
  | nil => simp [answer] at h
  | cons s spots ih =>
    obtain ⟨c, i⟩ := s
    cases hc : openingFor c with
    | some o =>
      rw [answer_closing hc] at h
      obtain ⟨before, o', after, hspots, hanswers⟩ := ih (List.cons_ne_nil _ _) h
      refine ⟨before, o', after ++ [(c, i)], by simp [hspots], ?_⟩
      simpa using hanswers.closing hc hne
    | none =>
      obtain ⟨a, awaited, rfl⟩ := List.exists_cons_of_ne_nil hne
      by_cases ha : a = c
      · subst ha
        cases awaited with
        | nil =>
          rw [answer_last hc, Option.some.injEq] at h
          subst h
          exact ⟨spots.reverse, a, [], by simp, .last .nil⟩
        | cons next more =>
          rw [answer_more hc] at h
          obtain ⟨before, o', after, hspots, hanswers⟩ := ih (List.cons_ne_nil _ _) h
          refine ⟨before, o', after ++ [(a, i)], by simp [hspots], ?_⟩
          simpa using hanswers.more (o := a) .nil
      · simp [answer, hc, ha] at h

/-- The bracket found is the one that the nested brackets up to the end leave open. -/
theorem answer_eq_some_iff {o : Char} (ho : isOpening o = true) {spots : List Spot} {place : Nat} :
    answer [o] spots.reverse = some place ↔
      ∃ before inner, spots = before ++ (o, place) :: inner ∧ Nested (inner.map Prod.fst) := by
  constructor
  · intro h
    obtain ⟨before, o', inner, hspots, hanswers⟩ := answers_of_answer (List.cons_ne_nil _ _) h
    rw [List.reverse_reverse] at hspots
    generalize hword : o' :: inner.map Prod.fst = word at hanswers
    cases hanswers with
    | last hnested =>
      obtain ⟨rfl, rfl⟩ := List.cons.inj hword
      exact ⟨before, inner, hspots, hnested⟩
    | more hw => nomatch hw
  · rintro ⟨before, inner, rfl, hnested⟩
    have hshape : (before ++ (o, place) :: inner).reverse =
        inner.reverse ++ (o, place) :: before.reverse := by simp
    rw [hshape, answer_nested hnested rfl, answer_last (openingFor_of_isOpening ho)]

end Parley.Expression
