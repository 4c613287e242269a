import Mathlib.Data.List.Chain
import Parley.Proofs.Expression.Limits
import Parley.Proofs.Text.Blanks

/-! Words. A comment or a literal begins and ends in characters that are no part of a word, or with a
line, so the characters of a word are all of one class (`isChain_marked`). A word that ends in the
code is a word of the code (`isCodeWord_of_wordStart`). -/
namespace Parley.Expression

theorem isWord_of_isQuote {c : Char} (h : isQuote c = true) : isWord c = false := by
  simp only [isQuote, Bool.or_eq_true, decide_eq_true_eq] at h
  rcases h with (rfl | rfl) | rfl <;> rfl

/-- Of one kind, if both are characters of words. -/
def Joined {α : Type} (m next : Char × α) : Prop :=
  isWord m.1 = true → isWord next.1 = true → next.2 = m.2

theorem joined_of_not_word {α : Type} {c : Char} (h : isWord c = false) (kind : α)
    (next : Char × α) : Joined (c, kind) next := by
  intro hc
  rw [h] at hc
  cases hc

/-- The class of what is read in a context, its ends apart. -/
def Context.kind : Context → Class
  | code => .code
  | line => .lineComment
  | block => .blockComment
  | literal _ => .literal

/-- Only a quote opens a literal. -/
def Context.Quoted : Context → Prop
  | literal quote => isQuote quote = true
  | _ => True

theorem quoted_code : Context.code.Quoted := trivial
theorem quoted_line : Context.line.Quoted := trivial
theorem quoted_block : Context.block.Quoted := trivial

theorem head?_classesFrom {context : Context} (hq : context.Quoted) {c : Char} (hc : isWord c = true)
    (rest : Text) : (classesFrom context (c :: rest)).head? = some context.kind := by
  have hne : ∀ d, isWord d = false → c ≠ d := by
    rintro d hd rfl
    rw [hc] at hd
    cases hd
  cases context with
  | code =>
    have hquote : ¬isQuote c = true := fun h => hne c (isWord_of_isQuote h) rfl
    rw [classesFrom, if_neg hquote]
    · rfl
    · exact fun _ h _ => hne '/' rfl h
    · exact fun _ h _ => hne '/' rfl h
  | line =>
    rw [classesFrom, if_neg (hne '\n' rfl)]
    rfl
  | block =>
    rw [classesFrom]
    · rfl
    · exact fun _ h _ => hne '*' rfl h
  | literal quote =>
    rw [classesFrom]
    · rfl
    · exact fun _ _ h _ => hne '\\' rfl h

/-- A character before those read in a context, if it is of their class or no part of a word. -/
theorem isChain_cons {context : Context} (hq : context.Quoted) {c : Char} {kind : Class}
    (hkind : isWord c = true → kind = context.kind) {rest : Text}
    (h : (rest.zip (classesFrom context rest)).IsChain Joined) :
    ((c, kind) :: rest.zip (classesFrom context rest)).IsChain Joined := by
  refine List.isChain_cons.mpr ⟨?_, h⟩
  intro next hnext hc hword
  cases rest with
  | nil => cases hnext
  | cons d rest =>
    obtain ⟨k, kinds, hkinds⟩ : ∃ k kinds, classesFrom context (d :: rest) = k :: kinds := by
      apply List.exists_cons_of_length_eq_add_one
      rw [length_classesFrom]
      rfl
    rw [hkinds] at hnext
    obtain rfl : (d, k) = next := Option.some.inj hnext
    have hhead := head?_classesFrom hq hword rest
    rw [hkinds] at hhead
    exact (Option.some.inj hhead).trans (hkind hc).symm

/-- Likewise with two of them, the first of which is no part of a word. -/
theorem isChain_cons_cons {context : Context} (hq : context.Quoted) {a b : Char} {kind : Class}
    (ha : isWord a = false) (hkind : isWord b = true → kind = context.kind) {rest : Text}
    (h : (rest.zip (classesFrom context rest)).IsChain Joined) :
    ((a, kind) :: (b, kind) :: rest.zip (classesFrom context rest)).IsChain Joined :=
  List.isChain_cons_cons.mpr ⟨joined_of_not_word ha kind _, isChain_cons hq hkind h⟩

theorem isChain_classesFrom {context : Context} (hq : context.Quoted) (text : Text) :
    (text.zip (classesFrom context text)).IsChain Joined := by
  fun_induction classesFrom context text with
  | case1 => exact .nil
  | case2 rest ih => exact isChain_cons_cons quoted_line rfl (by decide) (ih quoted_line)
  | case3 rest ih => exact isChain_cons_cons quoted_block rfl (by decide) (ih quoted_block)
  | case4 c rest _ _ hquote ih =>
    have hword := isWord_of_isQuote hquote
    have hquoted : (Context.literal c).Quoted := hquote
    exact isChain_cons hquoted (by simp [hword]) (ih hquoted)
  | case5 c rest _ _ _ ih => exact isChain_cons quoted_code (fun _ => rfl) (ih quoted_code)
  | case6 rest ih => exact isChain_cons quoted_code (by decide) (ih quoted_code)
  | case7 c rest _ ih => exact isChain_cons quoted_line (fun _ => rfl) (ih quoted_line)
  | case8 rest ih => exact isChain_cons_cons quoted_code rfl (by decide) (ih quoted_code)
  | case9 c rest _ ih => exact isChain_cons quoted_block (fun _ => rfl) (ih quoted_block)
  | case10 q c rest ih => exact isChain_cons_cons hq rfl (fun _ => rfl) (ih hq)
  | case11 q c rest _ ih =>
    by_cases hc : c = q
    · subst hc
      have hword := isWord_of_isQuote hq
      rw [if_pos rfl] at ih ⊢
      exact isChain_cons quoted_code (by simp [hword]) (ih quoted_code)
    · rw [if_neg hc] at ih ⊢
      exact isChain_cons hq (fun _ => rfl) (ih hq)

theorem isChain_marked (text : Text) : (marked text).IsChain Joined :=
  isChain_classesFrom quoted_code text

theorem isChain_before (text : Text) (pos : Nat) :
    (before text pos).IsChain fun m next => Joined next m := by
  rw [before_eq, List.isChain_reverse]
  refine List.isChain_map_of_isChain (fun m => (m.1, m.2.isComment)) (fun m next h => ?_)
    ((isChain_marked text).take pos)
  exact fun hm hnext => congrArg Class.isComment (h hm hnext)

/-- A word seen from its last character is all of one kind. -/
theorem kind_of_mem {α : Type} {m : Char × α} {word : List (Char × α)}
    (h : (m :: word).IsChain fun m next => Joined next m) (hm : isWord m.1 = true)
    (hword : ∀ x ∈ word, isWord x.1 = true) : ∀ x ∈ word, x.2 = m.2 := by
  induction word generalizing m with
  | nil => simp
  | cons x word ih =>
    obtain ⟨hjoined, hchain⟩ := List.isChain_cons_cons.mp h
    rw [List.forall_mem_cons] at hword ⊢
    have hkind : x.2 = m.2 := (hjoined hword.1 hm).symm
    exact ⟨hkind, fun y hy => (ih hchain hword.1 hword.2 y hy).trans hkind⟩

/-- The characters from one place to another are a word of the code, from where it starts. -/
def IsCodeWord (text : Text) (first last : Nat) : Prop :=
  ∃ word : Text, word ≠ [] ∧ first + word.length = last + 1 ∧
    (marked text).take (last + 1) = (marked text).take first ++ word.map (·, .code) ∧
    (∀ c ∈ word, isWord c = true) ∧
    ∀ m, ((marked text).take first).getLast? = some m → isWord m.1 = false

theorem isCodeWord_of_wordStart {text : Text} {k : Nat} {c : Char}
    (hk : (marked text)[k]? = some (c, .code)) (hc : isWord c = true) :
    IsCodeWord text (wordStart (before text k)) k := by
  have htake : (marked text).take (k + 1) = (marked text).take k ++ [(c, .code)] := by
    rw [List.take_add_one, hk]
    rfl
  -- The word without its last character, behind what stands before it.
  obtain ⟨near, hsplit, hword, hbegins⟩ :=
    split_ending (fun m : Char × Class => isWord m.1) ((marked text).take k)
  have hstart : wordStart (before text k) =
      (((marked text).take k).reverse.dropWhile fun m => isWord m.1).reverse.length := by
    rw [wordStart, before_eq, ← List.map_reverse, List.dropWhile_map, List.length_map,
      List.length_reverse]
    rfl
  rw [hstart]
  generalize (((marked text).take k).reverse.dropWhile fun m => isWord m.1).reverse = far at *
  have hlength : far.length + near.length = k := by
    have hlt : k < (marked text).length := (List.getElem?_eq_some_iff.mp hk).1
    have hlength := congrArg List.length hsplit
    rw [List.length_take_of_le (Nat.le_of_lt hlt), List.length_append] at hlength
    exact hlength.symm
  have hfar : (marked text).take far.length = far := by
    have hcut := congrArg (List.take far.length) hsplit
    rwa [List.take_take, Nat.min_eq_left (by omega), List.take_left] at hcut
  have hkind : ∀ m ∈ near, m.2 = .code := by
    have hchain : ((c, .code) :: near.reverse ++ far.reverse).IsChain fun m next =>
        Joined next m := by
      have hreverse : (c, .code) :: near.reverse ++ far.reverse =
          ((marked text).take (k + 1)).reverse := by
        rw [htake, hsplit]
        simp
      rw [hreverse, List.isChain_reverse]
      exact (isChain_marked text).take (k + 1)
    have hall := kind_of_mem hchain.left_of_append hc (by simpa using hword)
    simpa using hall
  have hnear : (near.map Prod.fst).map (·, Class.code) = near := by
    rw [List.map_map]
    refine (List.map_congr_left fun m hm => ?_).trans (List.map_id near)
    exact Prod.ext rfl (hkind m hm).symm
  refine ⟨near.map Prod.fst ++ [c], by simp, ?_, ?_, ?_, ?_⟩
  · rw [List.length_append, List.length_map, List.length_singleton]
    omega
  · rw [hfar, htake, hsplit, List.append_assoc, List.map_append, hnear]
    rfl
  · intro d hd
    rw [List.mem_append, List.mem_map, List.mem_singleton] at hd
    rcases hd with ⟨m, hm, rfl⟩ | rfl
    · exact hword m hm
    · exact hc
  · rw [hfar]
    exact hbegins

end Parley.Expression
