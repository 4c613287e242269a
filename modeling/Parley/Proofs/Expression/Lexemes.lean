import Parley.Expression.Lexeme

/-! Lexemes: the pieces that reading a source text forward takes it apart into, each of one class.
Put together again they are the text with the class of every character (`marked_eq`). A literal
is left open, and a quote stands in code, nowhere but at the end (`isClosed_of_mem_dropLast`,
`wellFormed_of_mem`). -/
namespace Parley.Expression

/-- A comment or a literal is `closed` if it does not just run into the end of the text. -/
inductive Lexeme where
  | code (c : Char)
  | line (body : Text)
  | block (body : Text) (closed : Bool)
  | literal (quote : Char) (body : Text) (closed : Bool)
  deriving DecidableEq, Repr

namespace Lexeme

def text : Lexeme → Text
  | code c => [c]
  | line body => '/' :: '/' :: body
  | block body closed => '/' :: '*' :: (body ++ if closed then ['*', '/'] else [])
  | literal quote body closed => quote :: (body ++ if closed then [quote] else [])

def kind : Lexeme → Class
  | code _ => .code
  | line _ => .lineComment
  | block _ _ => .blockComment
  | literal _ _ _ => .literal

def marks (l : Lexeme) : List (Char × Class) := l.text.map (·, l.kind)

def isClosed : Lexeme → Bool
  | block _ closed => closed
  | literal _ _ closed => closed
  | _ => true

@[simp] theorem length_marks (l : Lexeme) : l.marks.length = l.text.length := by simp [marks]

end Lexeme

/-- What can stand between two quotes: no such quote, unless a backslash escapes it. -/
inductive Body (quote : Char) : Text → Prop where
  | nil : Body quote []
  | plain {c : Char} {rest : Text} (hq : c ≠ quote) (hb : c ≠ backslash) (h : Body quote rest) :
      Body quote (c :: rest)
  | escaped {c : Char} {rest : Text} (h : Body quote rest) : Body quote (backslash :: c :: rest)

theorem Body.append {quote : Char} {a b : Text} (ha : Body quote a) (hb : Body quote b) :
    Body quote (a ++ b) := by
  induction ha with
  | nil => exact hb
  | plain hq hc _ ih => exact .plain hq hc ih
  | escaped _ ih => exact .escaped ih

def Lexeme.WellFormed : Lexeme → Prop
  | code c => isQuote c = false
  | literal quote body closed => isQuote quote = true ∧ (closed = true → Body quote body)
  | _ => True

/-- The lexemes of what is still to be read; `held` is what was read of the unfinished one, latest
character first. -/
def lexemesFrom : Context → Text → Text → List Lexeme
  | .code, _, [] => []
  | .line, held, [] => [.line held.reverse]
  | .block, held, [] => [.block held.reverse false]
  | .literal q, held, [] => [.literal q held.reverse false]
  | .code, _, '/' :: '/' :: rest => lexemesFrom .line [] rest
  | .code, _, '/' :: '*' :: rest => lexemesFrom .block [] rest
  | .code, _, c :: rest =>
    if isQuote c then lexemesFrom (.literal c) [] rest else .code c :: lexemesFrom .code [] rest
  | .line, held, c :: rest =>
    if c = '\n' then .line held.reverse :: .code c :: lexemesFrom .code [] rest
    else lexemesFrom .line (c :: held) rest
  | .block, held, '*' :: '/' :: rest => .block held.reverse true :: lexemesFrom .code [] rest
  | .block, held, c :: rest => lexemesFrom .block (c :: held) rest
  | .literal q, held, '\\' :: c :: rest => lexemesFrom (.literal q) (c :: '\\' :: held) rest
  | .literal q, held, c :: rest =>
    if c = q then .literal q held.reverse true :: lexemesFrom .code [] rest
    else lexemesFrom (.literal q) (c :: held) rest

def lexemes (text : Text) : List Lexeme := lexemesFrom .code [] text

def texts (ls : List Lexeme) : Text := ls.flatMap Lexeme.text

def marks (ls : List Lexeme) : List (Char × Class) := ls.flatMap Lexeme.marks

def marked (text : Text) : List (Char × Class) := text.zip (classes text)

@[simp] theorem marks_nil : marks [] = [] := rfl
@[simp] theorem marks_cons (l : Lexeme) (ls : List Lexeme) :
    marks (l :: ls) = l.marks ++ marks ls := rfl
@[simp] theorem marks_append (a b : List Lexeme) : marks (a ++ b) = marks a ++ marks b := by
  simp [marks]

@[simp] theorem texts_nil : texts [] = [] := rfl
@[simp] theorem texts_cons (l : Lexeme) (ls : List Lexeme) : texts (l :: ls) = l.text ++ texts ls :=
  rfl
@[simp] theorem texts_append (a b : List Lexeme) : texts (a ++ b) = texts a ++ texts b := by
  simp [texts]

@[simp] theorem map_fst_marks (ls : List Lexeme) : (marks ls).map Prod.fst = texts ls := by
  simp [marks, texts, Lexeme.marks, List.map_flatMap, Function.comp_def]

@[simp] theorem length_marks (ls : List Lexeme) : (marks ls).length = (texts ls).length := by
  rw [← map_fst_marks, List.length_map]

/-- What was read of an unfinished lexeme, with the class of its characters. -/
def Context.read (held : Text) : Context → List (Char × Class)
  | code => []
  | line => ('/' :: '/' :: held.reverse).map (·, .lineComment)
  | block => ('/' :: '*' :: held.reverse).map (·, .blockComment)
  | literal quote => (quote :: held.reverse).map (·, .literal)

theorem marks_lexemesFrom (context : Context) (held rest : Text) :
    marks (lexemesFrom context held rest) =
      context.read held ++ rest.zip (classesFrom context rest) := by
  fun_induction lexemesFrom context held rest <;>
    simp_all [classesFrom, Context.read, Lexeme.marks, Lexeme.text, Lexeme.kind]

/-- The lexemes of a text put together are the text, read forward. -/
theorem marked_eq (text : Text) : marked text = marks (lexemes text) := by
  rw [lexemes, marks_lexemesFrom]
  rfl

theorem texts_lexemes (text : Text) : texts (lexemes text) = text := by
  rw [← map_fst_marks, ← marked_eq, marked, List.map_fst_zip]
  exact Nat.le_of_eq (length_classes text).symm

/-- What was read of an unfinished literal can stand in it, if there is more to be read. -/
def Context.Sound (held rest : Text) : Context → Prop
  | literal quote => isQuote quote = true ∧ (rest ≠ [] → Body quote held.reverse)
  | _ => True

theorem wellFormed_of_mem_lexemesFrom {context : Context} {held rest : Text}
    (h : context.Sound held rest) :
    ∀ l ∈ lexemesFrom context held rest, l.WellFormed := by
  fun_induction lexemesFrom context held rest with
  | case1 => simp
  | case2 held => simp [Lexeme.WellFormed]
  | case3 held => simp [Lexeme.WellFormed]
  | case4 q held => simpa [Lexeme.WellFormed] using h.1
  | case5 _ rest ih => exact ih trivial
  | case6 _ rest ih => exact ih trivial
  | case7 _ c rest _ _ hc ih => exact ih ⟨hc, fun _ => .nil⟩
  | case8 _ c rest _ _ hc ih =>
    rw [List.forall_mem_cons]
    exact ⟨by simpa [Lexeme.WellFormed] using hc, ih trivial⟩
  | case9 held rest ih =>
    simp only [List.forall_mem_cons]
    exact ⟨trivial, (rfl : isQuote '\n' = false), ih trivial⟩
  | case10 held c rest _ ih => exact ih trivial
  | case11 held rest ih =>
    rw [List.forall_mem_cons]
    exact ⟨trivial, ih trivial⟩
  | case12 held c rest _ ih => exact ih trivial
  | case13 q held c rest ih =>
    have hread : Body q held.reverse := h.2 (by simp)
    refine ih ⟨h.1, fun _ => ?_⟩
    simpa [backslash] using hread.append (.escaped .nil)
  | case14 held q rest _ ih =>
    have hread : Body q held.reverse := h.2 (by simp)
    rw [List.forall_mem_cons]
    exact ⟨⟨h.1, fun _ => hread⟩, ih trivial⟩
  | case15 q held c rest hpair hc ih =>
    have hread : Body q held.reverse := h.2 (by simp)
    refine ih ⟨h.1, fun hrest => ?_⟩
    -- A backslash would have been read together with the character that it escapes.
    have hb : c ≠ backslash := by
      rintro rfl
      obtain ⟨d, rest, rfl⟩ := List.exists_cons_of_ne_nil hrest
      exact hpair d rest rfl rfl
    simpa using hread.append (.plain hc hb .nil)

theorem wellFormed_of_mem {text : Text} {l : Lexeme} (h : l ∈ lexemes text) : l.WellFormed :=
  @wellFormed_of_mem_lexemesFrom .code [] text trivial l h

theorem isClosed_of_mem_dropLast_cons {l : Lexeme} {ls : List Lexeme} (hl : l.isClosed = true)
    (h : ∀ m ∈ ls.dropLast, m.isClosed = true) : ∀ m ∈ (l :: ls).dropLast, m.isClosed = true := by
  cases ls with
  | nil => simp
  | cons m ls => simpa [hl] using h

theorem isClosed_of_mem_dropLast_lexemesFrom (context : Context) (held rest : Text) :
    ∀ l ∈ (lexemesFrom context held rest).dropLast, l.isClosed = true := by
  fun_induction lexemesFrom context held rest with
  | case1 | case2 | case3 | case4 => simp
  | case5 _ _ ih | case6 _ _ ih | case7 _ _ _ _ _ _ ih => exact ih
  | case8 _ c rest _ _ hc ih => exact isClosed_of_mem_dropLast_cons rfl ih
  | case9 held rest ih =>
    exact isClosed_of_mem_dropLast_cons rfl (isClosed_of_mem_dropLast_cons rfl ih)
  | case10 _ _ _ _ ih | case12 _ _ _ _ ih | case13 _ _ _ _ ih | case15 _ _ _ _ _ _ ih => exact ih
  | case11 held rest ih => exact isClosed_of_mem_dropLast_cons rfl ih
  | case14 _ _ _ _ ih => exact isClosed_of_mem_dropLast_cons rfl ih

theorem isClosed_of_mem_dropLast {text : Text} {l : Lexeme} (h : l ∈ (lexemes text).dropLast) :
    l.isClosed = true :=
  isClosed_of_mem_dropLast_lexemesFrom .code [] text l h

/-- Code has a lexeme to every character. -/
theorem lexeme_of_code {ls : List Lexeme} {c : Char} {k : Nat}
    (h : (marks ls)[k]? = some (c, .code)) :
    ∃ us vs, ls = us ++ .code c :: vs ∧ (texts us).length = k := by
  induction ls generalizing k with
  | nil => simp at h
  | cons l ls ih =>
    rw [marks_cons] at h
    by_cases hk : k < l.marks.length
    · rw [List.getElem?_append_left hk, Lexeme.marks, List.getElem?_map] at h
      obtain ⟨d, hd, hm⟩ := Option.map_eq_some_iff.mp h
      obtain ⟨rfl, hkind⟩ := Prod.ext_iff.mp hm
      cases l with
      | code d' =>
        have hzero : k = 0 := by simpa [Lexeme.marks, Lexeme.text] using hk
        subst hzero
        have hd' : d' = d := by simpa [Lexeme.text] using hd
        exact ⟨[], ls, by rw [hd']; rfl, rfl⟩
      | line | block | literal => simp [Lexeme.kind] at hkind
    · rw [List.getElem?_append_right (by omega)] at h
      obtain ⟨us, vs, rfl, hlength⟩ := ih h
      refine ⟨l :: us, vs, rfl, ?_⟩
      rw [Lexeme.length_marks] at hk hlength
      rw [texts_cons, List.length_append]
      omega

/-- Where a literal stands: the places of the quotes that open and close it. -/
structure Extent where
  opening : Nat
  closing : Option Nat
  deriving DecidableEq, Repr

def Extent.ofBody (place : Nat) (body : Text) (closed : Bool) : Extent where
  opening := place
  closing := if closed then some (place + body.length + 1) else none

def Lexeme.extents (place : Nat) : Lexeme → List Extent
  | literal _ body closed => [.ofBody place body closed]
  | _ => []

def extentsFrom (place : Nat) : List Lexeme → List Extent
  | [] => []
  | l :: ls => l.extents place ++ extentsFrom (place + l.text.length) ls

def literals (text : Text) : List Extent := extentsFrom 0 (lexemes text)

theorem mem_extentsFrom {place : Nat} {ls : List Lexeme} {e : Extent} :
    e ∈ extentsFrom place ls ↔ ∃ us quote body closed vs,
      ls = us ++ .literal quote body closed :: vs ∧
        e = .ofBody (place + (texts us).length) body closed := by
  induction ls generalizing place with
  | nil => simp [extentsFrom]
  | cons l ls ih =>
    rw [extentsFrom, List.mem_append, ih]
    constructor
    · rintro (h | ⟨us, quote, body, closed, vs, rfl, rfl⟩)
      · cases l with
        | literal quote body closed =>
          exact ⟨[], quote, body, closed, ls, rfl, List.mem_singleton.mp h⟩
        | code | line | block => simp [Lexeme.extents] at h
      · refine ⟨l :: us, quote, body, closed, vs, rfl, ?_⟩
        rw [texts_cons, List.length_append, Nat.add_assoc]
    · rintro ⟨us, quote, body, closed, vs, hls, rfl⟩
      cases us with
      | nil =>
        obtain ⟨rfl, rfl⟩ := List.cons.inj hls
        exact .inl (List.mem_singleton_self _)
      | cons u us =>
        obtain ⟨rfl, rfl⟩ := List.cons.inj hls
        refine .inr ⟨us, quote, body, closed, vs, rfl, ?_⟩
        rw [texts_cons, List.length_append, Nat.add_assoc]

end Parley.Expression
