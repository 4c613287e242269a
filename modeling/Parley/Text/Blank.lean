import Parley.Text.Basic

/-! Blanks are the characters with the property White_Space. Here are the operations that only look
at where a text is blank: trimming, splitting at runs of blanks, and breaking at the first one. -/
namespace Parley

def isBlank (c : Char) : Bool :=
  let n := c.toNat
  (9 ≤ n && n ≤ 13) || n = 0x20 || n = 0x85 || n = 0xA0 || n = 0x1680 ||
    (0x2000 ≤ n && n ≤ 0x200A) || n = 0x2028 || n = 0x2029 || n = 0x202F || n = 0x205F ||
    n = 0x3000

namespace Text

def trimStart (t : Text) : Text := t.dropWhile isBlank

def trimEnd (t : Text) : Text := (t.reverse.dropWhile isBlank).reverse

def trim (t : Text) : Text := trimEnd (trimStart t)

def allBlank (t : Text) : Bool := t.all isBlank

/-- The first word, without the blank that ends it, and the text after that blank. -/
def breakAtBlank (t : Text) : Text × Text :=
  (t.takeWhile (!isBlank ·), (t.dropWhile (!isBlank ·)).drop 1)

/-- Splits at runs of blanks; `word` is the word being read, latest character first. -/
def wordsFrom (word : Text) : Text → List Text
  | [] => if word = [] then [] else [word.reverse]
  | c :: rest =>
    if isBlank c then
      if word = [] then wordsFrom [] rest else word.reverse :: wordsFrom [] rest
    else wordsFrom (c :: word) rest

/-- The maximal runs of characters that are not blank. -/
def words (t : Text) : List Text := wordsFrom [] t

@[simp] theorem words_nil : words [] = [] := rfl
@[simp] theorem trimStart_nil : trimStart [] = [] := rfl
@[simp] theorem trimEnd_nil : trimEnd [] = [] := rfl

theorem trimStart_eq_nil (t : Text) : trimStart t = [] ↔ t.allBlank = true := by
  induction t with
  | nil => simp [allBlank]
  | cons c t ih =>
    by_cases h : isBlank c = true
    · simp_all [trimStart, allBlank]
    · simp [trimStart, allBlank, h]

theorem wordsFrom_eq_nil (word t : Text) :
    wordsFrom word t = [] ↔ word = [] ∧ t.allBlank = true := by
  induction t generalizing word with
  | nil => by_cases h : word = [] <;> simp [wordsFrom, allBlank, h]
  | cons c t ih =>
    by_cases hc : isBlank c = true
    · by_cases h : word = [] <;> simp [wordsFrom, allBlank, hc, h, ih]
    · simp [wordsFrom, allBlank, hc, ih]

theorem words_eq_nil (t : Text) : t.words = [] ↔ t.allBlank = true := by
  simp [words, wordsFrom_eq_nil]

end Text
end Parley
