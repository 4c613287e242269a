import Parley.Text.Basic

/-! The classes of the characters of a source text, found by reading it forward: string literals
with their quotes, line comments without the newline that ends them, block comments with their
marks, and code. A literal ends at the next quote of its own kind that no backslash escapes, and
what is left open runs to the end of the text. -/
namespace Parley.Expression

inductive Class where
  | code
  | literal
  | lineComment
  | blockComment
  deriving DecidableEq, Repr

def Class.isComment : Class → Bool
  | lineComment => true
  | blockComment => true
  | _ => false

inductive Context where
  | code
  | line
  | block
  | literal (quote : Char)
  deriving DecidableEq, Repr

def backslash : Char := '\\'

def isQuote (c : Char) : Bool := c = '\x22' || c = '\x27' || c = '\x60'

def classesFrom : Context → Text → List Class
  | _, [] => []
  | .code, '/' :: '/' :: rest => .lineComment :: .lineComment :: classesFrom .line rest
  | .code, '/' :: '*' :: rest => .blockComment :: .blockComment :: classesFrom .block rest
  | .code, c :: rest =>
    if isQuote c then .literal :: classesFrom (.literal c) rest
    else .code :: classesFrom .code rest
  | .line, c :: rest =>
    if c = '\n' then .code :: classesFrom .code rest else .lineComment :: classesFrom .line rest
  | .block, '*' :: '/' :: rest => .blockComment :: .blockComment :: classesFrom .code rest
  | .block, _ :: rest => .blockComment :: classesFrom .block rest
  | .literal q, '\\' :: _ :: rest => .literal :: .literal :: classesFrom (.literal q) rest
  | .literal q, c :: rest =>
    .literal :: classesFrom (if c = q then .code else .literal q) rest

def classes (text : Text) : List Class := classesFrom .code text

def commentMask (text : Text) : List Bool := (classes text).map Class.isComment

@[simp] theorem length_classesFrom (context : Context) (text : Text) :
    (classesFrom context text).length = text.length := by
  fun_induction classesFrom context text <;> simp_all

@[simp] theorem length_classes (text : Text) : (classes text).length = text.length :=
  length_classesFrom .code text

@[simp] theorem length_commentMask (text : Text) : (commentMask text).length = text.length := by
  simp [commentMask]

end Parley.Expression
