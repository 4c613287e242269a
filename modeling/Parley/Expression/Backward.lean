import Parley.Expression.Lexeme
import Parley.Text.Blank
import Parley.Text.Alphanumeric

/-! The expression that ends before a position: a bracketed group, a string literal or a word. The
scan goes backward over the characters before the position, nearest first, each with its mark as a
comment; a place in that list is the number of characters that are left. -/
namespace Parley.Expression

/-- The characters before a position, nearest first, each with whether it is in a comment. -/
abbrev Before := List (Char × Bool)

def isWord (c : Char) : Bool := isAlphanumeric c || c = '_' || c = '$'

def openingFor (c : Char) : Option Char :=
  if c = ')' then some '('
  else if c = ']' then some '['
  else if c = '\x7d' then some '\x7b'
  else none

def isOpening (c : Char) : Bool := c = '(' || c = '[' || c = '\x7b'

/-- Whether an odd number of backslashes stands directly before. -/
def isEscaped (before : Before) : Bool :=
  (before.takeWhile (·.1 = backslash)).length % 2 = 1

/-- The place of the quote that opens a literal, from before its closing quote. -/
def literalStart (quote : Char) : Before → Option Nat
  | [] => none
  | (c, _) :: rest =>
    if c = quote && !isEscaped rest then some rest.length else literalStart quote rest

/-- The place of the bracket that answers the last of those still open, nearest first. Comments are
passed over, and so are literals; `quote` is that of the literal being passed over. -/
def groupStart : Option Char → List Char → Before → Option Nat
  | _, _, [] => none
  | some quote, awaited, (c, _) :: rest =>
    groupStart (if c = quote && !isEscaped rest then none else some quote) awaited rest
  | none, awaited, (c, comment) :: rest =>
    if comment then groupStart none awaited rest
    else if isQuote c && !isEscaped rest then groupStart (some c) awaited rest
    else match openingFor c with
      | some opening => groupStart none (opening :: awaited) rest
      | none =>
        if awaited.head? = some c then
          match awaited.tail with
          | [] => some rest.length
          | more => groupStart none more rest
        else if isOpening c then none
        else groupStart none awaited rest

def wordStart (before : Before) : Nat := (before.dropWhile (isWord ·.1)).length

/-- Blanks, comments and operator punctuation are passed over first; an opening bracket ends the
search. -/
def startFrom : Before → Option Nat
  | [] => none
  | (c, comment) :: rest =>
    if isBlank c || comment then startFrom rest
    else match openingFor c with
      | some opening => groupStart none [opening] rest
      | none =>
        if isQuote c then literalStart c rest
        else if isWord c then some (wordStart rest)
        else if isOpening c then none
        else startFrom rest

def before (text : Text) (pos : Nat) : Before := ((text.zip (commentMask text)).take pos).reverse

def start? (text : Text) (pos : Nat) : Option Nat := startFrom (before text pos)

@[simp] theorem length_before (text : Text) (pos : Nat) :
    (before text pos).length = min pos text.length := by simp [before]

end Parley.Expression
