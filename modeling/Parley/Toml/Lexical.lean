import Parley.Toml.Reader

/-! The characters of a TOML document: blanks, newlines, comments, and the four kinds of string. No
control character but the tab may stand in any of them. -/
namespace Parley.Toml

open Reader

def isSpace (c : Char) : Bool := c = ' ' || c = '\t'

/-- The characters that may stand in a comment or a string. -/
def isPlain (c : Char) : Bool := c = '\t' || (0x20 ≤ c.toNat && c.toNat ≠ 0x7F)

def quote : Char := '\x22'
def apostrophe : Char := '\x27'

def spaces : Reader Unit := do
  let _ ← run isSpace

def newline : Reader Unit := word ['\n'] <|> word ['\r', '\n']

def comment : Reader Unit := do
  let _ ← char '#'
  let _ ← run isPlain

/-- What may stand between the values of an array. -/
def gap : Reader Unit := do
  spaces
  let _ ← many (do
    let _ ← optional comment
    newline
    spaces)

def lineEnd : Reader Unit := do
  spaces
  let _ ← optional comment
  newline <|> atEnd

def isHexDigit (c : Char) : Bool :=
  c.isDigit || ('a'.toNat ≤ c.toNat && c.toNat ≤ 'f'.toNat) ||
    ('A'.toNat ≤ c.toNat && c.toNat ≤ 'F'.toNat)

/-- What a digit of any base up to sixteen counts. -/
def digitValue (c : Char) : Nat :=
  if c.isDigit then c.toNat - '0'.toNat else c.toLower.toNat - 'a'.toNat + 10

def numberOf (base : Nat) (digits : Text) : Nat :=
  digits.foldl (fun n c => n * base + digitValue c) 0

def numberedChar (length : Nat) : Reader Char := do
  let digits ← exactly isHexDigit length
  let n := numberOf 16 digits
  if n.isValidChar then return Char.ofNat n else failure

def escaped : Reader Char := do
  match ← one fun _ => true with
  | 'b' => return '\x08'
  | 't' => return '\t'
  | 'n' => return '\n'
  | 'f' => return '\x0c'
  | 'r' => return '\r'
  | '\x22' => return '\x22'
  | '\\' => return '\\'
  | 'u' => numberedChar 4
  | 'U' => numberedChar 8
  | _ => failure

def escape : Reader Char := do
  let _ ← char '\\'
  escaped

def isBasic (c : Char) : Bool := isPlain c && c ≠ quote && c ≠ '\\'

def isLiteral (c : Char) : Bool := isPlain c && c ≠ apostrophe

def basicString : Reader Text := between quote quote (many (escape <|> one isBasic))

def literalString : Reader Text := between apostrophe apostrophe (run isLiteral)

def lineString : Reader Text := basicString <|> literalString

/-- Up to two quotes that do not end the string they stand in. -/
def innerQuotes (q : Char) : Reader Text := do
  let quotes ← run (· = q)
  if 0 < quotes.length && quotes.length < 3 then return quotes else failure

/-- Three quotes, after up to two more that belong to the string. -/
def closingQuotes (q : Char) : Reader Text := fun text =>
  let n := (text.takeWhile (· = q)).length
  if 3 ≤ n then
    let inner := min n 5 - 3
    some (List.replicate inner q, text.drop (inner + 3))
  else none

/-- A newline of a string, which counts as a line feed. -/
def stringNewline : Reader Text := do
  newline
  return ['\n']

/-- A backslash at the end of a line: it stands for nothing, and so do the blanks and newlines after
it. -/
def continuation : Reader Text := do
  let _ ← char '\\'
  spaces
  newline
  let _ ← many (newline <|> (do let _ ← one isSpace))
  return []

/-- A string between three quotes at each end; a newline directly after the opening is dropped. -/
def longString (q : Char) (piece : Reader Text) : Reader Text := do
  word [q, q, q]
  let _ ← optional newline
  let pieces ← many (innerQuotes q <|> stringNewline <|> piece)
  let last ← closingQuotes q
  return pieces.flatten ++ last

def longBasicString : Reader Text :=
  longString quote (continuation <|> (do return [← escape]) <|> (do return [← one isBasic]))

def longLiteralString : Reader Text :=
  longString apostrophe (do return [← one isLiteral])

def anyString : Reader Text := longBasicString <|> longLiteralString <|> lineString

end Parley.Toml
