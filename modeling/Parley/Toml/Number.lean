import Parley.Toml.Lexical

/-! Numbers and moments of a TOML document. Underscores may stand between digits. An integer has 64
bits; a float may not be too large to be one; a date must be in the calendar. -/
namespace Parley.Toml

open Reader

/-- Digits, with an underscore between some; the first must satisfy a test of its own. -/
def digitsAfter (first isDigit : Char → Bool) : Reader Text := do
  let c ← one first
  let more ← many (do
    let _ ← optional (char '_')
    one isDigit)
  return c :: more

def sign : Reader (Option Char) := optional (one fun c => c = '+' || c = '-')

/-- A decimal integer without superfluous zeros, and whether it is negative. -/
def decimalInteger : Reader (Bool × Text) := do
  let s ← sign
  let digits ← digitsAfter (fun c => c.isDigit && c ≠ '0') Char.isDigit <|> exactly (· = '0') 1
  return (s = some '-', digits)

def integerLimit : Nat := Nat.pow 2 63

def fits (negative : Bool) (n : Nat) : Bool :=
  if negative then n ≤ integerLimit else n < integerLimit

def basedInteger (mark : Char) (base : Nat) (isDigit : Char → Bool) : Reader Int := do
  word ['0', mark]
  let digits ← digitsAfter isDigit isDigit
  let n := numberOf base digits
  if fits false n then return n else failure

def integer : Reader Int :=
  basedInteger 'x' 16 isHexDigit <|>
  basedInteger 'o' 8 (fun c => c.isDigit && digitValue c < 8) <|>
  basedInteger 'b' 2 (fun c => c = '0' || c = '1') <|> do
    let (negative, digits) ← decimalInteger
    let n := numberOf 10 digits
    if fits negative n then return if negative then -(n : Int) else n else failure

/-- The decimal values from which on a float would be infinite: halfway beyond the greatest. -/
def floatLimit : Nat := Nat.pow 2 1024 - Nat.pow 2 970

/-- Whether the digits, times a power of ten, stay below the limit of floats. -/
def isFinite (digits : Text) (exponent : Int) : Bool :=
  let significant := digits.dropWhile (· = '0')
  let magnitude := (significant.length : Int) + exponent
  if significant = [] || magnitude < 300 then true
  else if 320 < magnitude then false
  else if 0 ≤ exponent then numberOf 10 significant * Nat.pow 10 exponent.toNat < floatLimit
  else numberOf 10 significant < floatLimit * Nat.pow 10 (-exponent).toNat

def fraction : Reader Text := do
  let _ ← char '.'
  digitsAfter Char.isDigit Char.isDigit

def exponent : Reader Int := do
  let _ ← one fun c => c = 'e' || c = 'E'
  let s ← sign
  let n := numberOf 10 (← digitsAfter Char.isDigit Char.isDigit)
  return if s = some '-' then -(n : Int) else n

def decimalFloat : Reader Unit := do
  let (negative, whole) ← decimalInteger
  let part ← optional fraction
  let power ← optional exponent
  if part.isNone && power.isNone then failure
  let part := part.getD []
  if negative || isFinite (whole ++ part) (power.getD 0 - part.length) then return () else failure

def specialFloat : Reader Unit := do
  let _ ← sign
  word "inf".toList <|> word "nan".toList

def float : Reader Unit := decimalFloat <|> specialFloat

def field (length lo hi : Nat) : Reader Nat :=
  (do return numberOf 10 (← exactly Char.isDigit length)).satisfying fun n => lo ≤ n && n ≤ hi

def isLeapYear (year : Nat) : Bool := year % 4 = 0 && (year % 100 ≠ 0 || year % 400 = 0)

def daysInMonth (year month : Nat) : Nat :=
  if month = 2 then if isLeapYear year then 29 else 28
  else if month = 4 || month = 6 || month = 9 || month = 11 then 30
  else 31

def date : Reader Unit := do
  let year ← field 4 0 9999
  let _ ← char '-'
  let month ← field 2 1 12
  let _ ← char '-'
  let _ ← field 2 1 (daysInMonth year month)

def time : Reader Unit := do
  let _ ← field 2 0 23
  let _ ← char ':'
  let _ ← field 2 0 59
  let _ ← char ':'
  let _ ← field 2 0 60
  let _ ← optional (do
    let _ ← char '.'
    let _ ← one Char.isDigit
    run Char.isDigit)

def offset : Reader Unit :=
  (do let _ ← one fun c => c = 'Z' || c = 'z') <|> do
    let _ ← one fun c => c = '+' || c = '-'
    let _ ← field 2 0 23
    let _ ← char ':'
    let _ ← field 2 0 59

/-- A date, a time, or both with or without an offset. -/
def moment : Reader Unit :=
  (do
    date
    let _ ← optional (do
      let _ ← one fun c => c = 'T' || c = 't' || c = ' '
      time
      optional offset)) <|> time

end Parley.Toml
