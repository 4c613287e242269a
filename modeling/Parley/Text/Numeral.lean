import Parley.Text.Basic

/-! Positions are written as decimal numerals, with a plus sign in front if one likes, and are less
than 2^64. -/
namespace Parley

inductive NumeralError where
  | empty
  | invalidDigit
  | tooLarge
  deriving DecidableEq, Repr

def NumeralError.message : NumeralError → Text
  | empty => "cannot parse integer from empty string".toList
  | invalidDigit => "invalid digit found in string".toList
  | tooLarge => "number too large to fit in target type".toList

def positionLimit : Nat := Nat.pow 2 64

/-- The digits of a numeral, after a value already read; the first fault met decides. -/
def readDigits : Nat → Text → Except NumeralError Nat
  | value, [] => .ok value
  | value, c :: rest =>
    if !c.isDigit then .error .invalidDigit
    else
      let next := value * 10 + (c.toNat - '0'.toNat)
      if positionLimit ≤ next then .error .tooLarge else readDigits next rest

def readPosition : Text → Except NumeralError Nat
  | [] => .error .empty
  | ['+'] => .error .invalidDigit
  | '+' :: digits => readDigits 0 digits
  | digits => readDigits 0 digits

def writePosition (n : Nat) : Text := decimal n

end Parley
