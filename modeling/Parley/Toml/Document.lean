import Parley.Toml.Number
import Parley.Toml.Table

/-! Reading a TOML document: values, keys, and the lines that hold them. Arrays and inline tables
may be nested, and keys may be dotted, less than `maxNesting` deep. -/
namespace Parley.Toml

open Reader

def maxNesting : Nat := 80

def isBareKey (c : Char) : Bool := c.isAlphanum || c = '_' || c = '-'

def bareKey : Reader Text := (run isBareKey).satisfying (· ≠ [])

def keyPart : Reader Text := do
  spaces
  let part ← lineString <|> bareKey
  spaces
  return part

/-- A dotted key: the path to a table, and the key in that table. -/
def dottedKey : Reader (List Text × Text) := do
  let parts ← (separated keyPart (word ['.'])).satisfying fun parts => parts.length < maxNesting
  match parts.getLast? with
  | none => failure
  | some key => return (parts.dropLast, key)

def keyValue (value : Reader Value) : Reader ((List Text × Text) × Value) := do
  let key ← dottedKey
  let _ ← char '='
  spaces
  return (key, ← value)

/-- The values between the brackets of an array; a comma may follow the last. -/
def arrayItems (value : Reader Value) : Reader (List Value) := do
  let items ← separated (do gap; let v ← value; gap; return v) (word [','])
  if !items.isEmpty then
    let _ ← optional (char ',')
  gap
  return items

def inlineEntries (value : Reader Value) : Reader Entries := do
  let pairs ← separated (do let p ← keyValue value; spaces; return p) (word [','])
  spaces
  match pairs.foldlM (fun es (key, v) => Entries.addValue key.1 key.2 v es) [] with
  | some entries => return entries
  | none => failure

def scalar : Reader Value :=
  (do return .string (← anyString)) <|>
  (do moment; return .moment) <|>
  (do float; return .float) <|>
  (do return .integer (← integer)) <|>
  (do word "true".toList; return .boolean true) <|>
  (do word "false".toList; return .boolean false)

/-- A value with room for some more levels of nesting. -/
def value : Nat → Reader Value
  | 0 => scalar
  | room + 1 =>
    scalar <|>
    (do return .array (← between '[' ']' (arrayItems (value room)))) <|>
    (do return .inline (← between '\x7b' '\x7d' (inlineEntries (value room))))

inductive Statement where
  | pair (path : List Text) (key : Text) (v : Value)
  | header (path : List Text) (key : Text)
  | element (path : List Text) (key : Text)
  | nothing

def statement : Reader Statement := do
  spaces
  let s ← (do
      word ['[', '[']
      let (path, key) ← dottedKey
      word [']', ']']
      return .element path key) <|>
    (do
      let (path, key) ← between '[' ']' dottedKey
      return .header path key) <|>
    (do
      let ((path, key), v) ← keyValue (value (maxNesting - 1))
      return .pair path key v) <|>
    pure .nothing
  lineEnd
  return s

/-- The tables read so far, and the header that the next pairs stand under. -/
structure Draft where
  entries : Entries := []
  header : List Text := []

def Draft.add (d : Draft) : Statement → Option Draft
  | .nothing => some d
  | .pair path key v => do return { d with entries := ← d.entries.addUnder d.header path key v }
  | .header path key => do return ⟨← d.entries.openTable path key, path ++ [key]⟩
  | .element path key => do return ⟨← d.entries.openElement path key, path ++ [key]⟩

def byteOrderMark : Char := '\ufeff'

def read? (text : Text) : Option Entries := do
  let text := if text.head? = some byteOrderMark then text.tail else text
  let (statements, rest) ← many statement text
  if rest ≠ [] then none
  let draft ← statements.foldlM Draft.add {}
  return draft.entries

end Parley.Toml
