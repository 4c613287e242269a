import Parley.Text.Basic

/-! The tables of a TOML document while it is read. A table is implicit until its own header is
read, and dotted if a dotted key made it; these decide what may still be added to it. An array of
tables is written a table at a time, the last one open. -/
namespace Parley.Toml

inductive Value where
  | string (t : Text)
  | integer (n : Int)
  | float
  | boolean (b : Bool)
  | moment
  | array (items : List Value)
  | inline (entries : List (Text × Value))
  | table (implicit dotted : Bool) (entries : List (Text × Value))
  | tables (each : List (List (Text × Value)))
  deriving Repr

/-- What a table holds, in the order of its keys' first appearance. -/
abbrev Entries := List (Text × Value)

namespace Entries

def get? (es : Entries) (key : Text) : Option Value :=
  (es.find? fun e => e.1 = key).map Prod.snd

def replace (es : Entries) (key : Text) (v : Value) : Entries :=
  es.map fun e => if e.1 = key then (key, v) else e

/-- Changes the table at the end of a path, making the tables that are missing on the way. A path
that is part of a key may only lead through tables without a header of their own. The change is
told whether the table is a dotted one. -/
def within (inKey : Bool) (change : Bool → Entries → Option Entries) :
    List Text → Bool → Entries → Option Entries
  | [], dotted, es => change dotted es
  | key :: path, _, es =>
    match get? es key with
    | none =>
      (within inKey change path inKey []).map fun inner => es ++ [(key, .table true inKey inner)]
    | some (.table implicit dotted inner) =>
      if inKey && !implicit then none
      else
        (within inKey change path dotted inner).map fun inner =>
          replace es key (.table implicit dotted inner)
    | some (.tables each) =>
      match each.getLast? with
      | none => none
      | some last =>
        (within inKey change path false last).map fun last =>
          replace es key (.tables (each.dropLast ++ [last]))
    | some _ => none

/-- A key and its value, once to a table. A dotted table takes no plain key, and a dotted key leads
to no other table. -/
def addValue (path : List Text) (key : Text) (v : Value) (es : Entries) : Option Entries :=
  within true (fun dotted es =>
    if dotted = path.isEmpty then none
    else match get? es key with
      | some _ => none
      | none => some (es ++ [(key, v)])) path false es

/-- The header of a table: it must not have had one. -/
def openTable (path : List Text) (key : Text) (es : Entries) : Option Entries :=
  within false (fun _ es =>
    match get? es key with
    | none => some (es ++ [(key, .table false false [])])
    | some (.table true false inner) => some (replace es key (.table false false inner))
    | some _ => none) path false es

def openElement (path : List Text) (key : Text) (es : Entries) : Option Entries :=
  within false (fun _ es =>
    match get? es key with
    | none => some (es ++ [(key, .tables [[]])])
    | some (.tables each) => some (replace es key (.tables (each ++ [[]])))
    | some _ => none) path false es

def addUnder (header path : List Text) (key : Text) (v : Value) (es : Entries) : Option Entries :=
  within false (fun _ es => addValue path key v es) header false es

end Entries
end Parley.Toml
