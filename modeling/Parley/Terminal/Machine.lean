import Parley.Text.Utf8
import Parley.Terminal.Sequence

/-! The escape-sequence machine of a terminal. It reads one octet at a time and yields the actions
that the octet causes: a character to print, a control octet to execute, a finished control
sequence. Outside escape sequences the octets are UTF-8. `run` on two chunks without an end between
them is `run` on both; `endChunk` remembers that an unfinished character was cut there, and `intake`
says what is read of the chunk that completes it. -/
namespace Parley.Terminal

/-- A control sequence is read in parts: before its first parameter octet, among its parameters,
after a mark, and where it can no longer be meant. So is the head of a device string. -/
inductive Mode where
  | ground
  | escape
  | escapeMarks
  | controlStart
  | controlParams
  | controlMarks
  | controlIgnored
  | deviceStart
  | deviceParams
  | deviceMarks
  | deviceBody
  | deviceIgnored
  | command
  | ignoredString
  deriving DecidableEq, Repr

inductive Action where
  | print (c : Char)
  | execute (b : UInt8)
  | dispatch (sequence : Sequence) (final : UInt8)
  deriving DecidableEq, Repr

/-- The octets held are those of a character that is not finished yet; `resumed` tells whether they
began in an earlier chunk. -/
structure Machine where
  mode : Mode := .ground
  held : Bytes := []
  resumed : Bool := false
  sequence : Sequence := {}
  deriving DecidableEq, Repr

def isControl (b : UInt8) : Bool := b ≤ 0x17 || b = 0x19 || (0x1C ≤ b && b ≤ 0x1F)

def isCancel (b : UInt8) : Bool := b = 0x18 || b = 0x1A

def isEscape (b : UInt8) : Bool := b = 0x1B
def isMark (b : UInt8) : Bool := 0x20 ≤ b && b ≤ 0x2F
def isDigit (b : UInt8) : Bool := 0x30 ≤ b && b ≤ 0x39
def isPrivate (b : UInt8) : Bool := 0x3C ≤ b && b ≤ 0x3F
def isFinal (b : UInt8) : Bool := 0x40 ≤ b && b ≤ 0x7E

namespace Machine

/-- A decoded character: the controls are executed, the others printed. -/
def character (c : Char) : Action :=
  if c.toNat < 0x20 || (0x80 ≤ c.toNat && c.toNat ≤ 0x9F) then .execute (UInt8.ofNat c.toNat)
  else .print c

def enter (m : Machine) (mode : Mode) : Machine := { m with mode }

def enterEscape (m : Machine) : Machine := { m with mode := .escape, sequence := {} }

/-- Outside sequences, with no octet held. An octet that begins no character is executed where it
is a control, else shown as U+FFFD. -/
def fresh (m : Machine) (b : UInt8) : Machine × List Action :=
  let m := { m with held := [], resumed := false }
  if isEscape b then (m.enterEscape, [])
  else match Utf8.classify [b] with
    | .char c => (m, [character c])
    | .unfinished => ({ m with held := [b] }, [])
    | .invalid => (m, [if b ≤ 0x9F then .execute b else .print Utf8.replacement])

/-- Outside sequences. A character that was cut between chunks is printed, be it a control. -/
def ground (m : Machine) (b : UInt8) : Machine × List Action :=
  if m.held = [] then m.fresh b
  else match Utf8.classify (m.held ++ [b]) with
    | .char c =>
      ({ m with held := [], resumed := false }, [if m.resumed then .print c else character c])
    | .unfinished => ({ m with held := m.held ++ [b] }, [])
    | .invalid => ((m.fresh b).1, .print Utf8.replacement :: (m.fresh b).2)

/-- What an octet does in a sequence that has no use for it. -/
def anywhere (m : Machine) (b : UInt8) : Machine × List Action :=
  if isCancel b then (m.enter .ground, [.execute b])
  else if isEscape b then (m.enterEscape, [])
  else (m, [])

/-- Like `anywhere`, for a string that also has an end of its own. -/
def untilEnd (terminator : UInt8) (m : Machine) (b : UInt8) : Machine × List Action :=
  if b = terminator then (m.enter .ground, []) else m.anywhere b

/-- The octet after an escape that selects the kind of sequence. -/
def select (m : Machine) (b : UInt8) : Machine × List Action :=
  if isControl b then (m, [.execute b])
  else if isMark b then ({ m with mode := .escapeMarks, sequence := m.sequence.mark b }, [])
  else if b = 0x50 then ({ m with mode := .deviceStart, sequence := {} }, [])
  else if b = 0x58 || b = 0x5E || b = 0x5F then (m.enter .ignoredString, [])
  else if b = 0x5B then ({ m with mode := .controlStart, sequence := {} }, [])
  else if b = 0x5D then (m.enter .command, [])
  else if 0x30 ≤ b && b ≤ 0x7E then (m.enter .ground, [])
  else if isCancel b then (m.enter .ground, [.execute b])
  else (m, [])

def parameter (m : Machine) (b : UInt8) : Machine :=
  let s := m.sequence
  { m with
    sequence :=
      if b = 0x3A then s.subdivide
      else if b = 0x3B then s.separate
      else s.digit (b.toNat - 0x30) }

def dispatch (m : Machine) (b : UInt8) : Machine × List Action :=
  ({ m with mode := .ground, sequence := m.sequence.close }, [.dispatch m.sequence.close b])

/-- Where a control sequence goes on after an octet; `start` tells its first octet. -/
def control (start : Bool) (m : Machine) (b : UInt8) : Machine × List Action :=
  if isControl b then (m, [.execute b])
  else if isMark b then ({ m with mode := .controlMarks, sequence := m.sequence.mark b }, [])
  else if isDigit b || b = 0x3A || b = 0x3B then ((m.parameter b).enter .controlParams, [])
  else if isPrivate b then
    if start then ({ m with mode := .controlParams, sequence := m.sequence.mark b }, [])
    else (m.enter .controlIgnored, [])
  else if isFinal b then m.dispatch b
  else m.anywhere b

/-- The head of a device string; nothing it collects is used. -/
def device (start : Bool) (m : Machine) (b : UInt8) : Machine × List Action :=
  if isMark b then (m.enter .deviceMarks, [])
  else if isDigit b || b = 0x3A || b = 0x3B then (m.enter .deviceParams, [])
  else if isPrivate b then (m.enter (if start then .deviceParams else .deviceIgnored), [])
  else if isFinal b then (m.enter .deviceBody, [])
  else m.anywhere b

def step (m : Machine) (b : UInt8) : Machine × List Action :=
  match m.mode with
  | .ground => m.ground b
  | .escape => m.select b
  | .escapeMarks =>
    if isControl b then (m, [.execute b])
    else if isMark b then ({ m with sequence := m.sequence.mark b }, [])
    else if 0x30 ≤ b && b ≤ 0x7E then (m.enter .ground, [])
    else m.anywhere b
  | .controlStart => m.control true b
  | .controlParams => m.control false b
  | .controlMarks =>
    if isControl b then (m, [.execute b])
    else if isMark b then ({ m with sequence := m.sequence.mark b }, [])
    else if 0x30 ≤ b && b ≤ 0x3F then (m.enter .controlIgnored, [])
    else if isFinal b then m.dispatch b
    else m.anywhere b
  | .controlIgnored =>
    if isControl b then (m, [.execute b])
    else if isFinal b then (m.enter .ground, [])
    else m.anywhere b
  | .deviceStart => m.device true b
  | .deviceParams => m.device false b
  | .deviceMarks =>
    if isMark b then (m, [])
    else if 0x30 ≤ b && b ≤ 0x3F then (m.enter .deviceIgnored, [])
    else if isFinal b then (m.enter .deviceBody, [])
    else m.anywhere b
  | .deviceBody => untilEnd 0x9C m b
  | .deviceIgnored => m.anywhere b
  | .command => untilEnd 0x07 m b
  | .ignoredString => m.anywhere b

/-- The machine after some octets, and what `act` makes of their actions. -/
def run {σ : Type} (act : σ → Action → σ) (m : Machine) (s : σ) (bytes : Bytes) : Machine × σ :=
  bytes.foldl (fun p b => ((p.1.step b).1, (p.1.step b).2.foldl act p.2)) (m, s)

/-- The octets of a chunk that are read. A character that was cut is completed in a window of four
octets, and where a part of another character ends the window, a whole one in between is lost:
there is room for one of a single octet after a character of two. -/
def intake (m : Machine) (chunk : Bytes) : Bytes :=
  match m.held, chunk with
  | [lead], second :: between :: last :: rest =>
    if 0xC2 ≤ lead && lead < 0xE0 && Utf8.isTail second && between < 0x80 && 0x80 ≤ last then
      second :: last :: rest
    else chunk
  | _, _ => chunk

def endChunk (m : Machine) : Machine := { m with resumed := !m.held.isEmpty }

@[simp] theorem run_nil {σ : Type} (act : σ → Action → σ) (m : Machine) (s : σ) :
    m.run act s [] = (m, s) := rfl
@[simp] theorem run_cons {σ : Type} (act : σ → Action → σ) (m : Machine) (s : σ) (b : UInt8)
    (bytes : Bytes) :
    m.run act s (b :: bytes) = (m.step b).1.run act ((m.step b).2.foldl act s) bytes := rfl
theorem run_append {σ : Type} (act : σ → Action → σ) (m : Machine) (s : σ) (a b : Bytes) :
    m.run act s (a ++ b) = (m.run act s a).1.run act (m.run act s a).2 b := by
  simp [run]

theorem intake_of_held_nil (m : Machine) (h : m.held = []) (chunk : Bytes) :
    m.intake chunk = chunk := by simp [intake, h]

@[simp] theorem endChunk_idem (m : Machine) : m.endChunk.endChunk = m.endChunk := rfl

end Machine
end Parley.Terminal
