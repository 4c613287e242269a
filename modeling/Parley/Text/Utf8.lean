import Parley.Text.Basic

/-! UTF-8 in both directions. A stream is decoded one octet at a time: the octets of a character
that is not finished yet are held, and each maximal run of octets that begins no character
becomes one U+FFFD. `lossy` says the same of a whole stream by looking at its prefixes, and
`decode?` refuses what `lossy` would replace. -/
namespace Parley.Utf8

def encodeChar (c : Char) : Bytes := String.utf8EncodeChar c

def encode (text : Text) : Bytes := text.flatMap encodeChar

@[simp] theorem encode_nil : encode [] = [] := rfl
@[simp] theorem encode_cons (c : Char) (text : Text) :
    encode (c :: text) = encodeChar c ++ encode text := rfl
@[simp] theorem encode_append (a b : Text) : encode (a ++ b) = encode a ++ encode b := by
  simp [encode]

/-- What a few octets are as the beginning of a character; unfinished ones stop short of its end. -/
inductive Head where
  | char (c : Char)
  | unfinished
  | invalid
  deriving DecidableEq, Repr

def isTail (b : UInt8) : Bool := 0x80 ≤ b && b ≤ 0xBF

/-- The second octets allowed after a lead octet: some leads exclude overlong forms, surrogates
and what lies above U+10FFFF. -/
def isSecond (lead b : UInt8) : Bool :=
  isTail b && (lead != 0xE0 || 0xA0 ≤ b) && (lead != 0xED || b ≤ 0x9F) &&
    (lead != 0xF0 || 0x90 ≤ b) && (lead != 0xF4 || b ≤ 0x8F)

def tailBits (b : UInt8) : Nat := b.toNat % 64

def classify : Bytes → Head
  | [a] =>
    if a < 0x80 then .char (Char.ofNat a.toNat)
    else if 0xC2 ≤ a && a ≤ 0xF4 then .unfinished else .invalid
  | [a, b] =>
    if 0xC2 ≤ a && a ≤ 0xF4 && isSecond a b then
      if a < 0xE0 then .char (Char.ofNat (a.toNat % 32 * 64 + tailBits b)) else .unfinished
    else .invalid
  | [a, b, c] =>
    if 0xE0 ≤ a && a ≤ 0xF4 && isSecond a b && isTail c then
      if a < 0xF0 then .char (Char.ofNat ((a.toNat % 16 * 64 + tailBits b) * 64 + tailBits c))
      else .unfinished
    else .invalid
  | [a, b, c, d] =>
    if 0xF0 ≤ a && a ≤ 0xF4 && isSecond a b && isTail c && isTail d then
      .char (Char.ofNat (((a.toNat % 8 * 64 + tailBits b) * 64 + tailBits c) * 64 + tailBits d))
    else .invalid
  | _ => .invalid

def replacement : Char := '\ufffd'

/-- The octets held back between two steps of a decoder, and the characters that came out. -/
structure Step where
  held : Bytes
  out : Text
  deriving DecidableEq, Repr

/-- An octet with nothing held before it. -/
def start (b : UInt8) : Step :=
  match classify [b] with
  | .char c => ⟨[], [c]⟩
  | .unfinished => ⟨[b], []⟩
  | .invalid => ⟨[], [replacement]⟩

/-- The next octet of a stream. An octet that cannot continue what is held ends it there and is
looked at afresh. -/
def step (held : Bytes) (b : UInt8) : Step :=
  if held = [] then start b
  else match classify (held ++ [b]) with
    | .char c => ⟨[], [c]⟩
    | .unfinished => ⟨held ++ [b], []⟩
    | .invalid => ⟨(start b).held, replacement :: (start b).out⟩

structure Decoder where
  held : Bytes := []
  deriving DecidableEq, Repr

namespace Decoder

/-- Decodes in front of characters already decoded, latest first. -/
def advance (s : Bytes × Text) (b : UInt8) : Bytes × Text :=
  ((step s.1 b).held, (step s.1 b).out.reverse ++ s.2)

/-- The characters that a piece completes. -/
def feed (d : Decoder) (piece : Bytes) : Decoder × Text :=
  let s := piece.foldl advance (d.held, [])
  (⟨s.1⟩, s.2.reverse)

@[simp] theorem feed_nil (d : Decoder) : d.feed [] = (d, []) := rfl

theorem foldl_advance (held : Bytes) (out : Text) (piece : Bytes) :
    piece.foldl advance (held, out) =
      ((piece.foldl advance (held, [])).1, (piece.foldl advance (held, [])).2 ++ out) := by
  induction piece generalizing held out with
  | nil => simp
  | cons b piece ih =>
    simp only [List.foldl_cons, advance, List.append_nil]
    rw [ih, ih _ (step held b).out.reverse]
    simp

theorem feed_append (d : Decoder) (a b : Bytes) :
    d.feed (a ++ b) = (((d.feed a).1.feed b).1, (d.feed a).2 ++ ((d.feed a).1.feed b).2) := by
  simp only [feed, List.foldl_append]
  rw [foldl_advance (a.foldl advance (d.held, [])).1]
  simp

/-- What is owed once no octet follows. -/
def finish (d : Decoder) : Text := if d.held = [] then [] else [replacement]

end Decoder

/-- The length of the longest opening of the octets that is unfinished; of none, one. -/
def stubLength (bytes : Bytes) : Nat :=
  ([3, 2, 1].find? fun n => n ≤ bytes.length && classify (bytes.take n) = .unfinished).getD 1

/-- The first character, or U+FFFD for the maximal invalid opening, and how many octets it takes. -/
def firstPiece (bytes : Bytes) : Char × Nat :=
  match classify (bytes.take 1), classify (bytes.take 2), classify (bytes.take 3),
      classify (bytes.take 4) with
  | .char c, _, _, _ => (c, 1)
  | _, .char c, _, _ => (c, 2)
  | _, _, .char c, _ => (c, 3)
  | _, _, _, .char c => (c, 4)
  | _, _, _, _ => (replacement, stubLength bytes)

theorem stubLength_pos (bytes : Bytes) : 0 < stubLength bytes := by
  unfold stubLength
  cases h : [3, 2, 1].find? fun n => n ≤ bytes.length && classify (bytes.take n) = .unfinished with
  | none => simp
  | some n =>
    have hn := List.mem_of_find?_eq_some h
    simp at hn
    rcases hn with rfl | rfl | rfl <;> simp

theorem firstPiece_pos (bytes : Bytes) : 0 < (firstPiece bytes).2 := by
  unfold firstPiece
  split <;> simp [stubLength_pos]

/-- A whole stream as text, each maximal invalid part as one U+FFFD. -/
def lossy : Bytes → Text
  | [] => []
  | b :: rest =>
    (firstPiece (b :: rest)).1 :: lossy ((b :: rest).drop (firstPiece (b :: rest)).2)
termination_by bytes => bytes.length
decreasing_by
  have := firstPiece_pos (b :: rest)
  simp only [List.length_drop, List.length_cons]
  omega

@[simp] theorem lossy_nil : lossy [] = [] := by simp [lossy]

def decodeFrom : Bytes → Bytes → Option Text
  | held, [] => if held = [] then some [] else none
  | held, b :: rest =>
    match classify (held ++ [b]) with
    | .char c => (decodeFrom [] rest).map (c :: ·)
    | .unfinished => decodeFrom (held ++ [b]) rest
    | .invalid => none

def decode? (bytes : Bytes) : Option Text := decodeFrom [] bytes

@[simp] theorem decode?_nil : decode? [] = some [] := rfl

end Parley.Utf8
