import Parley.Proofs.Terminal.Strokes

/-! Control sequences read octet by octet: their opening, digits, colons, semicolons and the octet
that ends them. Parameters between semicolons, each of them numbers in decimal between colons, come
out as the parameters of a rendition (`read_parameters`), so long as there is room for all their
numbers. -/
namespace Parley.Terminal

namespace Sequence

theorem digit_of_room {s : Sequence} (h : s.count < maxNumbers) (d : Nat) :
    s.digit d = { s with value := min maxValue (s.value * 10 + d) } := by
  have : s.isFull = false := by simpa [isFull] using h
  simp [digit, this]

theorem min_ofDigitChars (digits : Text) (x : Nat) :
    min maxValue (Nat.ofDigitChars 10 digits (min maxValue x)) =
      min maxValue (Nat.ofDigitChars 10 digits x) := by
  induction digits generalizing x with
  | nil => simp
  | cons d digits ih =>
    have hm : min maxValue (10 * min maxValue x + (d.toNat - '0'.toNat)) =
        min maxValue (10 * x + (d.toNat - '0'.toNat)) := by
      simp only [maxValue]
      omega
    rw [Nat.ofDigitChars_cons, Nat.ofDigitChars_cons, ← ih, hm, ih]

/-- Decimal digits are read as their number, or as the greatest value. -/
theorem foldl_digit {s : Sequence} (h : s.count < maxNumbers) (hv : s.value ≤ maxValue)
    (digits : Text) :
    digits.foldl (fun t d => t.digit (d.toNat - 0x30)) s =
      { s with value := min maxValue (Nat.ofDigitChars 10 digits s.value) } := by
  induction digits generalizing s with
  | nil => simp [hv]
  | cons d digits ih =>
    rw [List.foldl_cons, digit_of_room h, Nat.ofDigitChars_cons, ← min_ofDigitChars,
      Nat.mul_comm 10]
    exact @ih { s with value := min maxValue (s.value * 10 + (d.toNat - 0x30)) } h
      (Nat.min_le_left _ _)

theorem close_of_room {s : Sequence} (h : s.count < maxNumbers) :
    s.close = { s with params := s.params ++ [s.subs ++ [s.value]], subs := [] } := by
  have : s.isFull = false := by simpa [isFull] using h
  simp [close, this]

theorem separate_of_room {s : Sequence} (h : s.count < maxNumbers) :
    s.separate = { s.close with value := 0 } := by
  have : s.isFull = false := by simpa [isFull] using h
  simp [separate, this]

theorem subdivide_of_room {s : Sequence} (h : s.count < maxNumbers) :
    s.subdivide = { s with subs := s.subs ++ [s.value], value := 0 } := by
  have : s.isFull = false := by simpa [isFull] using h
  simp [subdivide, this]

/-- A sequence that has ended these parameters, each a single number. -/
def ofNumbers (numbers : List Nat) : Sequence := { params := numbers.map ([·]) }

/-- The digits of one more number. -/
theorem foldl_decimal {done : List Parameter} {subs : Parameter} {n : Nat}
    (h : done.flatten.length + subs.length < maxNumbers) (hn : n ≤ maxValue) :
    (decimal n).foldl (fun s d => s.digit (d.toNat - 0x30))
        ({ params := done, subs } : Sequence) =
      { params := done, subs, value := n } := by
  have hroom : ({ params := done, subs } : Sequence).count < maxNumbers := h
  rw [foldl_digit hroom (Nat.zero_le _)]
  simp [decimal, Nat.ofDigitChars_ten_toDigits, hn]

end Sequence

/-- A parameter as it is written, its numbers between colons. -/
def parameterText (p : Parameter) : Text := joinWith [':'] (p.map decimal)

namespace Machine

/-- Within a sequence, where its parameters are read. -/
def Collects (m : Machine) : Prop := m.mode = .controlStart ∨ m.mode = .controlParams

theorem step_of_collects {m : Machine} (h : m.Collects) {b : UInt8} (hp : isPrivate b = false) :
    m.step b = m.control false b := by
  rcases h with h | h <;> simp [step, h, control, hp]

theorem read_cons_of_lt (m : Machine) {c : Char} (h : c.toNat < 0x80) (text : Text) :
    m.read (c :: text) = (m.step (UInt8.ofNat c.toNat)).1.read text := by
  simp [read, Utf8.encodeChar_of_lt h]

theorem strokes_cons_of_lt (m : Machine) {c : Char} (h : c.toNat < 0x80) (text : Text) :
    m.strokes (c :: text) =
      (m.step (UInt8.ofNat c.toNat)).2.filterMap Action.stroke? ++
        (m.step (UInt8.ofNat c.toNat)).1.strokes text := by
  simp [strokes, Utf8.encodeChar_of_lt h]

theorem control_of_isDigit (start : Bool) (m : Machine) {b : UInt8} (h : isDigit b = true) :
    control start m b = ((m.parameter b).enter .controlParams, []) := by
  have hb : 0x30 ≤ b.toNat ∧ b.toNat ≤ 0x39 := by
    simpa [isDigit, UInt8.le_iff_toNat_le] using h
  have hc : isControl b = false := by
    simp [isControl, UInt8.le_iff_toNat_le, ← UInt8.toNat_inj]
    omega
  have hm : isMark b = false := by
    simp [isMark, UInt8.le_iff_toNat_le]
    omega
  simp [control, hc, hm, h]

theorem step_digit {m : Machine} (h : m.Collects) {d : Char} (hd : d.isDigit = true) :
    m.step (UInt8.ofNat d.toNat) =
      ({ m with mode := .controlParams, sequence := m.sequence.digit (d.toNat - 0x30) }, []) := by
  have hd' : 0x30 ≤ d.toNat ∧ d.toNat ≤ 0x39 := Char.isDigit_iff_toNat.mp hd
  obtain ⟨b, hb, hn⟩ : ∃ b : UInt8, UInt8.ofNat d.toNat = b ∧ d.toNat = b.toNat :=
    ⟨_, rfl, by rw [UInt8.toNat_ofNat', Nat.mod_eq_of_lt (by omega)]⟩
  rw [hb, hn]
  rw [hn] at hd'
  have hdigit : isDigit b = true := by simpa [isDigit, UInt8.le_iff_toNat_le] using hd'
  have hcolon : b ≠ 0x3A := by rintro rfl; simp at hd'
  have hsemi : b ≠ 0x3B := by rintro rfl; simp at hd'
  have hparam : (m.parameter b).enter .controlParams =
      { m with mode := .controlParams, sequence := m.sequence.digit (b.toNat - 0x30) } := by
    simp [parameter, enter, hcolon, hsemi]
  have hprivate : isPrivate b = false := by
    simp [isPrivate, UInt8.le_iff_toNat_le]
    omega
  rw [step_of_collects h hprivate, control_of_isDigit _ _ hdigit, hparam]

/-- Digits change the number being read and nothing else. -/
theorem read_digits {m : Machine} (h : m.Collects) {digits : Text} (hn : digits ≠ [])
    (hd : ∀ d ∈ digits, d.isDigit = true) :
    m.read digits = { m with
        mode := .controlParams
        sequence := digits.foldl (fun s d => s.digit (d.toNat - 0x30)) m.sequence } ∧
      m.strokes digits = [] := by
  induction digits generalizing m with
  | nil => contradiction
  | cons d digits ih =>
    rw [List.forall_mem_cons] at hd
    have hlt : d.toNat < 0x80 := Nat.lt_of_le_of_lt (Char.isDigit_iff_toNat.mp hd.1).2 (by decide)
    rw [read_cons_of_lt m hlt, strokes_cons_of_lt m hlt, step_digit h hd.1]
    by_cases hr : digits = []
    · simp [hr]
    · have := @ih { m with mode := .controlParams, sequence := m.sequence.digit (d.toNat - 0x30) }
        (.inr rfl) hr hd.2
      simpa using this

/-- The octet that ends a control sequence. -/
theorem step_final {m : Machine} (h : m.Collects) {b : UInt8} (hb : isFinal b = true) :
    m.step b = m.dispatch b := by
  have hb' : 0x40 ≤ b.toNat ∧ b.toNat ≤ 0x7E := by
    simpa [isFinal, UInt8.le_iff_toNat_le] using hb
  have hc : isControl b = false := by
    simp [isControl, UInt8.le_iff_toNat_le, ← UInt8.toNat_inj]
    omega
  have hm : isMark b = false := by
    simp [isMark, UInt8.le_iff_toNat_le]
    omega
  have hd : isDigit b = false := by
    simp [isDigit, UInt8.le_iff_toNat_le]
    omega
  have hp : isPrivate b = false := by
    simp [isPrivate, UInt8.le_iff_toNat_le]
    omega
  have hcolon : b ≠ 0x3A := by rintro rfl; simp at hb'
  have hsemi : b ≠ 0x3B := by rintro rfl; simp at hb'
  rw [step_of_collects h hp]
  simp [control, hc, hm, hd, hp, hcolon, hsemi, hb]

/-- A semicolon between two parameters. -/
theorem step_semicolon {m : Machine} (h : m.Collects) :
    m.step 0x3B = ({ m with mode := .controlParams, sequence := m.sequence.separate }, []) := by
  rw [step_of_collects h (by decide)]
  simp [control, isControl, isMark, parameter, enter]

/-- A colon between two numbers of one parameter. -/
theorem step_colon {m : Machine} (h : m.Collects) :
    m.step 0x3A = ({ m with mode := .controlParams, sequence := m.sequence.subdivide }, []) := by
  rw [step_of_collects h (by decide)]
  simp [control, isControl, isMark, parameter, enter]

/-- A bracket after an escape. -/
theorem step_bracket {m : Machine} (h : m.mode = .escape) :
    m.step 0x5B = ({ m with mode := .controlStart, sequence := {} }, []) := by
  simp [step, h, select, isControl, isMark]

/-- What opens a control sequence. -/
theorem read_opening {m : Machine} (hg : m.mode = .ground) (h : m.Calm) (text : Text) :
    m.read ('\x1b' :: '[' :: text) =
        ({ m with mode := .controlStart, sequence := {} } : Machine).read text ∧
      m.strokes ('\x1b' :: '[' :: text) =
        ({ m with mode := .controlStart, sequence := {} } : Machine).strokes text := by
  obtain ⟨hh, hr⟩ := (calm_iff m).mp h
  have hm : { m with held := [], resumed := false } = m := by rw [← hh, ← hr]
  have hescape : m.step 0x1B = (m.enterEscape, []) := by
    simp [step_of_ground hg, ground, hh, fresh, isEscape, hm]
  have hbracket : m.enterEscape.step 0x5B =
      ({ m with mode := .controlStart, sequence := {} }, []) := step_bracket rfl
  have he : (UInt8.ofNat '\x1b'.toNat) = 0x1B := by decide
  have hb : (UInt8.ofNat '['.toNat) = 0x5B := by decide
  constructor
  · rw [read_cons_of_lt _ (by decide), he, hescape, read_cons_of_lt _ (by decide), hb, hbracket]
  · rw [strokes_cons_of_lt _ (by decide), he, hescape, strokes_cons_of_lt _ (by decide), hb,
      hbracket]
    rfl

theorem isDigit_of_mem_decimal {n : Nat} {d : Char} (h : d ∈ decimal n) : d.isDigit = true :=
  Nat.isDigit_of_mem_toDigits (by decide) (by decide) h

/-- The digits of a number, where it is the next of its parameter. -/
theorem read_decimal {m : Machine} (h : m.Collects) {done : List Parameter} {subs : Parameter}
    (hs : m.sequence = { params := done, subs }) {n : Nat} (hn : n ≤ Sequence.maxValue)
    (hroom : done.flatten.length + subs.length < Sequence.maxNumbers) :
    m.read (decimal n) =
        { m with mode := .controlParams, sequence := { params := done, subs, value := n } } ∧
      m.strokes (decimal n) = [] := by
  have hdigits := read_digits h (Nat.toDigits_ne_nil (n := n) (b := 10))
    fun d hd => isDigit_of_mem_decimal hd
  rw [show Nat.toDigits 10 n = decimal n from rfl, hs, Sequence.foldl_decimal hroom hn] at hdigits
  exact hdigits

/-- The numbers of a parameter come out as its subparameters, the last of them not ended yet. -/
theorem read_parameter {m : Machine} (h : m.Collects) {done : List Parameter}
    {subs p : Parameter} (hs : m.sequence = { params := done, subs }) (hp : p ≠ [])
    (hmax : ∀ n ∈ p, n ≤ Sequence.maxValue)
    (hroom : done.flatten.length + subs.length + p.length ≤ Sequence.maxNumbers) :
    ∃ init last, p = init ++ [last] ∧
      m.read (parameterText p) = { m with
        mode := .controlParams
        sequence := { params := done, subs := subs ++ init, value := last } } ∧
      m.strokes (parameterText p) = [] := by
  induction p generalizing m subs with
  | nil => contradiction
  | cons n p ih =>
    rw [List.forall_mem_cons] at hmax
    rw [List.length_cons] at hroom
    obtain ⟨hread, hstrokes⟩ := read_decimal h hs hmax.1 (by omega)
    cases p with
    | nil => exact ⟨[], n, rfl, by simpa [parameterText] using hread, hstrokes⟩
    | cons next rest =>
      have hcount : ({ params := done, subs, value := n } : Sequence).count <
          Sequence.maxNumbers := by
        rw [Sequence.count]
        dsimp only
        omega
      have hcolon : UInt8.ofNat ':'.toNat = 0x3A := by decide
      have htext : parameterText (n :: next :: rest) =
          decimal n ++ ':' :: parameterText (next :: rest) := by simp [parameterText]
      obtain ⟨init, last, hlast, hread', hstrokes'⟩ :=
        @ih { m with
          mode := .controlParams
          sequence := { params := done, subs := subs ++ [n] } }
          (.inr rfl) (subs ++ [n]) rfl (List.cons_ne_nil _ _) hmax.2
          (by rw [List.length_append, List.length_singleton]; omega)
      refine ⟨n :: init, last, by rw [hlast, List.cons_append], ?_, ?_⟩
      · rw [htext, read_append, hread, read_cons_of_lt _ (by decide), hcolon, step_colon (.inr rfl),
          Sequence.subdivide_of_room hcount, hread', List.append_assoc, List.singleton_append]
      · rw [htext, strokes_append, hstrokes, hread, strokes_cons_of_lt _ (by decide), hcolon,
          step_colon (.inr rfl), Sequence.subdivide_of_room hcount, hstrokes']
        rfl

/-- Parameters between semicolons and a final `m` select a rendition. -/
theorem read_parameters {m : Machine} (h : m.Collects) {done params : List Parameter}
    (hs : m.sequence = { params := done }) (hn : params ≠ [])
    (hp : ∀ p ∈ params, p ≠ [] ∧ ∀ n ∈ p, n ≤ Sequence.maxValue)
    (hroom : (done ++ params).flatten.length ≤ Sequence.maxNumbers) :
    (∃ s, m.read (joinWith [';'] (params.map parameterText) ++ ['m']) =
        { m with mode := .ground, sequence := s }) ∧
      m.strokes (joinWith [';'] (params.map parameterText) ++ ['m']) =
        [.restyle (done ++ params)] := by
  induction params generalizing m done with
  | nil => contradiction
  | cons p params ih =>
    rw [List.forall_mem_cons] at hp
    obtain ⟨init, last, hlast, hread, hstrokes⟩ :=
      read_parameter h hs hp.1.1 hp.1.2 (by simp at hroom ⊢; omega)
    rw [List.nil_append] at hread
    -- The last number of the parameter still has its place.
    have hcount : ({ params := done, subs := init, value := last } : Sequence).count <
        Sequence.maxNumbers := by
      simp only [hlast, List.flatten_append, List.flatten_cons, List.length_append,
        List.length_singleton] at hroom
      rw [Sequence.count]
      dsimp only
      omega
    cases params with
    | nil =>
      have hm : UInt8.ofNat 'm'.toNat = 0x6D := by decide
      rw [List.map_singleton, joinWith_singleton, read_append, strokes_append, hread, hstrokes,
        read_cons_of_lt _ (by decide), strokes_cons_of_lt _ (by decide), hm,
        step_final (.inr rfl) (by decide), dispatch, Sequence.close_of_room hcount, hlast]
      exact ⟨⟨_, rfl⟩, rfl⟩
    | cons next rest =>
      have hsemi : UInt8.ofNat ';'.toNat = 0x3B := by decide
      simp only [List.map_cons, joinWith_cons_cons, List.append_assoc]
      rw [read_append, strokes_append, hread, hstrokes, List.singleton_append,
        read_cons_of_lt _ (by decide), strokes_cons_of_lt _ (by decide), hsemi,
        step_semicolon (.inr rfl)]
      simp only [Sequence.separate_of_room hcount, Sequence.close_of_room hcount, ← hlast]
      have := @ih { m with mode := .controlParams, sequence := { params := done ++ [p] } }
        (.inr rfl) (done ++ [p]) rfl (List.cons_ne_nil _ _) hp.2
        (by rw [List.append_assoc, List.singleton_append]; exact hroom)
      simpa using this

/-- Numbers between semicolons and a final `m` select a rendition. -/
theorem read_numbers {m : Machine} (h : m.Collects) {done numbers : List Nat}
    (hs : m.sequence = .ofNumbers done) (hn : numbers ≠ [])
    (hmax : ∀ n ∈ numbers, n ≤ Sequence.maxValue)
    (hroom : done.length + numbers.length ≤ Sequence.maxNumbers) :
    (∃ s, m.read (joinWith [';'] (numbers.map decimal) ++ ['m']) =
        { m with mode := .ground, sequence := s }) ∧
      m.strokes (joinWith [';'] (numbers.map decimal) ++ ['m']) =
        [.restyle ((done ++ numbers).map ([·]))] := by
  have htexts : (numbers.map ([·])).map parameterText = numbers.map decimal := by
    simp [parameterText]
  have hparams : ∀ p ∈ numbers.map ([·]), p ≠ [] ∧ ∀ n ∈ p, n ≤ Sequence.maxValue := by
    simpa using hmax
  have hflat : ((done ++ numbers).map ([·])).flatten = done ++ numbers := by
    rw [← List.flatMap_def, List.flatMap_singleton']
  have hroom' : (done.map ([·]) ++ numbers.map ([·])).flatten.length ≤ Sequence.maxNumbers := by
    rw [← List.map_append, hflat, List.length_append]
    exact hroom
  rw [← htexts, List.map_append]
  exact read_parameters h hs (by simpa using hn) hparams hroom'

end Machine
end Parley.Terminal
