import Parley.Proofs.Expression.Readings

/-! Marking the comments of a text in a loop over its positions. A round looks at the character at
its position and at the one behind it, marks at most these two, and goes on behind what it has
taken; looking at or marking a position that the text does not have would be the end of it
(`none`). That never happens, and the marks left are the mask of the comments (`scan?_eq`). -/
namespace Parley.Expression

def mark? (mask : List Bool) (i : Nat) : Option (List Bool) :=
  if i < mask.length then some (mask.set i true) else none

/-- What a round comes to; `extra` characters were taken behind the one at the position. -/
structure Round where
  context : Context
  extra : Nat
  mask : List Bool

/-- A round in code. A line comment is entered before its second slash, a block comment behind its
whole mark. -/
def codeRound? (c : Char) (next : Option Char) (i : Nat) (mask : List Bool) : Option Round :=
  if c = '/' ∧ next = some '/' then (mark? mask i).map (⟨.line, 0, ·⟩)
  else if c = '/' ∧ next = some '*' then
    ((mark? mask i).bind (mark? · (i + 1))).map (⟨.block, 1, ·⟩)
  else some ⟨if isQuote c then .literal c else .code, 0, mask⟩

def lineRound? (c : Char) (i : Nat) (mask : List Bool) : Option Round :=
  if c = '\n' then some ⟨.code, 0, mask⟩ else (mark? mask i).map (⟨.line, 0, ·⟩)

def blockRound? (c : Char) (next : Option Char) (i : Nat) (mask : List Bool) : Option Round :=
  if c = '*' ∧ next = some '/' then
    ((mark? mask i).bind (mark? · (i + 1))).map (⟨.code, 1, ·⟩)
  else (mark? mask i).map (⟨.block, 0, ·⟩)

/-- A round in a literal. A backslash takes the character behind it along, without looking. -/
def literalRound (quote c : Char) (mask : List Bool) : Round :=
  if c = backslash then ⟨.literal quote, 1, mask⟩
  else ⟨if c = quote then .code else .literal quote, 0, mask⟩

def round? (text : Text) (context : Context) (i : Nat) (mask : List Bool) : Option Round :=
  text[i]?.bind fun c =>
    match context with
    | .code => codeRound? c text[i + 1]? i mask
    | .line => lineRound? c i mask
    | .block => blockRound? c text[i + 1]? i mask
    | .literal quote => some (literalRound quote c mask)

def scanFrom? (text : Text) (context : Context) (i : Nat) (mask : List Bool) :
    Option (List Bool) :=
  if i < text.length then
    match round? text context i mask with
    | none => none
    | some r => scanFrom? text r.context (i + r.extra + 1) r.mask
  else some mask
termination_by text.length - i

def scan? (text : Text) : Option (List Bool) :=
  scanFrom? text .code 0 (List.replicate text.length false)

/-! Behind the marks that are made there are as many places as characters to come. -/

/-- The marks where some are made, and so many characters are still to come. -/
def ahead (done : List Bool) (rest : Text) : List Bool :=
  done ++ List.replicate rest.length false

theorem mark?_ahead (done : List Bool) (c : Char) (rest : Text) :
    mark? (ahead done (c :: rest)) done.length = some (ahead (done ++ [true]) rest) := by
  simp [mark?, ahead, List.replicate_succ]

theorem mark?_ahead_next (done : List Bool) (c d : Char) (rest : Text) :
    ((mark? (ahead done (c :: d :: rest)) done.length).bind (mark? · (done.length + 1))) =
      some (ahead (done ++ [true, true]) rest) := by
  have hsecond := mark?_ahead (done ++ [true]) d rest
  rw [List.length_append, List.length_singleton, List.append_assoc] at hsecond
  rw [mark?_ahead]
  exact hsecond

/-- A character that is left without a mark. -/
theorem ahead_cons (done : List Bool) (c : Char) (rest : Text) :
    ahead done (c :: rest) = ahead (done ++ [false]) rest := by
  simp [ahead, List.replicate_succ]

theorem round?_append (front rest : Text) (c : Char) (context : Context) (mask : List Bool) :
    round? (front ++ c :: rest) context front.length mask =
      match context with
      | .code => codeRound? c rest.head? front.length mask
      | .line => lineRound? c front.length mask
      | .block => blockRound? c rest.head? front.length mask
      | .literal quote => some (literalRound quote c mask) := by
  have hnext : (front ++ c :: rest)[front.length + 1]? = rest.head? := by
    rw [List.getElem?_append_right (by omega), Nat.add_sub_cancel_left]
    cases rest <;> rfl
  simp [round?, hnext]

/-- The loop comes to these marks for the characters to come, behind those that it has made. -/
def Scans (front : Text) (done : List Bool) (context : Context) (rest : Text)
    (marks : List Bool) : Prop :=
  done.length = front.length →
    scanFrom? (front ++ rest) context front.length (ahead done rest) = some (done ++ marks)

theorem scans_end (front : Text) (done : List Bool) (context : Context) :
    Scans front done context [] [] := by
  intro _
  rw [scanFrom?, if_neg (by simp)]
  simp [ahead]

/-- A round that takes one character. -/
theorem Scans.one {front rest : Text} {done marks : List Bool} {context next : Context} {c : Char}
    {b : Bool} (h : Scans (front ++ [c]) (done ++ [b]) next rest marks)
    (hround : done.length = front.length →
      round? (front ++ c :: rest) context front.length (ahead done (c :: rest)) =
        some ⟨next, 0, ahead (done ++ [b]) rest⟩) :
    Scans front done context (c :: rest) (b :: marks) := by
  intro hdone
  have hrest := h (by simp [hdone])
  simp only [List.append_assoc, List.singleton_append, List.length_append,
    List.length_singleton] at hrest
  rw [scanFrom?, if_pos (by simp), hround hdone]
  exact hrest

/-- A round that takes two. -/
theorem Scans.two {front rest : Text} {done marks : List Bool} {context next : Context} {c d : Char}
    {a b : Bool} (h : Scans (front ++ [c, d]) (done ++ [a, b]) next rest marks)
    (hround : done.length = front.length →
      round? (front ++ c :: d :: rest) context front.length (ahead done (c :: d :: rest)) =
        some ⟨next, 1, ahead (done ++ [a, b]) rest⟩) :
    Scans front done context (c :: d :: rest) (a :: b :: marks) := by
  intro hdone
  have hrest := h (by simp [hdone])
  simp only [List.append_assoc, List.cons_append, List.nil_append, List.length_append,
    List.length_cons, List.length_nil] at hrest
  rw [scanFrom?, if_pos (by simp), hround hdone]
  exact hrest

/-- The last round, which may take a character that is not there. -/
theorem scans_last {front : Text} {done : List Bool} {context : Context} {c : Char} {b : Bool}
    (next : Context) (extra : Nat)
    (hround : round? (front ++ [c]) context front.length (ahead done [c]) =
      some ⟨next, extra, ahead (done ++ [b]) []⟩) :
    Scans front done context [c] [b] := by
  intro _
  rw [scanFrom?, if_pos (by simp), hround]
  dsimp only
  rw [scanFrom?, if_neg (by simp)]
  simp [ahead]

/-- Two characters that are not read together. -/
theorem not_pair {c a b : Char} {rest : Text} (h : ∀ more, c = a → rest = b :: more → False) :
    ¬ (c = a ∧ rest.head? = some b) := by
  rintro ⟨hc, hhead⟩
  obtain ⟨more, hmore⟩ := List.head?_eq_some_iff.mp hhead
  exact h more hc hmore

/-- The loop marks what belongs to a comment, whatever it is inside of at first. -/
theorem scans_classesFrom (context : Context) (rest front : Text) (done : List Bool) :
    Scans front done context rest ((classesFrom context rest).map Class.isComment) := by
  fun_induction classesFrom context rest generalizing front done with
  | case1 context => exact scans_end front done context
  | case2 rest ih =>
    -- The second slash is taken as the first character inside the comment.
    have hsecond := fun (front : Text) (done : List Bool) =>
      @Scans.one front rest done _ .line .line '/' true (ih _ _) fun hdone => by
        rw [round?_append, ← hdone]
        simp [lineRound?, mark?_ahead]
    refine Scans.one (hsecond _ _) fun hdone => ?_
    rw [round?_append, ← hdone]
    simp [codeRound?, mark?_ahead, Class.isComment]
  | case3 rest ih =>
    refine Scans.two (ih _ _) fun hdone => ?_
    rw [round?_append, ← hdone]
    simp [codeRound?, mark?_ahead_next, Class.isComment]
  | case4 c rest hline hblock hquote ih =>
    refine Scans.one (ih _ _) fun _ => ?_
    rw [round?_append]
    simp [codeRound?, not_pair hline, not_pair hblock, hquote, ahead_cons, Class.isComment]
  | case5 c rest hline hblock hquote ih =>
    refine Scans.one (ih _ _) fun _ => ?_
    rw [round?_append]
    simp [codeRound?, not_pair hline, not_pair hblock, hquote, ahead_cons, Class.isComment]
  | case6 rest ih =>
    refine Scans.one (ih _ _) fun _ => ?_
    rw [round?_append]
    simp [lineRound?, ahead_cons, Class.isComment]
  | case7 c rest hc ih =>
    refine Scans.one (ih _ _) fun hdone => ?_
    rw [round?_append, ← hdone]
    simp [lineRound?, hc, mark?_ahead, Class.isComment]
  | case8 rest ih =>
    refine Scans.two (ih _ _) fun hdone => ?_
    rw [round?_append, ← hdone]
    simp [blockRound?, mark?_ahead_next, Class.isComment]
  | case9 c rest hpair ih =>
    refine Scans.one (ih _ _) fun hdone => ?_
    rw [round?_append, ← hdone]
    simp [blockRound?, not_pair hpair, mark?_ahead, Class.isComment]
  | case10 q c rest ih =>
    refine Scans.two (ih _ _) fun _ => ?_
    rw [round?_append]
    simp [literalRound, backslash, ahead_cons, Class.isComment]
  | case11 q c rest hpair ih =>
    by_cases hc : c = backslash
    · -- A backslash at the very end, with nothing behind it to take along.
      cases rest with
      | cons d more => exact (hpair d more hc rfl).elim
      | nil =>
        refine scans_last (.literal q) 1 ?_
        rw [round?_append]
        simp [literalRound, hc, ahead_cons, Class.isComment]
    · refine Scans.one (ih _ _) fun _ => ?_
      rw [round?_append]
      simp [literalRound, hc, ahead_cons, Class.isComment]

/-- The loop comes to its end, with the mask of the comments. -/
theorem scan?_eq (text : Text) : scan? text = some (commentMask text) :=
  scans_classesFrom .code text [] [] rfl

/-- The marks of some lexemes: the comments are marked, from end to end. -/
def commentMarks (ls : List Lexeme) : List Bool :=
  ls.flatMap fun l => List.replicate l.text.length l.kind.isComment

theorem commentMask_eq (text : Text) : commentMask text = commentMarks (lexemes text) := by
  have hclasses : classes text = (marks (lexemes text)).map Prod.snd := by
    rw [← marked_eq, marked, List.map_snd_zip]
    exact Nat.le_of_eq (length_classes text)
  rw [commentMask, hclasses, List.map_map]
  simp [marks, commentMarks, Lexeme.marks, List.map_flatMap, Function.comp_def, List.map_const']

/-- A text is taken apart in exactly one way, and its mask marks the comments among the lexemes and
nothing else. It has a mark for every character, and the loop that makes it ends without looking at
or marking a position that is not there. -/
theorem commentMask_of_reads (text : Text) :
    (∃! ls, Reads text ls) ∧
      (∀ ls, Reads text ls → texts ls = text ∧ commentMask text = commentMarks ls) ∧
      (commentMask text).length = text.length ∧ scan? text = some (commentMask text) := by
  refine ⟨⟨lexemes text, reads_iff.mpr rfl, fun ls h => reads_iff.mp h⟩, ?_,
    length_commentMask text, scan?_eq text⟩
  intro ls h
  obtain rfl := reads_iff.mp h
  exact ⟨texts_lexemes text, commentMask_eq text⟩

/-- The opening mark of a block comment does not end it, and a backslash can be the last character.
-/
example : lexemes "/*/'*/'//\\''/*".toList =
    [.block "/'".toList true, .literal '\x27' "//\\'".toList true, .block [] false] ∧
      scan? "'\\".toList = some [false, false] := by
  decide +kernel

end Parley.Expression
