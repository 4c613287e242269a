import Parley.Proofs.Shell.Beats

/-! The beats that a run of the shell is made of. While the output is open, a run comes to exactly
what its beats come to, one after another (`performAll_of_open`), and the last beat of a run that
reads its input to the end is an echo (`entriesBeats_ending`). -/
namespace Parley

inductive Act where
  | execute (c : Command)
  | run (input : List Supply)
  | happening (h : Happening)
  deriving DecidableEq

def Entry.isQuit : Entry → Bool
  | .happening _ => false
  | .line octets =>
    match (Utf8.decode? octets).map Command.parse with
    | some (.ok (some .quit)) => true
    | _ => false

namespace Shell

def perform (s : Shell) : Act → Shell
  | .execute c => (s.execute c).2
  | .run input => (s.runScript input).2
  | .happening h => s.happen h

def performAll (s : Shell) (acts : List Act) : Shell := acts.foldl perform s

def waitBeats (limit : Nat) : Nat → Shell → List Beat
  | left, s =>
    let told := s.beat .echo
    if told.desk.handle?.isNone then [.echo]
    else if !told.desk.isAlive then [.echo, .pause (min told.patience.afterExit limit), .echo]
    else if told.silence.any (told.patience.silence ≤ ·) then [.echo]
    else
      match left with
      | 0 => [.echo]
      | left + 1 => .echo :: .pause 1 :: waitBeats limit left (told.beat (.pause 1))

def settleBeats (s : Shell) (limit : Nat) : List Beat := waitBeats limit limit s

def afterBeats (s : Shell) (c : Command) : List Beat :=
  match s.execute c with
  | (.error t, _) => [.report t.chain]
  | (.ok .quit, _) => []
  | (.ok .goOn, done) =>
    if c.writesInput then .hush :: (done.beat .hush).settleBeats done.patience.afterWrite
    else [.echo]

def lineBeats (s : Shell) (line : Bytes) : List Beat :=
  match Utf8.decode? line with
  | none => []
  | some line =>
    match Command.parse line with
    | .error e => [.report e.message]
    | .ok none => []
    | .ok (some c) => .execute c :: s.afterBeats c

def entriesBeats (s : Shell) : List Entry → List Beat
  | [] => s.settleBeats s.patience.atEnd
  | .happening h :: rest => .happening h :: (s.happen h).entriesBeats rest
  | .line line :: rest =>
    match s.readLine line with
    | (.ok .goOn, next) => s.lineBeats line ++ next.entriesBeats rest
    | _ => s.lineBeats line

def actBeats (s : Shell) : Act → List Beat
  | .execute c => [.execute c]
  | .run input => s.entriesBeats (Script.entries input)
  | .happening h => [.happening h]

def actsBeats (s : Shell) : List Act → List Beat
  | [] => []
  | act :: rest => s.actBeats act ++ (s.perform act).actsBeats rest

/-- Waiting echoes, and then goes by what the echo has shown. -/
theorem wait_eq {s : Shell} (h : s.closed = false) (limit left : Nat) :
    settle.wait limit left s =
      let told := s.beat .echo
      if told.desk.handle?.isNone then (.ok (), told)
      else if !told.desk.isAlive then (told.pause (min told.patience.afterExit limit)).echo
      else if told.silence.any (told.patience.silence ≤ ·) then (.ok (), told)
      else
        match left with
        | 0 => (.ok (), told)
        | left + 1 => settle.wait limit left (told.pause 1) := by
  have hwait := settle.wait.eq_def limit left s
  simp only [echo_of_open h] at hwait
  exact hwait

theorem wait_of_open {s : Shell} (h : s.closed = false) (limit left : Nat) :
    settle.wait limit left s = (.ok (), s.beats (waitBeats limit left s)) := by
  fun_induction waitBeats limit left s with
  | case1 left s told hnone =>
    rw [wait_eq h]
    exact if_pos hnone
  | case2 left s told hsome hdead =>
    have hpaused : (told.beat (.pause (min told.patience.afterExit limit))).closed = false := by
      rw [closed_beat, closed_beat, h]
    rw [wait_eq h]
    exact ((if_neg hsome).trans (if_pos hdead)).trans (echo_of_open hpaused)
  | case3 left s told hsome halive hquiet =>
    rw [wait_eq h]
    exact ((if_neg hsome).trans (if_neg halive)).trans (if_pos hquiet)
  | case4 s told hsome halive hloud =>
    rw [wait_eq h]
    exact ((if_neg hsome).trans (if_neg halive)).trans (if_neg hloud)
  | case5 s told hsome halive hloud left ih =>
    have hpaused : (told.beat (.pause 1)).closed = false := by
      rw [closed_beat, closed_beat, h]
    rw [wait_eq h]
    exact (((if_neg hsome).trans (if_neg halive)).trans (if_neg hloud)).trans (ih hpaused)

theorem obey_of_open {s : Shell} (h : s.closed = false) (c : Command) :
    (s.obey c).2 = s.beats (.execute c :: s.afterBeats c) := by
  have hdone : (s.beat (.execute c)).closed = false := (s.closed_beat _).trans h
  simp only [beats_cons, afterBeats, obey]
  simp only [beat] at hdone ⊢
  cases he : s.execute c with
  | mk result done =>
    rw [he] at hdone
    cases result with
    | error t => rfl
    | ok flow =>
      cases flow with
      | quit => rfl
      | goOn =>
        dsimp only
        split
        · exact congrArg Prod.snd (@wait_of_open (done.beat .hush) hdone _ _)
        · rfl

theorem readLine_of_open {s : Shell} (h : s.closed = false) (line : Bytes) :
    (s.readLine line).2 = s.beats (s.lineBeats line) := by
  unfold readLine lineBeats
  cases Utf8.decode? line with
  | none => rfl
  | some text =>
    dsimp only
    cases Command.parse text with
    | error e => rfl
    | ok command? =>
      cases command? with
      | none => rfl
      | some c => exact obey_of_open h c

theorem runEntries_of_open {s : Shell} (h : s.closed = false) (entries : List Entry) :
    (s.runEntries entries).2 = s.beats (s.entriesBeats entries) := by
  induction entries generalizing s with
  | nil => exact congrArg Prod.snd (wait_of_open h _ _)
  | cons entry rest ih =>
    cases entry with
    | happening happened => exact @ih (s.happen happened) h
    | line line =>
      have hread := readLine_of_open h line
      have hnext : (s.readLine line).2.closed = false := by rw [hread, closed_beats, h]
      rw [runEntries, entriesBeats]
      cases hl : s.readLine line with
      | mk result next =>
        rw [hl] at hread hnext
        cases result with
        | error t => exact hread
        | ok flow =>
          cases flow with
          | quit => exact hread
          | goOn =>
            rw [beats_append, ← hread]
            exact ih hnext

theorem perform_of_open {s : Shell} (h : s.closed = false) (act : Act) :
    s.perform act = s.beats (s.actBeats act) := by
  cases act with
  | execute c => rfl
  | run input => exact runEntries_of_open h _
  | happening happened => rfl

/-- Whatever is done with a shell, it comes to the beats that it is made of. -/
theorem performAll_of_open {s : Shell} (h : s.closed = false) (acts : List Act) :
    s.performAll acts = s.beats (s.actsBeats acts) := by
  induction acts generalizing s with
  | nil => rfl
  | cons act rest ih =>
    have hact := perform_of_open h act
    have hnext : (s.perform act).closed = false := by rw [hact, closed_beats, h]
    calc s.performAll (act :: rest) = (s.perform act).performAll rest := rfl
      _ = (s.perform act).beats ((s.perform act).actsBeats rest) := ih hnext
      _ = s.beats (s.actsBeats (act :: rest)) := by rw [actsBeats, beats_append, ← hact]

/-! A run that is not told to quit ends in an echo. -/

theorem goOn_ne_quit (p : Progress Unit) : (goOn p).1 ≠ .ok .quit := by
  obtain ⟨result, t⟩ := p
  cases result <;> simp [goOn, Except.map]

theorem eq_quit_of_execute {s : Shell} {c : Command} (h : (s.execute c).1 = .ok .quit) :
    c = .quit := by
  cases c with
  | quit => rfl
  | run line =>
    simp only [execute, run] at h
    split at h
    · cases h
    · exact absurd h (goOn_ne_quit _)
  | openFile path =>
    simp only [execute] at h
    split at h
    · cases h
    · cases h
  | goto pos => cases h
  | present =>
    simp only [execute, present] at h
    split at h
    · cases h
    · cases h
    · exact absurd h (goOn_ne_quit _)
  | send | region | last | buffer | load | switch | help => exact absurd h (goOn_ne_quit _)

theorem eq_quit_of_obey {s : Shell} {c : Command} (h : (s.obey c).1 = .ok .quit) :
    c = .quit := by
  unfold obey at h
  split at h
  · exact absurd h (goOn_ne_quit _)
  · rename_i he
    exact eq_quit_of_execute (congrArg Prod.fst he)
  · split at h
    · exact absurd h (goOn_ne_quit _)
    · exact absurd h (goOn_ne_quit _)

theorem isQuit_of_readLine {s : Shell} {line : Bytes} (h : (s.readLine line).1 = .ok .quit) :
    (Entry.line line).isQuit = true := by
  unfold readLine at h
  cases hd : Utf8.decode? line with
  | none => simp [hd] at h
  | some text =>
    simp only [hd] at h
    cases hp : Command.parse text with
    | error e =>
      rw [hp] at h
      exact absurd h (goOn_ne_quit _)
    | ok command? =>
      cases command? with
      | none => simp [hp] at h
      | some c =>
        rw [hp] at h
        obtain rfl : c = .quit := eq_quit_of_obey h
        rw [Entry.isQuit, hd, Option.map_some, hp]

theorem waitBeats_ending (limit left : Nat) (s : Shell) :
    ∃ earlier, waitBeats limit left s = earlier ++ [.echo] := by
  fun_induction waitBeats limit left s with
  | case1 | case3 | case4 => exact ⟨[], rfl⟩
  | case2 => exact ⟨[_, _], rfl⟩
  | case5 s told _ _ _ left ih =>
    obtain ⟨earlier, hearlier⟩ := ih
    exact ⟨.echo :: .pause 1 :: earlier, by rw [hearlier]; rfl⟩

theorem entriesBeats_ending {s : Shell} {entries : List Entry}
    (hquit : ∀ entry ∈ entries, entry.isQuit = false) (hok : (s.runEntries entries).1 = .ok ()) :
    ∃ earlier, s.entriesBeats entries = earlier ++ [.echo] := by
  induction entries generalizing s with
  | nil => exact waitBeats_ending _ _ s
  | cons entry rest ih =>
    have hrest : ∀ entry ∈ rest, entry.isQuit = false := fun e he => hquit e (.tail _ he)
    cases entry with
    | happening happened =>
      obtain ⟨earlier, hearlier⟩ := ih hrest hok
      exact ⟨.happening happened :: earlier, by rw [entriesBeats, hearlier]; rfl⟩
    | line line =>
      rw [runEntries] at hok
      rw [entriesBeats]
      cases hl : s.readLine line with
      | mk result next =>
        rw [hl] at hok
        cases result with
        | error t => cases hok
        | ok flow =>
          cases flow with
          | quit =>
            have hisQuit := isQuit_of_readLine (congrArg Prod.fst hl)
            rw [hquit _ (.head _)] at hisQuit
            cases hisQuit
          | goOn =>
            obtain ⟨earlier, hearlier⟩ := ih hrest hok
            refine ⟨s.lineBeats line ++ earlier, ?_⟩
            dsimp only
            rw [hearlier, List.append_assoc]

end Shell
end Parley
