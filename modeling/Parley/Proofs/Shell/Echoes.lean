import Parley.Proofs.Shell.Runs

/-! What a shell echoes of a session is what the session printed, from the beginning and without a
gap. The shell only remembers how many characters it has echoed; the invariant is that these are the
ones in front (`Faithful`). A quiet beat keeps it because transcripts only grow and a new session
has a new number; an echo keeps it because it goes on where the last one stopped. -/
namespace Parley.Shell

open Desk (Leads)

/-- What was echoed of each session is the front of its transcript, and the shell knows how long
that is for the recorded one. -/
structure Faithful (s : Shell) : Prop where
  ordered : s.desk.Ordered
  told : ∀ id, s.echoedText id <+: (s.desk.transcriptOf id).text
  counted : ∀ r, s.desk.registry.recorded = some r →
    s.seen r.handle.id = (s.echoedText r.handle.id).length
  untold : ∀ id, s.desk.registry.nextId ≤ id → s.echoedText id = [] ∧ s.seen id = 0

/-- Nothing was echoed at a desk where nothing was launched. -/
theorem faithful_fresh {s : Shell} (ordered : s.desk.Ordered)
    (unrecorded : s.desk.registry.recorded = none) (echoed : s.echoed = none)
    (printed : s.printed = []) : s.Faithful := by
  have htext : ∀ id, s.echoedText id = [] := fun id => by rw [echoedText, printed]; rfl
  have hseen : ∀ id, s.seen id = 0 := fun id => by rw [seen, echoed]
  refine ⟨ordered, fun id => ?_, fun r hr => ?_, fun id _ => ⟨htext id, hseen id⟩⟩
  · rw [htext]
    exact List.nil_prefix
  · rw [unrecorded] at hr
    cases hr

theorem Quiet.seen {s t : Shell} (h : Quiet s t) (id : Nat) : t.seen id = s.seen id := by
  rw [Shell.seen, h.echoed, ← Shell.seen]

theorem Faithful.quiet {s t : Shell} (h : s.Faithful) (q : Quiet s t) : t.Faithful where
  ordered := q.leads.ordered h.ordered
  told id := by
    rw [q.text]
    exact (h.told id).trans (q.leads.grows _)
  counted r hr := by
    rw [q.seen, q.text]
    rcases q.leads.recorded with same | ⟨new, hnew, hid⟩
    · exact h.counted r (same ▸ hr)
    · -- A session new to the shell has a number under which nothing was echoed.
      obtain rfl : new = r := Option.some.inj (hnew.symm.trans hr)
      obtain ⟨htext, hseen⟩ := h.untold _ hid
      rw [htext, hseen]
      rfl
  untold id hid := by
    rw [q.seen, q.text]
    exact h.untold id (Nat.le_trans q.leads.nextId hid)

/-- An echo of a session: the rest of its transcript is printed and counted. -/
structure Tells (s t : Shell) (r : Session) : Prop where
  desk : t.desk = s.desk
  echoed : t.echoed = some (r.handle.id,
    s.seen r.handle.id + ((s.desk.pool.transcript r.process).text.drop (s.seen r.handle.id)).length)
  text : ∀ id, t.echoedText id = s.echoedText id ++
    if r.handle.id = id then (s.desk.pool.transcript r.process).text.drop (s.seen r.handle.id)
    else []

theorem beat_echo_of_none {s : Shell} (h : s.desk.registry.recorded = none) :
    s.beat .echo = s := by
  have hbuffer : s.sessionBuffer? = none := by
    rw [sessionBuffer?, Desk.handle?, Registry.handle?, h]
    rfl
  rw [beat, echo, hbuffer]

theorem sessionBuffer?_of_recorded {s : Shell} (h : s.desk.Shown) {r : Session}
    (hr : s.desk.registry.recorded = some r) :
    ∃ b, s.sessionBuffer? = some (r.handle, b) ∧ b.source = .process r.process := by
  obtain ⟨b, hb, hsource⟩ := Option.map_eq_some_iff.1 (h r hr)
  refine ⟨b, ?_, hsource⟩
  rw [sessionBuffer?, Desk.handle?, Registry.handle?, hr]
  simp [hb]

theorem printedText_echo (sessionId : Nat) (spans : Spans) :
    printedText none [Piece.echo sessionId spans] = spans.text := List.append_nil _

theorem echoedText_print (s : Shell) (sessionId : Nat) (spans : Spans) (id : Nat) :
    printedText none ((s.printed ++ [Piece.echo sessionId spans]).filter (·.isEcho id)) =
      s.echoedText id ++ if sessionId = id then spans.text else [] := by
  rw [List.filter_append, printedText_append, ← echoedText]
  by_cases h : sessionId = id
  · have hpiece : [Piece.echo sessionId spans].filter (·.isEcho id) =
        [Piece.echo sessionId spans] := List.filter_cons_of_pos (by simp [Piece.isEcho, h])
    rw [hpiece, printedText_echo, if_pos h]
  · have hpiece : [Piece.echo sessionId spans].filter (·.isEcho id) = [] :=
      List.filter_cons_of_neg (by simp [Piece.isEcho, h])
    rw [hpiece, if_neg h]
    rfl

theorem tells_echo {s : Shell} (hopen : s.closed = false) (hshown : s.desk.Shown) {r : Session}
    (hr : s.desk.registry.recorded = some r) : Tells s (s.beat .echo) r := by
  obtain ⟨b, hbuffer, hsource⟩ := sessionBuffer?_of_recorded hshown hr
  have hrest : ((b.source.transcript s.desk.outputs).since (s.seen r.handle.id)).text =
      (s.desk.pool.transcript r.process).text.drop (s.seen r.handle.id) := by
    rw [hsource]
    exact Spans.text_since _ _
  simp only [beat, echo, hbuffer, print_of_open hopen]
  split
  · rename_i hnone
    have hnil := List.eq_nil_of_length_eq_zero hnone
    rw [hrest] at hnil
    refine ⟨rfl, by simp [hrest], fun id => ?_⟩
    rw [hnil]
    simp [echoedText]
  · refine ⟨rfl, by simp [hrest], fun id => ?_⟩
    rw [← hrest]
    exact s.echoedText_print _ _ id

theorem Faithful.tells {s t : Shell} (h : s.Faithful) {r : Session}
    (hr : s.desk.registry.recorded = some r) (htells : Tells s t r) :
    t.echoedText r.handle.id = (s.desk.pool.transcript r.process).text := by
  have htold := h.told r.handle.id
  rw [h.ordered.transcriptOf hr] at htold
  rw [htells.text, if_pos rfl, h.counted r hr]
  exact List.prefix_iff_eq_append.mp htold

theorem Faithful.told_by {s t : Shell} (h : s.Faithful) {r : Session}
    (hr : s.desk.registry.recorded = some r) (htells : Tells s t r) : t.Faithful := by
  have hall := h.tells hr htells
  have hother : ∀ id, r.handle.id ≠ id → t.echoedText id = s.echoedText id := by
    intro id hid
    rw [htells.text, if_neg hid, List.append_nil]
  refine ⟨htells.desk ▸ h.ordered, fun id => ?_, fun r' hr' => ?_, fun id hid => ?_⟩
  · rw [htells.desk]
    by_cases hid : r.handle.id = id
    · subst hid
      have hwhole : t.echoedText r.handle.id = (s.desk.transcriptOf r.handle.id).text := by
        rw [hall, h.ordered.transcriptOf hr]
      exact hwhole ▸ List.prefix_refl _
    · rw [hother id hid]
      exact h.told id
  · rw [htells.desk, hr] at hr'
    obtain rfl := Option.some.inj hr'
    rw [htells.text, if_pos rfl, List.length_append, ← h.counted r hr, seen, htells.echoed]
    exact if_pos rfl
  · rw [htells.desk] at hid
    have hlt := h.ordered.id_lt hr
    have hne : r.handle.id ≠ id := by omega
    refine ⟨(hother id hne).trans (h.untold id hid).1, ?_⟩
    rw [seen, htells.echoed]
    exact if_neg hne

theorem Faithful.beat {s : Shell} (h : s.Faithful) (hopen : s.closed = false) (b : Beat) :
    (s.beat b).Faithful := by
  by_cases hb : b = .echo
  · subst hb
    cases hr : s.desk.registry.recorded with
    | none =>
      rw [beat_echo_of_none hr]
      exact h
    | some r => exact h.told_by hr (tells_echo hopen h.ordered.shown hr)
  · exact h.quiet (s.quiet_beat hb)

theorem Faithful.beats {s : Shell} (h : s.Faithful) (hopen : s.closed = false)
    (beats : List Beat) : (s.beats beats).Faithful := by
  induction beats generalizing s with
  | nil => exact h
  | cons b rest ih => exact ih (h.beat hopen b) ((s.closed_beat b).trans hopen)

/-- Whatever is done with a shell whose output is open, it comes to beats; and after any beats, with
the sessions printing at any moment between two of them, what was echoed of a session is the front of
what it printed, and an echo makes it all that the recorded session printed. -/
theorem echoes_of_beats (launcher : Interpreter.Launcher) (config : Config) (editor : Editor)
    (directory : Bytes) (files : Files) (patience : Patience) (arrivals : List (List Happening)) :
    let start : Shell :=
      { desk := .fresh launcher config editor directory, files, patience, arrivals }
    (∀ acts, start.performAll acts = start.beats (start.actsBeats acts)) ∧
      ∀ beats,
        let s := start.beats beats
        (∀ id, s.echoedText id <+: (s.desk.transcriptOf id).text) ∧
          ∃ told, s.echo = (.ok (), told) ∧ told.desk = s.desk ∧
            ∀ r, s.desk.registry.recorded = some r →
              s.desk.transcriptOf r.handle.id = s.desk.pool.transcript r.process ∧
                told.echoedText r.handle.id = (s.desk.pool.transcript r.process).text := by
  intro start
  have hstart : start.Faithful :=
    faithful_fresh (Desk.ordered_fresh launcher config editor directory) rfl rfl rfl
  refine ⟨performAll_of_open rfl, fun beats => ?_⟩
  have hs : (start.beats beats).Faithful := hstart.beats rfl beats
  have hopen : (start.beats beats).closed = false := start.closed_beats beats
  refine ⟨hs.told, (start.beats beats).beat .echo, echo_of_open hopen, (echo_keeps _).1, ?_⟩
  intro r hr
  exact ⟨hs.ordered.transcriptOf hr, hs.tells hr (tells_echo hopen hs.ordered.shown hr)⟩

/-- Every launch succeeds, and the interpreter prints nothing on its own. -/
def silently : Interpreter.Launcher := fun _ _ => .ok { opening := some [] }

/-- The interpreter exits during a pause, and what it printed arrives during the next. -/
def lastWords : List (List Happening) :=
  [[{ events := [.exit 0] }], [{ events := [.data (Utf8.encode "bye".toList), .endOfOutput] }]]

/-- What a shell does that was told to send something, until it notices the exit. -/
def exitNoticed : List Beat := [.execute (.send "x".toList false), .hush, .echo, .pause 1, .echo]

def opened : Shell := { desk := .fresh silently {} {} [], files := ⟨[], []⟩ }

/-- After the exit was noticed, the last words are echoed still. -/
theorem echoes_of_beats_exited :
    let start := { opened with arrivals := lastWords }
    let acts := [Act.run [.octets (Utf8.encode "send x\n".toList)]]
    let s := start.beats (exitNoticed ++ [.pause 10])
    start.performAll acts = start.beats (start.actsBeats acts) ∧
      start.actsBeats acts = exitNoticed ++ [.pause 10, .echo] ++ [.echo, .pause 10, .echo] ∧
      (start.beats exitNoticed).desk.isAlive = false ∧
      (start.beats exitNoticed).echoedText 1 = [] ∧
      ∃ told, s.echo = (.ok (), told) ∧
        told.echoedText 1 = "bye\nProcess tsun finished\n".toList := by
  intro start acts s
  obtain ⟨hacts, hbeats⟩ := echoes_of_beats silently {} {} [] ⟨[], []⟩ {} lastWords
  obtain ⟨-, told, hecho, -, htold⟩ := hbeats (exitNoticed ++ [.pause 10])
  have hwhole := (htold ⟨⟨1, "*Typescript*".toList⟩, 0⟩ (by decide +kernel)).2
  dsimp only at hwhole
  refine ⟨hacts acts, by decide +kernel, by decide +kernel, by decide +kernel, told, hecho, ?_⟩
  rw [hwhole]
  decide +kernel

end Parley.Shell
