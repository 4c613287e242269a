import Parley.Proofs.Shell.Echoes

/-! What becomes of the output of a session that another one replaces. A run that is not told to
quit has echoed everything that the session recorded at its end has printed (`echoedText_of_run`).
Once a session was replaced, nothing more of it is echoed (`echoedText_of_replaced`): what it had
printed since the last echo is lost. So is the farewell of an interpreter that exits while the shell
waits for a line, if that line sends something (`farewell_lost`). -/
namespace Parley.Shell

open Desk (Leads)

theorem leads_beat (s : Shell) (b : Beat) : Leads s.desk (s.beat b).desk := by
  by_cases hb : b = .echo
  · subst hb
    have hdesk : (s.beat .echo).desk = s.desk := s.echo_keeps.1
    rw [hdesk]
    exact .refl _
  · exact (s.quiet_beat hb).leads

theorem echoedText_beat {s : Shell} (h : s.Faithful) (hopen : s.closed = false) {id : Nat}
    (hid : ∀ r, s.desk.registry.recorded = some r → r.handle.id ≠ id) (b : Beat) :
    (s.beat b).echoedText id = s.echoedText id := by
  by_cases hb : b = .echo
  · subst hb
    cases hr : s.desk.registry.recorded with
    | none => rw [beat_echo_of_none hr]
    | some r =>
      have htells := tells_echo hopen h.ordered.shown hr
      rw [htells.text, if_neg (hid r hr), List.append_nil]
  · exact (s.quiet_beat hb).text id

/-- Of a session that was replaced no more is echoed than before. -/
theorem echoedText_of_replaced {s : Shell} (h : s.Faithful) (hopen : s.closed = false) {id : Nat}
    (given : id < s.desk.registry.nextId)
    (hid : ∀ r, s.desk.registry.recorded = some r → r.handle.id ≠ id) (beats : List Beat) :
    (s.beats beats).echoedText id = s.echoedText id := by
  induction beats generalizing s with
  | nil => rfl
  | cons b rest ih =>
    have hleads := s.leads_beat b
    have hnext := ih (h.beat hopen b) ((s.closed_beat b).trans hopen)
      (Nat.lt_of_lt_of_le given hleads.nextId) (hleads.not_recorded given hid)
    rw [beats_cons, hnext, echoedText_beat h hopen hid b]

/-- A run that reads its input to the end has echoed all that the session recorded then printed. -/
theorem echoedText_of_run {s t : Shell} (h : s.Faithful) (hopen : s.closed = false)
    {input : List Supply} (hquit : ∀ entry ∈ Script.entries input, entry.isQuit = false)
    (hrun : s.runScript input = (.ok (), t)) {r : Session}
    (hr : t.desk.registry.recorded = some r) :
    t.echoedText r.handle.id = (t.desk.pool.transcript r.process).text := by
  have hok : (s.runEntries (Script.entries input)).1 = .ok () := congrArg Prod.fst hrun
  have ht : (s.runEntries (Script.entries input)).2 = t := congrArg Prod.snd hrun
  obtain ⟨earlier, hearlier⟩ := entriesBeats_ending hquit hok
  -- The last beat is an echo, made at the desk that the run leaves behind.
  have hlast : t = (s.beats earlier).beat .echo := by
    rw [← ht, runEntries_of_open hopen, hearlier, beats_append]
    rfl
  have hfaithful : (s.beats earlier).Faithful := h.beats hopen earlier
  have hopen' : (s.beats earlier).closed = false := (s.closed_beats earlier).trans hopen
  have hdesk : t.desk = (s.beats earlier).desk := by
    rw [hlast]
    exact (echo_keeps _).1
  rw [hdesk] at hr ⊢
  rw [hlast]
  exact hfaithful.tells hr (tells_echo hopen' hfaithful.ordered.shown hr)

/-! A run at whose second line the interpreter has exited. -/

def farewell : Happening := { events := [.data (Utf8.encode "bye".toList), .exit 0, .endOfOutput] }

/-- The interpreter exits between the two lines. -/
def exitBefore (line : String) : List Supply :=
  [.octets (Utf8.encode "run\n".toList), .happening farewell, .octets (Utf8.encode line.toList)]

/-- If the second line sends something, another session takes the place of the first before the
farewell was echoed; a line that sends nothing echoes it. -/
theorem farewell_lost :
    (opened.runScript (exitBefore "send x\n")).1.isOk = true ∧
      (opened.runScript (exitBefore "send x\n")).2.echoedText 1 = [] ∧
      ((opened.runScript (exitBefore "send x\n")).2.desk.transcriptOf 1).text =
        "bye\nProcess tsun finished\n".toList ∧
      (opened.runScript (exitBefore "goto 0\nsend x\n")).2.echoedText 1 =
        "bye\nProcess tsun finished\n".toList :=
  ⟨by decide +kernel, by decide +kernel, by decide +kernel, by decide +kernel⟩

end Parley.Shell
