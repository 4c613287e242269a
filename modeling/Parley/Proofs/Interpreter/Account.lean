import Parley.Proofs.Interpreter.Growth
import Parley.Proofs.Utf8.Stream

/-! What a transcript holds of what a pump has read. It is the spans that the filter gives for the
texts that the decoder gives, read by read; once the output has ended, what the decoder held back
and the notice come last (`transcript_foldl_hear`). -/
namespace Parley

namespace Terminal.Filter

def applyAll (f : Filter) : List Text → Filter × Spans
  | [] => (f, [])
  | chunk :: rest =>
    (((f.apply chunk).1.applyAll rest).1, (f.apply chunk).2 ++ ((f.apply chunk).1.applyAll rest).2)

@[simp] theorem applyAll_nil (f : Filter) : f.applyAll [] = (f, []) := rfl

theorem applyAll_append (f : Filter) (a b : List Text) :
    f.applyAll (a ++ b) =
      (((f.applyAll a).1.applyAll b).1, (f.applyAll a).2 ++ ((f.applyAll a).1.applyAll b).2) := by
  induction a generalizing f with
  | nil => rfl
  | cons chunk rest ih => simp [applyAll, ih]

theorem applyAll_singleton (f : Filter) (chunk : Text) : f.applyAll [chunk] = f.apply chunk := by
  simp [applyAll]

end Terminal.Filter

namespace Interpreter

open Terminal (Display Filter)

namespace Reading

def bytes? : Reading → Option Bytes
  | data bytes => if bytes = [] then none else some bytes
  | failed _ => none

theorem bytes?_of_isEnd {r : Reading} (h : r.isEnd = true) : r.bytes? = none := by
  cases r with
  | data bytes => exact if_pos (List.isEmpty_iff.mp h)
  | failed reason => rfl

theorem bytes?_data {bytes : Bytes} (h : bytes ≠ []) : (data bytes).bytes? = some bytes := if_neg h

end Reading

/-- The texts that some readings give. What the decoder still holds comes out at the end of the
output only. -/
def textsOf (readings : List Reading) : List Text :=
  let fed := ({} : Utf8.Decoder).feedAll (readings.filterMap Reading.bytes?)
  if readings.any Reading.isEnd && fed.1.finish ≠ [] then fed.2 ++ [fed.1.finish] else fed.2

/-- All that is appended to the transcript of a program for some readings. -/
def account (program : Text) (mode : Display) (readings : List Reading) : Spans :=
  ((Filter.ofMode mode).applyAll (textsOf readings)).2 ++
    if readings.any Reading.isEnd then [⟨finishedNotice program, .plain⟩] else []

/-- Readings of which none comes after the end of the output. -/
def Orderly (readings : List Reading) : Prop := ∀ r ∈ readings.dropLast, r.isEnd = false

namespace Pump

/-- A pump after some reads, all of them data. -/
theorem foldl_receive_eq (p : Pump) (reads : List Bytes) :
    reads.foldl receive p =
      { p with
        decoder := (p.decoder.feedAll reads).1
        filter := (p.filter.applyAll (p.decoder.feedAll reads).2).1
        transcript := p.transcript.append (p.filter.applyAll (p.decoder.feedAll reads).2).2 } := by
  induction reads generalizing p with
  | nil => rfl
  | cons read rest ih =>
    rw [List.foldl_cons, ih]
    simp only [receive, present, Utf8.Decoder.feedAll_cons, Filter.applyAll,
      Transcript.append_append]

theorem flush_eq (p : Pump) :
    p.flush.transcript = p.transcript.append
      (p.filter.applyAll (if p.decoder.finish ≠ [] then [p.decoder.finish] else [])).2 := by
  unfold flush
  by_cases h : p.decoder.finish = []
  · simp [h]
  · simp [h, present, Filter.applyAll_singleton]

theorem foldl_hear_data (p : Pump) {reads : List Bytes} (h : [] ∉ reads) :
    (reads.map Reading.data).foldl hear p = reads.foldl receive p := by
  induction reads generalizing p with
  | nil => rfl
  | cons read rest ih =>
    obtain ⟨hread, hrest⟩ := List.ne_and_not_mem_of_not_mem_cons h
    rw [List.map_cons, List.foldl_cons, p.hear_data hread.symm, ih _ hrest, List.foldl_cons]

end Pump

/-! Readings in order are data, and the end of the output at most once after them. -/

theorem orderly_cases {readings : List Reading} (h : Orderly readings) :
    ∃ reads : List Bytes, [] ∉ reads ∧ (readings = reads.map Reading.data ∨
      ∃ r, r.isEnd = true ∧ readings = reads.map Reading.data ++ [r]) := by
  induction readings with
  | nil => exact ⟨[], List.not_mem_nil, .inl rfl⟩
  | cons r rest ih =>
    have hrest : rest ≠ [] → r.isEnd = false ∧ Orderly rest := by
      intro hne
      rwa [Orderly, List.dropLast_cons_of_ne_nil hne, List.forall_mem_cons] at h
    rcases r.isEnd_or_data with hend | ⟨bytes, hbytes, rfl⟩
    · -- Nothing comes after the end of the output.
      have hnone : rest = [] := by
        by_contra hne
        rw [(hrest hne).1] at hend
        cases hend
      exact ⟨[], List.not_mem_nil, .inr ⟨r, hend, by rw [hnone]; rfl⟩⟩
    · by_cases hne : rest = []
      · exact ⟨[bytes], by simpa using hbytes, .inl (by rw [hne]; rfl)⟩
      · obtain ⟨reads, hfull, hreads⟩ := ih (hrest hne).2
        refine ⟨bytes :: reads, List.not_mem_cons_of_ne_of_not_mem hbytes.symm hfull, ?_⟩
        rcases hreads with heq | ⟨last, hlast, heq⟩
        · exact .inl (by rw [heq, List.map_cons])
        · exact .inr ⟨last, hlast, by rw [heq, List.map_cons, List.cons_append]⟩

section
variable {reads : List Bytes} (h : [] ∉ reads)
include h

theorem filterMap_data : (reads.map Reading.data).filterMap Reading.bytes? = reads := by
  induction reads with
  | nil => rfl
  | cons read rest ih =>
    obtain ⟨hread, hrest⟩ := List.ne_and_not_mem_of_not_mem_cons h
    rw [List.map_cons, List.filterMap_cons_some (Reading.bytes?_data hread.symm), ih hrest]

theorem isEnd_of_mem_data : ∀ r ∈ reads.map Reading.data, r.isEnd = false := by
  rw [List.forall_mem_map]
  exact fun read hmem => Reading.isEnd_data fun hnil => h (hnil ▸ hmem)

theorem any_isEnd_data : (reads.map Reading.data).any Reading.isEnd = false := by
  simpa using isEnd_of_mem_data h

theorem textsOf_data :
    textsOf (reads.map Reading.data) = (({} : Utf8.Decoder).feedAll reads).2 := by
  rw [textsOf, filterMap_data h, any_isEnd_data h]
  rfl

theorem textsOf_end {r : Reading} (hend : r.isEnd = true) :
    textsOf (reads.map Reading.data ++ [r]) =
      (({} : Utf8.Decoder).feedAll reads).2 ++
        if (({} : Utf8.Decoder).feedAll reads).1.finish ≠ [] then
          [(({} : Utf8.Decoder).feedAll reads).1.finish] else [] := by
  have hread : [r].filterMap Reading.bytes? = [] := by simp [Reading.bytes?_of_isEnd hend]
  simp only [textsOf, List.filterMap_append, filterMap_data h, List.any_append, any_isEnd_data h,
    hread, List.append_nil]
  by_cases hfinish : (({} : Utf8.Decoder).feedAll reads).1.finish = [] <;> simp [hend, hfinish]

end

/-- What a pump has told by the time that it has read all this. -/
theorem Pump.transcript_foldl_hear (program : Text) (mode : Display) (status : Status)
    {readings : List Reading} (h : Orderly readings) :
    (readings.foldl hear { program, filter := .ofMode mode, status }).transcript =
      ({} : Transcript).append (account program mode readings) := by
  obtain ⟨reads, hfull, rfl | ⟨r, hr, rfl⟩⟩ := orderly_cases h
  · rw [foldl_hear_data _ hfull, foldl_receive_eq, account, textsOf_data hfull,
      any_isEnd_data hfull]
    simp
  · rw [List.foldl_append, foldl_hear_data _ hfull, List.foldl_cons, List.foldl_nil,
      hear_of_isEnd hr, finish, Transcript.appendPlain, flush_eq, foldl_receive_eq, account,
      textsOf_end hfull hr, Filter.applyAll_append]
    simp [hr, Transcript.append_append]

end Interpreter
end Parley
