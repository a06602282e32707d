import HomeControl.Proofs.Protocol.Frames
import Mathlib.Data.List.DropRight

/-!
# What a reader holds

A reader leaves marks: one for each byte that it takes from the stream, one for each frame that it gives
out. Between two reads it holds the bytes that it has taken since the last line feed and the last frame,
or nothing if it skips the rest of a line that has grown too long (`LineReader.Holds`). Every way through
a call preserves this, and so do calls that are given up while they wait (`Intake.Reached.buffer_exact`).
-/

namespace HomeControl

/-- What a reader does. -/
inductive Mark where
  /-- It takes a byte from the stream. -/
  | took (b : UInt8)
  /-- It gives out a frame. -/
  | gave (frame : Frame)

namespace Mark

/-- Whether this goes on with a line. -/
def isOfLine : Mark → Bool
  | took b => b != lineFeed
  | gave _ => false

/-- The byte that has been taken, unless it is a frame that has been given out. -/
def byte? : Mark → Option UInt8
  | took b => some b
  | gave _ => none

/-- To take some bytes and to give out a frame then, if there is one. -/
def marks (x : Bytes) (frame : Option Frame) : List Mark :=
  x.map took ++ frame.toList.map gave

/-- All bytes that have been taken. -/
def taken (log : List Mark) : Bytes :=
  log.filterMap byte?

/-- The bytes that have been taken since the last line feed and the last frame. -/
def unfinished (log : List Mark) : Bytes :=
  taken (log.rtakeWhile isOfLine)

variable {log : List Mark} {x y : Bytes} {frame : Option Frame}

theorem marks_append (x y : Bytes) (frame : Option Frame) :
    marks (x ++ y) frame = marks x none ++ marks y frame := by
  simp [marks]

theorem marks_none (x : Bytes) : marks x none = x.map took := by
  simp [marks]

theorem taken_marks (log : List Mark) (x : Bytes) (frame : Option Frame) :
    taken (log ++ marks x frame) = taken log ++ x := by
  have hbytes : taken (x.map took) = x := by
    simp [taken, List.filterMap_map, Function.comp_def, byte?]
  have hframe : taken (frame.toList.map gave) = [] := by
    simp [taken, byte?]
  rw [marks, taken, List.filterMap_append, List.filterMap_append]
  change taken log ++ (taken (x.map took) ++ taken (frame.toList.map gave)) = taken log ++ x
  rw [hbytes, hframe, List.append_nil]

/-- Bytes of a line are unfinished until the line ends. -/
theorem unfinished_took (hx : lineFeed ∉ x) : unfinished (log ++ x.map took) = unfinished log ++ x := by
  induction x using List.reverseRecOn with
  | nil => simp
  | append_singleton x b ih =>
    have hb : lineFeed ∉ x ∧ b ≠ lineFeed := by simpa [not_or, eq_comm] using hx
    have hline : isOfLine (took b) = true := by simpa [isOfLine] using hb.2
    rw [List.map_append, List.map_singleton, ← List.append_assoc, unfinished,
      List.rtakeWhile_concat_pos _ _ _ hline, taken, List.filterMap_append]
    change unfinished (log ++ x.map took) ++ [b] = _
    rw [ih hb.1, List.append_assoc]

theorem unfinished_concat {m : Mark} (hm : m.isOfLine = false) : unfinished (log ++ [m]) = [] := by
  rw [unfinished, List.rtakeWhile_concat_neg _ _ _ (by simp [hm])]
  rfl

theorem unfinished_gave (frame : Frame) : unfinished (log ++ marks x (some frame)) = [] := by
  rw [marks, ← List.append_assoc]
  exact unfinished_concat rfl

/-- At a line feed nothing is unfinished, whether a frame is given out or not. -/
theorem unfinished_line : unfinished (log ++ marks (x ++ [lineFeed]) frame) = [] := by
  cases frame with
  | none =>
    rw [marks_none, List.map_append, ← List.append_assoc]
    exact unfinished_concat rfl
  | some frame => exact unfinished_gave frame

/-- The last line has grown too long, which has been reported, and has not ended yet. -/
def Overrun (log : List Mark) : Prop :=
  ∃ (before : List Mark) (b : UInt8) (x : Bytes),
    log = before ++ took b :: gave .tooLong :: x.map took ∧ b ≠ lineFeed ∧ lineFeed ∉ x

theorem Overrun.took (h : Overrun log) (hx : lineFeed ∉ x) : Overrun (log ++ marks x none) := by
  obtain ⟨before, b, y, rfl, hb, hy⟩ := h
  refine ⟨before, b, y ++ x, ?_, hb, by simp [hx, hy]⟩
  simp [marks]

/-- A line that is reported as too long has not ended. -/
theorem overrun_tooLong (hx : lineFeed ∉ x) (hne : x ≠ []) : Overrun (log ++ marks x (some .tooLong)) := by
  obtain ⟨y, b, rfl⟩ : ∃ y b, x = y ++ [b] := ⟨_, _, (List.dropLast_append_getLast hne).symm⟩
  refine ⟨log ++ y.map .took, b, [], by simp [marks], ?_, by simp⟩
  rintro rfl
  simp at hx

end Mark

namespace LineReader

open HomeControl.Mark

variable {r r' : LineReader} {limit : Nat} {log : List Mark}

/-- A reader between two reads, after all that it has done. -/
structure Holds (r : LineReader) (limit : Nat) (log : List Mark) : Prop extends r.Sound where
  limit : r.limit = limit
  line : r.skipping = false → r.pending.toList = unfinished log
  overrun : r.skipping = true → Overrun log

theorem holds_new (limit : Nat) : ({ limit } : LineReader).Holds limit [] :=
  ⟨sound_new limit, rfl, fun _ => rfl, nofun⟩

/-- One look takes the data up to its first line feed, or all of it. -/
theorem absorb_holds (h : r.Holds limit log) (data : Bytes) :
    ∃ x, data = x ++ (r.absorb data).2.1 ∧
      (r.absorb data).1.Holds limit (log ++ marks x (r.absorb data).2.2) := by
  by_cases hlf : lineFeed ∈ data
  · obtain ⟨x, y, rfl, hx⟩ := List.eq_append_cons_of_mem hlf
    rw [absorb_line h.toSound hx]
    exact ⟨x ++ [lineFeed], by simp, sound_new _, h.limit, fun _ => unfinished_line.symm, nofun⟩
  · rw [absorb_part hlf]
    by_cases hs : r.skipping = true
    · rw [if_pos hs]
      refine ⟨data, by simp, h.toSound, h.limit, ?_, fun _ => (h.overrun hs).took hlf⟩
      intro hs'
      rw [hs] at hs'
      cases hs'
    · rw [if_neg hs]
      have hline := h.line (Bool.not_eq_true _ ▸ hs)
      split
      · rename_i hlong
        -- what it held keeps to the limit, so it is the data that goes beyond
        have hne : data ≠ [] := by
          rintro rfl
          have := h.short
          simp at hlong
          omega
        exact ⟨data, by simp, ⟨by simp, by simp, fun _ => rfl⟩, h.limit, nofun,
          fun _ => overrun_tooLong hlf hne⟩
      · rename_i hshort
        refine ⟨data, by simp, ⟨by simp [h.pending, hlf], Nat.not_lt.1 hshort, fun hs' => absurd hs' hs⟩,
          h.limit, fun _ => ?_, fun hs' => absurd hs' hs⟩
        rw [marks_none, unfinished_took hlf, ← hline]
        simp

/-- A read takes the data up to what it leaves, and the reader holds what is unfinished then. -/
theorem read_holds (h : r.Holds limit log) (data : Bytes) :
    ∃ x, data = x ++ (r.read data).2.1 ∧
      (r.read data).1.Holds limit (log ++ marks x (r.read data).2.2) := by
  obtain ⟨x, hdata, hlook⟩ := absorb_holds h data
  rw [read]
  generalize r.absorb data = look at hdata hlook ⊢
  obtain ⟨r₁, left, _ | frame⟩ := look
  · cases left with
    | nil => exact ⟨x, hdata, hlook⟩
    | cons b left =>
      obtain ⟨y, hleft, hagain⟩ := absorb_holds hlook (b :: left)
      refine ⟨x ++ y, ?_, ?_⟩
      · rw [List.append_assoc, ← hleft]
        exact hdata
      · rw [marks_append, ← List.append_assoc]
        exact hagain
  · cases left <;> exact ⟨x, hdata, hlook⟩

/-- So does a call, of all the chunks at hand. -/
theorem nextFrame_holds (h : r.Holds limit log) (chunks : List Bytes) :
    ∃ x, chunks.flatten = x ++ (r.nextFrame chunks).2.left.flatten ∧
      (r.nextFrame chunks).1.Holds limit (log ++ marks x (r.nextFrame chunks).2.frame?) := by
  induction chunks generalizing r log with
  | nil => exact ⟨[], rfl, by simpa [marks, nextFrame, Outcome.frame?] using h⟩
  | cons chunk chunks ih =>
    obtain ⟨x, hchunk, hread⟩ := read_holds h chunk
    have hnone := (read_handsOut h.toSound chunk).2
    rw [nextFrame]
    generalize r.read chunk = look at hchunk hread hnone ⊢
    obtain ⟨r₁, left, _ | frame⟩ := look
    · obtain ⟨y, hchunks, hnext⟩ := ih hread
      refine ⟨x ++ y, ?_, ?_⟩
      · have hleft : left = [] := hnone rfl
        have hx : chunk = x := by simpa [hleft] using hchunk
        rw [List.flatten_cons, hchunks, hx, List.append_assoc]
      · rw [marks_append, ← List.append_assoc]
        exact hnext
    · refine ⟨x, ?_, hread⟩
      cases left <;> simp [hchunk, Outcome.left]

/-- At the end of the stream the reader gives out what it holds. -/
theorem finish_holds (h : r.Holds limit log) : r.finish.1.Holds limit (log ++ marks [] r.finish.2) := by
  rw [finish]
  split
  · rename_i hnone
    have hlog : log ++ marks [] none = log := by simp [marks]
    refine ⟨⟨by simp, by simp, fun _ => rfl⟩, h.limit, ?_, ?_⟩
    · intro hs
      have hempty : r.pending = #[] := by simpa [show r.skipping = false from hs] using hnone
      rw [hlog, ← h.line hs, hempty]
    · intro hs
      rw [hlog]
      exact h.overrun hs
  · rename_i hlast
    have hs : r.skipping = false := by
      have hlast' : r.pending.toList ≠ [] ∧ r.skipping = false := by simpa using hlast
      exact hlast'.2
    refine ⟨⟨by simp, by simp, fun _ => rfl⟩, h.limit, fun _ => (unfinished_gave _).symm, ?_⟩
    intro hs'
    rw [show r.skipping = true from hs'] at hs
    cases hs

end LineReader

/-- The frame that a call has come to, if it has come to one. -/
def Arrival.frame? : Arrival → Option Frame
  | .frame f => some f
  | _ => none

namespace Intake

open HomeControl.Mark HomeControl.LineReader

/-- What is at hand before and not after. -/
def gone (before after : Bytes) : Bytes :=
  before.take (before.length - after.length)

theorem gone_append (x after : Bytes) : gone (x ++ after) after = x := by
  simp [gone]

/-- What the next call will do. -/
def nextMarks (i : Intake) : List Mark :=
  marks (gone i.chunks.flatten i.call.1.chunks.flatten) i.call.2.frame?

/-- A stream and its reader, after some bytes have arrived and the reader has done all this. -/
inductive Reached (limit : Nat) : Bytes → Intake → List Mark → Prop where
  | new : Reached limit [] { reader := { limit } } []
  | arrive {arrived : Bytes} {i : Intake} {log : List Mark} (chunk : Bytes)
      (h : Reached limit arrived i log) :
      Reached limit (arrived ++ chunk) { i with chunks := i.chunks ++ [chunk] } log
  /-- The stream ends. -/
  | close {arrived : Bytes} {i : Intake} {log : List Mark} (h : Reached limit arrived i log) :
      Reached limit arrived { i with ended := true } log
  /-- A call comes to a frame or to the end of the stream, or is given up when it has to wait. -/
  | call {arrived : Bytes} {i : Intake} {log : List Mark} (h : Reached limit arrived i log) :
      Reached limit arrived i.call.1 (log ++ i.nextMarks)
  /-- A call is given up after a look that has completed no frame. -/
  | look {arrived chunk : Bytes} {chunks : List Bytes} {i : Intake} {log : List Mark}
      (h : Reached limit arrived i log) (hc : i.chunks = chunk :: chunks)
      (hn : (i.reader.absorb chunk).2.2 = none) :
      Reached limit arrived
        { i with reader := (i.reader.absorb chunk).1, chunks := (i.reader.absorb chunk).2.1 :: chunks }
        (log ++ marks (gone chunk (i.reader.absorb chunk).2.1) none)

variable {i : Intake} {limit : Nat} {log : List Mark} {arrived : Bytes}

/-- A call takes what is gone after it, at the end of the stream as well. -/
theorem call_holds (h : i.reader.Holds limit log) :
    i.chunks.flatten = gone i.chunks.flatten i.call.1.chunks.flatten ++ i.call.1.chunks.flatten ∧
      i.call.1.reader.Holds limit (log ++ i.nextMarks) := by
  suffices hx : ∃ x, i.chunks.flatten = x ++ i.call.1.chunks.flatten ∧
      i.call.1.reader.Holds limit (log ++ marks x i.call.2.frame?) by
    obtain ⟨x, hdata, hholds⟩ := hx
    rw [nextMarks, hdata, gone_append]
    exact ⟨rfl, hholds⟩
  obtain ⟨x, hdata, hnext⟩ := nextFrame_holds h i.chunks
  refine ⟨x, ?_⟩
  rw [call]
  generalize i.reader.nextFrame i.chunks = next at hdata hnext ⊢
  obtain ⟨reader, f | _⟩ := next
  · exact ⟨hdata, hnext⟩
  · by_cases hended : i.ended = true
    · have hlast : reader.finish.1.Holds limit (log ++ marks x none ++ marks [] reader.finish.2) :=
        finish_holds hnext
      rw [List.append_assoc, ← marks_append, List.append_nil] at hlast
      simp only [hended, if_true]
      generalize reader.finish = last at hlast ⊢
      obtain ⟨reader', _ | f⟩ := last
      · exact ⟨hdata, hlast⟩
      · exact ⟨hdata, hlast⟩
    · simp only [hended]
      exact ⟨hdata, hnext⟩

/-- What a call comes to depends on the data at hand and on whether more may arrive. -/
theorem call_congr {j : Intake} (hn : i.reader.nextFrame i.chunks = j.reader.nextFrame j.chunks)
    (he : i.ended = j.ended) : i.call = j.call := by
  rw [call, call, hn, he]

theorem nextFrame_of_elapsed (he : i.call.2 = .elapsed) :
    i.reader.nextFrame i.chunks = (i.call.1.reader, .waiting) := by
  rw [call] at he ⊢
  generalize i.reader.nextFrame i.chunks = next at he ⊢
  obtain ⟨reader, f | _⟩ := next
  · cases he
  · by_cases hended : i.ended = true
    · simp only [hended, if_true] at he
      generalize reader.finish = last at he
      obtain ⟨reader', _ | f⟩ := last <;> cases he
    · simp only [hended]
      rfl

/-- To give up a call and to call again when more has arrived is to make the call then. -/
theorem call_of_elapsed (he : i.call.2 = .elapsed) (more : List Bytes) (ended : Bool) :
    ({ i.call.1 with chunks := more, ended } : Intake).call =
      ({ i with chunks := i.chunks ++ more, ended } : Intake).call := by
  refine call_congr ?_ rfl
  change i.call.1.reader.nextFrame more = i.reader.nextFrame (i.chunks ++ more)
  rw [nextFrame_append, nextFrame_of_elapsed he]

/-- However a stream is read, all that has arrived is taken or at hand, and the reader holds what is
unfinished. -/
theorem Reached.holds (h : Reached limit arrived i log) :
    arrived = taken log ++ i.chunks.flatten ∧ i.reader.Holds limit log := by
  induction h with
  | new => exact ⟨rfl, holds_new limit⟩
  | arrive chunk _ ih =>
    refine ⟨?_, ih.2⟩
    rw [ih.1]
    simp
  | close _ ih => exact ih
  | call _ ih =>
    obtain ⟨hdata, hholds⟩ := call_holds ih.2
    refine ⟨?_, hholds⟩
    rw [nextMarks, taken_marks, List.append_assoc, ← hdata, ih.1]
  | @look arrived chunk chunks i log _ hc hn ih =>
    obtain ⟨x, hdata, hholds⟩ := absorb_holds ih.2 chunk
    have hx : gone chunk (i.reader.absorb chunk).2.1 = x := by
      nth_rewrite 1 [hdata]
      exact gone_append x _
    rw [hn] at hholds
    rw [hx]
    refine ⟨?_, hholds⟩
    rw [taken_marks, List.flatten_cons, List.append_assoc, ← List.append_assoc x, ← hdata, ih.1, hc,
      List.flatten_cons]

/-- **What a reader holds.** Take any way to read a stream: chunks arrive, calls come to frames or to the
end, and calls are given up while they wait, for any limit on the length of a line. What the reader holds
between two reads has no line feed in it and keeps to the limit. While it skips the rest of a line it
holds nothing, and it only does so when the last line has grown too long, which has been reported, and
has not ended. Otherwise it holds exactly the bytes taken since the last line feed and the last frame.
All that has arrived has been taken or is still at hand, and to give up a call and to call again later,
when more has arrived, is to make that call later. -/
theorem Reached.buffer_exact (h : Reached limit arrived i log) :
    (lineFeed ∉ i.reader.pending.toList ∧ i.reader.pending.size ≤ limit) ∧
    (i.reader.skipping = true → i.reader.pending = #[] ∧ Overrun log) ∧
    (i.reader.skipping = false → i.reader.pending.toList = unfinished log) ∧
    arrived = taken log ++ i.chunks.flatten ∧
    (i.call.2 = .elapsed → ∀ more ended,
      ({ i.call.1 with chunks := more, ended } : Intake).call =
        ({ i with chunks := i.chunks ++ more, ended } : Intake).call) := by
  obtain ⟨harrived, hholds⟩ := h.holds
  refine ⟨⟨hholds.pending, ?_⟩, ?_, hholds.line, harrived, call_of_elapsed⟩
  · rw [← hholds.limit]
    exact hholds.short
  · intro hs
    exact ⟨hholds.toSound.skipping hs, hholds.overrun hs⟩

/-- Of a line in three chunks more than three bytes have come with the second; the call that skips the
rest of it is given up at the line feed, and the next one holds the byte that stands behind. -/
theorem buffer_exact_abandoned :
    let stream : Bytes := [97, 98, 99, 100, 101, 102, lineFeed, 103]
    ∃ i log, Reached 3 stream i log ∧ i.reader.skipping = false ∧ i.reader.pending.toList = [103] ∧
      log.filter (fun m => !m.byte?.isSome) = [.gave .tooLong] ∧ stream = taken log ++ i.chunks.flatten := by
  intro stream
  have hlong : Reached 3 [97, 98, 99, 100, 101] _ _ :=
    ((Reached.new.arrive [97, 98]).call.arrive [99, 100, 101]).call
  have hskipped : Reached 3 stream _ _ := ((hlong.arrive [102, lineFeed, 103]).look rfl rfl).call
  obtain ⟨-, -, hline, harrived, -⟩ := hskipped.buffer_exact
  exact ⟨_, _, hskipped, rfl, hline rfl, rfl, harrived⟩

end Intake

end HomeControl
