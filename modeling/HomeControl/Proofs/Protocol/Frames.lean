import HomeControl.Proofs.Protocol.Pipe
import HomeControl.Shell.Terminal

/-!
# The frames of a stream

A stream is cut at its line feeds, and each piece is a frame: the line itself if it keeps to the limit,
else the notice that it is too long. What a reader holds of a line, or that it skips the rest of one,
says which frames are *due* on the data still to come; it hands out some of them and leaves the others
due (`HandsOut`). So over any chunks and any calls, those included that are given up while they wait,
the frames are those of the whole stream (`Intake.frames_of_stream`).
-/

namespace HomeControl

/-! ## Cutting a stream -/

namespace Terminal

variable {x y : Bytes}

theorem cut_of_not_mem (h : lineFeed ∉ x) : cut x = ([], x) := by
  induction x with
  | nil => rfl
  | cons b x ih =>
    have hb : lineFeed ≠ b ∧ lineFeed ∉ x := by simpa [not_or] using h
    simp [cut, ih hb.2, hb.1.symm]

theorem cut_line (h : lineFeed ∉ x) : cut (x ++ lineFeed :: y) = (x :: (cut y).1, (cut y).2) := by
  induction x with
  | nil => simp [cut]
  | cons b x ih =>
    have hb : lineFeed ≠ b ∧ lineFeed ∉ x := by simpa [not_or] using h
    simp [cut, ih hb.2, hb.1.symm]

end Terminal

namespace Frame

/-- The frame of a piece between line feeds. -/
def ofPiece (limit : Nat) (piece : Bytes) : Frame :=
  if piece.length ≤ limit then .line piece else .tooLong

/-- The frames of a whole stream: one for each line, and one for what follows the last line feed, if
anything does. -/
def split (limit : Nat) (stream : Bytes) : List Frame :=
  let (lines, tail) := Terminal.cut stream
  lines.map (ofPiece limit) ++ if tail.isEmpty then [] else [ofPiece limit tail]

variable {limit : Nat} {x y : Bytes}

@[simp] theorem split_nil (limit : Nat) : split limit [] = [] := rfl

theorem split_line (h : lineFeed ∉ x) :
    split limit (x ++ lineFeed :: y) = ofPiece limit x :: split limit y := by
  simp [split, Terminal.cut_line h]

theorem split_of_not_mem (h : lineFeed ∉ x) (hne : x ≠ []) : split limit x = [ofPiece limit x] := by
  simp [split, Terminal.cut_of_not_mem h, hne]

/-- What follows a line feed is split as if nothing had come before it. -/
theorem split_append (limit : Nat) (x y : Bytes) :
    split limit (x ++ lineFeed :: y) = split limit (x ++ [lineFeed]) ++ split limit y := by
  generalize hn : x.length = n
  induction n using Nat.strongRecOn generalizing x with
  | ind n ih =>
    by_cases hx : lineFeed ∈ x
    · obtain ⟨a, b, rfl, ha⟩ := List.eq_append_cons_of_mem hx
      have hlt : b.length < n := by
        rw [← hn]
        simp
        omega
      rw [List.append_assoc, List.append_assoc, List.cons_append, List.cons_append, split_line ha,
        split_line ha, ih b.length hlt b rfl, List.cons_append]
    · rw [split_line hx, split_line hx, split_nil, List.singleton_append]

example : split 2 [97, 97, 97, lineFeed, 98] = [.tooLong, .line [98]] := by decide

end Frame

namespace LineReader

open HomeControl.Frame

variable {r r' : LineReader} {x y : Bytes}

/-! ## What is due -/

/-- A reader between two reads. -/
structure Sound (r : LineReader) : Prop where
  /-- It holds the beginning of one line. -/
  pending : lineFeed ∉ r.pending.toList
  /-- It never holds more than its limit. -/
  short : r.pending.size ≤ r.limit
  /-- Of a line that it skips it holds nothing. -/
  skipping : r.skipping = true → r.pending = #[]

/-- What follows the first line feed. -/
def afterLine (bs : Bytes) : Bytes :=
  (bs.dropWhile (· != lineFeed)).drop 1

/-- The frames that are due if this is what is still to be read. -/
def due (r : LineReader) (later : Bytes) : List Frame :=
  if r.skipping then split r.limit (afterLine later) else split r.limit (r.pending.toList ++ later)

theorem sound_new (limit : Nat) : ({ limit } : LineReader).Sound :=
  ⟨by simp, by simp, by simp⟩

theorem due_new (limit : Nat) (stream : Bytes) :
    ({ limit } : LineReader).due stream = split limit stream := by
  simp [due]

theorem afterLine_line (h : lineFeed ∉ x) : afterLine (x ++ lineFeed :: y) = y := by
  rw [afterLine, (Pipe.cut_lineFeed h).2, List.drop_one, List.tail_cons]

theorem afterLine_append (h : lineFeed ∉ x) (y : Bytes) : afterLine (x ++ y) = afterLine y := by
  rw [afterLine, List.dropWhile_append_of_pos (Pipe.ne_lineFeed_of_not_mem h), afterLine]

/-- A line that has grown past the limit is one frame, whatever else it holds. -/
theorem split_long {limit : Nat} (h : lineFeed ∉ x) (hlong : limit < x.length) (later : Bytes) :
    split limit (x ++ later) = .tooLong :: split limit (afterLine later) := by
  have hpiece : ∀ y, ofPiece limit (x ++ y) = .tooLong := by
    intro y
    rw [ofPiece, if_neg (by rw [List.length_append]; omega)]
  by_cases hl : lineFeed ∈ later
  · obtain ⟨a, b, rfl, ha⟩ := List.eq_append_cons_of_mem hl
    have hxa : lineFeed ∉ x ++ a := by simp [h, ha]
    rw [← List.append_assoc, split_line hxa, hpiece, afterLine_line ha]
  · have hxl : lineFeed ∉ x ++ later := by simp [h, hl]
    have hne : x ++ later ≠ [] := by
      intro hnil
      rw [(List.append_eq_nil_iff.1 hnil).1] at hlong
      simp at hlong
    have hnone : afterLine later = [] := by
      simpa [afterLine] using afterLine_append hl []
    rw [split_of_not_mem hxl hne, hpiece, hnone, split_nil]

/-! ## Handing out what is due -/

/-- The line that ends here is a frame, unless it was being skipped, and the reader is as new. -/
theorem absorb_line (h : r.Sound) (hx : lineFeed ∉ x) :
    r.absorb (x ++ lineFeed :: y) =
      ({ limit := r.limit }, y,
        if r.skipping then none else some (ofPiece r.limit (r.pending.toList ++ x))) := by
  rw [absorb_cut hx, ofPiece, size_held]
  by_cases hs : r.skipping = true
  · simp [hs, h.skipping hs]
  · by_cases hlong : r.limit < (r.pending.toList ++ x).length
    · rw [if_neg hs, if_neg hs, if_pos hlong, if_neg (Nat.not_le.2 hlong)]
    · rw [if_neg hs, if_neg hs, if_neg hlong, if_pos (Nat.not_lt.1 hlong)]

/-- Of the frames that are due on data, these have been handed out and the rest is still due to the
reader there is now, on the data that is left. -/
structure HandsOut (r : LineReader) (data : Bytes) (frames : List Frame) (r' : LineReader)
    (left : Bytes) : Prop where
  sound : r'.Sound
  due : ∀ later, r.due (data ++ later) = frames ++ r'.due (left ++ later)

theorem HandsOut.refl (h : r.Sound) (data : Bytes) : r.HandsOut data [] r data :=
  ⟨h, fun _ => rfl⟩

theorem HandsOut.trans {data left left' : Bytes} {fs gs : List Frame} {r₁ r₂ : LineReader}
    (h : r.HandsOut data fs r₁ left) (h' : r₁.HandsOut left gs r₂ left') :
    r.HandsOut data (fs ++ gs) r₂ left' :=
  ⟨h'.sound, fun later => by rw [h.due, h'.due, List.append_assoc]⟩

theorem HandsOut.append {data left : Bytes} {fs : List Frame} (h : r.HandsOut data fs r' left)
    (more : Bytes) : r.HandsOut (data ++ more) fs r' (left ++ more) :=
  ⟨h.sound, fun later => by rw [List.append_assoc, h.due, List.append_assoc]⟩

theorem absorb_handsOut (h : r.Sound) (data : Bytes) :
    r.HandsOut data (r.absorb data).2.2.toList (r.absorb data).1 (r.absorb data).2.1 := by
  by_cases hlf : lineFeed ∈ data
  · -- the line ends here, and the reader is as new
    obtain ⟨x, y, rfl, hx⟩ := List.eq_append_cons_of_mem hlf
    rw [absorb_line h hx]
    refine ⟨sound_new r.limit, fun later => ?_⟩
    rw [List.append_assoc, List.cons_append, due_new]
    by_cases hs : r.skipping = true
    · simp [due, hs, afterLine_line hx]
    · have hheld : lineFeed ∉ r.pending.toList ++ x := by simp [h.pending, hx]
      simp [due, hs, ← List.append_assoc, split_line hheld]
  · -- the line goes on behind the data
    rw [absorb_part hlf]
    by_cases hs : r.skipping = true
    · rw [if_pos hs]
      refine ⟨h, fun later => ?_⟩
      simp [due, hs, afterLine_append hlf]
    · have hheld : lineFeed ∉ r.pending.toList ++ data := by simp [h.pending, hlf]
      rw [if_neg hs]
      split
      · rename_i hlong
        refine ⟨⟨by simp, by simp, fun _ => rfl⟩, fun later => ?_⟩
        rw [size_held] at hlong
        simp [due, hs, ← List.append_assoc, split_long hheld hlong]
      · rename_i hshort
        have hheld' : lineFeed ∉ (r.pending ++ data).toList := by simpa using hheld
        refine ⟨⟨hheld', Nat.not_lt.1 hshort, fun hs' => absurd hs' hs⟩, fun later => ?_⟩
        simp [due, hs]

/-- A look without a frame leaves data only where a skipped line ends. -/
theorem left_of_absorb_none (h : r.Sound) {data : Bytes} (hn : (r.absorb data).2.2 = none) :
    (r.absorb data).2.1 = [] ∨ r.skipping = true ∧ (r.absorb data).1 = { limit := r.limit } := by
  by_cases hlf : lineFeed ∈ data
  · obtain ⟨x, y, rfl, hx⟩ := List.eq_append_cons_of_mem hlf
    rw [absorb_line h hx] at hn ⊢
    by_cases hs : r.skipping = true
    · exact .inr ⟨hs, rfl⟩
    · simp [hs] at hn
  · rw [absorb_part hlf]
    refine .inl ?_
    split
    · rfl
    · split <;> rfl

/-- A second look is enough: it is on a line of which nothing is skipped. -/
theorem read_handsOut (h : r.Sound) (data : Bytes) :
    r.HandsOut data (r.read data).2.2.toList (r.read data).1 (r.read data).2.1 ∧
      ((r.read data).2.2 = none → (r.read data).2.1 = []) := by
  have hlook := absorb_handsOut h data
  have hleft : (r.absorb data).2.2 = none → _ := left_of_absorb_none h
  rw [read]
  generalize r.absorb data = look at hlook hleft ⊢
  obtain ⟨r₁, left, _ | frame⟩ := look
  · cases left with
    | nil => exact ⟨hlook, fun _ => rfl⟩
    | cons b left =>
      refine ⟨hlook.trans (absorb_handsOut hlook.sound _), fun hn => ?_⟩
      have hnew : r₁ = { limit := r.limit } := by simpa using (hleft rfl).imp_right And.right
      rcases left_of_absorb_none hlook.sound hn with hnil | ⟨hs, -⟩
      · exact hnil
      · rw [hnew] at hs
        cases hs
  · cases left <;> exact ⟨hlook, nofun⟩

/-- The programs take every frame of the data at hand at once. -/
theorem frames_handsOut (h : r.Sound) (data : Bytes) :
    r.HandsOut data (r.frames data).2 (r.frames data).1 [] := by
  induction r, data using frames.induct with
  | case1 r =>
    rw [frames]
    exact .refl h []
  | case2 r b bs step ih =>
    rw [frames]
    have hlook := absorb_handsOut h (b :: bs)
    exact hlook.trans (ih hlook.sound)

/-! ## The chunks of a stream -/

namespace Outcome

/-- The frame that a call has come to. -/
def frame? : Outcome → Option Frame
  | .frame f _ => some f
  | .waiting => none

/-- The chunks that a call has not taken. -/
def left : Outcome → List Bytes
  | .frame _ rest => rest
  | .waiting => []

end Outcome

theorem nextFrame_handsOut (h : r.Sound) (chunks : List Bytes) :
    r.HandsOut chunks.flatten (r.nextFrame chunks).2.frame?.toList (r.nextFrame chunks).1
      (r.nextFrame chunks).2.left.flatten := by
  induction chunks generalizing r with
  | nil => exact .refl h []
  | cons chunk chunks ih =>
    obtain ⟨hread, hnone⟩ := read_handsOut h chunk
    rw [nextFrame, List.flatten_cons]
    generalize r.read chunk = look at hread hnone ⊢
    obtain ⟨r₁, left, _ | f⟩ := look
    · have hleft : left = [] := hnone rfl
      have hread' := hread.append chunks.flatten
      rw [hleft] at hread'
      exact hread'.trans (ih hread.sound)
    · have hrest : (if left.isEmpty then chunks else left :: chunks).flatten =
          left ++ chunks.flatten := by
        cases left <;> rfl
      change r.HandsOut _ [f] r₁ (if left.isEmpty then chunks else left :: chunks).flatten
      rw [hrest]
      exact hread.append chunks.flatten

/-- To give up a wait and to call again is to go on waiting. -/
theorem nextFrame_append (r : LineReader) (chunks more : List Bytes) :
    r.nextFrame (chunks ++ more) =
      match r.nextFrame chunks with
      | (r', .frame f rest) => (r', .frame f (rest ++ more))
      | (r', .waiting) => r'.nextFrame more := by
  induction chunks generalizing r with
  | nil => rfl
  | cons chunk chunks ih =>
    rw [List.cons_append, nextFrame, nextFrame]
    rcases r.read chunk with ⟨r₁, left, _ | f⟩
    · exact ih r₁
    · cases left <;> rfl

/-! ## The end of a stream -/

theorem due_nil_of_isEmpty (h : r.pending.isEmpty = true) : r.due [] = [] := by
  rw [Array.isEmpty_iff] at h
  simp [due, h, afterLine]

theorem finish_handsOut (h : r.Sound) :
    r.due [] = r.finish.2.toList ∧ r.finish.1.Sound ∧ r.finish.1.due [] = [] := by
  have hempty : ({ r with pending := #[] } : LineReader).Sound := ⟨by simp, by simp, fun _ => rfl⟩
  have hdone : ({ r with pending := #[] } : LineReader).due [] = [] := due_nil_of_isEmpty rfl
  rw [finish]
  split
  · rename_i hnone
    rcases Bool.or_eq_true_iff.1 hnone with hp | hs
    · exact ⟨due_nil_of_isEmpty hp, hempty, hdone⟩
    · exact ⟨due_nil_of_isEmpty (by rw [h.skipping hs]; rfl), hempty, hdone⟩
  · rename_i hlast
    refine ⟨?_, hempty, hdone⟩
    have hne : r.pending.toList ≠ [] ∧ r.skipping = false := by simpa using hlast
    have hshort : r.pending.toList.length ≤ r.limit := h.short
    rw [due, hne.2, List.append_nil, split_of_not_mem h.pending hne.1, ofPiece, if_pos hshort]
    rfl

end LineReader

/-! ## Calls, and calls given up -/

/-- A stream while it is read. -/
structure Intake where
  reader : LineReader := {}
  /-- The chunks that have arrived and not been taken. -/
  chunks : List Bytes := []
  /-- Whether nothing more will arrive. -/
  ended : Bool := false

namespace Intake

open HomeControl.Frame HomeControl.LineReader

/-- What befalls a stream that is being read: a chunk arrives, or its reader is called. -/
inductive Event where
  | arrive (chunk : Bytes)
  | call

/-- A call for the next frame, given up when it would have to wait. A call that goes on waiting comes to
what a new one comes to (`LineReader.nextFrame_append`). -/
def call (i : Intake) : Intake × Arrival :=
  match i.reader.nextFrame i.chunks with
  | (reader, .frame f rest) => ({ i with reader, chunks := rest }, .frame f)
  | (reader, .waiting) =>
    if i.ended then
      match reader.finish with
      | (reader, some f) => ({ i with reader, chunks := [] }, .frame f)
      | (reader, none) => ({ i with reader, chunks := [] }, .closed)
    else ({ i with reader, chunks := [] }, .elapsed)

/-- A stream after some events, and what its calls have come to. -/
def run (i : Intake) : List Event → Intake × List Arrival
  | [] => (i, [])
  | .arrive chunk :: events => { i with chunks := i.chunks ++ [chunk] }.run events
  | .call :: events =>
    let (i, arrival) := i.call
    let (i, arrivals) := i.run events
    (i, arrival :: arrivals)

/-- All the bytes that have arrived. -/
def carried : List Event → Bytes
  | [] => []
  | .arrive chunk :: events => chunk ++ carried events
  | .call :: events => carried events

/-- The frames that are due if this is what is still to arrive. -/
def due (i : Intake) (later : Bytes) : List Frame :=
  i.reader.due (i.chunks.flatten ++ later)

variable {i : Intake}

/-- Before the end a call comes to the next frame that is due, or is given up. -/
theorem call_due (h : i.reader.Sound) (hopen : i.ended = false) :
    i.call.1.reader.Sound ∧ i.call.1.ended = false ∧
      ∃ frames : List Frame, [i.call.2].filter (· ≠ .elapsed) = frames.map .frame ∧
        ∀ later, i.due later = frames ++ i.call.1.due later := by
  have hnext := nextFrame_handsOut h i.chunks
  rw [call]
  generalize i.reader.nextFrame i.chunks = next at hnext ⊢
  obtain ⟨reader, f | _⟩ := next
  · exact ⟨hnext.sound, hopen, [f], by simp, hnext.due⟩
  · simp only [hopen]
    exact ⟨hnext.sound, rfl, [], by simp, hnext.due⟩

theorem run_due (h : i.reader.Sound) (hopen : i.ended = false) (events : List Event) :
    (i.run events).1.reader.Sound ∧
      ∃ frames : List Frame, (i.run events).2.filter (· ≠ .elapsed) = frames.map .frame ∧
        ∀ later, i.due (carried events ++ later) = frames ++ (i.run events).1.due later := by
  induction events generalizing i with
  | nil => exact ⟨h, [], rfl, fun _ => rfl⟩
  | cons event events ih =>
    cases event with
    | arrive chunk =>
      obtain ⟨hsound, frames, harrivals, hdue⟩ :=
        ih (i := { i with chunks := i.chunks ++ [chunk] }) h hopen
      refine ⟨hsound, frames, harrivals, fun later => ?_⟩
      rw [run, ← hdue, carried, due, due]
      simp
    | call =>
      obtain ⟨hsound, hopen', frames, harrival, hdue⟩ := call_due h hopen
      obtain ⟨hsound', frames', harrivals, hdue'⟩ := ih hsound hopen'
      refine ⟨hsound', frames ++ frames', ?_, fun later => ?_⟩
      · rw [run, List.map_append, ← harrival, ← harrivals, ← List.filter_append]
        rfl
      · rw [run, carried, hdue, hdue', List.append_assoc]

/-- After the end it comes to the next frame that is due, if any is. -/
theorem call_due_of_ended (h : i.reader.Sound) (hended : i.ended = true) :
    i.call.1.reader.Sound ∧ i.call.1.ended = true ∧
      i.call.2 = (i.due []).head?.elim .closed .frame ∧ i.call.1.due [] = (i.due []).tail := by
  have hnext := nextFrame_handsOut h i.chunks
  have hdue := hnext.due []
  rw [call, due]
  generalize i.reader.nextFrame i.chunks = next at hnext hdue ⊢
  obtain ⟨reader, f | _⟩ := next
  · rw [hdue]
    exact ⟨hnext.sound, hended, rfl, rfl⟩
  · obtain ⟨hlast, hsound, hdone⟩ := finish_handsOut hnext.sound
    have hdue' : i.reader.due (i.chunks.flatten ++ []) = reader.finish.2.toList := by
      rw [hdue, ← hlast]
      rfl
    rw [hdue']
    simp only [hended, if_true]
    generalize reader.finish = last at hsound hdone ⊢
    obtain ⟨reader', _ | f⟩ := last
    · exact ⟨hsound, rfl, rfl, hdone⟩
    · exact ⟨hsound, rfl, rfl, hdone⟩

/-- Once the stream has ended the calls come to the frames that are still due, and from then on to
the end. -/
theorem run_call_of_ended (h : i.reader.Sound) (hended : i.ended = true) (n : Nat) :
    (i.run (.replicate n .call)).2 =
      ((i.due []).map .frame ++ .replicate n .closed).take n := by
  induction n generalizing i with
  | zero => rfl
  | succ n ih =>
    obtain ⟨hsound, hended', harrival, hdue⟩ := call_due_of_ended h hended
    rw [List.replicate_succ, run]
    change i.call.2 :: (i.call.1.run (.replicate n .call)).2 = _
    rw [ih hsound hended', harrival, hdue]
    cases i.due [] with
    | nil => simp [List.replicate_succ]
    | cons f frames =>
      have hn : n - frames.length ≤ n + 1 := by omega
      simp [List.take_append, Nat.min_eq_left hn]

/-- However the stream arrives and however many calls are given up while they wait, the calls before
its end and those after it come to its frames, in order, and then to its end; and what follows a line
feed is split as if nothing had come before it. -/
theorem frames_of_stream (limit : Nat) (events : List Event) (n : Nat) :
    let early := ({ reader := { limit } } : Intake).run events
    let late := { early.1 with ended := true }.run (.replicate n .call)
    (∃ returned rest, split limit (carried events) = returned ++ rest ∧
      early.2.filter (· ≠ .elapsed) = returned.map .frame ∧
      late.2 = (rest.map .frame ++ .replicate n .closed).take n) ∧
    ∀ before after, split limit (before ++ lineFeed :: after) =
      split limit (before ++ [lineFeed]) ++ split limit after := by
  intro early late
  refine ⟨?_, split_append limit⟩
  obtain ⟨hsound, returned, harrivals, hdue⟩ :=
    run_due (i := { reader := { limit } }) (sound_new limit) rfl events
  have hlate := run_call_of_ended (i := { early.1 with ended := true }) hsound rfl n
  refine ⟨returned, early.1.due [], ?_, harrivals, hlate⟩
  rw [← due_new, ← List.append_nil (carried events), ← hdue]
  rfl

end Intake

end HomeControl
