import HomeControl.Bytes

/-!
# Reading lines from a stream

A stream arrives in chunks whose borders mean nothing. A reader collects bytes up to a line feed and
never holds more of a line than its limit: when a line grows past it, the reader reports that once
and skips what is left of the line. A reader that is abandoned while it waits for data keeps what it
has collected, so nothing is lost.
-/

namespace HomeControl

/-- The longest line a peer may send, without its line feed. -/
def maxLineLength : Nat := 65536

/-- What a stream is split into. -/
inductive Frame where
  /-- A complete line, without its line feed. -/
  | line (bytes : Bytes)
  /-- More bytes than the limit came without a line feed. -/
  | tooLong
  deriving DecidableEq

/-- What a bounded wait for the next frame comes to. -/
inductive Arrival where
  /-- A frame. -/
  | frame (frame : Frame)
  /-- The time is up and no frame is complete. -/
  | elapsed
  /-- The stream has ended. -/
  | closed
  deriving DecidableEq

/-- A reader between two reads. -/
structure LineReader where
  /-- The longest line accepted. -/
  limit : Nat := maxLineLength
  /-- The part of a line that has arrived. -/
  pending : Array UInt8 := #[]
  /-- Whether the rest of an over-long line is being skipped. -/
  skipping : Bool := false
  deriving DecidableEq

namespace LineReader

/-- Takes the data at hand up to the first line feed, or all of it, and returns what is left of it
together with the frame that is complete now, if there is one. -/
def absorb (r : LineReader) (available : Bytes) : LineReader × Bytes × Option Frame :=
  let body := available.takeWhile (· != lineFeed)
  let tail := available.dropWhile (· != lineFeed)
  let ended := !tail.isEmpty
  let rest := tail.drop 1
  if r.skipping then
    ({ r with skipping := !ended }, rest, none)
  else
    let held := r.pending ++ body
    if r.limit < held.size then
      ({ r with pending := #[], skipping := !ended }, rest, some .tooLong)
    else if ended then
      ({ r with pending := #[] }, rest, some (.line held.toList))
    else
      ({ r with pending := held }, rest, none)

/-- The end of the stream: a last line without line feed is given out first. -/
def finish (r : LineReader) : LineReader × Option Frame :=
  if r.pending.isEmpty || r.skipping then
    ({ r with pending := #[] }, none)
  else
    ({ r with pending := #[] }, some (.line r.pending.toList))

/-- Reads on in the data at hand until a frame is complete; without one, all data has been taken.
Only the end of a skipped line leaves data without completing a frame, and the reader does not skip
any longer then, so a second look is enough. -/
def read (r : LineReader) (available : Bytes) : LineReader × Bytes × Option Frame :=
  match r.absorb available with
  | (r, [], none) => (r, [], none)
  | (r, rest, none) => r.absorb rest
  | (r, rest, some frame) => (r, rest, some frame)

/-- Every byte string that `absorb` looks at loses at least one byte to it. -/
theorem length_absorb_lt (r : LineReader) (b : UInt8) (bs : Bytes) :
    (r.absorb (b :: bs)).2.1.length < (b :: bs).length := by
  have hrest : (r.absorb (b :: bs)).2.1 = ((b :: bs).dropWhile (· != lineFeed)).drop 1 := by
    unfold absorb
    dsimp only
    split
    · rfl
    · split
      · rfl
      · split <;> rfl
  have hle : ((b :: bs).dropWhile (· != lineFeed)).length ≤ (b :: bs).length :=
    (List.dropWhile_sublist _).length_le
  rw [hrest, List.length_drop]
  simp only [List.length_cons] at hle ⊢
  omega

/-- All frames that the data at hand completes. -/
def frames (r : LineReader) : Bytes → LineReader × List Frame
  | [] => (r, [])
  | b :: bs =>
    let step := r.absorb (b :: bs)
    let rest := step.1.frames step.2.1
    (rest.1, step.2.2.toList ++ rest.2)
termination_by bs => bs.length
decreasing_by exact r.length_absorb_lt b bs

/-- What a read over chunks comes to. -/
inductive Outcome where
  /-- A frame, with the chunks that are left. -/
  | frame (frame : Frame) (rest : List Bytes)
  /-- All chunks were taken and no frame is complete. -/
  | waiting
  deriving DecidableEq

/-- Reads on over the chunks that have arrived. -/
def nextFrame (r : LineReader) : List Bytes → LineReader × Outcome
  | [] => (r, .waiting)
  | chunk :: chunks =>
    match r.read chunk with
    | (r, rest, some frame) => (r, .frame frame (if rest.isEmpty then chunks else rest :: chunks))
    | (r, _, none) => r.nextFrame chunks

end LineReader

end HomeControl
