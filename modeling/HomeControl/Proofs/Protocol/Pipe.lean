import HomeControl.Proofs.Protocol.Line
import HomeControl.Protocol.LineReader
import Mathlib.Data.List.TakeWhile

/-!
# Streams of lines

One direction of a connection: what has been written and not been read, and the reader at its end,
which may have taken the beginning of a line. However a stream is cut into reads, the frames that come
out of it are the lines that went in, in order, as long as no line is longer than the reader's limit
(`Carries.read`).
-/

namespace HomeControl

/-- One direction of a connection. -/
structure Pipe where
  /-- The reader at its end. -/
  reader : LineReader := {}
  /-- The bytes that have been written and not been read. -/
  inbox : Bytes := []
  deriving DecidableEq

namespace Pipe

/-- Lines are written. -/
def write (p : Pipe) (lines : List Bytes) : Pipe :=
  { p with inbox := p.inbox ++ lines.flatten }

/-- The reader takes what it wants of the first `n` bytes. -/
def read (p : Pipe) (n : Nat) : Pipe × Option Frame :=
  let (reader, rest, frame) := p.reader.absorb (p.inbox.take n)
  ({ reader, inbox := rest ++ p.inbox.drop n }, frame)

/-- Nothing is in flight. -/
def isIdle (p : Pipe) : Bool :=
  p.reader.pending.isEmpty && p.inbox.isEmpty

/-- What is in flight are these messages, each on a line. -/
structure Carries (p : Pipe) (ms : List Message) : Prop where
  limit : p.reader.limit = maxLineLength
  skipping : p.reader.skipping = false
  /-- What it has taken of a line does not reach its end. -/
  pending : lineFeed ∉ p.reader.pending.toList
  short : p.reader.pending.size ≤ maxLineLength
  /-- The bytes are those of the lines. -/
  bytes : p.reader.pending.toList ++ p.inbox = (ms.map Line.ofMessage).flatten

variable {p : Pipe} {m : Message} {ms : List Message}

theorem carries_new : ({} : Pipe).Carries [] :=
  ⟨rfl, rfl, by simp, by simp, rfl⟩

@[simp] theorem write_nil (p : Pipe) : p.write [] = p := by
  simp [write]

/-- Written messages join those in flight. -/
theorem Carries.write (h : p.Carries ms) (ms' : List Message) :
    (p.write (ms'.map Line.ofMessage)).Carries (ms ++ ms') := by
  refine ⟨h.limit, h.skipping, h.pending, h.short, ?_⟩
  rw [Pipe.write, ← List.append_assoc, h.bytes, List.map_append, List.flatten_append]

theorem Carries.eq_nil_of_isIdle (h : p.Carries ms) (hi : p.isIdle = true) : ms = [] := by
  have hb := h.bytes
  simp only [isIdle, Bool.and_eq_true, Array.isEmpty_iff, List.isEmpty_iff] at hi
  rw [hi.1, hi.2] at hb
  cases ms with
  | nil => rfl
  | cons m ms => simp [Line.ofMessage] at hb

theorem ne_lineFeed_of_not_mem {x : Bytes} (h : lineFeed ∉ x) :
    ∀ b ∈ x, (b != lineFeed) = true :=
  fun _ hb => bne_iff_ne.2 fun he => h (he ▸ hb)

/-- Bytes without a line feed, then one: this is where a list of bytes is cut at its first. -/
theorem cut_lineFeed {x y : Bytes} (h : lineFeed ∉ x) :
    (x ++ lineFeed :: y).takeWhile (· != lineFeed) = x ∧
      (x ++ lineFeed :: y).dropWhile (· != lineFeed) = lineFeed :: y := by
  constructor
  · rw [List.takeWhile_append_of_pos (ne_lineFeed_of_not_mem h)]
    simp
  · rw [List.dropWhile_append_of_pos (ne_lineFeed_of_not_mem h)]
    simp

theorem flatten_cons (m : Message) (ms : List Message) :
    ((m :: ms).map Line.ofMessage).flatten =
      Line.body m ++ lineFeed :: (ms.map Line.ofMessage).flatten := by
  simp [Line.ofMessage]

/-- The bytes up to the first line feed are the first line. -/
theorem first_line {x y : Bytes} (h : lineFeed ∉ x)
    (hb : x ++ lineFeed :: y = (ms.map Line.ofMessage).flatten) :
    ∃ m rest, ms = m :: rest ∧ x = Line.body m ∧ y = (rest.map Line.ofMessage).flatten := by
  cases ms with
  | nil => simp at hb
  | cons m rest =>
    rw [flatten_cons] at hb
    obtain ⟨hx, hy⟩ := cut_lineFeed (y := y) h
    obtain ⟨hx', hy'⟩ := cut_lineFeed (y := (rest.map Line.ofMessage).flatten)
      (Line.lineFeed_not_mem_body (m := m))
    rw [hb, hx'] at hx
    rw [hb, hy'] at hy
    exact ⟨m, rest, rfl, hx.symm, (List.cons.inj hy).2.symm⟩

/-- Bytes before the first line feed are no more than the first line. -/
theorem length_le_first_line {x y : Bytes} (h : lineFeed ∉ x) (hne : x ≠ [])
    (hb : x ++ y = (ms.map Line.ofMessage).flatten) :
    ∃ m rest, ms = m :: rest ∧ x.length ≤ (Line.body m).length := by
  cases ms with
  | nil => simp_all
  | cons m rest =>
    rw [flatten_cons] at hb
    refine ⟨m, rest, rfl, ?_⟩
    obtain ⟨hx, -⟩ := cut_lineFeed (y := (rest.map Line.ofMessage).flatten)
      (Line.lineFeed_not_mem_body (m := m))
    rw [← hb, List.takeWhile_append_of_pos (ne_lineFeed_of_not_mem h)] at hx
    rw [← hx, List.length_append]
    omega

end Pipe

/-! ## One look at the data -/

namespace LineReader

variable {r : LineReader} {x y : Bytes}

theorem size_held (r : LineReader) (x : Bytes) :
    (r.pending ++ x).size = (r.pending.toList ++ x).length := by
  rw [← Array.length_toList, Array.toList_appendList]

/-- With a line feed at hand the line is over: it is given out, or reported as too long, unless it was
being skipped. -/
theorem absorb_cut (hx : lineFeed ∉ x) :
    r.absorb (x ++ lineFeed :: y) =
      if r.skipping then ({ r with skipping := false }, y, none)
      else
        ({ limit := r.limit }, y,
          some (if r.limit < (r.pending ++ x).size then .tooLong else .line (r.pending.toList ++ x))) := by
  obtain ⟨htake, hdrop⟩ := Pipe.cut_lineFeed (y := y) hx
  rw [absorb, htake, hdrop]
  by_cases hs : r.skipping = true
  · simp [hs]
  · by_cases hlong : r.limit < (r.pending ++ x).size
    · simp [hs, hlong]
    · simp [hs, hlong]

/-- Without one all of the data belongs to the line, and the only frame is the notice that the line
has grown too long. -/
theorem absorb_part (hx : lineFeed ∉ x) :
    r.absorb x =
      if r.skipping then (r, [], none)
      else if r.limit < (r.pending ++ x).size then
        ({ limit := r.limit, skipping := true }, [], some .tooLong)
      else ({ r with pending := r.pending ++ x }, [], none) := by
  have htake : x.takeWhile (· != lineFeed) = x :=
    List.takeWhile_eq_self_iff.2 (Pipe.ne_lineFeed_of_not_mem hx)
  have hdrop : x.dropWhile (· != lineFeed) = [] :=
    List.dropWhile_eq_nil_iff.2 (Pipe.ne_lineFeed_of_not_mem hx)
  rw [absorb, htake, hdrop]
  by_cases hs : r.skipping = true
  · have hr : { r with skipping := true } = r := by rw [← hs]
    simp [hs, hr]
  · simp [hs]

end LineReader

/-! ## Reading what is carried -/

namespace Pipe

variable {p : Pipe} {m : Message} {ms : List Message} {n : Nat}

theorem Carries.not_skipping (h : p.Carries ms) : ¬ p.reader.skipping = true := by
  simp [h.skipping]

/-- If the first line ends in the data at hand, it is read, or reported as too long. -/
theorem Carries.read_line (h : p.Carries ms) (hlf : lineFeed ∈ p.inbox.take n) :
    ∃ m rest, ms = m :: rest ∧
      if maxLineLength < (Line.body m).length then (p.read n).2 = some .tooLong
      else (p.read n).2 = some (.line (Line.body m)) ∧ (p.read n).1.Carries rest := by
  obtain ⟨x, y, htaken, hx⟩ := List.eq_append_cons_of_mem hlf
  have hinbox : p.inbox = x ++ lineFeed :: (y ++ p.inbox.drop n) := by
    rw [← List.cons_append, ← List.append_assoc, ← htaken, List.take_append_drop]
  have hno : lineFeed ∉ p.reader.pending.toList ++ x := by
    rw [List.mem_append, not_or]
    exact ⟨h.pending, hx⟩
  have hbytes := h.bytes
  rw [hinbox, ← List.append_assoc] at hbytes
  obtain ⟨m, rest, rfl, hbody, hrest⟩ := first_line hno hbytes
  have hlook := LineReader.absorb_cut (r := p.reader) (y := y) hx
  rw [if_neg h.not_skipping, LineReader.size_held, hbody, h.limit] at hlook
  refine ⟨m, rest, rfl, ?_⟩
  rw [Pipe.read, htaken, hlook]
  split
  · rfl
  · exact ⟨rfl, rfl, rfl, by simp, by simp, hrest⟩

/-- If it goes on behind the data, that is kept, unless the line has grown too long by it. -/
theorem Carries.read_part (h : p.Carries ms) (hlf : lineFeed ∉ p.inbox.take n) :
    ((p.read n).2 = none ∧ (p.read n).1.Carries ms) ∨
      ∃ m rest, ms = m :: rest ∧ maxLineLength < (Line.body m).length ∧
        (p.read n).2 = some .tooLong := by
  have hno : lineFeed ∉ p.reader.pending.toList ++ p.inbox.take n := by
    rw [List.mem_append, not_or]
    exact ⟨h.pending, hlf⟩
  have hbytes := h.bytes
  rw [← List.take_append_drop n p.inbox, ← List.append_assoc] at hbytes
  have hlook := LineReader.absorb_part (r := p.reader) hlf
  rw [if_neg h.not_skipping, h.limit] at hlook
  by_cases hlong : maxLineLength < (p.reader.pending ++ p.inbox.take n).size
  · -- what is too long already is no more than the first line
    rw [if_pos hlong] at hlook
    rw [LineReader.size_held] at hlong
    have hne : p.reader.pending.toList ++ p.inbox.take n ≠ [] := by
      intro hnil
      rw [hnil] at hlong
      exact absurd hlong (Nat.not_lt_zero _)
    obtain ⟨m, rest, rfl, hle⟩ := length_le_first_line hno hne hbytes
    refine Or.inr ⟨m, rest, rfl, by omega, ?_⟩
    rw [Pipe.read, hlook]
  · rw [if_neg hlong] at hlook
    rw [Pipe.read, hlook]
    refine Or.inl ⟨rfl, rfl, h.skipping, ?_, Nat.le_of_not_lt hlong, ?_⟩
    · simpa using hno
    · simpa using hbytes

/-- A read gives nothing, or the first line, or notice that the first line is too long. -/
theorem Carries.read (h : p.Carries ms) (n : Nat) :
    ((p.read n).2 = none ∧ (p.read n).1.Carries ms) ∨
      (∃ m rest, ms = m :: rest ∧ (Line.body m).length ≤ maxLineLength ∧
        (p.read n).2 = some (.line (Line.body m)) ∧ (p.read n).1.Carries rest) ∨
      (∃ m rest, ms = m :: rest ∧ maxLineLength < (Line.body m).length ∧
        (p.read n).2 = some .tooLong) := by
  by_cases hlf : lineFeed ∈ p.inbox.take n
  · obtain ⟨m, rest, hms, hread⟩ := h.read_line hlf
    split at hread
    · rename_i hlong
      exact Or.inr (Or.inr ⟨m, rest, hms, hlong, hread⟩)
    · rename_i hshort
      exact Or.inr (Or.inl ⟨m, rest, hms, Nat.le_of_not_lt hshort, hread⟩)
  · exact (h.read_part hlf).imp_right Or.inr

/-- A read of all that is there gives something. -/
theorem Carries.read_ne_none (h : p.Carries (m :: ms)) : (p.read p.inbox.length).2 ≠ none := by
  have hmem : lineFeed ∈ p.reader.pending.toList ++ p.inbox := by
    rw [h.bytes, flatten_cons]
    exact List.mem_append_right _ List.mem_cons_self
  have hlf : lineFeed ∈ p.inbox.take p.inbox.length := by
    rw [List.take_length]
    exact (List.mem_append.1 hmem).resolve_left h.pending
  obtain ⟨m', rest, -, hread⟩ := h.read_line hlf
  split at hread
  · simp [hread]
  · simp [hread.1]

theorem Carries.read_all (h : p.Carries (m :: ms)) (hfits : (Line.body m).length ≤ maxLineLength) :
    (p.read p.inbox.length).2 = some (.line (Line.body m)) ∧ (p.read p.inbox.length).1.Carries ms := by
  rcases h.read p.inbox.length with ⟨hf, -⟩ | ⟨m', rest, he, -, hf, hc⟩ | ⟨m', rest, he, hlen, -⟩
  · exact absurd hf h.read_ne_none
  · obtain ⟨rfl, rfl⟩ := List.cons.inj he
    exact ⟨hf, hc⟩
  · obtain ⟨rfl, -⟩ := List.cons.inj he
    omega

theorem Carries.isIdle_of_nil (h : p.Carries []) : p.isIdle = true := by
  obtain ⟨hpending, hinbox⟩ := List.append_eq_nil_iff.1 h.bytes
  simp [isIdle, hinbox, Array.toList_eq_nil_iff.1 hpending]

end Pipe

end HomeControl
