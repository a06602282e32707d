import HomeControl.Proofs.Machine.Server
import HomeControl.Proofs.Protocol.Line
import HomeControl.Server.Session

/-!
# Turns of a server session

What a session writes is what its machine replies, one line a message, as long as its peer takes it;
nothing a machine or a queue produces is without a wire form.
-/

namespace HomeControl.ServerMachine

variable {m : ServerMachine} {home : Home} {fresh : Bytes} {incoming : Message} {step : ServerStep}

/-- The messages a turn has written. -/
def Turn.said (t : Turn) : List Message :=
  t.lines.filterMap Line.message?

/-- Every call is answered with a message that can be written, and never with an update. -/
theorem Outcome.reply (ho : Outcome m home fresh incoming step) :
    ∃ reply b, step.reply = some reply ∧ reply.keycode.wire? = some b ∧ reply.keycode ≠ .update := by
  cases ho with
  | farewell => exact ⟨_, 9, rfl, rfl, by simp [Message.terminate]⟩
  | greeted => exact ⟨_, 1, rfl, rfl, by simp [Message.version]⟩
  | challenged => exact ⟨_, 3, rfl, rfl, by simp [Message.challenge]⟩
  | admitted => exact ⟨_, 5, rfl, rfl, by simp [Message.initial]⟩
  | accepted => exact ⟨_, 7, rfl, rfl, by simp [Message.confirm]⟩
  | denied => exact ⟨_, 7, rfl, rfl, by simp [Message.confirm]⟩
  | refused v => exact ⟨v.reply, 2, rfl, by rw [Violation.reply_keycode]; rfl, by simp⟩

@[simp] theorem write_machine (step : ServerStep) (after : Option Message → Option SessionEnd) :
    (write step after).machine = step.machine := by
  unfold write
  split
  · rfl
  · split <;> rfl

/-- A reply that travels is written on one line. -/
theorem write_reply {reply : Message} {b : UInt8} (hr : step.reply = some reply)
    (hb : reply.keycode.wire? = some b) (after : Option Message → Option SessionEnd) :
    write step after =
      { machine := step.machine, home := step.home, lines := [Line.ofMessage reply]
        events := step.events, ended := after (some reply) } := by
  simp [write, hr, Line.encode_of_wire hb]

/-- Updates that travel are written line by line. -/
theorem writeAll_eq {queue : List Message} (h : ∀ u ∈ queue, ∃ b, u.keycode.wire? = some b) :
    writeAll queue = (queue.map Line.ofMessage, none) := by
  induction queue with
  | nil => rfl
  | cons u queue ih =>
    obtain ⟨b, hb⟩ := h u List.mem_cons_self
    rw [writeAll, Line.encode_of_wire hb, ih fun v hv => h v (List.mem_cons_of_mem _ hv)]
    rfl

@[simp] theorem flush_machine (m : ServerMachine) (home : Home) (queue : List Message) :
    (m.flush home queue).machine = m := by
  unfold flush
  split <;> rfl

@[simp] theorem flush_home (m : ServerMachine) (home : Home) (queue : List Message) :
    (m.flush home queue).home = home := by
  unfold flush
  split <;> rfl

@[simp] theorem flush_events (m : ServerMachine) (home : Home) (queue : List Message) :
    (m.flush home queue).events = [] := by
  unfold flush
  split <;> rfl

/-! ## Peers that stop reading -/

@[simp] theorem within_machine (t : Turn) (room : Option Nat) : (t.within room).machine = t.machine := by
  unfold Turn.within
  split
  · rfl
  · split <;> rfl

@[simp] theorem within_home (t : Turn) (room : Option Nat) : (t.within room).home = t.home := by
  unfold Turn.within
  split
  · rfl
  · split <;> rfl

@[simp] theorem within_events (t : Turn) (room : Option Nat) : (t.within room).events = t.events := by
  unfold Turn.within
  split
  · rfl
  · split <;> rfl

/-- Either the peer takes every line, or the session ends with some of them written. -/
theorem within_cases (t : Turn) (room : Option Nat) :
    t.within room = t ∨ (t.within room).lines <+: t.lines ∧ (t.within room).ended ≠ none := by
  unfold Turn.within
  split
  · exact Or.inl rfl
  · split
    · exact Or.inr ⟨List.take_prefix _ _, by simp⟩
    · exact Or.inl rfl

/-- The first lines of a turn say the first of its messages. -/
theorem said_mono {t t' : Turn} (h : t'.lines <+: t.lines) : t'.said <+: t.said :=
  h.filterMap _

/-- A single reply is written, or the session ends without having written it. -/
theorem said_within_write {reply : Message} {b : UInt8} (hr : step.reply = some reply)
    (hb : reply.keycode.wire? = some b) (after : Option Message → Option SessionEnd)
    (room : Option Nat) :
    (((write step after).within room).said = [reply] ∧
        ((write step after).within room).ended = after (some reply)) ∨
      (((write step after).within room).said = [] ∧
        ((write step after).within room).ended ≠ none) := by
  have hs : (write step after).said = [reply] := by
    simp [Turn.said, write_reply hr hb, Line.message?_ofMessage hb]
  have hlen : (write step after).lines.length = 1 := by rw [write_reply hr hb]; rfl
  unfold Turn.within
  split
  · exact Or.inl ⟨hs, by rw [write_reply hr hb]⟩
  · rename_i n
    split
    · have hn : n = 0 := by omega
      exact Or.inr ⟨by simp [Turn.said, hn], by simp⟩
    · exact Or.inl ⟨hs, by rw [write_reply hr hb]⟩

/-! ## Passing on updates -/

/-- What is queued is written in full while the session waits for an action. -/
theorem said_flush {queue : List Message} (hs : m.state = .serverAwaitsAction)
    (hq : ∀ u ∈ queue, u.keycode = .update) : (m.flush home queue).said = queue := by
  have hwire : ∀ u ∈ queue, ∃ b, u.keycode.wire? = some b := fun u hu => ⟨8, by rw [hq u hu]; rfl⟩
  rw [Turn.said, flush, if_pos hs, writeAll_eq hwire]
  exact Line.filterMap_message? hwire

/-- A session whose client is not logged in passes on nothing. -/
theorem said_flush_of_ne {queue : List Message} (hs : m.state ≠ .serverAwaitsAction) :
    (m.flush home queue).said = [] := by
  rw [flush, if_neg hs]
  rfl

/-- What is passed on is the beginning of the queue. -/
theorem said_flush_isPrefix {queue : List Message} (hq : ∀ u ∈ queue, u.keycode = .update)
    (room : Option Nat) : ((m.flush home queue).within room).said <+: queue := by
  have hall : (m.flush home queue).said <+: queue := by
    by_cases hs : m.state = .serverAwaitsAction
    · exact ⟨[], by rw [said_flush hs hq, List.append_nil]⟩
    · rw [said_flush_of_ne hs]
      exact List.nil_prefix
  rcases within_cases (m.flush home queue) room with he | ⟨hp, -⟩
  · rwa [he]
  · exact (said_mono hp).trans hall

/-! ## Lines -/

/-- A reply is written as a line of a message, or not at all. -/
theorem spoken_write (step : ServerStep) (after : Option Message → Option SessionEnd) :
    Line.Spoken (write step after).lines := by
  unfold write
  split
  · exact Line.spoken_nil
  split
  next hl => exact Line.spoken_nil.cons hl
  next => exact Line.spoken_nil

theorem spoken_writeAll (queue : List Message) : Line.Spoken (writeAll queue).1 := by
  induction queue with
  | nil => exact Line.spoken_nil
  | cons u queue ih =>
    unfold writeAll
    split
    · exact Line.spoken_nil
    next hl => exact ih.cons hl

theorem spoken_within {t : Turn} (h : Line.Spoken t.lines) (room : Option Nat) :
    Line.Spoken (t.within room).lines := by
  unfold Turn.within
  split
  · exact h
  · split
    · exact h.take _
    · exact h

/-- Whatever arrives, what is written are messages that travel. -/
theorem spoken_receive (m : ServerMachine) (home : Home) (fresh : Bytes) (arrival : Arrival) :
    Line.Spoken (m.receive home fresh arrival).lines := by
  unfold receive
  split
  · exact spoken_write _ _
  · exact spoken_write _ _
  · exact Line.spoken_nil
  · exact Line.spoken_nil

/-- Whatever is queued, a session writes lines of messages only. -/
theorem spoken_flush (m : ServerMachine) (home : Home) (queue : List Message) :
    Line.Spoken (m.flush home queue).lines := by
  unfold flush
  split
  · exact spoken_writeAll queue
  · exact Line.spoken_nil

end HomeControl.ServerMachine
