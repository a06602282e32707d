import HomeControl.Proofs.Text.Hex
import HomeControl.Protocol.Line
import Mathlib.Data.List.DropRight

/-!
# Lines are read as they are written

What `Line.encode` writes, `Line.decode` reads as the same message (`decode_encode`), whether or not
the line feed at the end is still there. A line has two digits for the keycode and two for each byte
of the payload, and no other line feed than its last byte. What is read of any line is what stands before
the run of terminators that it ends with (`Cut`, `strip_eq_iff`).
-/

namespace HomeControl

namespace Keycode

theorem wire?_of_ofWire? {k : Keycode} {b : UInt8} (h : ofWire? b = some k) : k.wire? = some b := by
  unfold ofWire? at h
  split at h <;> simp_all
  all_goals subst h; rfl

end Keycode

/-- Bytes are a message if the first stands for its keycode and the rest is its payload. -/
theorem Message.ofBytes_eq_ok {m : Message} {bytes : Bytes} :
    Message.ofBytes bytes = .ok m ↔ ∃ b, m.keycode.wire? = some b ∧ bytes = b :: m.payload := by
  obtain ⟨k, payload⟩ := m
  cases bytes with
  | nil => simp [Message.ofBytes]
  | cons b rest =>
    cases hk : Keycode.ofWire? b with
    | none =>
      simp only [Message.ofBytes, hk, reduceCtorEq, false_iff]
      rintro ⟨b', hb', he⟩
      rw [(List.cons.inj he).1, Keycode.ofWire?_of_wire? hb'] at hk
      cases hk
    | some k' =>
      simp only [Message.ofBytes, hk, Except.ok.injEq, Message.mk.injEq, List.cons.injEq]
      constructor
      · rintro ⟨rfl, rfl⟩
        exact ⟨b, Keycode.wire?_of_ofWire? hk, rfl, rfl⟩
      · rintro ⟨b', hb', rfl, rfl⟩
        rw [Keycode.ofWire?_of_wire? hb'] at hk
        exact ⟨(Option.some.inj hk).symm, rfl⟩

namespace Line

variable {m : Message} {b : UInt8}

/-- A line without its line feed. -/
def body (m : Message) : Bytes :=
  Hex.encode ((m.keycode.wire?).toList ++ m.payload)

/-- A message on a line of its own. -/
def ofMessage (m : Message) : Bytes :=
  body m ++ [lineFeed]

/-- A message that travels is written on its line. -/
theorem encode_of_wire (h : m.keycode.wire? = some b) : encode m = .ok (ofMessage m) := by
  simp [encode, Message.bytes, h, ofMessage, body]

theorem not_isTerminator_of_isDigit {d : UInt8} (h : Hex.IsDigit d) : isTerminator d = false := by
  rw [isTerminator, Bool.or_eq_false_iff, beq_eq_false_iff_ne, beq_eq_false_iff_ne]
  constructor <;> rintro rfl <;> exact absurd h (by decide)

theorem not_isTerminator_of_mem_body {d : UInt8} (hd : d ∈ body m) : isTerminator d = false :=
  not_isTerminator_of_isDigit (Or.inl (Hex.isLowerDigit_of_mem_encode hd))

/-- The line feed ends a line and stands nowhere else in it. -/
theorem lineFeed_not_mem_body : lineFeed ∉ body m := by
  intro h
  have hn := not_isTerminator_of_mem_body h
  simp [isTerminator] at hn

/-- Two digits for the keycode, and two for each byte of the payload. -/
theorem length_body (h : m.keycode.wire? = some b) : (body m).length = 2 * (m.payload.length + 1) := by
  rw [body, Hex.length_encode, h]
  simp

theorem isTerminator_iff {d : UInt8} : isTerminator d = true ↔ d = carriageReturn ∨ d = lineFeed := by
  simp [isTerminator]

/-- A line cut in two, before the whole run of carriage returns and line feeds that it ends with. -/
structure Cut (line text ending : Bytes) : Prop where
  parts : line = text ++ ending
  terminators : ∀ d ∈ ending, d = carriageReturn ∨ d = lineFeed
  /-- What stands before the run, if anything does, ends in another byte. -/
  whole : ∀ d ∈ text.getLast?, d ≠ carriageReturn ∧ d ≠ lineFeed

/-- Any line can be cut, and `strip` keeps the first part. -/
theorem exists_cut (line : Bytes) : ∃ ending, Cut line (strip line) ending := by
  have hstrip : strip line = line.rdropWhile isTerminator := rfl
  rw [hstrip]
  refine ⟨line.rtakeWhile isTerminator, (List.rdropWhile_append_rtakeWhile ..).symm, ?_, ?_⟩
  · intro d hd
    exact isTerminator_iff.1 (List.mem_rtakeWhile_imp hd)
  · intro d hd
    obtain ⟨hne, rfl⟩ := List.mem_getLast?_eq_getLast hd
    have hlast := List.rdropWhile_last_not isTerminator line hne
    rwa [isTerminator_iff, not_or] at hlast

/-- There is one way only to cut a line. -/
theorem Cut.strip_eq {line text ending : Bytes} (h : Cut line text ending) : strip line = text := by
  obtain ⟨rfl, hending, htext⟩ := h
  have hdrop : (text ++ ending).reverse.dropWhile isTerminator = text.reverse.dropWhile isTerminator := by
    rw [List.reverse_append]
    exact List.dropWhile_append_of_pos
      fun d hd => isTerminator_iff.2 (hending d (List.mem_reverse.1 hd))
  have hself : text.rdropWhile isTerminator = text := by
    rw [List.rdropWhile_eq_self_iff]
    intro hne
    rw [isTerminator_iff, not_or]
    exact htext _ (List.getLast?_eq_some_getLast hne)
  rw [strip, hdrop]
  exact hself

/-- What `strip` returns, without its code. -/
theorem strip_eq_iff {line text : Bytes} : strip line = text ↔ ∃ ending, Cut line text ending := by
  constructor
  · rintro rfl
    exact exists_cut line
  · rintro ⟨ending, h⟩
    exact h.strip_eq

/-- A text without terminators is cut off whole from what ends it. -/
theorem cut_append {text ending : Bytes} (ht : ∀ d ∈ text, isTerminator d = false)
    (he : ∀ d ∈ ending, isTerminator d = true) : Cut (text ++ ending) text ending where
  parts := rfl
  terminators d hd := isTerminator_iff.1 (he d hd)
  whole d hd := by
    have hnot := ht d (List.mem_of_getLast? hd)
    rwa [← Bool.not_eq_true, isTerminator_iff, not_or] at hnot

/-- A line is read as a message exactly if, up to case and what ends it, it is the line of that message. -/
theorem decode_eq_ok {line : Bytes} : decode line = .ok m ↔
    ∃ b, m.keycode.wire? = some b ∧ (strip line).map Hex.lower = Hex.encode (b :: m.payload) := by
  unfold decode
  split
  · rename_i hs
    rw [hs]
    simp [Hex.encode_cons]
  · rename_i d ds hs
    rw [hs]
    simp only [← Hex.decode_eq_ok]
    cases Hex.decode (d :: ds) with
    | error fault => simp
    | ok bytes => simpa using Message.ofBytes_eq_ok

/-- A line is read as the message it was written for, whatever terminators follow. -/
theorem decode_body (h : m.keycode.wire? = some b) (ending : Bytes)
    (he : ∀ d ∈ ending, isTerminator d = true) : decode (body m ++ ending) = .ok m := by
  have hbody : body m = Hex.encode (b :: m.payload) := by
    rw [body, h]
    rfl
  refine decode_eq_ok.2 ⟨b, h, ?_⟩
  rw [(cut_append (fun d hd => not_isTerminator_of_mem_body hd) he).strip_eq, hbody]
  exact Hex.decode_eq_ok.1 (Hex.decode_encode _)

/-- Only messages that travel are written, and on their lines. -/
theorem ofMessage_of_encode {line : Bytes} (h : encode m = .ok line) :
    line = ofMessage m ∧ ∃ b, m.keycode.wire? = some b := by
  cases hw : m.keycode.wire? with
  | none => simp [encode, Message.bytes, hw] at h
  | some b =>
    rw [encode_of_wire hw] at h
    exact ⟨(Except.ok.inj h).symm, b, rfl⟩

/-- A line is read as the message that it was written for. -/
theorem decode_encode {line : Bytes} (h : encode m = .ok line) : decode line = .ok m := by
  obtain ⟨rfl, b, hb⟩ := ofMessage_of_encode h
  exact decode_body hb [lineFeed] (by simp [isTerminator])

theorem wire_of_decode {line : Bytes} (h : decode line = .ok m) : ∃ b, m.keycode.wire? = some b := by
  obtain ⟨b, hb, -⟩ := decode_eq_ok.1 h
  exact ⟨b, hb⟩

/-- The message that a line holds, if it holds one. -/
def message? (line : Bytes) : Option Message :=
  (decode line).toOption

theorem decode_of_message? {line : Bytes} (h : message? line = some m) : decode line = .ok m := by
  unfold message? at h
  cases hd : decode line with
  | error e => simp [hd, Except.toOption] at h
  | ok m' => simpa [hd, Except.toOption] using h

theorem message?_body (h : m.keycode.wire? = some b) : message? (body m) = some m := by
  have hd : decode (body m) = .ok m := by simpa using decode_body h [] (by simp)
  rw [message?, hd]
  rfl

theorem message?_ofMessage (h : m.keycode.wire? = some b) : message? (ofMessage m) = some m := by
  rw [message?, decode_encode (encode_of_wire h)]
  rfl

/-- Lines hold the messages they were written for. -/
theorem filterMap_message? {ms : List Message} (h : ∀ m ∈ ms, ∃ b, m.keycode.wire? = some b) :
    (ms.map ofMessage).filterMap message? = ms := by
  induction ms with
  | nil => rfl
  | cons m ms ih =>
    obtain ⟨b, hb⟩ := h m List.mem_cons_self
    rw [List.map_cons, List.filterMap_cons_some (message?_ofMessage hb),
      ih fun m' hm' => h m' (List.mem_cons_of_mem _ hm')]

/-- Lines of messages that travel. -/
def Spoken (lines : List Bytes) : Prop :=
  ∃ ms : List Message, lines = ms.map ofMessage ∧ ∀ m ∈ ms, ∃ b, m.keycode.wire? = some b

theorem spoken_nil : Spoken [] :=
  ⟨[], rfl, by simp⟩

theorem Spoken.cons {line : Bytes} {lines : List Bytes} (hl : encode m = .ok line)
    (h : Spoken lines) : Spoken (line :: lines) := by
  obtain ⟨rfl, hb⟩ := ofMessage_of_encode hl
  obtain ⟨ms, rfl, hms⟩ := h
  refine ⟨m :: ms, rfl, ?_⟩
  intro m' hm'
  rcases List.mem_cons.1 hm' with rfl | hm'
  · exact hb
  · exact hms m' hm'

theorem Spoken.take {lines : List Bytes} (h : Spoken lines) (n : Nat) : Spoken (lines.take n) := by
  obtain ⟨ms, rfl, hms⟩ := h
  exact ⟨ms.take n, List.map_take.symm, fun m hm => hms m (List.mem_of_mem_take hm)⟩

end Line

end HomeControl
