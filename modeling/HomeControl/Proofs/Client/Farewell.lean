import HomeControl.Proofs.Client.Run

/-!
# Sessions that have said TERMINATE

With TERMINATE a session puts its machine back to `idle` and withdraws its question, so that it has
nothing more to say of its own accord (`Parted.react`). But a machine in `idle` expects nothing at all:
the next message decides how the session ends (`Parted.hear`), and unless it is the server's TERMINATE
or an ERROR, the session reports it as a violation.
-/

namespace HomeControl

/-- The message is unexpected, or its line is too long to be read. -/
def Message.Crosses (m : Message) : Prop :=
  maxLineLength < (Line.body m).length ∨ m.keycode ≠ .terminate ∧ m.keycode ≠ .error

instance (m : Message) : Decidable m.Crosses :=
  inferInstanceAs (Decidable (_ ∨ _))

/-- Why a session ends that has said TERMINATE, if this is the next message. -/
def Message.verdict (m : Message) : ClientEnd :=
  if m.Crosses then .protocolError "General error"
  else if m.keycode = .terminate then .terminated
  else .serverError m.lossyText

/-- What it writes then. -/
def Message.parting (m : Message) : List Bytes :=
  if m.Crosses then [Line.ofMessage .errorGeneral] else []

namespace ClientSession

variable {s : ClientSession} {input : Input} {m : Message} {b : UInt8}

/-- A session that has said TERMINATE. -/
structure Parted (s : ClientSession) : Prop where
  said : s.terminateSent = true
  idle : s.machine.state = .idle
  unasked : s.collection = none

/-- Nothing but the server makes a client that has parted react. -/
theorem Parted.react (h : s.Parted) (hi : ∀ arrival, input ≠ .arrive arrival) :
    s.react input = { session := s } := by
  cases input with
  | arrive arrival => exact absurd rfl (hi arrival)
  | check running =>
    cases running with
    | true => rfl
    | false => exact sendTerminate_again h.said
  | post number request => simp [ClientSession.react, post, h.unasked]
  | take => exact takePosted_of_none (by simp [h.unasked])

theorem lossyText_errorGeneral : Message.errorGeneral.lossyText = "General error" :=
  Utf8.decodeLossy_encode _

/-- In `idle` nothing is expected of the server but TERMINATE and ERROR. -/
theorem feed_idle (hs : s.machine.state = .idle) (hi : m.keycode ≠ .internal)
    (ht : m.keycode ≠ .terminate) (he : m.keycode ≠ .error) :
    s.feed m = s.giveUp (.unexpected .idle m.keycode) := by
  have hp : s.machine.process m =
      (s.machine.reset, some (Violation.unexpected .idle m.keycode).reply) := by
    simp [ClientMachine.process, ClientMachine.onIdle, ClientMachine.unexpected, ClientMachine.reject,
      hs, hi, ht, he]
  rw [feed, hp]
  exact dispatch_reply _ _

/-- A message that crosses the client's TERMINATE is answered as its machine at rest answers it. -/
theorem Parted.hear (h : s.Parted) (hb : m.keycode.wire? = some b)
    (hfits : (Line.body m).length ≤ maxLineLength) :
    (s.onLine (Line.body m)).lines = m.parting ∧ (s.onLine (Line.body m)).ended = some m.verdict := by
  have hm : Line.message? (Line.body m) = some m := Line.message?_body hb
  have hd : Line.decode (Line.body m) = .ok m := Line.decode_of_message? hm
  have hshort : ¬ maxLineLength < (Line.body m).length := by omega
  by_cases ht : m.keycode = .terminate
  · simp [onLine, hd, ht, finish, Message.parting, Message.verdict, Message.Crosses, hshort, h.said]
  by_cases he : m.keycode = .error
  · simp [onLine, hd, he, finish, Message.parting, Message.verdict, Message.Crosses, hshort]
  · have hc : m.Crosses := Or.inr ⟨ht, he⟩
    rw [onLine_message hm ht he, feed_idle h.idle (keycode_of_message? hm) ht he, Message.parting,
      Message.verdict, if_pos hc, if_pos hc]
    exact ⟨rfl, by rw [← lossyText_errorGeneral]; rfl⟩

/-- So is one that is too long for a line. -/
theorem Parted.tooLong (s : ClientSession) (hlong : maxLineLength < (Line.body m).length) :
    (s.receive (.frame .tooLong)).lines = m.parting ∧
      (s.receive (.frame .tooLong)).ended = some m.verdict := by
  have hc : m.Crosses := Or.inl hlong
  rw [receive, reject_eq, Message.parting, Message.verdict, if_pos hc, if_pos hc]
  exact ⟨rfl, by rw [← lossyText_errorGeneral]; rfl⟩

/-- A session that has said TERMINATE stays so, as long as it goes on. -/
theorem parted_react (h : s.terminateSent = true → s.Parted) (he : (s.react input).ended = none)
    (hs : (s.react input).session.terminateSent = true) : (s.react input).session.Parted := by
  obtain ⟨t, ht, hr⟩ : ∃ t, s.react input = t ∧ Reaction s input t := ⟨_, rfl, react_reaction s input⟩
  rw [ht] at he hs ⊢
  cases hr with
  | elapsed => exact h hs
  | closed => cases he
  | unreadable => cases he
  | farewell => cases he
  | error => cases he
  | heard hd hterminate herror =>
    have hsaid : s.terminateSent = true := by simpa [feed] using hs
    rw [feed_idle (h hsaid).idle (keycode_of_message? hd) hterminate herror] at he
    cases he
  | running => exact h hs
  | stopped => exact ⟨rfl, rfl, rfl⟩
  | already _ hsaid hs' =>
    have hp := h hsaid
    rcases hs' with rfl | rfl
    · exact hp
    · exact ⟨hp.said, hp.idle, rfl⟩
  | @posted number request =>
    have hsaid : s.terminateSent = true := by simpa using hs
    have hp := h hsaid
    simpa [post, hp.unasked] using hp
  | unposted => exact h hs
  | acted ho =>
    have hsaid : s.terminateSent = true := by simpa [feed] using hs
    simp [offered?, (h hsaid).unasked] at ho

end ClientSession

end HomeControl
