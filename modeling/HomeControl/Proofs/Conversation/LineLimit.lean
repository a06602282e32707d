import HomeControl.Proofs.Conversation.Stage
import HomeControl.Proofs.Home.Reached
import HomeControl.Proofs.Protocol.Frames
import HomeControl.Proofs.Server.Delivery
import HomeControl.Proofs.Server.Rounds

/-!
# A server's lines fit

The longest lines of a server are its version and the snapshot of a home with as many devices as it
takes. Everything else is short: an action comes to the others only after the home has accepted it, and
no home accepts one with more than one parameter. So whatever the peers send, every line that a session
writes keeps to the limit, and a client finds none of them too long (`lines_within_limit`).
-/

namespace HomeControl

open Hub (Act IsNews)
open ServerMachine (Turn Outcome)

/-! ## Streams of short lines -/

/-- A line feed behind at most `limit` other bytes. -/
def Line.Within (limit : Nat) (line : Bytes) : Prop :=
  ∃ body, line = body ++ [lineFeed] ∧ lineFeed ∉ body ∧ body.length ≤ limit

theorem Line.within_of_fits {m : Message} (h : Line.Fits m) :
    Line.Within maxLineLength (Line.ofMessage m) :=
  ⟨Line.body m, rfl, Line.lineFeed_not_mem_body, h⟩

theorem Frame.ofPiece_ne_tooLong {limit : Nat} {piece : Bytes} (h : piece.length ≤ limit) :
    Frame.ofPiece limit piece ≠ .tooLong := by
  rw [ofPiece, if_pos h]
  simp

/-- However much of it has come, a stream of short lines has no piece that is too long. -/
theorem Frame.tooLong_not_mem_split {limit : Nat} {lines : List Bytes} {stream : Bytes}
    (h : ∀ line ∈ lines, Line.Within limit line) (hs : stream <+: lines.flatten) :
    Frame.tooLong ∉ split limit stream := by
  induction lines generalizing stream with
  | nil =>
    obtain rfl : stream = [] := List.prefix_nil.1 hs
    simp
  | cons line lines ih =>
    obtain ⟨body, rfl, hfeed, hlen⟩ := h line List.mem_cons_self
    rw [List.flatten_cons, List.append_assoc, List.singleton_append] at hs
    by_cases hshort : stream.length ≤ body.length
    · -- the first line feed has not come yet
      have hbody : stream <+: body := List.prefix_of_prefix_length_le hs (List.prefix_append _ _) hshort
      have hfeed' : lineFeed ∉ stream := fun hmem => hfeed (hbody.subset hmem)
      by_cases hnil : stream = []
      · subst hnil
        simp
      · rw [split_of_not_mem hfeed' hnil, List.mem_singleton]
        exact (ofPiece_ne_tooLong (hshort.trans hlen)).symm
    · -- the first line is complete
      obtain ⟨later, hlater⟩ := hs
      have hlen' : (body ++ [lineFeed]).length ≤ stream.length := by
        rw [List.length_append, List.length_singleton]
        omega
      have hwhole : body ++ [lineFeed] <+: stream ++ later := by
        rw [hlater]
        exact ⟨lines.flatten, by simp⟩
      obtain ⟨rest, rfl⟩ :=
        List.prefix_of_prefix_length_le hwhole (List.prefix_append stream later) hlen'
      have hrest : rest <+: lines.flatten := by
        refine ⟨later, ?_⟩
        simpa using hlater
      have hsplit : split limit (body ++ lineFeed :: rest) = ofPiece limit body :: split limit rest :=
        split_line hfeed
      rw [List.append_assoc, List.singleton_append, hsplit, List.mem_cons, not_or]
      exact ⟨(ofPiece_ne_tooLong hlen).symm,
        ih (fun other hmem => h other (List.mem_cons_of_mem _ hmem)) hrest⟩

/-- Reading comes to a line that is too long only if the stream has such a piece. -/
theorem Intake.tooLong_not_mem_run {limit : Nat} {events : List Event}
    (h : Frame.tooLong ∉ Frame.split limit (carried events)) :
    let early := ({ reader := { limit } } : Intake).run events
    .frame .tooLong ∉ early.2 ∧
      ∀ n, .frame .tooLong ∉ ({ early.1 with ended := true }.run (.replicate n .call)).2 := by
  intro early
  obtain ⟨hsound, frames, hframes, hdue⟩ :=
    run_due (i := { reader := { limit } }) (LineReader.sound_new limit) rfl events
  have hsplit : Frame.split limit (carried events) = frames ++ early.1.due [] := by
    rw [← LineReader.due_new, ← List.append_nil (carried events), ← hdue]
    rfl
  rw [hsplit, List.mem_append, not_or] at h
  constructor
  · intro hmem
    have hmem' : Arrival.frame .tooLong ∈ early.2.filter (· ≠ .elapsed) :=
      List.mem_filter.2 ⟨hmem, by simp⟩
    rw [hframes, List.mem_map] at hmem'
    obtain ⟨f, hf, he⟩ := hmem'
    exact h.1 (Arrival.frame.inj he ▸ hf)
  · intro n hmem
    rw [run_call_of_ended (i := { early.1 with ended := true }) hsound rfl n] at hmem
    rcases List.mem_append.1 (List.mem_of_mem_take hmem) with hmem | hmem
    · obtain ⟨f, hf, he⟩ := List.mem_map.1 hmem
      exact h.2 (Arrival.frame.inj he ▸ hf)
    · cases List.eq_of_mem_replicate hmem

/-! ## What a session writes -/

theorem Violation.fits_reply (v : Violation) : Line.Fits v.reply := by
  have hb : v.reply.keycode.wire? = some 2 := by
    rw [Violation.reply_keycode]
    rfl
  rw [Line.fits_iff hb]
  cases v <;> exact Nat.le_of_ble_eq_true rfl

/-- News are short, since a home has accepted them. -/
theorem Hub.IsNews.fits {u : Message} (h : IsNews u) : Line.Fits u := by
  obtain ⟨a, home, home', rfl, ha⟩ := h
  have hle := Home.length_params_le ha
  rw [Line.fits_iff (b := 8) rfl]
  simp only [Message.update, Action.target, List.length_cons]
  omega

namespace ServerMachine

variable {m : ServerMachine} {home : Home} {fresh : Bytes} {incoming : Message} {step : ServerStep}
  {version : String}

/-- What a machine with a short version and a valid home says fits a line. -/
theorem Outcome.fits (ho : Outcome m home fresh incoming step)
    (hversion : (Utf8.encode m.version).length ≤ 32767) (hhome : home.Valid)
    (hfresh : fresh.length = challengeLength) : ∀ reply ∈ step.reply, Line.Fits reply := by
  intro reply hr
  cases ho with
  | farewell =>
    obtain rfl := Option.some.inj hr
    exact (Line.fits_iff (b := 9) rfl).2 (Nat.le_of_ble_eq_true rfl)
  | greeted =>
    obtain rfl := Option.some.inj hr
    exact (Line.fits_iff (b := 1) rfl).2 (Nat.lt_succ_of_le hversion)
  | challenged =>
    obtain rfl := Option.some.inj hr
    refine (Line.fits_iff (b := 3) rfl).2 ?_
    show fresh.length < 32768
    rw [hfresh, challengeLength]
    omega
  | admitted =>
    obtain rfl := Option.some.inj hr
    refine (Line.fits_iff (b := 5) rfl).2 ?_
    show home.snapshot.length < 32768
    have hle := Home.length_snapshot_le hhome
    omega
  | accepted | denied =>
    obtain rfl := Option.some.inj hr
    exact (Line.fits_iff (b := 7) rfl).2 (by simp [Message.confirm])
  | refused v =>
    obtain rfl := Option.some.inj hr
    exact v.fits_reply

/-- Only what the home accepts is broadcast. -/
theorem Outcome.isNews (ho : Outcome m home fresh incoming step) {update : Message}
    {origin : SessionId} (he : .broadcast update origin ∈ step.events) : IsNews update := by
  have hreset : .broadcast update origin ∉ m.resetEvents := by
    unfold resetEvents
    split <;> simp
  cases ho with
  | farewell => exact absurd he hreset
  | refused => exact absurd he hreset
  | greeted | challenged | admitted | denied => simp at he
  | @accepted _ a home' _ _ hh =>
    obtain ⟨rfl, -⟩ := Event.broadcast.inj (List.mem_singleton.1 he)
    exact ⟨a, home, home', rfl, hh⟩

theorem Outcome.valid (ho : Outcome m home fresh incoming step) (hhome : home.Valid) :
    step.home.Valid := by
  cases ho with
  | accepted _ _ _ hh => exact hhome.apply hh
  | farewell | greeted | challenged | admitted | denied | refused => exact hhome

/-- What keeps everything that a session writes short, now and later. -/
structure Turn.Modest (version : String) (t : Turn) : Prop where
  settled : t.machine.Settled
  version : t.machine.version = version
  home : t.home.Valid
  news : ∀ update origin, .broadcast update origin ∈ t.events → IsNews update
  lines : ∀ line ∈ t.lines, Line.Within maxLineLength line

theorem Turn.Modest.within {t : Turn} (h : t.Modest version) (room : Option Nat) :
    (t.within room).Modest version := by
  have hlines : ∀ line ∈ (t.within room).lines, line ∈ t.lines := by
    intro line hline
    rcases within_cases t room with he | ⟨hp, -⟩
    · rwa [he] at hline
    · exact hp.subset hline
  refine ⟨?_, ?_, ?_, ?_, fun line hline => h.lines line (hlines line hline)⟩
  · rw [within_machine]
    exact h.settled
  · rw [within_machine]
    exact h.version
  · rw [within_home]
    exact h.home
  · rw [within_events]
    exact h.news

theorem modest_write {after : Option Message → Option SessionEnd} (h : m.Settled) (hhome : home.Valid)
    (ho : Outcome m home fresh incoming step) (hfits : ∀ reply ∈ step.reply, Line.Fits reply) :
    (write step after).Modest m.version := by
  obtain ⟨reply, b, hr, hb, -⟩ := ho.reply
  rw [write_reply hr hb after]
  refine ⟨ho.settled h, ho.config.2.1, ho.valid hhome, fun _ _ he => ho.isNews he, ?_⟩
  intro line hline
  rw [List.mem_singleton.1 hline]
  exact Line.within_of_fits (hfits reply hr)

theorem modest_receive (h : m.Settled) (hversion : (Utf8.encode m.version).length ≤ 32767)
    (hhome : home.Valid) (hfresh : fresh.length = challengeLength) (arrival : Arrival) :
    (m.receive home fresh arrival).Modest m.version := by
  rcases receive_cases h home fresh arrival with ⟨ended, hr⟩ | ⟨incoming, step, after, ho, hr⟩
  · rw [hr]
    exact ⟨h, rfl, hhome, by simp, by simp⟩
  · rw [hr]
    exact modest_write h hhome ho (ho.fits hversion hhome hfresh)

theorem modest_obeyFlag (hhome : home.Valid) (fresh : Bytes) :
    (m.obeyFlag home fresh).Modest m.version := by
  have hfits : Line.Fits .terminate := (Line.fits_iff (b := 9) rfl).2 (Nat.le_of_ble_eq_true rfl)
  have ho : Outcome m home fresh .terminate _ := .farewell rfl
  rw [obeyFlag_eq]
  refine ⟨settled_reset m, rfl, hhome, fun _ _ he => ho.isNews he, ?_⟩
  intro line hline
  rw [List.mem_singleton.1 hline]
  exact Line.within_of_fits hfits

theorem modest_flush (h : m.Settled) (hhome : home.Valid) {queue : List Message}
    (hq : ∀ u ∈ queue, IsNews u) : (m.flush home queue).Modest m.version := by
  have hwire : ∀ u ∈ queue, ∃ b, u.keycode.wire? = some b := by
    intro u hu
    rw [(hq u hu).keycode]
    exact ⟨8, rfl⟩
  rw [flush_eq hwire]
  refine ⟨h, rfl, hhome, by simp, ?_⟩
  intro line hline
  split at hline
  · obtain ⟨u, hu, rfl⟩ := List.mem_map.1 hline
    exact Line.within_of_fits (hq u hu).fits
  · simp at hline

end ServerMachine

/-! ## What a server writes -/

/-- The updates queued for anyone are news. -/
def Registry.HoldsNews (r : Registry) : Prop :=
  ∀ s ∈ r.seats, ∀ u ∈ s.latest, IsNews u

namespace Registry

variable {r : Registry} {id : SessionId}

theorem HoldsNews.queued (h : r.HoldsNews) (id : SessionId) : ∀ u ∈ r.queued id, IsNews u := by
  intro u hu
  rw [queued_eq] at hu
  cases hs : r.seat? id with
  | none => simp [hs] at hu
  | some s =>
    rw [hs] at hu
    exact h s (List.mem_of_find?_eq_some hs) u (List.mem_reverse.1 hu)

/-- Seats that queue nothing new can be changed at will. -/
theorem HoldsNews.map (h : r.HoldsNews) (f : Seat → Seat)
    (hf : ∀ s, ∀ u ∈ (f s).latest, u ∈ s.latest ∨ IsNews u) :
    ({ r with seats := r.seats.map f } : Registry).HoldsNews := by
  intro s' hs' u hu
  obtain ⟨s, hs, rfl⟩ := List.mem_map.1 hs'
  exact (hf s u hu).elim (h s hs u) id

theorem HoldsNews.handleAll {events : List Event} (h : r.HoldsNews)
    (he : ∀ update origin, .broadcast update origin ∈ events → IsNews update) :
    (r.handleAll events).HoldsNews := by
  induction events generalizing r with
  | nil => exact h
  | cons e events ih =>
    refine ih ?_ fun update origin hmem => he update origin (List.mem_cons_of_mem _ hmem)
    cases e with
    | subscribe => exact h
    | unsubscribe => exact h
    | broadcast update origin =>
      refine h.map _ ?_
      intro s u hu
      split at hu
      · rcases List.mem_cons.1 hu with rfl | hu
        · exact Or.inr (he u origin List.mem_cons_self)
        · exact Or.inl hu
      · exact Or.inl hu

theorem HoldsNews.leaveSeat (h : r.HoldsNews) (id : SessionId) : (r.leaveSeat id).HoldsNews :=
  fun s hs => h s (List.mem_filter.1 hs).1

theorem HoldsNews.drain (h : r.HoldsNews) (id : SessionId) : (r.drain id).2.HoldsNews := by
  refine h.map _ ?_
  intro s u hu
  split at hu
  · cases hu
  · exact Or.inl hu

theorem HoldsNews.register (h : r.HoldsNews) : r.register.2.HoldsNews := by
  intro s hs u hu
  rcases List.mem_append.1 hs with hs | hs
  · exact h s hs u hu
  · obtain rfl := List.mem_singleton.1 hs
    cases hu

theorem HoldsNews.terminateAll (h : r.HoldsNews) : r.terminateAll.HoldsNews := by
  refine HoldsNews.map (r := { r with closed := _ }) h _ ?_
  intro s u hu
  split at hu
  · exact Or.inl hu
  · exact Or.inl hu

end Registry

/-- What keeps all that a server writes short. -/
structure Hub.Modest (version : String) (hub : Hub) : Prop where
  config : hub.version = version
  home : hub.home.Valid
  machines : ∀ m ∈ hub.machines, m.Settled ∧ m.version = version
  news : hub.registry.HoldsNews

namespace Hub

variable {hub : Hub} {version : String} {id : SessionId} {m : ServerMachine} {act : Act}

theorem Modest.machine (h : hub.Modest version) (hm : hub.machine? id = some m) :
    m.Settled ∧ m.version = version :=
  h.machines m (List.mem_of_find?_eq_some hm)

theorem Modest.commit {t : Turn} (h : hub.Modest version) (ht : t.Modest version) (id : SessionId) :
    (hub.commit id t).1.Modest version ∧
      ∀ line ∈ (hub.commit id t).2.lines, Line.Within maxLineLength line := by
  have hmachines : ∀ m ∈ hub.machines.map (fun m => if m.session = id then t.machine else m),
      m.Settled ∧ m.version = version := by
    intro m hm
    obtain ⟨m₀, hm₀, rfl⟩ := List.mem_map.1 hm
    split
    · exact ⟨ht.settled, ht.version⟩
    · exact h.machines m₀ hm₀
  have hnews := h.news.handleAll ht.news
  refine ⟨?_, by rw [lines_commit]; exact ht.lines⟩
  cases he : t.ended with
  | none =>
    simp only [Hub.commit, he]
    exact ⟨h.config, ht.home, hmachines, hnews⟩
  | some e =>
    simp only [Hub.commit, he]
    exact ⟨h.config, ht.home, fun m hm => hmachines m (List.mem_filter.1 hm).1, hnews.leaveSeat id⟩

/-- The challenge that a step would send. -/
def Act.fresh? : Act → Option Bytes
  | .receive _ _ fresh _ => some fresh
  | _ => none

/-- Whatever a server does, all that it writes is short, and so is all that it will write. -/
theorem Modest.perform (h : hub.Modest version) (hversion : (Utf8.encode version).length ≤ 32767)
    (hfresh : ∀ fresh ∈ act.fresh?, fresh.length = challengeLength) :
    (hub.perform act).1.Modest version ∧
      ∀ line ∈ (hub.perform act).2.lines, Line.Within maxLineLength line := by
  have hquiet : ∀ hub' : Hub, hub'.Modest version → hub'.Modest version ∧
      ∀ line ∈ ({} : Output).lines, Line.Within maxLineLength line :=
    fun hub' h' => ⟨h', by simp⟩
  cases act with
  | accept =>
    refine hquiet _ ⟨h.config, h.home, ?_, h.news.register⟩
    intro m hm
    rcases List.mem_append.1 hm with hm | hm
    · exact h.machines m hm
    · obtain rfl := List.mem_singleton.1 hm
      exact ⟨ServerMachine.settled_new _ _ _, h.config⟩
  | deregister id => exact hquiet _ ⟨h.config, h.home, h.machines, h.news⟩
  | shutdown => exact hquiet _ ⟨h.config, h.home, h.machines, h.news.terminateAll⟩
  | receive id room fresh arrival =>
    rw [Hub.perform, Hub.receive]
    split
    · exact hquiet hub h
    next m hm =>
      obtain ⟨hset, hv⟩ := h.machine hm
      have ht := ServerMachine.modest_receive hset (by rw [hv]; exact hversion) h.home
        (hfresh fresh rfl) arrival
      rw [hv] at ht
      exact h.commit (ht.within room) id
  | obeyFlag id room fresh =>
    rw [Hub.perform, Hub.obeyFlag]
    split
    · exact hquiet hub h
    next m hm =>
      split
      · have ht := ServerMachine.modest_obeyFlag (m := m) h.home fresh
        rw [(h.machine hm).2] at ht
        exact h.commit (ht.within room) id
      · exact hquiet hub h
  | flush id room =>
    rw [Hub.perform, Hub.flush]
    split
    · exact hquiet hub h
    next m hm =>
      obtain ⟨hset, hv⟩ := h.machine hm
      have ht := ServerMachine.modest_flush hset h.home (h.news.queued id)
      rw [hv] at ht
      have hdrained : Modest version { hub with registry := (hub.registry.drain id).2 } :=
        ⟨h.config, h.home, h.machines, h.news.drain id⟩
      exact hdrained.commit (ht.within room) id

/-- The snapshots that a session hands over are those of the home. -/
theorem Modest.snapshot_of_handsOver (h : hub.Modest version) {snapshot : Bytes}
    (hh : ({ before := hub, act } : Record).HandsOver id snapshot) : snapshot = hub.home.snapshot := by
  unfold Record.HandsOver Record.written at hh
  split at hh
  next hs =>
    cases hm : hub.machine? id with
    | none =>
      rw [perform_of_none hs hm] at hh
      simp at hh
    | some m =>
      have hstep := session_step hm (h.machine hm).1 hs
      generalize hub.perform act = out at hstep hh
      cases hstep with
      | rest => simp at hh
      | @answer accepted t hacc ht =>
        rw [lines_commit] at hh
        exact (ht.handsOver snapshot hh).1
      | @flush room =>
        rw [lines_commit] at hh
        have hu : ∀ u ∈ hub.registry.queued id, u.keycode = .update :=
          fun u hu => (h.news.queued id u hu).keycode
        have hmem := (ServerMachine.said_flush_isPrefix hu room).subset hh
        cases hu _ hmem
  next => cases hh

end Hub

/-! ## Runs -/

/-- The lines that a step writes to the peer of a session. -/
def Record.lines (r : Record) (id : SessionId) : List Bytes :=
  if r.act.session? = some id then (r.before.perform r.act).2.lines else []

variable {version : String} {users : Users} {home : Home} {rs : List Record} {s : Schedule}

/-- Every step of a run finds a server whose lines are short. -/
theorem Runs.modest (hr : Runs { version, users, home } rs s) (hhome : home.Valid)
    (hversion : (Utf8.encode version).length ≤ 32767)
    (hfresh : ∀ q ∈ rs, ∀ fresh ∈ q.act.fresh?, fresh.length = challengeLength) :
    s.hub.Modest version ∧ ∀ q ∈ rs, q.before.Modest version := by
  induction hr with
  | start => exact ⟨⟨rfl, hhome, by simp, by simp [Registry.HoldsNews]⟩, by simp⟩
  | @step rs s h act hdue ih =>
    obtain ⟨hs, hrs⟩ := ih fun q hq => hfresh q (List.mem_append_left _ hq)
    have hact := hfresh { before := s.hub, act } (by simp)
    refine ⟨(hs.perform hversion hact).1, ?_⟩
    intro q hq
    rcases List.mem_append.1 hq with hq | hq
    · exact hrs q hq
    · rw [List.mem_singleton.1 hq]
      exact hs

/-- **No line of a server is too long.** Take any run of a new server whose home is one that can be
reached and whose version has at most 32767 bytes. Whatever its peers send, each line that a session
writes has at most as many bytes before its line feed as a reader takes; so whoever reads what the
session has written, or any beginning of it, in whatever chunks, before and after the stream ends,
finds no line too long. And each snapshot that a session hands over can be read. -/
theorem lines_within_limit (hr : Runs { version, users, home } rs s) (hhome : home.Reached)
    (hversion : (Utf8.encode version).length ≤ 32767)
    (hfresh : ∀ q ∈ rs, ∀ fresh ∈ q.act.fresh?, fresh.length = challengeLength) (id : SessionId) :
    (∀ q ∈ rs, ∀ line ∈ q.lines id, Line.Within maxLineLength line) ∧
    (∀ events, Intake.carried events <+: (rs.flatMap fun q => q.lines id).flatten →
      let early := ({} : Intake).run events
      .frame .tooLong ∉ early.2 ∧
        ∀ n, .frame .tooLong ∉ ({ early.1 with ended := true }.run (.replicate n .call)).2) ∧
    ∀ q ∈ rs, ∀ snapshot, q.HandsOver id snapshot → ∃ mirror, Home.ofSnapshot snapshot = .ok mirror := by
  obtain ⟨-, hmodest⟩ := hr.modest hhome.valid hversion hfresh
  have hlines : ∀ q ∈ rs, ∀ line ∈ q.lines id, Line.Within maxLineLength line := by
    intro q hq line hline
    unfold Record.lines at hline
    split at hline
    · exact ((hmodest q hq).perform hversion (hfresh q hq)).2 line hline
    · cases hline
  refine ⟨hlines, ?_, ?_⟩
  · intro events hevents
    refine Intake.tooLong_not_mem_run (Frame.tooLong_not_mem_split ?_ hevents)
    intro line hline
    obtain ⟨q, hq, hline⟩ := List.mem_flatMap.1 hline
    exact hlines q hq line hline
  · intro q hq snapshot hsnapshot
    have hq' := hmodest q hq
    rw [hq'.snapshot_of_handsOver hsnapshot]
    exact ⟨_, Home.ofSnapshot_snapshot hq'.home⟩

/-- Ada reads what her session has written to her while she logged in, in two chunks. -/
theorem lines_within_limit_ada :
    let rs := ({ hub := study } : Schedule).trace logins
    let written := (rs.flatMap fun q => q.lines 2).flatten
    let events : List Intake.Event :=
      [.arrive (written.take 50), .call, .call, .arrive (written.drop 50), .call, .call, .call]
    study.home.Reached ∧ (Utf8.encode study.version).length ≤ 32767 ∧
      (∀ q ∈ rs, ∀ fresh ∈ q.act.fresh?, fresh.length = challengeLength) ∧
      (∃ q ∈ rs, q.HandsOver 2 study.home.snapshot) ∧ written ≠ [] ∧
      .frame .tooLong ∉ (({} : Intake).run events).2 := by
  intro rs written events
  obtain ⟨hadmits, hfresh, hhand, hne⟩ : ({ hub := study } : Schedule).Admits logins ∧
      (∀ q ∈ rs, ∀ fresh ∈ q.act.fresh?, fresh.length = challengeLength) ∧
      (∃ q ∈ rs, q.HandsOver 2 study.home.snapshot) ∧ written ≠ [] := by
    decide +kernel
  have hr := Runs.start.trace hadmits
  rw [List.nil_append] at hr
  have hhome : study.home.Reached := ⟨[.add .light "lamp" 0 [0]], rfl⟩
  have hversion : (Utf8.encode study.version).length ≤ 32767 := Nat.le_of_ble_eq_true rfl
  obtain ⟨-, hread, -⟩ := lines_within_limit hr hhome hversion hfresh 2
  have hcarried : Intake.carried events <+: written := by
    simp [events, Intake.carried]
  exact ⟨hhome, hversion, hfresh, hhand, hne, (hread events hcarried).1⟩

end HomeControl
