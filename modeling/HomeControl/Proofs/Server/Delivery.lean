import HomeControl.Proofs.Home.Replay
import HomeControl.Proofs.Server.Sound
import Mathlib.Data.List.Induction

/-!
# Every update is delivered exactly once

From the moment a session hands a snapshot to its peer until it falls back to `idle` or ends, the
updates it has written and those still queued for it are the actions that the home has accepted from
other sessions meanwhile, in the order in which they changed the home (`updates_exactly_once`).

`window_step` is what one step does to this balance while the session waits for actions. It cannot
start with a surplus: a session that does not wait for actions has emptied its queue before it looks
at the next line (`OnTime.idle`).
-/

namespace HomeControl

open Hub (Act Sound Fit)
open ServerMachine (Turn)

namespace Record

/-! ## One step -/

theorem session_of_accepted {r : Record} {origin : SessionId} {a : Action}
    (h : r.accepted? = some (origin, a)) : r.act.session? = some origin := by
  unfold accepted? at h
  split at h
  · rename_i hact
    rw [hact]
    split at h
    · obtain ⟨a', -, he⟩ := Option.map_eq_some_iff.1 h
      rw [(Prod.mk.inj he).1]
      rfl
    · cases h
  · cases h

theorem foreign?_of_session {r : Record} {id : SessionId} (h : r.act.session? = some id) :
    r.foreign? id = none := by
  unfold foreign?
  cases ha : r.accepted? with
  | none => rfl
  | some p =>
    obtain ⟨origin, a⟩ := p
    have ho := session_of_accepted ha
    rw [h] at ho
    simp [Option.some.inj ho]

theorem foreign?_of_ne {r : Record} {id : SessionId} (h : r.act.session? ≠ some id) :
    r.foreign? id = r.accepted?.map Prod.snd := by
  unfold foreign?
  cases ha : r.accepted? with
  | none => rfl
  | some p =>
    obtain ⟨origin, a⟩ := p
    have ho := session_of_accepted ha
    have hne : origin ≠ id := by
      rintro rfl
      exact h ho
    simp [hne]

theorem updates_of_ne {r : Record} {id : SessionId} (h : r.act.session? ≠ some id) :
    r.updates id = [] := by
  simp [updates, written, h]

theorem written_of_perform {hub : Hub} {act : Act} {id : SessionId} {out : Hub × Hub.Output}
    (hs : act.session? = some id) (ho : hub.perform act = out) :
    ({ before := hub, act } : Record).written id = out.2.lines.filterMap Line.message? := by
  rw [written, if_pos hs, ho]

end Record

namespace Hub

variable {hub : Hub} {act : Act} {id : SessionId} {m : ServerMachine} {n : Nat}

/-- A session runs and waits for an action. -/
def Awaits (hub : Hub) (id : SessionId) : Prop :=
  ∃ m, hub.machine? id = some m ∧ m.state = .serverAwaitsAction

/-- A session that does not leave runs on after its step and has not fallen back. -/
theorem exists_machine?_of_stays (hs : act.session? = some id)
    (hl : ¬ ({ before := hub, act } : Record).Leaves id) :
    ∃ m', (hub.perform act).1.machine? id = some m' ∧ m'.state ≠ .idle := by
  cases hm' : (hub.perform act).1.machine? id with
  | none => exact absurd ⟨hs, fun m' h' => by rw [Record.after, hm'] at h'; cases h'⟩ hl
  | some m' =>
    refine ⟨m', rfl, fun hi => hl ⟨hs, ?_⟩⟩
    intro m'' h'
    obtain rfl := Option.some.inj (hm'.symm.trans h')
    exact hi

/-- A session that stays writes what it takes from its queue. -/
theorem balance_own (h : Sound n hub) (ha : hub.Awaits id) (hs : act.session? = some id)
    (hl : ¬ ({ before := hub, act } : Record).Leaves id) :
    (hub.perform act).1.Awaits id ∧
      ({ before := hub, act } : Record).updates id ++ (hub.perform act).1.registry.queued id =
        hub.registry.queued id := by
  obtain ⟨m, hm, hst⟩ := ha
  have hfit := h.running id m hm
  have hstep := session_step hm hfit.settled hs
  have hid := session_of_machine? hm
  obtain ⟨m', hm', hidle⟩ := exists_machine?_of_stays hs hl
  rw [Record.updates, Record.written_of_perform hs rfl]
  clear hl
  generalize hub.perform act = out at hstep hm'
  cases hstep with
  | rest => exact ⟨⟨m, hm, hst⟩, by simp⟩
  | @answer accepted t hacc ht =>
    obtain ⟨he, rfl⟩ := of_machine?_commit hm (ht.session.trans hid) hm'
    have hst' := (ht.stays hst).resolve_left hidle
    refine ⟨⟨t.machine, hm', hst'⟩, ?_⟩
    rw [lines_commit, ← Turn.said, ht.filter_said, registry_commit, if_pos he, ← hid,
      ht.asks.queued_self]
    simp
  | @flush room hact hacc =>
    have hm₁ : ({ hub with registry := (hub.registry.drain id).2 } : Hub).machine? id = some m := hm
    obtain ⟨he, hmm⟩ := of_machine?_commit hm₁ (by simpa using hid) hm'
    obtain rfl : m = m' := by simpa using hmm
    have hsaid : ((m.flush hub.home (hub.registry.queued id)).within room).said =
        hub.registry.queued id := by
      rcases ServerMachine.within_cases (m.flush hub.home (hub.registry.queued id)) room with
        hw | ⟨-, hw⟩
      · rw [hw, ServerMachine.said_flush hst fun u hu => (hfit.updates u hu).keycode]
      · exact absurd he hw
    have hall : (hub.registry.queued id).filter (fun u => u.keycode = .update) =
        hub.registry.queued id :=
      List.filter_eq_self.2 fun u hu => by simpa using (hfit.updates u hu).keycode
    refine ⟨⟨m, hm', hst⟩, ?_⟩
    rw [lines_commit, ← Turn.said, hsaid, hall, registry_commit, if_pos he]
    simp [Registry.handleAll]

/-- While a session waits for actions, what it has written and what is queued for it grow together by
the actions that the others bring into the home. -/
theorem balance_perform (h : Sound n hub) (hn : act = .accept → n < UInt64.size) (hp : hub.Permits act)
    (ha : hub.Awaits id) (hl : ¬ ({ before := hub, act } : Record).Leaves id) :
    (hub.perform act).1.Awaits id ∧
      ({ before := hub, act } : Record).updates id ++ (hub.perform act).1.registry.queued id =
        hub.registry.queued id ++
          ((({ before := hub, act } : Record).foreign? id).map Message.update).toList := by
  by_cases hs : act.session? = some id
  · obtain ⟨hawaits, hbalance⟩ := balance_own h ha hs hl
    rw [hbalance, Record.foreign?_of_session hs]
    exact ⟨hawaits, (List.append_nil _).symm⟩
  · obtain ⟨m, hm, hst⟩ := ha
    have hu := unmoved_perform h hn hp hm hs
    refine ⟨⟨m, hu.machine.trans hm, hst⟩, ?_⟩
    rw [Record.updates_of_ne hs, Record.foreign?_of_ne hs, hu.queued, news,
      if_pos ((h.running id m hm).subscribed.2 hst)]
    simp [Function.comp_def]

theorem home_perform (h : Sound n hub) : (hub.perform act).1.home =
    hub.home.replay ((({ before := hub, act } : Record).accepted?.map Prod.snd).toList) := by
  have hstep := h.step act
  generalize hub.perform act = out at hstep
  cases hstep with
  | absent hs hm hacc =>
    rw [hacc]
    rfl
  | session hs hm hstep =>
    cases hstep with
    | rest hacc =>
      rw [hacc]
      rfl
    | @answer accepted t hacc ht =>
      rw [hacc, home_commit]
      cases accepted with
      | none => exact ht.kept rfl
      | some a => exact (Home.applyOrKeep_of_ok (ht.applied a rfl)).symm
    | flush hact hacc =>
      rw [hacc, home_commit]
      simp
  | accept => rfl
  | deregister id => rfl
  | shutdown => rfl

/-- A session that passes on its queue has nothing queued any longer, however far it comes. -/
theorem queued_flush (hub : Hub) (id : SessionId) (room : Option Nat)
    (hrun : (hub.machine? id).isSome) :
    (hub.perform (.flush id room)).1.registry.queued id = [] := by
  obtain ⟨m, hm⟩ := Option.isSome_iff_exists.1 hrun
  have hp : hub.perform (.flush id room) =
      { hub with registry := (hub.registry.drain id).2 }.commit id
        ((m.flush hub.home (hub.registry.queued id)).within room) := by
    simp only [perform, flush, hm]
    rfl
  rw [hp, registry_commit]
  split
  · simp [Registry.handleAll]
  · simp

/-- What is known of a step that hands a snapshot over. -/
structure Handover (hub : Hub) (act : Act) (id : SessionId) (snapshot : Bytes) : Prop where
  snapshot : snapshot = hub.home.snapshot
  home : (hub.perform act).1.home = hub.home
  idle : ∃ m, hub.machine? id = some m ∧ m.state ≠ .serverAwaitsAction
  awaits : (hub.perform act).1.Awaits id
  waiting : act.session? = some id ∧ act.phase? = some .waiting
  queued : (hub.perform act).1.registry.queued id = hub.registry.queued id

theorem handover {snapshot : Bytes} (h : Sound n hub)
    (hh : ({ before := hub, act } : Record).HandsOver id snapshot) : Handover hub act id snapshot := by
  have hs : act.session? = some id := by
    by_cases hs : act.session? = some id
    · exact hs
    · simp [Record.HandsOver, Record.written, hs] at hh
  rw [Record.HandsOver, Record.written_of_perform hs rfl] at hh
  cases hm : hub.machine? id with
  | none =>
    rw [perform_of_none hs hm] at hh
    simp at hh
  | some m =>
    have hfit := h.running id m hm
    have hid := session_of_machine? hm
    obtain ⟨out, ho, hstep⟩ : ∃ out, hub.perform act = out ∧ SessionStep hub act id m out :=
      ⟨_, rfl, session_step hm hfit.settled hs⟩
    rw [ho] at hh
    cases hstep with
    | rest => simp at hh
    | @answer accepted t hacc ht hact =>
      rw [lines_commit] at hh
      obtain ⟨hsnap, rfl, hst, hst', he⟩ := ht.handsOver snapshot hh
      have hphase : act.phase? = some .waiting := hact.resolve_right (by simp [hst'])
      refine ⟨hsnap, ?_, ⟨m, hm, hst⟩, ⟨t.machine, ?_, hst'⟩, ⟨hs, hphase⟩, ?_⟩ <;> rw [ho]
      · rw [home_commit, ht.kept rfl]
      · rw [machine?_commit hm (ht.session.trans hid), if_pos he]
      · rw [registry_commit, if_pos he, ← hid, ht.asks.queued_self]
    | @flush room hact hacc =>
      rw [lines_commit] at hh
      have hmem :=
        (ServerMachine.said_flush_isPrefix (fun u hu => (hfit.updates u hu).keycode) room).subset hh
      have hk := (hfit.updates _ hmem).keycode
      cases hk

/-- Nobody comes to wait for an action without a snapshot. -/
theorem handsOver_of_awaits (h : Sound n hub) (hn : act = .accept → n < UInt64.size)
    (hp : hub.Permits act) (ha : (hub.perform act).1.Awaits id) (hb : ¬ hub.Awaits id) :
    ({ before := hub, act } : Record).HandsOver id hub.home.snapshot := by
  obtain ⟨m', hm', hst'⟩ := ha
  cases hm : hub.machine? id with
  | none =>
    obtain ⟨rfl, rfl⟩ := accept_of_machine? h hm hm'
    rw [perform, machine?_accept, hm, if_pos rfl] at hm'
    obtain rfl := Option.some.inj hm'
    cases hst'
  | some m =>
    have hst : m.state ≠ .serverAwaitsAction := fun hst => hb ⟨m, hm, hst⟩
    have hid := session_of_machine? hm
    by_cases hs : act.session? = some id
    · obtain ⟨out, ho, hstep⟩ : ∃ out, hub.perform act = out ∧ SessionStep hub act id m out :=
        ⟨_, rfl, session_step hm (h.running id m hm).settled hs⟩
      rw [Record.HandsOver, Record.written_of_perform hs ho]
      rw [ho] at hm'
      cases hstep with
      | rest =>
        obtain rfl := Option.some.inj (hm.symm.trans hm')
        exact absurd hst' hst
      | answer hacc ht =>
        obtain ⟨he, rfl⟩ := of_machine?_commit hm (ht.session.trans hid) hm'
        rw [lines_commit]
        exact ht.admitted hst' hst he
      | flush =>
        have hm₁ : ({ hub with registry := (hub.registry.drain id).2 } : Hub).machine? id = some m :=
          hm
        obtain ⟨-, hmm⟩ := of_machine?_commit hm₁ (by simpa using hid) hm'
        obtain rfl : m = m' := by simpa using hmm
        exact absurd hst' hst
    · have hu := unmoved_perform h hn hp hm hs
      obtain rfl := Option.some.inj (hm.symm.trans (hu.machine.symm.trans hm'))
      exact absurd hst' hst

/-- A session writes updates only while it waits for actions, and only what is queued for it. -/
theorem updates_perform (h : Sound n hub) :
    ({ before := hub, act } : Record).updates id <+: hub.registry.queued id ∧
      (({ before := hub, act } : Record).updates id ≠ [] → hub.Awaits id) := by
  by_cases hs : act.session? = some id
  · cases hm : hub.machine? id with
    | none =>
      rw [Record.updates, Record.written_of_perform hs (perform_of_none hs hm)]
      simp
    | some m =>
      have hfit := h.running id m hm
      obtain ⟨out, ho, hstep⟩ : ∃ out, hub.perform act = out ∧ SessionStep hub act id m out :=
        ⟨_, rfl, session_step hm hfit.settled hs⟩
      rw [Record.updates, Record.written_of_perform hs ho]
      cases hstep with
      | rest => simp
      | @answer accepted t hacc ht =>
        rw [lines_commit, ← Turn.said, ht.filter_said]
        simp
      | @flush room hact hacc =>
        have hnews : ∀ u ∈ hub.registry.queued id, u.keycode = .update :=
          fun u hu => (hfit.updates u hu).keycode
        have hpre : ((m.flush hub.home (hub.registry.queued id)).within room).said <+: _ :=
          ServerMachine.said_flush_isPrefix hnews room
        have hall : ∀ u ∈ ((m.flush hub.home (hub.registry.queued id)).within room).said,
            u.keycode = .update := fun u hu => hnews u (hpre.subset hu)
        rw [lines_commit, ← Turn.said, List.filter_eq_self.2 fun u hu => by simpa using hall u hu]
        refine ⟨hpre, fun hne => ⟨m, hm, ?_⟩⟩
        by_cases hst : m.state = .serverAwaitsAction
        · exact hst
        · refine absurd ?_ hne
          rcases ServerMachine.within_cases (m.flush hub.home (hub.registry.queued id)) room with
            hw | ⟨hw, -⟩
          · rw [hw, ServerMachine.said_flush_of_ne hst]
          · have hnil := ServerMachine.said_mono hw
            rw [ServerMachine.said_flush_of_ne hst] at hnil
            exact List.prefix_nil.1 hnil
  · rw [Record.updates_of_ne hs]
    simp

end Hub

/-! ## Runs -/

variable {start : Hub} {rs : List Record} {s : Schedule} {id : SessionId}

theorem Runs.snoc_inv {q : Record} (h : Runs start (rs ++ [q]) s) :
    ∃ s', Runs start rs s' ∧ s'.hub = q.before ∧ s'.Due q.act ∧ s = s'.next q.act := by
  generalize hl : rs ++ [q] = l at h
  cases h with
  | start => simp at hl
  | @step rs' s' h act hdue =>
    obtain ⟨rfl, hq⟩ := List.append_inj' hl rfl
    obtain rfl := List.singleton_inj.1 hq
    exact ⟨s', h, rfl, hdue, rfl⟩

/-- The server that the first of some records finds; the last one of all if there are none. -/
def nextHub (last : Hub) : List Record → Hub
  | [] => last
  | q :: _ => q.before

theorem Runs.of_append {later : List Record} (h : Runs start (rs ++ later) s) :
    ∃ s', Runs start rs s' ∧ s'.hub = nextHub s.hub later := by
  induction later using List.reverseRecOn generalizing s with
  | nil => exact ⟨s, by simpa using h, rfl⟩
  | append_singleton later q ih =>
    rw [← List.append_assoc] at h
    obtain ⟨s', h', hq, -⟩ := h.snoc_inv
    obtain ⟨s'', h'', hs''⟩ := ih h'
    refine ⟨s'', h'', ?_⟩
    cases later with
    | nil => exact hs''.trans hq
    | cons p later => exact hs''

/-- The number of sessions registered in a run. -/
def registrations (rs : List Record) : Nat :=
  rs.countP fun r => r.act = .accept

/-- A session that waits for its peer but not for an action has nothing queued. -/
def OnTime (s : Schedule) : Prop :=
  ∀ id m, s.hub.machine? id = some m → s.phase id = .waiting → m.state ≠ .serverAwaitsAction →
    s.hub.registry.queued id = []

/-- What is queued is gone by the time the session looks at its peer again. -/
theorem OnTime.next {n : Nat} {act : Act} (ht : OnTime s) (h : Sound n s.hub)
    (hn : act = .accept → n < UInt64.size) (hdue : s.Due act) : OnTime (s.next act) := by
  intro id m' hm' hphase hst
  by_cases hs : act.session? = some id
  · -- the round has come to its end, so the queue has just been passed on
    obtain ⟨hrun, hdue'⟩ := hdue.2 id hs
    have hflush : s.phase id = .flushing := by
      simp only [Schedule.next, hs, if_true] at hphase
      cases hp : s.phase id <;> simp_all [Phase.next]
    rw [hflush] at hdue'
    cases act with
    | flush id' room =>
      obtain rfl : id' = id := by simpa [Act.session?] using hs
      exact Hub.queued_flush s.hub id' room hrun
    | _ => cases hdue'
  · have hphase' : s.phase id = .waiting := by simpa [Schedule.next, hs] using hphase
    cases hm : s.hub.machine? id with
    | some m =>
      have hu := Hub.unmoved_perform h hn hdue.1 hm hs
      obtain rfl : m = m' := Option.some.inj (hm.symm.trans (hu.machine.symm.trans hm'))
      have hsub : s.hub.registry.isSubscribed id = false := by
        rw [← Bool.not_eq_true]
        exact fun hsub => hst ((h.running id m hm).subscribed.1 hsub)
      have hq := hu.queued
      rwa [ht id m hm hphase' hst, Hub.news, hsub] at hq
    | none =>
      obtain ⟨rfl, rfl⟩ := Hub.accept_of_machine? h hm hm'
      have hq := h.queued_fresh (hn rfl)
      simpa [Schedule.next, Hub.perform, Hub.accept] using hq

/-- What holds of every server in a run. -/
theorem Runs.sound {version : String} {users : Users} {home : Home}
    (hr : Runs { version, users, home } rs s) (hids : registrations rs ≤ UInt64.size) :
    Sound (registrations rs) s.hub ∧ OnTime s := by
  induction hr with
  | start =>
    refine ⟨Hub.sound_new version users home, ?_⟩
    intro id m hm
    simp [Hub.machine?] at hm
  | @step rs s h act hdue ih =>
    have hcount : registrations (rs ++ [{ before := s.hub, act }]) =
        if act = .accept then registrations rs + 1 else registrations rs := by
      by_cases ha : act = .accept <;> simp [registrations, ha]
    rw [hcount] at hids
    have hn : act = .accept → registrations rs < UInt64.size := by
      intro ha
      rw [if_pos ha] at hids
      omega
    obtain ⟨hsound, htime⟩ := ih (by split at hids <;> omega)
    rw [hcount]
    exact ⟨Hub.sound_perform hsound hn hdue.1, htime.next hsound hn hdue⟩

variable {version : String} {users : Users} {home : Home} {earlier between : List Record}
  {r : Record} {snapshot : Bytes}

theorem registrations_append (rs rs' : List Record) :
    registrations (rs ++ rs') = registrations rs + registrations rs' :=
  List.countP_append

theorem filterMap_snoc {α β : Type} (f : α → Option β) (xs : List α) (x : α) :
    (xs ++ [x]).filterMap f = xs.filterMap f ++ (f x).toList := by
  cases h : f x <;> simp [h]

/-- Since a snapshot was handed over and while the session does not leave, what has been written and
what is queued are what the others have brought into the home. -/
theorem Runs.balance (hr : Runs { version, users, home } (earlier ++ r :: between) s)
    (hids : registrations (earlier ++ r :: between) ≤ UInt64.size) (hh : r.HandsOver id snapshot)
    (hl : ∀ q ∈ between, ¬ q.Leaves id) :
    s.hub.Awaits id ∧
      (between.flatMap fun q => q.updates id) ++ s.hub.registry.queued id =
        (between.filterMap fun q => q.foreign? id).map Message.update ∧
      s.hub.home = r.before.home.replay (between.filterMap fun q => q.accepted?.map Prod.snd) := by
  induction between using List.reverseRecOn generalizing s with
  | nil =>
    obtain ⟨s', h', hbefore, hdue, rfl⟩ := hr.snoc_inv
    rw [registrations_append] at hids
    obtain ⟨hsound, htime⟩ := h'.sound (by omega)
    obtain ⟨before, act⟩ := r
    subst hbefore
    have hhand := Hub.handover hsound hh
    obtain ⟨m, hm, hst⟩ := hhand.idle
    obtain ⟨hs, hphase⟩ := hhand.waiting
    have hwait : s'.phase id = .waiting := by
      have hp := (hdue.2 id hs).2
      rw [hphase] at hp
      exact (Option.some.inj hp).symm
    refine ⟨hhand.awaits, ?_, hhand.home⟩
    simpa [Schedule.next] using hhand.queued.trans (htime id m hm hwait hst)
  | append_singleton between q ih =>
    rw [← List.cons_append, ← List.append_assoc] at hr hids
    obtain ⟨s', h', hbefore, hdue, rfl⟩ := hr.snoc_inv
    rw [registrations_append] at hids
    obtain ⟨hawaits, hbal, hhome⟩ := ih h' (by omega) fun p hp => hl p (List.mem_append_left _ hp)
    obtain ⟨hsound, -⟩ := h'.sound (by omega)
    obtain ⟨before, act⟩ := q
    subst hbefore
    have hn : act = .accept → registrations (earlier ++ r :: between) < UInt64.size := by
      rintro rfl
      have hone : registrations [{ before := s'.hub, act := .accept }] = 1 := rfl
      omega
    have hstay : ¬ ({ before := s'.hub, act } : Record).Leaves id := hl _ (by simp)
    obtain ⟨hawaits', hstep⟩ := Hub.balance_perform hsound hn hdue.1 hawaits hstay
    refine ⟨hawaits', ?_, ?_⟩
    · rw [List.flatMap_append, List.flatMap_singleton, List.append_assoc, Schedule.next, hstep,
        ← List.append_assoc, hbal, filterMap_snoc, List.map_append, ← Option.toList_map]
    · rw [Schedule.next, Hub.home_perform hsound, hhome, filterMap_snoc, Home.replay_append]

/-- Whoever waits for actions has been handed a snapshot and has not left since. -/
theorem Runs.served (hr : Runs { version, users, home } rs s) (hids : registrations rs ≤ UInt64.size)
    (ha : s.hub.Awaits id) :
    ∃ earlier r between snapshot, rs = earlier ++ r :: between ∧ r.HandsOver id snapshot ∧
      ∀ q ∈ between, ¬ q.Leaves id := by
  induction hr with
  | start =>
    obtain ⟨m, hm, -⟩ := ha
    simp [Hub.machine?] at hm
  | @step rs s h act hdue ih =>
    rw [registrations_append] at hids
    obtain ⟨hsound, -⟩ := h.sound (by omega)
    have hn : act = .accept → registrations rs < UInt64.size := by
      rintro rfl
      have hone : registrations [{ before := s.hub, act := .accept }] = 1 := rfl
      omega
    by_cases hb : s.hub.Awaits id
    · obtain ⟨earlier, r, between, snapshot, rfl, hh, hl⟩ := ih (by omega) hb
      refine ⟨earlier, r, between ++ [{ before := s.hub, act }], snapshot, by simp, hh, ?_⟩
      intro q hq
      rcases List.mem_append.1 hq with hq | hq
      · exact hl q hq
      · obtain rfl := List.mem_singleton.1 hq
        rintro ⟨-, hidle⟩
        obtain ⟨m, hm, hst⟩ := ha
        simp [hidle m hm] at hst
    · exact ⟨rs, _, [], _, rfl, Hub.handsOver_of_awaits hsound hn hdue.1 ha hb, by simp⟩

/-- **Exactly-once delivery.** Take any run of a new server in which no number is given out twice, and
any session. From the moment it has handed over a snapshot, which is one of the home at that moment,
and while it neither falls back to `idle` nor ends: the updates it has written, followed by those
queued for it, are the actions that the home has accepted from other sessions since, in the order in
which the home has changed by all accepted actions. What a session writes of its queue is the queue's
beginning, also when it ends there, and it writes nothing of it unless it has handed over a snapshot
and has neither fallen back to `idle` nor ended since. -/
theorem updates_exactly_once (hr : Runs { version, users, home } rs s)
    (hids : registrations rs ≤ UInt64.size) (id : SessionId) :
    (∀ earlier r between later snapshot, rs = earlier ++ r :: between ++ later →
      r.HandsOver id snapshot → (∀ q ∈ between, ¬ q.Leaves id) →
        snapshot = r.before.home.snapshot ∧
        (between.flatMap fun q => q.updates id) ++ (nextHub s.hub later).registry.queued id =
          (between.filterMap fun q => q.foreign? id).map Message.update ∧
        (nextHub s.hub later).home =
          r.before.home.replay (between.filterMap fun q => q.accepted?.map Prod.snd)) ∧
    (∀ earlier q later, rs = earlier ++ q :: later →
      q.updates id <+: q.before.registry.queued id ∧
      (q.updates id ≠ [] → ∃ before r between snapshot, earlier = before ++ r :: between ∧
        r.HandsOver id snapshot ∧ ∀ p ∈ between, ¬ p.Leaves id)) := by
  constructor
  · rintro earlier r between later snapshot rfl hh hl
    obtain ⟨s', h', hs'⟩ := hr.of_append
    rw [registrations_append] at hids
    obtain ⟨-, hbal, hhome⟩ := h'.balance (by omega) hh hl
    obtain ⟨s'', h'', hs''⟩ : ∃ s'', Runs { version, users, home } earlier s'' ∧
        s''.hub = nextHub s'.hub (r :: between) := h'.of_append
    rw [registrations_append] at hids
    obtain ⟨hsound, -⟩ := h''.sound (by omega)
    obtain ⟨before, act⟩ := r
    have hb : s''.hub = before := hs''
    subst hb
    exact ⟨(Hub.handover hsound hh).snapshot, hs' ▸ hbal, hs' ▸ hhome⟩
  · rintro earlier q later rfl
    obtain ⟨s', h', hs'⟩ := hr.of_append
    rw [registrations_append] at hids
    obtain ⟨hsound, -⟩ := h'.sound (by omega)
    obtain ⟨before, act⟩ := q
    have hb : s'.hub = before := hs'
    subst hb
    exact ⟨(Hub.updates_perform hsound).1,
      fun hne => h'.served (by omega) ((Hub.updates_perform hsound).2 hne)⟩

/-! ## A user and a lamp -/

/-- A user. -/
def ada : Login := { username := "ada", password := "byron" }

/-- A server with one lamp, which is off, and one user. -/
def study : Hub where
  version := "1"
  users := .ofPasswords [("ada", "byron")]
  home := { lights := [{ kind := .light, name := "lamp", state := 0, params := [0] }] }

/-- A session answers a message. -/
def Hub.Act.answer (id : SessionId) (m : Message) : Act :=
  .receive id none (List.replicate 16 0) (.frame (.line (Line.body m)))

/-- A session's round about a message. -/
def Hub.round (id : SessionId) (m : Message) : List Act :=
  [.answer id m, .obeyFlag id none [], .flush id none]

/-- Ada's answer to her challenge. -/
def adasResponse : Message :=
  .response (ada.responseBody (List.replicate 16 0))

/-- Ada has logged in with the second session and is about to log in with the first. -/
def logins : List Act :=
  [.accept, .accept] ++ Hub.round 2 .ping ++ Hub.round 2 (.version "1") ++ Hub.round 2 adasResponse ++
    Hub.round 1 .ping ++ Hub.round 1 (.version "1")

/-- The first session goes on, while the second asks for the lamp. -/
def lampOn : List Act :=
  [.obeyFlag 1 none [], .flush 1 none] ++ Hub.round 2 (.action ⟨0, 0, 0, 0, []⟩) ++
    [.receive 1 none [] .elapsed, .obeyFlag 1 none [], .flush 1 none]

/-- The first session tells Ada once that the lamp is on. -/
theorem updates_exactly_once_ada : ∃ rs s earlier r between, Runs study rs s ∧
    registrations rs ≤ UInt64.size ∧ rs = earlier ++ r :: between ∧
    r.HandsOver 1 study.home.snapshot ∧ (∀ q ∈ between, ¬ q.Leaves 1) ∧
    (between.flatMap fun q => q.updates 1) ++ s.hub.registry.queued 1 =
      [.update ⟨0, 0, 0, 0, []⟩] := by
  let s₀ : Schedule := { hub := study }
  let s₁ := logins.foldl Schedule.next s₀
  let r : Record := { before := s₁.hub, act := .answer 1 adasResponse }
  let between := (s₁.next r.act).trace lampOn
  obtain ⟨hadmits, hids, hhand, hstays, hforeign⟩ : s₀.Admits (logins ++ r.act :: lampOn) ∧
      registrations (s₀.trace (logins ++ r.act :: lampOn)) ≤ UInt64.size ∧
      r.HandsOver 1 study.home.snapshot ∧ (∀ q ∈ between, ¬ q.Leaves 1) ∧
      (between.filterMap fun q => q.foreign? 1) = [⟨0, 0, 0, 0, []⟩] := by
    decide +kernel
  have hsplit : s₀.trace (logins ++ r.act :: lampOn) = s₀.trace logins ++ r :: between :=
    s₀.trace_append logins (r.act :: lampOn)
  have hr := Runs.start.trace hadmits
  rw [List.nil_append, hsplit] at hr
  rw [hsplit] at hids
  obtain ⟨-, hbal, -⟩ := (updates_exactly_once hr hids 1).1 (s₀.trace logins) r between [] _
    (List.append_nil _).symm hhand hstays
  rw [hforeign, nextHub] at hbal
  exact ⟨_, _, s₀.trace logins, r, between, hr, hids, rfl, hhand, hstays, hbal⟩

end HomeControl
