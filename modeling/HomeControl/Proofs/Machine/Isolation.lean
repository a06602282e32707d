import HomeControl.Proofs.Machine.Subscription
import Mathlib.Logic.Function.Basic

/-!
# Sessions to which nobody has logged in

Several machines share a home and the fan-out of updates, and are called in any order. A session whose
challenges are never answered is a *stranger*. Whatever a stranger is called with, the others do not
notice: without its calls the home is the same, and so are the events and all other replies; and the
stranger learns nothing, since its replies and its machine are the same for every home and whatever
the others are called with (`stranger_isolated`).

The two halves rest on two facts about a call. The machine after it does not depend on the home at all
(`Exchange.machine_of_home`), and as long as the machine has admitted nobody, the call neither changes
the home nor asks for anything, and its reply does not depend on the home either
(`Exchange.quiet_of_outside`, `Exchange.reply_of_outside`).
-/

namespace HomeControl

open ServerMachine (Call Exchange)

namespace ServerMachine

variable {m : ServerMachine}

/-! ## One call -/

/-- The same call in another home. -/
def Exchange.within (x : Exchange) (home : Home) : Exchange := { x with home }

/-- The machine after a call does not depend on the home. -/
theorem Exchange.machine_of_home (x : Exchange) (home : Home) :
    (x.within home).step.machine = x.step.machine := by
  obtain ⟨m, home', fresh | v⟩ := x
  case reject => rfl
  case process incoming =>
    by_cases hk : incoming.keycode = .terminate
    · simp [within, step, process, hk]
    · -- This handler goes on to a second one, so that splitting its result is not enough.
      have hversion : (m.onServerAwaitsVersion home fresh incoming).machine =
          (m.onServerAwaitsVersion home' fresh incoming).machine := by
        unfold onServerAwaitsVersion
        by_cases hv : incoming.keycode = .version <;>
          by_cases ht : incoming.text? = some m.version <;>
          simp [hv, ht, onClientAwaitsChallenge, Message.internal, unexpected, reject]
      simp only [within, step, process, hk, if_false]
      cases m.state with
      | serverAwaitsVersion => exact hversion
      | _ =>
        simp only [onIdle, onClientAwaitsVersion, onClientAwaitsChallenge, onClientAwaitsInit,
          onServerAwaitsResponse, onServerAwaitsAction, onClientAwaitsConfirm, unexpected, reject]
        repeat' split
        all_goals rfl

/-- A machine between two calls that has admitted nobody. -/
structure Outside (m : ServerMachine) : Prop where
  settled : m.Settled
  away : m.state ≠ .serverAwaitsAction

/-- The call gives no response to the users that answers the challenge. -/
def Exchange.Fails (x : Exchange) : Prop :=
  ∀ c body, x.verified? = some (c, body) → x.machine.users.verify c body = false

theorem Exchange.response_of_verified {x : Exchange} {c body : Bytes}
    (hv : x.verified? = some (c, body)) :
    ∃ fresh incoming, x.call = .process fresh incoming ∧ incoming.keycode = .response ∧
      incoming.payload = body := by
  obtain ⟨m, home, fresh | v⟩ := x
  case reject => simp [verified?] at hv
  case process incoming =>
    simp only [verified?, Option.ite_none_right_eq_some, Option.map_eq_some_iff] at hv
    obtain ⟨⟨-, hk⟩, _, -, hbody⟩ := hv
    exact ⟨fresh, incoming, rfl, hk, congrArg Prod.snd hbody⟩

/-- A call in which nobody is admitted leaves the home and the fan-out alone. -/
theorem Exchange.quiet_of_outside {x : Exchange} (h : x.machine.Outside) (hf : x.Fails) :
    x.step.home = x.home ∧ x.step.events = [] ∧ x.step.machine.Outside := by
  have hevents : x.machine.resetEvents = [] := by
    simp [resetEvents, h.settled.isSubscribed_eq, h.away]
  obtain ⟨m, home, fresh | v⟩ := x
  case reject => exact ⟨rfl, hevents, settled_reset m, by simp [step, reject]⟩
  case process incoming =>
    obtain ⟨out, hout, ho⟩ : ∃ out, Exchange.step ⟨m, home, .process fresh incoming⟩ = out ∧
        Outcome m home fresh incoming out := ⟨_, rfl, process_outcome h.settled home fresh incoming⟩
    have hset := ho.settled h.settled
    rw [hout]
    cases ho with
    | farewell => exact ⟨rfl, hevents, hset, by simp⟩
    | refused => exact ⟨rfl, hevents, hset, by simp⟩
    | greeted => exact ⟨rfl, rfl, hset, by simp⟩
    | challenged => exact ⟨rfl, rfl, hset, by simp⟩
    | @admitted hs c hc hk hv =>
      have hfail := hf c incoming.payload (by simp [verified?, hs, hk, hc])
      rw [hv] at hfail
      cases hfail
    | accepted hs => exact absurd hs h.away
    | denied hs => exact absurd hs h.away

/-- Nor does its reply depend on the home. -/
theorem Exchange.reply_of_outside {x : Exchange} (h : x.machine.Outside) (hf : x.Fails) (home : Home) :
    (x.within home).step.reply = x.step.reply := by
  obtain ⟨m, home', fresh | v⟩ := x
  case reject => rfl
  case process incoming =>
    by_cases hk : incoming.keycode = .terminate
    · simp [within, step, process, hk]
    have hstate : m.state = .idle ∨ m.state = .serverAwaitsVersion ∨
        m.state = .serverAwaitsResponse ∨ m.state = .serverAwaitsAction := h.settled.state
    rcases hstate with hs | hs | hs | hs
    · simp only [within, step, process, hk, hs, if_false, onIdle, onClientAwaitsVersion, unexpected, reject,
        apply_ite ServerStep.reply]
    · by_cases hv : incoming.keycode = .version <;>
        by_cases ht : incoming.text? = some m.version <;>
        simp [within, step, process, hs, hk, hv, ht, onServerAwaitsVersion, onClientAwaitsChallenge,
          Message.internal, unexpected, reject]
    · obtain ⟨c, hc⟩ : ∃ c, m.challenge = some c :=
        Option.isSome_iff_exists.1 (h.settled.challenge.2 hs)
      by_cases hr : incoming.keycode = .response
      · have hfail : m.users.verify c incoming.payload = false :=
          hf c incoming.payload (by simp [verified?, hs, hr, hc])
        simp [within, step, process, hs, hr, hc, hfail, onServerAwaitsResponse, reject]
      · simp [within, step, process, hk, hs, hr, onServerAwaitsResponse, unexpected, reject]
    · exact absurd hs h.away

end ServerMachine

/-- The machines of several sessions and the home they share. -/
structure Household where
  /-- The shared home. -/
  home : Home
  /-- The machine of each session. -/
  machines : SessionId → ServerMachine

namespace Household

/-- New machines, with the same users and each with its version. -/
def new (version : SessionId → String) (users : Users) (home : Home) : Household :=
  { home, machines := fun id => { session := id, version := version id, users } }

/-- A call of a session's machine. -/
def exchange (h : Household) (id : SessionId) (call : Call) : Exchange :=
  { machine := h.machines id, home := h.home, call }

/-- The household after a call. -/
def next (h : Household) (id : SessionId) (call : Call) : Household :=
  { home := (h.exchange id call).step.home
    machines := Function.update h.machines id (h.exchange id call).step.machine }

/-- The calls of a run, each with the session it is made to. -/
def run (h : Household) : List (SessionId × Call) → List (SessionId × Exchange)
  | [] => []
  | (id, call) :: rest => (id, h.exchange id call) :: (h.next id call).run rest

/-- The household after a run. -/
def after (h : Household) (calls : List (SessionId × Call)) : Household :=
  calls.foldl (fun h c => h.next c.1 c.2) h

/-- What has been asked of the fan-out, by anyone. -/
def events (xs : List (SessionId × Exchange)) : List Event :=
  xs.flatMap fun x => x.2.step.events

/-- Who has been answered what. -/
def replies (xs : List (SessionId × Exchange)) : List (SessionId × Option Message) :=
  xs.map fun x => (x.1, x.2.step.reply)

/-- What a session can tell of a run: its replies and its machine after each of its calls. -/
def view (id : SessionId) (xs : List (SessionId × Exchange)) :
    List (Option Message × ServerMachine) :=
  (xs.filter fun x => x.1 = id).map fun x => (x.2.step.reply, x.2.step.machine)

/-- None of a session's challenges is answered. -/
def Stranger (u : SessionId) (xs : List (SessionId × Exchange)) : Prop :=
  ∀ x ∈ xs, x.1 = u → x.2.Fails

variable {h h' : Household} {u id : SessionId} {call : Call} {calls : List (SessionId × Call)}

theorem outside_new (version : SessionId → String) (users : Users) (home : Home) :
    ((new version users home).machines u).Outside :=
  ⟨ServerMachine.settled_new u (version u) users, by simp [new]⟩

@[simp] theorem machines_next_self (h : Household) (id : SessionId) (call : Call) :
    (h.next id call).machines id = (h.exchange id call).step.machine :=
  Function.update_self id _ h.machines

theorem machines_next_of_ne (hne : u ≠ id) : (h.next id call).machines u = h.machines u :=
  Function.update_of_ne hne _ h.machines

theorem mem_of_mem_run {x : SessionId × Exchange} (hx : x ∈ h.run calls) :
    (x.1, x.2.call) ∈ calls := by
  induction calls generalizing h with
  | nil => simp [Household.run] at hx
  | cons c calls ih =>
    rcases List.mem_cons.1 hx with rfl | hx
    · exact List.mem_cons_self
    · exact List.mem_cons_of_mem _ (ih hx)

/-! ## What the others notice -/

/-- Two households that differ only in a machine. -/
structure Alike (u : SessionId) (h h' : Household) : Prop where
  home : h.home = h'.home
  machines : ∀ id, id ≠ u → h.machines id = h'.machines id

/-- A call of another session finds and leaves the same. -/
theorem Alike.next (ha : Alike u h h') (hne : id ≠ u) (call : Call) :
    h.exchange id call = h'.exchange id call ∧ Alike u (h.next id call) (h'.next id call) := by
  have hx : h.exchange id call = h'.exchange id call := by
    rw [exchange, exchange, ha.home, ha.machines id hne]
  refine ⟨hx, by rw [Household.next, Household.next, hx], ?_⟩
  intro other ho
  by_cases hid : other = id
  · rw [hid, machines_next_self, machines_next_self, hx]
  · rw [machines_next_of_ne hid, machines_next_of_ne hid, ha.machines other ho]

theorem Alike.skip (ha : Alike u h h') (ho : (h.machines u).Outside)
    (hf : (h.exchange u call).Fails) : Alike u (h.next u call) h' := by
  have hquiet : (h.exchange u call).step.home = h.home := (Exchange.quiet_of_outside ho hf).1
  refine ⟨?_, ?_⟩
  · rw [← ha.home]
    exact hquiet
  · intro other hne
    rw [machines_next_of_ne hne, ha.machines other hne]

/-- Without the stranger's calls a run is the same for everybody else. -/
theorem Alike.run (ha : Alike u h h') (ho : (h.machines u).Outside) (hu : Stranger u (h.run calls)) :
    (h.after calls).home = (h'.after (calls.filter fun c => c.1 ≠ u)).home ∧
      events (h.run calls) = events (h'.run (calls.filter fun c => c.1 ≠ u)) ∧
      (replies (h.run calls)).filter (fun r => r.1 ≠ u) =
        replies (h'.run (calls.filter fun c => c.1 ≠ u)) := by
  induction calls generalizing h h' with
  | nil => exact ⟨ha.home, rfl, rfl⟩
  | cons c calls ih =>
    obtain ⟨id, call⟩ := c
    have hrest : Stranger u ((h.next id call).run calls) :=
      fun x hx => hu x (List.mem_cons_of_mem _ hx)
    -- A call of the stranger is made in the first run only, any other call in both.
    by_cases hid : id = u
    · subst hid
      have hf : (h.exchange id call).Fails := hu _ List.mem_cons_self rfl
      obtain ⟨-, hevents, hout⟩ := Exchange.quiet_of_outside (x := h.exchange id call) ho hf
      have ho' : ((h.next id call).machines id).Outside := by
        rw [machines_next_self]
        exact hout
      obtain ⟨hhome, hev, hrep⟩ := ih (ha.skip ho hf) ho' hrest
      rw [List.filter_cons_of_neg (by simp)]
      refine ⟨hhome, ?_, ?_⟩
      · rw [Household.run, events, List.flatMap_cons, hevents, List.nil_append]
        exact hev
      · rw [Household.run, replies, List.map_cons, List.filter_cons_of_neg (by simp)]
        exact hrep
    · obtain ⟨hx, hnext⟩ := ha.next hid call
      have ho' : ((h.next id call).machines u).Outside := by
        rw [machines_next_of_ne (Ne.symm hid)]
        exact ho
      obtain ⟨hhome, hev, hrep⟩ := ih hnext ho' hrest
      rw [List.filter_cons_of_pos (by simp [hid])]
      refine ⟨hhome, ?_, ?_⟩
      · rw [Household.run, Household.run, events, events, List.flatMap_cons, List.flatMap_cons, hx]
        exact congrArg _ hev
      · rw [Household.run, Household.run, replies, replies, List.map_cons, List.map_cons, hx,
          List.filter_cons_of_pos (by simp [hid])]
        exact congrArg _ hrep

/-! ## What a stranger learns -/

/-- The calls of a session as they would be in an empty home. -/
def alone (u : SessionId) (calls : List (SessionId × Call)) : List (Home × Call) :=
  (calls.filter fun c => c.1 = u).map fun c => (Home.empty, c.2)

theorem alone_cons_self (u : SessionId) (call : Call) (calls : List (SessionId × Call)) :
    alone u ((u, call) :: calls) = (Home.empty, call) :: alone u calls := by
  rw [alone, List.filter_cons_of_pos (by simp), List.map_cons, ← alone]

theorem alone_cons_of_ne (hne : id ≠ u) : alone u ((id, call) :: calls) = alone u calls := by
  rw [alone, List.filter_cons_of_neg (by simp [hne]), ← alone]

/-- The machines that a session's calls find do not depend on the home or on the others. -/
theorem map_run (h : Household) (u : SessionId) (calls : List (SessionId × Call)) :
    ((h.run calls).filter fun x => x.1 = u).map (fun x => x.2.within Home.empty) =
      (h.machines u).exchanges (alone u calls) := by
  induction calls generalizing h with
  | nil => rfl
  | cons c calls ih =>
    obtain ⟨id, call⟩ := c
    by_cases hid : id = u
    · subst hid
      have hmachine : (h.next id call).machines id =
          ((h.exchange id call).within Home.empty).step.machine := by
        rw [machines_next_self, Exchange.machine_of_home]
      rw [Household.run, List.filter_cons_of_pos (by simp), List.map_cons, ih, hmachine,
        alone_cons_self, ServerMachine.exchanges_cons]
      rfl
    · rw [Household.run, List.filter_cons_of_neg (by simp [hid]), ih, alone_cons_of_ne hid,
        machines_next_of_ne (Ne.symm hid)]

/-- A stranger's machine never admits anybody. -/
theorem Stranger.outside (hu : Stranger u (h.run calls)) (ho : (h.machines u).Outside) :
    ∀ x ∈ h.run calls, x.1 = u → x.2.machine.Outside := by
  induction calls generalizing h with
  | nil => simp [Household.run]
  | cons c calls ih =>
    obtain ⟨id, call⟩ := c
    rw [Household.run, Stranger, List.forall_mem_cons] at hu
    rw [Household.run, List.forall_mem_cons]
    have hnext : ((h.next id call).machines u).Outside := by
      by_cases hid : id = u
      · subst hid
        rw [machines_next_self]
        exact (Exchange.quiet_of_outside (x := h.exchange id call) ho (hu.1 rfl)).2.2
      · rw [machines_next_of_ne (Ne.symm hid)]
        exact ho
    refine ⟨?_, ih hu.2 hnext⟩
    rintro rfl
    exact ho

/-- A stranger sees what it would see alone in an empty home. -/
theorem Stranger.view (hu : Stranger u (h.run calls)) (ho : (h.machines u).Outside) :
    view u (h.run calls) =
      ((h.machines u).exchanges (alone u calls)).map fun x => (x.step.reply, x.step.machine) := by
  rw [← map_run, Household.view, List.map_map]
  refine List.map_congr_left ?_
  intro x hx
  obtain ⟨hmem, hid⟩ := List.mem_filter.1 hx
  have hid : x.1 = u := by simpa using hid
  have hreply := Exchange.reply_of_outside (hu.outside ho x hmem hid) (hu x hmem hid) Home.empty
  exact Prod.ext hreply.symm (x.2.machine_of_home Home.empty).symm

/-- Who is a stranger in one run is one in every run with the same calls. -/
theorem Stranger.transfer {calls' : List (SessionId × Call)} (hu : Stranger u (h.run calls))
    (hm : h'.machines u = h.machines u)
    (hcalls : (calls'.filter fun c => c.1 = u) = calls.filter fun c => c.1 = u) :
    Stranger u (h'.run calls') := by
  have hsame := h'.map_run u calls'
  rw [alone, hcalls, ← alone, hm, ← h.map_run u calls] at hsame
  intro x hx hid c body hv
  have hmem : x.2.within Home.empty ∈
      ((h'.run calls').filter fun x => x.1 = u).map fun x => x.2.within Home.empty :=
    List.mem_map.2 ⟨x, List.mem_filter.2 ⟨hx, by simpa using hid⟩, rfl⟩
  rw [hsame] at hmem
  obtain ⟨y, hy, hyx⟩ := List.mem_map.1 hmem
  obtain ⟨hy, hyid⟩ := List.mem_filter.1 hy
  obtain ⟨hmachine, -, hcall⟩ := Exchange.mk.inj hyx
  have hvy : y.2.verified? = some (c, body) := by
    rw [← hv, Exchange.verified?, Exchange.verified?, hmachine, hcall]
  rw [← hmachine]
  exact hu y hy (by simpa using hyid) c body hvy

/-- **Strangers.** Take new machines that share a home and any calls to them, and a session none of
whose responses answers its challenge. Without its calls, the home, the events and what all the
others are replied are the same. And its own replies, and its machine after each call, are the same
for any home and any calls to the others. -/
theorem stranger_isolated (version : SessionId → String) (users : Users) (home : Home)
    (calls : List (SessionId × Call)) (u : SessionId)
    (hu : Stranger u ((new version users home).run calls)) :
    (((new version users home).after calls).home =
          ((new version users home).after (calls.filter fun c => c.1 ≠ u)).home ∧
        events ((new version users home).run calls) =
          events ((new version users home).run (calls.filter fun c => c.1 ≠ u)) ∧
        (replies ((new version users home).run calls)).filter (fun r => r.1 ≠ u) =
          replies ((new version users home).run (calls.filter fun c => c.1 ≠ u))) ∧
      ∀ (home' : Home) (calls' : List (SessionId × Call)),
        (calls'.filter fun c => c.1 = u) = (calls.filter fun c => c.1 = u) →
          view u ((new version users home').run calls') = view u ((new version users home).run calls) := by
  have ho : ((new version users home).machines u).Outside := outside_new version users home
  refine ⟨Alike.run ⟨rfl, fun _ _ => rfl⟩ ho hu, ?_⟩
  intro home' calls' hcalls
  have hu' : Stranger u ((new version users home').run calls') := hu.transfer rfl hcalls
  rw [hu.view ho, hu'.view (outside_new version users home'), alone, alone, hcalls]
  rfl

/-- Somebody answers with nothing while Ada logs in: she is told and given what she would be anyway. -/
theorem stranger_isolated_ada :
    let users : Users := .ofPasswords [("ada", "byron")]
    let ada : Login := { username := "ada", password := "byron" }
    let calls : List (SessionId × Call) :=
      [(1, .process [] .ping), (2, .process [] .ping), (1, .process [7] (.version "1")),
        (2, .process [8] (.version "1")), (2, .process [] (.response [])),
        (1, .process [] (.response (ada.responseBody [7])))]
    let hers : List (SessionId × Call) :=
      [(1, .process [] .ping), (1, .process [7] (.version "1")),
        (1, .process [] (.response (ada.responseBody [7])))]
    let start := new (fun _ => "1") users Home.empty
    (start.after calls).home = (start.after hers).home ∧
      events (start.run calls) = events (start.run hers) ∧
      (replies (start.run calls)).filter (fun r => r.1 ≠ 2) = replies (start.run hers) := by
  intro users ada calls hers start
  have hu : Stranger 2 (start.run calls) := by
    intro x hx hid c body hv
    obtain ⟨fresh, incoming, hcall, hk, rfl⟩ := Exchange.response_of_verified hv
    have hmem : (x.1, x.2.call) ∈ calls := mem_of_mem_run hx
    have hempty : incoming.payload = [] := by
      simp only [calls, hid, hcall, List.mem_cons, Prod.mk.injEq, Call.process.injEq] at hmem
      rcases hmem with h | h | h | h | h | h | h <;> simp_all [Message.ping, Message.version, Message.response]
    rw [hempty]
    rfl
  exact (stranger_isolated (fun _ => "1") users Home.empty calls 2 hu).1

end Household

end HomeControl
