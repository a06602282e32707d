import HomeControl.Proofs.Conversation.Conforming

/-!
# Mirrors

Whenever a client and its session are at rest, the client's mirror is the home that was handed over
with all actions applied that have been accepted since, but in the order in which the client was told
of them (`mirror_at_rest`). That is the order in which the home has changed, except that an action of
the client's own may have overtaken updates about other clients' actions. Unless it has overtaken one
about the same device the mirror is the server's home; if it has, it need not be (`mirror_differs`).
-/

namespace HomeControl.Net

open Hub (Sound)

variable {Args : Bytes → Prop} {start : Hub} {net : Net} {id : SessionId} {p : Peer} {version : String}
  {users : Users} {home : Home}

/-- **Mirrors at rest.** Take any server whose home is tidy and any clients that know their logins, at
any time at which a client and its session are at rest. The session has handed over the home as it
was before some step `r`. Since then it has reported to the client every action of the others that
the home has accepted, in their order; the mirror is the home before `r` after what the client has
been told of, and the home is the home before `r` after all that has been accepted. So the mirror is
the server's home exactly if these two orders of the same actions lead to the same home, and they do
unless an action of the client's own has overtaken an update about the same device. -/
theorem mirror_at_rest (h : Reachable Args { version, users, home } net) (hvalid : home.Valid)
    (htidy : home.Tidy) (hoffer : Line.Fits (.version version))
    (hids : registrations net.history ≤ UInt64.size) (hp : net.peers id = some p) (hrest : AtRest net id p) :
    ∃ earlier r between, net.history = earlier ++ r :: between ∧
      r.HandsOver id r.before.home.snapshot ∧
      (between.flatMap fun q => q.updates id) = (between.filterMap fun q => q.foreign? id).map .update ∧
      p.session.machine.home = some (r.before.home.replay (between.flatMap fun q => q.told id)) ∧
      net.hub.home = r.before.home.replay (between.filterMap fun q => q.accepted?.map Prod.snd) ∧
      (p.session.machine.home = some net.hub.home ↔
        r.before.home.replay (between.flatMap fun q => q.told id) =
          r.before.home.replay (between.filterMap fun q => q.accepted?.map Prod.snd)) ∧
      ((∀ q ∈ between, ¬ q.Overtakes id) → p.session.machine.home = some net.hub.home) := by
  have hs := h.sane hvalid hoffer hids
  cases hs.linked id p hp with
  | dying _ _ _ hd =>
    have hw := hd.waiting
    rw [hrest.asks] at hw
    cases hw
  | ended _ _ hidle =>
    rw [hrest.asks] at hidle
    cases hidle
  | @live sm ups downs target ha =>
    obtain ⟨hsm, -, hhome⟩ := at_rest ha hrest.up hrest.down
    obtain ⟨earlier, r, between, hhist, htold, rfl⟩ := ha.told hsm
    have hr : r ∈ net.history := by
      rw [hhist]
      exact List.mem_append_right _ List.mem_cons_self
    rw [((h.tidy hvalid htidy hoffer hids).2 r hr).shown_eq] at hhome
    have hreported := htold.reported
    rw [hrest.queue, List.append_nil] at hreported
    refine ⟨earlier, r, between, hhist, htold.handsOver, hreported, hhome, htold.home, ?_, ?_⟩
    · rw [hhome, htold.home, Option.some_inj]
    · intro hov
      rw [hhome, htold.inOrder hov, Hub.waiting, hrest.queue]
      rfl

theorem tidy_study : study.home.Tidy := by
  intro k d hd
  cases k with
  | light =>
    obtain rfl := List.mem_singleton.1 hd
    exact ⟨by decide, by decide⟩
  | blind => cases hd
  | thermo => cases hd
  | tv => cases hd
  | slock => cases hd

/-- Ada's mirror is what she has been told. -/
theorem mirror_at_rest_ada : ∃ net p, Reachable (fun params => params.length ≤ 1) study net ∧
    net.peers 1 = some p ∧ AtRest net 1 p ∧ ∃ r ∈ net.history, ∃ between : List Record,
      r.HandsOver 1 r.before.home.snapshot ∧
      p.session.machine.home = some (r.before.home.replay (between.flatMap fun q => q.told 1)) ∧
      net.hub.home = r.before.home.replay (between.filterMap fun q => q.accepted?.map Prod.snd) := by
  obtain ⟨net, p, h, hids, hp, hrest⟩ := rest_ada
  obtain ⟨earlier, r, between, hhist, hhand, -, hmirror, hhome, -⟩ :=
    mirror_at_rest h valid_study tidy_study offer_study hids hp hrest
  exact ⟨net, p, h, hp, hrest, r, by simp [hhist], between, hhand, hmirror, hhome⟩

/-! ## An update that is overtaken -/

/-- Steps that may be taken at any time. -/
def Act.Free : Act → Prop
  | .connect login => login = ada
  | .other _ => False
  | .serve _ _ fresh => fresh.length = challengeLength
  | _ => True

instance : DecidablePred Act.Free
  | .connect login => inferInstanceAs (Decidable (login = ada))
  | .other _ => inferInstanceAs (Decidable False)
  | .serve _ _ fresh => inferInstanceAs (Decidable (fresh.length = challengeLength))
  | .flush _ => inferInstanceAs (Decidable True)
  | .hear _ _ => inferInstanceAs (Decidable True)
  | .act _ => inferInstanceAs (Decidable True)
  | .post _ _ _ _ _ _ => inferInstanceAs (Decidable True)

/-- Ada logs in on the next connection. -/
def logIn (id : SessionId) : List Act :=
  let fresh := List.replicate challengeLength 0
  [.connect ada, .serve id 100 fresh, .hear id 100, .serve id 100 fresh, .hear id 100,
   .serve id 100 fresh, .hear id 100]

/-- Ada, logged in twice, turns the lamp on with her first client and off with her second. The server
takes the second action before it passes on the update about the first. -/
def overtaking : List Act :=
  let fresh := List.replicate challengeLength 0
  logIn 1 ++ logIn 2 ++
    [.post 1 0 .light 0 0 [], .act 1, .post 2 0 .light 0 1 [], .act 2, .serve 1 100 fresh,
     .serve 2 100 fresh, .flush 2, .hear 2 100, .hear 2 100]

/-- The lamp is off, and on in the mirror of the second client. -/
theorem mirror_differs : ∃ net p, Reachable (fun _ => True) study net ∧ net.peers 2 = some p ∧
    AtRest net 2 p ∧ p.session.machine.home ≠ some net.hub.home := by
  have hfree : ∀ act ∈ overtaking, act.Free := by decide
  have hreach : Reachable (fun _ => True) study (run { hub := study } overtaking) := by
    refine Reachable.start.run ?_
    intro act hact net husers
    have hf := hfree act hact
    cases act with
    | connect login =>
      obtain rfl : login = ada := hf
      show ada.Works net.hub.users
      rw [husers]
      exact ada_works
    | other act => cases hf
    | serve id n fresh => exact hf
    | _ => trivial
  have hend : ((run { hub := study } overtaking).peers 2).any (fun p =>
      decide (p.session.machine.state = .serverAwaitsAction) && p.up.isIdle && p.down.isIdle &&
        decide ((run { hub := study } overtaking).hub.registry.queued 2 = []) &&
        decide (p.session.machine.home ≠ some (run { hub := study } overtaking).hub.home)) = true := by
    decide +kernel
  obtain ⟨p, hp, hcheck⟩ := Option.any_eq_true _ _ |>.1 hend
  simp only [Bool.and_eq_true, decide_eq_true_eq] at hcheck
  obtain ⟨⟨⟨⟨hasks, hup⟩, hdown⟩, hqueue⟩, hhome⟩ := hcheck
  exact ⟨_, p, hreach, hp, ⟨hasks, hup, hdown, hqueue⟩, hhome⟩

end HomeControl.Net
