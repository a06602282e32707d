import HomeControl.Home.Generator
import HomeControl.Proofs.Home.Snapshot
import HomeControl.Proofs.Login.Users
import HomeControl.Proofs.Machine.Client
import HomeControl.Proofs.Machine.Server
import HomeControl.Proofs.Random.Draw

/-!
# Homes that are made up

The generator draws and adds in turn, and what cannot be made or is not taken is passed over. Here the
draws come first: `drawBatches` draws the devices of all kinds and adds none of them, and a home is made
up by adding its batches (`drawGroups_eq`). Whatever the stream, every device that is drawn can be made
(`always_drawDevice`), and as no more than 255 are drawn of a kind, the home takes all of them
(`group_collect`).
-/

namespace HomeControl.Generator

open HomeControl.Random

/-! ## What is drawn -/

/-- What the parameter in a slot may be when a device is made up. -/
structure InRange (slot : String) (value : UInt8) : Prop where
  temp : slot = "temp" → 15 ≤ value.toNat ∧ value.toNat ≤ 30
  channel : slot = "channel" → 1 ≤ value.toNat ∧ value.toNat ≤ 99
  other : slot ≠ "temp" → slot ≠ "channel" → value.toNat ≤ 100

/-- A device of a kind as it is made up. -/
structure MadeUp (k : Kind) (d : Device) : Prop where
  kind : d.kind = k
  legal : d.Legal
  params : List.Forall₂ InRange k.slots d.params
  name : ∃ room ∈ rooms, d.name = room ++ " " ++ k.label

/-- The devices of one kind as they are drawn. -/
structure Batch where
  kind : Kind
  /-- The number of devices that is drawn first. -/
  count : UInt8
  /-- The devices, or why they could not be made. -/
  devices : List (Except DeviceError Device)

/-- Draws the number of devices of a kind and the devices. -/
def drawBatch (tries : Nat) (maxPerKind : UInt8) (k : Kind) : Draw Batch := do
  let count ← byteBetween tries 1 maxPerKind.toNat
  let devices ← (List.replicate count.toNat k).mapM (drawDevice tries)
  return { kind := k, count, devices }

/-- Draws the devices of all kinds. -/
def drawBatches (tries : Nat) (maxPerKind : UInt8) : Draw (List Batch) :=
  Kind.all.mapM (drawBatch tries maxPerKind)

variable {k : Kind} {tries tries' : Nat} {maxPerKind : UInt8} {slot : String} {value : UInt8}

theorem slotRange_le (slot : String) : (slotRange slot).1 ≤ (slotRange slot).2 := by
  unfold slotRange
  split_ifs <;> decide

theorem slotRange_lt (slot : String) : (slotRange slot).2 < 256 := by
  unfold slotRange
  split_ifs <;> decide

/-- What lies between the bounds of a slot is in its range. -/
theorem inRange_of_slotRange (hl : (slotRange slot).1 ≤ value.toNat)
    (hh : value.toNat ≤ (slotRange slot).2) : InRange slot value := by
  constructor
  · rintro rfl
    exact ⟨hl, hh⟩
  · rintro rfl
    exact ⟨hl, hh⟩
  · intro ht hc
    rw [slotRange, if_neg ht, if_neg hc] at hh
    exact hh

theorem getD_rooms_mem {room : Nat} (h : room < rooms.length) : rooms.getD room "spare" ∈ rooms := by
  rw [List.getD_eq_getElem?_getD, List.getElem?_eq_getElem h, Option.getD_some]
  exact List.getElem_mem h

/-- Every device that is drawn can be made. -/
theorem always_drawDevice (tries : Nat) (k : Kind) :
    Always (fun r => ∃ d, r = .ok d ∧ MadeUp k d) (drawDevice tries k) := by
  refine (always_position (by decide)).bind ?_
  intro room hroom
  have hstates : 0 < k.states.length ∧ k.states.length < 256 := by cases k <;> decide
  refine (always_wideBelow hstates.1).bind ?_
  intro state hstate
  have hslots : ∀ slot ∈ k.slots, Always (InRange slot)
      (byteBetween tries (slotRange slot).1 (slotRange slot).2) := fun slot _ =>
    (always_byteBetween (slotRange_le slot) (slotRange_lt slot)).mono fun value hv =>
      inRange_of_slotRange hv.1 hv.2
  refine (Always.mapM hslots).bind ?_
  intro params hparams
  have hbyte : (UInt8.ofNat state).toNat < k.states.length := by
    rw [UInt8.toNat_ofNat']
    omega
  have hlength : params.length = k.slots.length := hparams.length_eq.symm
  exact .pure ⟨_, Device.make_eq_ok.2 ⟨hbyte, hlength, rfl⟩,
    ⟨rfl, ⟨hbyte, hlength⟩, hparams, _, getD_rooms_mem hroom, rfl⟩⟩

/-- The name of any kind in any room is tidy, and fits the name field. -/
theorem names_tidy : ∀ k ∈ Kind.all, ∀ room ∈ rooms,
    (Utf8.encode (room ++ " " ++ k.label)).length ≤ nameLength ∧
      Text.trimEnd (room ++ " " ++ k.label) = room ++ " " ++ k.label := by
  decide +kernel

/-- The name of a device that is made up fits its field. -/
theorem MadeUp.tidy {d : Device} (hd : MadeUp k d) : d.Tidy := by
  obtain ⟨room, hroom, hname⟩ := hd.name
  obtain ⟨hfits, htrimmed⟩ := names_tidy k (Home.mem_all k) room hroom
  exact ⟨by rw [hname]; exact hfits, by rw [hname]; exact htrimmed⟩

/-- A batch as it is drawn. -/
structure Batch.Drawn (maxPerKind : UInt8) (k : Kind) (b : Batch) : Prop where
  kind : b.kind = k
  pos : 1 ≤ b.count.toNat
  le : b.count.toNat ≤ maxPerKind.toNat
  length : b.devices.length = b.count.toNat
  made : ∀ r ∈ b.devices, ∃ d, r = .ok d ∧ MadeUp k d

/-- Whatever is drawn for a kind is one of its batches. -/
theorem always_drawBatch (hm : 1 ≤ maxPerKind.toNat) (k : Kind) :
    Always (Batch.Drawn maxPerKind k) (drawBatch tries maxPerKind k) := by
  refine (always_byteBetween hm maxPerKind.toNat_lt).bind ?_
  intro count hcount
  have hmade : ∀ k' ∈ List.replicate count.toNat k,
      Always (fun r => ∃ d, r = .ok d ∧ MadeUp k d) (drawDevice tries k') := by
    intro k' hk
    rw [List.eq_of_mem_replicate hk]
    exact always_drawDevice tries k
  refine (Always.mapM_mem hmade).bind ?_
  rintro drawn ⟨hlength, hdrawn⟩
  rw [List.length_replicate] at hlength
  exact .pure ⟨rfl, hcount.1, hcount.2, hlength, hdrawn⟩

theorem always_drawBatches (hm : 1 ≤ maxPerKind.toNat) :
    Always (List.Forall₂ (Batch.Drawn maxPerKind) Kind.all) (drawBatches tries maxPerKind) :=
  .mapM fun k _ => always_drawBatch hm k

/-- A batch has at least one device and at most as many as are wanted, all made up. -/
theorem Batch.Drawn.group {b : Batch} {ds : List Device} (hb : b.Drawn maxPerKind k)
    (hds : b.devices = ds.map .ok) :
    1 ≤ ds.length ∧ ds.length ≤ maxPerKind.toNat ∧ ∀ d ∈ ds, MadeUp k d := by
  have hlength := hb.length
  rw [hds, List.length_map] at hlength
  refine ⟨hlength ▸ hb.pos, hlength ▸ hb.le, ?_⟩
  intro d hd
  obtain ⟨d', hd', hmade⟩ := hb.made (.ok d) (hds ▸ List.mem_map_of_mem hd)
  rw [Except.ok.inj hd']
  exact hmade

/-! ## Adding what is drawn -/

/-- A home with one more device, if it could be made and is taken. -/
def keep (h : Home) (d : Except DeviceError Device) : Home :=
  match d.bind h.add with
  | .ok (h, _) => h
  | .error _ => h

/-- A home with the devices of all batches, as far as they could be made and are taken. -/
def collect (h : Home) (bs : List Batch) : Home :=
  bs.foldl (fun h b => b.devices.foldl keep h) h

theorem collect_cons (h : Home) (b : Batch) (bs : List Batch) :
    collect h (b :: bs) = collect (b.devices.foldl keep h) bs := rfl

theorem drawDevices_succ (tries : Nat) (k : Kind) (n : Nat) (h : Home) :
    drawDevices tries k (n + 1) h =
      drawDevice tries k >>= fun d => drawDevices tries k n (keep h d) := by
  rw [drawDevices]
  refine bind_congr ?_
  intro d
  rw [keep]
  cases d.bind h.add <;> rfl

/-- To keep each device as it is drawn is to draw them all and keep them then. -/
theorem drawDevices_eq (tries : Nat) (k : Kind) (n : Nat) (h : Home) : drawDevices tries k n h =
    List.foldl keep h <$> (List.replicate n k).mapM (drawDevice tries) := by
  induction n generalizing h with
  | zero => simp [drawDevices]
  | succ n ih =>
    simp only [drawDevices_succ, ih, List.replicate_succ, List.mapM_cons, map_bind, bind_pure_comp,
      Functor.map_map, List.foldl_cons]

/-- A home is made up by drawing all batches and adding them. -/
theorem drawGroups_eq (tries : Nat) (maxPerKind : UInt8) (ks : List Kind) (h : Home) :
    drawGroups tries maxPerKind ks h = collect h <$> ks.mapM (drawBatch tries maxPerKind) := by
  induction ks generalizing h with
  | nil => simp [drawGroups, collect]
  | cons k ks ih =>
    simp only [drawGroups, drawBatch, drawDevices_eq, ih, List.mapM_cons, collect_cons, map_bind,
      bind_assoc, bind_pure_comp, bind_map_left, Functor.map_map]

variable {h : Home}

theorem keep_of_room {d : Device} (hroom : (h.group d.kind).length < Home.capacity) :
    keep h (.ok d) = h.setGroup d.kind (h.group d.kind ++ [d]) := by
  simp only [keep, Except.bind, Home.add, if_pos hroom]

/-- A home takes devices of one kind as long as there is room. -/
theorem foldl_keep {rs : List (Except DeviceError Device)}
    (hmade : ∀ r ∈ rs, ∃ d, r = .ok d ∧ d.kind = k)
    (hroom : (h.group k).length + rs.length ≤ Home.capacity) :
    ∃ ds, rs = ds.map .ok ∧ rs.foldl keep h = h.setGroup k (h.group k ++ ds) := by
  induction rs generalizing h with
  | nil => exact ⟨[], rfl, by rw [List.append_nil, Home.setGroup_group]; rfl⟩
  | cons r rs ih =>
    obtain ⟨d, rfl, rfl⟩ := hmade r List.mem_cons_self
    rw [List.length_cons] at hroom
    have hkept := keep_of_room (h := h) (d := d) (by omega)
    have hleft : ((keep h (.ok d)).group d.kind).length + rs.length ≤ Home.capacity := by
      rw [hkept, Home.group_setGroup_self, List.length_append, List.length_singleton]
      omega
    obtain ⟨ds, hds, hfold⟩ := ih (fun r hr => hmade r (List.mem_cons_of_mem _ hr)) hleft
    refine ⟨d :: ds, by rw [hds, List.map_cons], ?_⟩
    rw [List.foldl_cons, hfold, hkept, Home.group_setGroup_self, Home.setGroup_setGroup,
      List.append_assoc, List.singleton_append]

/-- A home without devices of the kinds that are drawn takes everything that is drawn. -/
theorem group_collect {ks : List Kind} {bs : List Batch}
    (hb : List.Forall₂ (Batch.Drawn maxPerKind) ks bs) (hn : ks.Nodup)
    (he : ∀ k ∈ ks, h.group k = []) :
    (∀ k ∉ ks, (collect h bs).group k = h.group k) ∧
      List.Forall₂ (fun k b => b.devices = ((collect h bs).group k).map .ok) ks bs := by
  induction hb generalizing h with
  | nil => exact ⟨fun k _ => rfl, .nil⟩
  | @cons k b ks bs hdrawn _ ih =>
    obtain ⟨hk, hn⟩ := List.nodup_cons.1 hn
    have hroom : (h.group k).length + b.devices.length ≤ Home.capacity := by
      have hcount := b.count.toNat_lt
      rw [he k List.mem_cons_self, hdrawn.length, List.length_nil, Home.capacity]
      omega
    -- the batch fills the group of its kind, which is empty, and leaves the others alone
    obtain ⟨ds, hds, hfold⟩ := foldl_keep (fun r hr => (hdrawn.made r hr).imp fun d hd =>
      ⟨hd.1, hd.2.kind⟩) hroom
    rw [he k List.mem_cons_self, List.nil_append] at hfold
    have hother : ∀ k' ≠ k, (b.devices.foldl keep h).group k' = h.group k' := by
      intro k' hne
      rw [hfold, Home.group_setGroup_of_ne hne]
    have hempty : ∀ k' ∈ ks, (b.devices.foldl keep h).group k' = [] := by
      intro k' hk'
      rw [hother k' (ne_of_mem_of_not_mem hk' hk), he k' (List.mem_cons_of_mem k hk')]
    obtain ⟨hrest, hgroups⟩ := ih hn hempty
    rw [collect_cons]
    refine ⟨?_, .cons ?_ hgroups⟩
    · intro k' hk'
      obtain ⟨hne, hk'⟩ := not_or.1 (mt List.mem_cons.2 hk')
      rw [hrest k' hk', hother k' hne]
    · rw [hrest k hk, hfold, Home.group_setGroup_self, hds]

/-! ## Homes -/

/-- The next home is made up if every draw ends, however many words it refuses. -/
def Makes (g : Generator) (h : Home) (g' : Generator) : Prop :=
  ∃ tries, g.nextWithin tries = some (h, g')

/-- A generator from which any number of homes have been made up. -/
inductive Reached (seed : UInt64) (maxPerKind : UInt8) : Generator → Prop where
  | start : Reached seed maxPerKind (make seed maxPerKind)
  | next {g g' : Generator} {h : Home} (hr : Reached seed maxPerKind g) (hm : g.Makes h g') :
      Reached seed maxPerKind g'

variable {seed : UInt64} {g g' : Generator}

/-- A generator comes to a home if it draws the batches of that home. -/
theorem nextWithin_eq_some : g.nextWithin tries = some (h, g') ↔
    ∃ bs, (drawBatches tries g.maxPerKind).run g.stream = some (bs, g'.stream) ∧
      h = collect Home.empty bs ∧ g'.maxPerKind = g.maxPerKind := by
  have hrun : drawGroups tries g.maxPerKind Kind.all Home.empty g.stream =
      ((drawBatches tries g.maxPerKind).run g.stream).map fun r => (collect Home.empty r.1, r.2) := by
    rw [drawGroups_eq]
    exact StateT.run_map _ _ _
  rw [nextWithin, hrun]
  cases (drawBatches tries g.maxPerKind).run g.stream with
  | none => simp
  | some r =>
    obtain ⟨bs, stream⟩ := r
    obtain ⟨stream', max'⟩ := g'
    simp only [Option.map_some, Option.some.injEq, Prod.mk.injEq, mk.injEq]
    constructor
    · rintro ⟨rfl, rfl, rfl⟩
      exact ⟨bs, ⟨rfl, rfl⟩, rfl, rfl⟩
    · rintro ⟨bs', ⟨rfl, rfl⟩, rfl, rfl⟩
      exact ⟨rfl, rfl, rfl⟩

theorem maxPerKind_make (seed : UInt64) (maxPerKind : UInt8) :
    (make seed maxPerKind).maxPerKind.toNat = max 1 maxPerKind.toNat := by
  rw [make]
  split
  · rename_i hzero
    rw [hzero]
    rfl
  · rename_i hpos
    have hnat : maxPerKind.toNat ≠ 0 := fun h => hpos (UInt8.toNat_inj.1 h)
    exact (Nat.max_eq_right (Nat.one_le_iff_ne_zero.2 hnat)).symm

/-- The most of each kind is what it was set to, and at least one. -/
theorem Reached.toNat_maxPerKind (hr : Reached seed maxPerKind g) :
    g.maxPerKind.toNat = max 1 maxPerKind.toNat := by
  induction hr with
  | start => exact maxPerKind_make seed maxPerKind
  | next _ hm ih =>
    obtain ⟨tries, hnext⟩ := hm
    obtain ⟨bs, -, -, hsame⟩ := nextWithin_eq_some.1 hnext
    rw [hsame, ih]

/-! ## Patience -/

theorem refines_drawDevice (h : tries ≤ tries') (k : Kind) :
    Refines (drawDevice tries k) (drawDevice tries' k) :=
  (refines_drawBelow h).bind fun _ => (refines_drawBelow h).bind fun _ =>
    (Refines.mapM (fun _ => refines_byteBetween h) k.slots).bind fun _ => .refl _

theorem refines_drawBatches (h : tries ≤ tries') :
    Refines (drawBatches tries maxPerKind) (drawBatches tries' maxPerKind) :=
  .mapM (fun _ => (refines_byteBetween h).bind fun _ =>
    (Refines.mapM (refines_drawDevice h) _).bind fun _ => .refl _) Kind.all

/-- With more tries the home is as with fewer, where those are enough. -/
theorem nextWithin_mono {r : Home × Generator} (h : tries ≤ tries')
    (hr : g.nextWithin tries = some r) : g.nextWithin tries' = some r := by
  obtain ⟨bs, hdrawn, hrest⟩ := nextWithin_eq_some.1 hr
  exact nextWithin_eq_some.2 ⟨bs, refines_drawBatches h _ _ hdrawn, hrest⟩

/-- How many words a draw may refuse does not show in the home. -/
theorem Makes.unique {g₁ g₂ : Generator} {h₁ h₂ : Home} (hm₁ : g.Makes h₁ g₁) (hm₂ : g.Makes h₂ g₂) :
    h₁ = h₂ ∧ g₁ = g₂ := by
  obtain ⟨n₁, hn₁⟩ := hm₁
  obtain ⟨n₂, hn₂⟩ := hm₂
  have hsame := (nextWithin_mono (Nat.le_max_left n₁ n₂) hn₁).symm.trans
    (nextWithin_mono (Nat.le_max_right n₁ n₂) hn₂)
  exact Prod.mk.inj (Option.some.inj hsame)

/-! ## Homes that are made up -/

/-- One batch of each kind is drawn, and the home holds its devices. -/
theorem Makes.batches (hmax : 1 ≤ g.maxPerKind.toNat) (hm : g.Makes h g') :
    ∃ tries bs, (drawBatches tries g.maxPerKind).run g.stream = some (bs, g'.stream) ∧
      List.Forall₂ (fun k b => b.Drawn g.maxPerKind k ∧ b.devices = (h.group k).map .ok) Kind.all bs := by
  obtain ⟨tries, hnext⟩ := hm
  obtain ⟨bs, hdrawn, rfl, -⟩ := nextWithin_eq_some.1 hnext
  have hbatches := always_drawBatches hmax _ bs _ hdrawn
  have hgroups := (group_collect hbatches (by decide) fun k _ => Home.empty_group k).2
  refine ⟨tries, bs, hdrawn, List.forall₂_iff_zip.2 ⟨hbatches.length_eq, ?_⟩⟩
  intro k b hb
  exact ⟨List.forall₂_zip hbatches hb, List.forall₂_zip hgroups hb⟩

/-- Each group of a home that is made has at least one device and at most as many as are wanted, all made
up. -/
theorem Makes.group (hmax : 1 ≤ g.maxPerKind.toNat) (hm : g.Makes h g') (k : Kind) :
    1 ≤ (h.group k).length ∧ (h.group k).length ≤ g.maxPerKind.toNat ∧
      ∀ d ∈ h.group k, MadeUp k d := by
  obtain ⟨tries, bs, -, hbatches⟩ := hm.batches hmax
  have hkinds : List.Forall₂ (fun k _ => (1 ≤ (h.group k).length ∧
      (h.group k).length ≤ g.maxPerKind.toNat ∧ ∀ d ∈ h.group k, MadeUp k d) ∧ True) Kind.all bs :=
    hbatches.imp fun k b hb => ⟨hb.1.group hb.2, trivial⟩
  exact ((List.forall₂_and_left _ _).1 hkinds).1 k (Home.mem_all k)

theorem Makes.valid (hmax : 1 ≤ g.maxPerKind.toNat) (hm : g.Makes h g') : h.Valid := by
  constructor
  · intro k d hd
    have hmade := (hm.group hmax k).2.2 d hd
    exact ⟨hmade.kind, hmade.legal⟩
  · intro k
    exact Nat.le_trans (hm.group hmax k).2.1 (Nat.le_of_lt_succ g.maxPerKind.toNat_lt)

theorem Makes.ofSnapshot (hmax : 1 ≤ g.maxPerKind.toNat) (hm : g.Makes h g') :
    Home.ofSnapshot h.snapshot = .ok h :=
  Home.ofSnapshot_of_tidy (hm.valid hmax) fun k d hd => ((hm.group hmax k).2.2 d hd).tidy

/-- Whoever is admitted to a home that its snapshot shows as it is has that home. -/
theorem home_of_admitted {server : ServerMachine} {fresh : Bytes} {incoming answer : Message}
    {client : ClientMachine} (hread : Home.ofSnapshot h.snapshot = .ok h) (hs : server.Settled)
    (ha : (server.process h fresh incoming).reply = some answer) (hk : answer.keycode = .initial)
    (hc : client.state = .clientAwaitsInit) : (client.process answer).1.home = some h := by
  obtain ⟨step, hstep, ho⟩ : ∃ step, server.process h fresh incoming = step ∧
      ServerMachine.Outcome server h fresh incoming step :=
    ⟨_, rfl, ServerMachine.process_outcome hs h fresh incoming⟩
  rw [hstep] at ha
  cases ho with
  | admitted =>
    obtain rfl := Option.some.inj ha
    rw [ClientMachine.process_initial hc hread]
  | refused v =>
    rw [← Option.some.inj ha, Violation.reply_keycode] at hk
    cases hk
  | farewell | greeted | challenged | accepted | denied =>
    rw [← Option.some.inj ha] at hk
    cases hk

/-- **Homes that are made up.** Whatever the seed, the greatest number of devices and the number of homes
before, if every draw ends then a home holds one up to that number of devices of each kind, at least one
being allowed, and they are all the devices that were drawn. Every device is in a state of its kind, has
its parameters in range and a name that fits its field. The snapshot of the home is read as the home, so
a client that is admitted starts with the home of the server. -/
theorem homes_exact (hr : Reached seed maxPerKind g) (hm : g.Makes h g') :
    (∀ k, 1 ≤ (h.group k).length ∧ (h.group k).length ≤ max 1 maxPerKind.toNat) ∧
    (∃ tries bs, (drawBatches tries g.maxPerKind).run g.stream = some (bs, g'.stream) ∧
      List.Forall₂ (fun k b => b.kind = k ∧ b.devices.length = b.count.toNat ∧
        b.devices = (h.group k).map .ok) Kind.all bs) ∧
    (∀ k, ∀ d ∈ h.group k, d.kind = k ∧ d.state.toNat < k.states.length ∧
      List.Forall₂ InRange k.slots d.params ∧ (Utf8.encode d.name).length ≤ 16) ∧
    Home.ofSnapshot h.snapshot = .ok h ∧
    ∀ (server : ServerMachine) (client : ClientMachine) (fresh : Bytes) (incoming answer : Message),
      server.Settled → (server.process h fresh incoming).reply = some answer →
      answer.keycode = .initial → client.state = .clientAwaitsInit →
      (client.process answer).1.home = some h := by
  have hmax : g.maxPerKind.toNat = max 1 maxPerKind.toNat := hr.toNat_maxPerKind
  have hpos : 1 ≤ g.maxPerKind.toNat := hmax ▸ Nat.le_max_left 1 _
  have hread := hm.ofSnapshot hpos
  refine ⟨?_, ?_, ?_, hread, fun server client fresh incoming answer => home_of_admitted hread⟩
  · intro k
    obtain ⟨hone, hmost, -⟩ := hm.group hpos k
    exact ⟨hone, hmax ▸ hmost⟩
  · obtain ⟨tries, bs, hdrawn, hbatches⟩ := hm.batches hpos
    exact ⟨tries, bs, hdrawn, hbatches.imp fun k b hb => ⟨hb.1.kind, hb.1.length, hb.2⟩⟩
  · intro k d hd
    have hmade := (hm.group hpos k).2.2 d hd
    obtain rfl := hmade.kind
    exact ⟨rfl, hmade.legal.1, hmade.params, hmade.tidy.fits⟩

/-- The second home of the seed that is used when none is set, and a client that is admitted to it. -/
theorem homes_exact_second : ∃ g₁ g₂ h₁ h₂, (make defaultSeed defaultMaxPerKind).next = some (h₁, g₁) ∧
    g₁.next = some (h₂, g₂) ∧ (∀ k, 1 ≤ (h₂.group k).length ∧ (h₂.group k).length ≤ 3) ∧
    Home.ofSnapshot h₂.snapshot = .ok h₂ ∧
    let ada : Login := { username := "ada", password := "byron" }
    let server : ServerMachine :=
      { session := 1, version := "1", users := .ofPasswords [("ada", "byron")]
        state := .serverAwaitsResponse, challenge := some [7] }
    let client : ClientMachine := { version := "1", login := ada, state := .clientAwaitsInit }
    ∃ answer, (server.process h₂ [] (.response (ada.responseBody [7]))).reply = some answer ∧
      (client.process answer).1.home = some h₂ := by
  have hended : ((make defaultSeed defaultMaxPerKind).next.bind fun r => r.2.next).isSome = true := by
    decide +kernel
  obtain ⟨⟨h₂, g₂⟩, hboth⟩ := Option.isSome_iff_exists.1 hended
  obtain ⟨⟨h₁, g₁⟩, hfirst, hsecond⟩ := Option.bind_eq_some_iff.1 hboth
  obtain ⟨hcounts, -, -, hread, hmirror⟩ :=
    homes_exact (.next .start ⟨drawLimit, hfirst⟩) ⟨drawLimit, hsecond⟩
  refine ⟨g₁, g₂, h₁, h₂, hfirst, hsecond, hcounts, hread, ?_⟩
  intro ada server client
  have hverified : server.users.verify [7] (ada.responseBody [7]) = true :=
    Users.verify_responseBody (by simp [ada, server, Users.secret?, Users.ofPasswords, Users.insert])
      (by decide) [7]
  have hreply : (server.process h₂ [] (.response (ada.responseBody [7]))).reply =
      some (.initial h₂.snapshot) := by
    rw [ServerMachine.process_response rfl rfl rfl hverified]
  have hsettled : server.Settled := ⟨.inr (.inr (.inl rfl)), by simp [server], rfl⟩
  exact ⟨_, hreply, hmirror server client _ _ _ hsettled hreply rfl rfl⟩

end HomeControl.Generator
