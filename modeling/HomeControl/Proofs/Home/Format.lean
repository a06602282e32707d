import HomeControl.Home.Snapshot
import HomeControl.Proofs.Home.Valid
import HomeControl.Proofs.Text.Utf8
import Mathlib.Data.List.Basic

/-!
# The format of snapshots

A snapshot lays out, for each kind, a count byte and as many descriptions of devices. The reader
accepts exactly the byte strings that are laid out so, and reads them as the homes they describe:
`Home.ofSnapshot_eq_ok`. Each of its functions is characterised on the way by what stands between the
place where it starts and the place where it stops (`Cursor.Reads`), in both directions at once.
-/

namespace HomeControl

/-! ## Layouts -/

/-- What a snapshot says of one device. -/
structure Description where
  field : Bytes
  state : UInt8
  params : Bytes

namespace Description

/-- The bytes of a description: the name field, the state and the slots. -/
def bytes (x : Description) : Bytes :=
  x.field ++ x.state :: x.params

/-- A description of a device of some kind. -/
structure Fits (k : Kind) (x : Description) : Prop where
  field : x.field.length = nameLength
  state : x.state.toNat < k.states.length
  params : x.params.length = k.slots.length

/-- The device that is described. -/
def device (k : Kind) (x : Description) : Device :=
  { kind := k, name := Device.nameOfField x.field, state := x.state, params := x.params }

/-- The count byte and the descriptions of one kind. -/
def group (xs : List Description) : Bytes :=
  UInt8.ofNat xs.length :: xs.flatMap bytes

end Description

/-- The descriptions of all devices, by kind. -/
structure Layout where
  descriptions : Kind → List Description
  fits : ∀ k, ∀ x ∈ descriptions k, x.Fits k
  size : ∀ k, (descriptions k).length ≤ Home.capacity

namespace Layout

/-- The bytes of a layout: the groups in the order of their kinds. -/
def bytes (l : Layout) : Bytes :=
  Kind.all.flatMap fun k => Description.group (l.descriptions k)

/-- The devices of one kind that are described. -/
def devices (l : Layout) (k : Kind) : List Device :=
  (l.descriptions k).map (Description.device k)

/-- The home that is described. -/
def home (l : Layout) : Home where
  lights := l.devices .light
  blinds := l.devices .blind
  thermos := l.devices .thermo
  tvs := l.devices .tv
  slocks := l.devices .slock

@[simp] theorem group_home (l : Layout) (k : Kind) : l.home.group k = l.devices k := by
  cases k <;> rfl

/-- A home that is described is valid. -/
theorem valid_home (l : Layout) : l.home.Valid := by
  constructor
  · intro k d hd
    rw [group_home, devices, List.mem_map] at hd
    obtain ⟨x, hx, rfl⟩ := hd
    exact ⟨rfl, (l.fits k x hx).state, (l.fits k x hx).params⟩
  · intro k
    rw [group_home, devices, List.length_map]
    exact l.size k

/-- A group takes its count byte and the same space for each description. -/
theorem length_group {k : Kind} {xs : List Description} (h : ∀ x ∈ xs, x.Fits k) :
    (Description.group xs).length = 1 + xs.length * (nameLength + 1 + k.slots.length) := by
  have hbytes : ∀ x ∈ xs, x.bytes.length = nameLength + 1 + k.slots.length := by
    intro x hx
    rw [Description.bytes, List.length_append, (h x hx).field, List.length_cons, (h x hx).params]
    omega
  rw [Description.group, List.length_cons, List.length_flatMap, List.map_congr_left hbytes,
    List.map_const', List.sum_replicate_nat, Nat.add_comm]

/-- The length of a layout depends on the numbers of devices alone. -/
theorem length_bytes_congr {l l' : Layout}
    (h : ∀ k, (l.descriptions k).length = (l'.descriptions k).length) :
    l.bytes.length = l'.bytes.length := by
  rw [bytes, bytes, List.length_flatMap, List.length_flatMap]
  refine congrArg List.sum (List.map_congr_left ?_)
  intro k _
  rw [length_group (l.fits k), length_group (l'.fits k), h k]

/-- No layout is longer than one with 255 devices of the largest kind in each group. -/
theorem length_bytes_le (l : Layout) : l.bytes.length ≤ 5 * (1 + 255 * 19) := by
  have hgroup : ∀ k, (Description.group (l.descriptions k)).length ≤ 1 + 255 * 19 := by
    intro k
    have hslots : nameLength + 1 + k.slots.length ≤ 19 := by cases k <;> decide
    rw [length_group (l.fits k)]
    exact Nat.add_le_add_left (Nat.mul_le_mul (l.size k) hslots) 1
  have h₁ := hgroup .light
  have h₂ := hgroup .blind
  have h₃ := hgroup .thermo
  have h₄ := hgroup .tv
  have h₅ := hgroup .slock
  simp only [bytes, Kind.all, List.flatMap_cons, List.flatMap_nil, List.length_append, List.length_nil]
  omega

end Layout

/-! ## Computations that may fail -/

section

variable {ε α β : Type} {x : Except ε α} {f : α → Except ε β} {b : β} {e : ε}

/-- A computation of two steps succeeds if both do. -/
theorem bind_eq_ok : (x >>= f) = .ok b ↔ ∃ a, x = .ok a ∧ f a = .ok b := by
  cases x <;> simp [bind, Except.bind]

theorem bind_eq_error : (x >>= f) = .error e ↔ x = .error e ∨ ∃ a, x = .ok a ∧ f a = .error e := by
  cases x <;> simp [bind, Except.bind]

end

/-- The error says that a byte string is no snapshot. -/
def DeviceError.Malformed (e : DeviceError) : Prop :=
  ∃ reason, e = .malformedSnapshot reason

namespace Cursor

variable {c c₁ c' : Cursor} {field bs bs' : Bytes} {b : UInt8} {n : Nat} {what : String} {k : Kind}
  {d : Device} {h h' : Home} {e : DeviceError}

/-- Between two places stand these bytes. -/
structure Reads (c : Cursor) (bs : Bytes) (c' : Cursor) : Prop where
  rest : c.rest = bs ++ c'.rest
  position : c'.position = c.position + bs.length

theorem reads_nil : c.Reads [] c' ↔ c = c' := by
  obtain ⟨position, rest⟩ := c
  obtain ⟨position', rest'⟩ := c'
  constructor
  · rintro ⟨hrest, hposition⟩
    simp at hrest hposition
    rw [hrest, hposition]
  · intro h
    obtain ⟨rfl, rfl⟩ := Cursor.mk.inj h
    exact ⟨rfl, rfl⟩

/-- Two strings stand there, one behind the other, if some place lies between them. -/
theorem reads_append : c.Reads (bs ++ bs') c' ↔ ∃ c₁, c.Reads bs c₁ ∧ c₁.Reads bs' c' := by
  constructor
  · rintro ⟨hrest, hposition⟩
    refine ⟨{ position := c.position + bs.length, rest := bs' ++ c'.rest }, ⟨?_, rfl⟩, rfl, ?_⟩
    · rw [hrest, List.append_assoc]
    · rw [hposition, List.length_append, Nat.add_assoc]
  · rintro ⟨c₁, ⟨hrest, hposition⟩, hrest', hposition'⟩
    refine ⟨by rw [hrest, hrest', List.append_assoc], ?_⟩
    rw [hposition', hposition, List.length_append]
    omega

/-- A field is taken exactly where as many bytes stand. -/
theorem take_eq_ok : c.take n what = .ok (field, c') ↔ field.length = n ∧ c.Reads field c' := by
  obtain ⟨position', rest'⟩ := c'
  simp only [take]
  constructor
  · intro h
    split at h
    · cases h
    · rename_i hlen
      obtain ⟨rfl, hc⟩ := Prod.mk.inj (Except.ok.inj h)
      obtain ⟨rfl, rfl⟩ := Cursor.mk.inj hc
      have hn : (c.rest.take n).length = n := by
        have := List.length_take_le n c.rest
        omega
      exact ⟨hn, (List.take_append_drop n c.rest).symm, by rw [hn]⟩
  · rintro ⟨rfl, hrest, hposition⟩
    simp only at hrest hposition
    rw [hrest, List.take_left, if_neg (Nat.lt_irrefl _), List.drop_left, hposition]

theorem takeByte_eq_ok : c.takeByte what = .ok (b, c') ↔ c.Reads [b] c' := by
  simp only [takeByte, bind_eq_ok, Prod.exists, take_eq_ok]
  constructor
  · rintro ⟨field, c₁, ⟨hlen, hreads⟩, h⟩
    obtain ⟨rfl, rfl⟩ := Prod.mk.inj (Except.ok.inj h)
    obtain ⟨b, rfl⟩ := List.length_eq_one_iff.1 hlen
    exact hreads
  · intro hreads
    exact ⟨[b], c', ⟨rfl, hreads⟩, rfl⟩

/-- A device is read exactly where a description of it stands. -/
theorem takeDevice_eq_ok : c.takeDevice k = .ok (d, c') ↔
    ∃ x : Description, x.Fits k ∧ c.Reads x.bytes c' ∧ d = x.device k := by
  simp only [takeDevice, bind_eq_ok, Prod.exists, take_eq_ok, takeByte_eq_ok]
  constructor
  · rintro ⟨field, c₁, ⟨hfield, h₁⟩, state, c₂, h₂, params, c₃, ⟨hparams, h₃⟩, h⟩
    have hdevice : ∃ d', Device.make k (Device.nameOfField field) state params = .ok d' ∧
        d' = d ∧ c₃ = c' := by
      split at h
      · rename_i d' hmake
        obtain ⟨rfl, rfl⟩ := Prod.mk.inj (Except.ok.inj h)
        exact ⟨d', hmake, rfl, rfl⟩
      · cases h
    obtain ⟨_, hmake, rfl, rfl⟩ := hdevice
    obtain ⟨hstate, hslots, rfl⟩ := Device.make_eq_ok.1 hmake
    exact ⟨{ field, state, params }, ⟨hfield, hstate, hslots⟩,
      reads_append.2 ⟨c₁, h₁, reads_append.2 ⟨c₂, h₂, h₃⟩⟩, rfl⟩
  · rintro ⟨⟨field, state, params⟩, ⟨hfield, hstate, hparams⟩, hreads, rfl⟩
    obtain ⟨c₁, h₁, hreads⟩ := reads_append.1 hreads
    change c₁.Reads ([state] ++ params) c' at hreads
    obtain ⟨c₂, h₂, h₃⟩ := reads_append.1 hreads
    refine ⟨field, c₁, ⟨hfield, h₁⟩, state, c₂, h₂, params, c', ⟨hparams, h₃⟩, ?_⟩
    rw [Device.make_eq_ok.2 ⟨hstate, hparams, rfl⟩]
    rfl

theorem add_device {x : Description} (hroom : (h.group k).length < Home.capacity) :
    h.add (x.device k) =
      .ok (h.setGroup k (h.group k ++ [x.device k]), UInt8.ofNat (h.group k).length) :=
  if_pos hroom

/-- Some devices are read exactly where as many descriptions stand, if there is room for them. -/
theorem takeDevices_eq_ok (hroom : (h.group k).length + n ≤ Home.capacity) :
    takeDevices k n c h = .ok (h', c') ↔ ∃ xs : List Description, xs.length = n ∧
      (∀ x ∈ xs, x.Fits k) ∧ c.Reads (xs.flatMap Description.bytes) c' ∧
      h' = h.setGroup k (h.group k ++ xs.map (Description.device k)) := by
  induction n generalizing c h with
  | zero =>
    simp only [takeDevices, Except.ok.injEq, Prod.mk.injEq]
    constructor
    · rintro ⟨rfl, rfl⟩
      exact ⟨[], rfl, by simp, reads_nil.2 rfl, by simp [Home.setGroup_group]⟩
    · rintro ⟨xs, hlen, -, hreads, rfl⟩
      obtain rfl := List.length_eq_zero_iff.1 hlen
      exact ⟨by simp [Home.setGroup_group], reads_nil.1 hreads⟩
  | succ n ih =>
    have hadd : ∀ x : Description, h.add (x.device k) = _ := fun x => add_device (by omega)
    have hmore : ∀ x : Description, ((h.setGroup k (h.group k ++ [x.device k])).group k).length + n ≤
        Home.capacity := by
      intro x
      rw [Home.group_setGroup_self, List.length_append, List.length_singleton]
      omega
    simp only [takeDevices, bind_eq_ok, Prod.exists, takeDevice_eq_ok]
    constructor
    · rintro ⟨d, c₁, ⟨x, hx, hreads, rfl⟩, h₁, index, h₁eq, hrest⟩
      obtain ⟨rfl, -⟩ := Prod.mk.inj (Except.ok.inj ((hadd x).symm.trans h₁eq))
      obtain ⟨xs, hlen, hfits, hreads', rfl⟩ := (ih (hmore x)).1 hrest
      refine ⟨x :: xs, by simp [hlen], List.forall_mem_cons.2 ⟨hx, hfits⟩, ?_, ?_⟩
      · exact reads_append.2 ⟨c₁, hreads, hreads'⟩
      · rw [Home.group_setGroup_self, Home.setGroup_setGroup, List.append_assoc, List.map_cons,
          List.singleton_append]
    · rintro ⟨xs, hlen, hfits, hreads, rfl⟩
      obtain ⟨x, xs, rfl⟩ := List.exists_cons_of_length_eq_add_one hlen
      obtain ⟨c₁, hreads, hreads'⟩ := reads_append.1 hreads
      obtain ⟨hx, hfits⟩ := List.forall_mem_cons.1 hfits
      refine ⟨_, c₁, ⟨x, hx, hreads, rfl⟩, _, _, hadd x, ?_⟩
      refine (ih (hmore x)).2 ⟨xs, by simpa using hlen, hfits, hreads', ?_⟩
      rw [Home.group_setGroup_self, Home.setGroup_setGroup, List.append_assoc, List.map_cons,
        List.singleton_append]

/-- A kind has room for as many devices as a count byte can tell. -/
theorem room_of_count (hnone : h.group k = []) (count : UInt8) :
    (h.group k).length + count.toNat ≤ Home.capacity := by
  rw [hnone, List.length_nil, Nat.zero_add]
  exact Nat.le_of_lt_succ count.toNat_lt

/-- The devices of one kind are read exactly where its count byte and its descriptions stand. -/
theorem takeGroup_eq_ok (hnone : h.group k = []) :
    (∃ count c₁, c.takeByte what = .ok (count, c₁) ∧ takeDevices k count.toNat c₁ h = .ok (h', c')) ↔
      ∃ xs : List Description, ((∀ x ∈ xs, x.Fits k) ∧ xs.length ≤ Home.capacity) ∧
        c.Reads (Description.group xs) c' ∧ h' = h.setGroup k (xs.map (Description.device k)) := by
  constructor
  · rintro ⟨count, c₁, hcount, hdevices⟩
    obtain ⟨xs, hlen, hfits, hreads, rfl⟩ := (takeDevices_eq_ok (room_of_count hnone count)).1 hdevices
    refine ⟨xs, ⟨hfits, ?_⟩, ?_, by rw [hnone, List.nil_append]⟩
    · rw [hlen]
      exact Nat.le_of_lt_succ count.toNat_lt
    · rw [Description.group, hlen, UInt8.ofNat_toNat]
      exact reads_append.2 ⟨c₁, takeByte_eq_ok.1 hcount, hreads⟩
  · rintro ⟨xs, ⟨hfits, hsize⟩, hreads, rfl⟩
    have hcount : (UInt8.ofNat xs.length).toNat = xs.length :=
      Utf8.toNat_ofNat_of_lt (Nat.lt_succ_of_le hsize)
    change c.Reads ([UInt8.ofNat xs.length] ++ xs.flatMap Description.bytes) c' at hreads
    obtain ⟨c₁, h₁, h₂⟩ := reads_append.1 hreads
    refine ⟨_, c₁, takeByte_eq_ok.2 h₁, ?_⟩
    refine (takeDevices_eq_ok (room_of_count hnone _)).2 ⟨xs, hcount.symm, hfits, h₂, ?_⟩
    rw [hnone, List.nil_append]

variable {ks : List Kind}

theorem none_setGroup (hk : k ∉ ks) (hnone : ∀ k' ∈ k :: ks, h.group k' = []) (ds : List Device) :
    ∀ k' ∈ ks, (h.setGroup k ds).group k' = [] := by
  intro k' hk'
  have hne : k' ≠ k := by
    rintro rfl
    exact hk hk'
  rw [Home.group_setGroup_of_ne hne]
  exact hnone k' (List.mem_cons_of_mem _ hk')

/-- First the group of the first kind is read, and then the others from where it ends. -/
theorem takeGroups_cons (hnone : h.group k = []) :
    takeGroups (k :: ks) c h = .ok (h', c') ↔ ∃ xs c₁,
      ((∀ x ∈ xs, x.Fits k) ∧ xs.length ≤ Home.capacity) ∧ c.Reads (Description.group xs) c₁ ∧
      takeGroups ks c₁ (h.setGroup k (xs.map (Description.device k))) = .ok (h', c') := by
  simp only [takeGroups, bind_eq_ok, Prod.exists]
  constructor
  · rintro ⟨count, c₁, hcount, middle, c₂, hdevices, hgroups⟩
    obtain ⟨xs, hxs, hreads, rfl⟩ := (takeGroup_eq_ok hnone).1 ⟨count, c₁, hcount, hdevices⟩
    exact ⟨xs, c₂, hxs, hreads, hgroups⟩
  · rintro ⟨xs, c₂, hxs, hreads, hgroups⟩
    obtain ⟨count, c₁, hcount, hdevices⟩ := (takeGroup_eq_ok hnone).2 ⟨xs, hxs, hreads, rfl⟩
    exact ⟨count, c₁, hcount, _, c₂, hdevices, hgroups⟩

/-- The group that is read first is as good as the first of those that are described. -/
theorem described_cons (hk : k ∉ ks) {g : Kind → List Description} {xs : List Description}
    (hxs : g k = xs) (k' : Kind) :
    (if k' ∈ ks then (g k').map (Description.device k')
      else (h.setGroup k (xs.map (Description.device k))).group k') =
      if k' ∈ k :: ks then (g k').map (Description.device k') else h.group k' := by
  subst hxs
  by_cases hk' : k' = k
  · subst hk'
    simp [hk]
  · simp [hk', Home.group_setGroup_of_ne hk']

/-- The groups of some kinds are read exactly where their count bytes and descriptions stand. The kinds
differ and none of them has a device yet, so no group grows past what a count byte can tell. -/
theorem takeGroups_eq_ok (hks : ks.Nodup) (hnone : ∀ k ∈ ks, h.group k = []) :
    takeGroups ks c h = .ok (h', c') ↔ ∃ g : Kind → List Description,
      (∀ k ∈ ks, (∀ x ∈ g k, x.Fits k) ∧ (g k).length ≤ Home.capacity) ∧
      c.Reads (ks.flatMap fun k => Description.group (g k)) c' ∧
      ∀ k, h'.group k = if k ∈ ks then (g k).map (Description.device k) else h.group k := by
  induction ks generalizing c h with
  | nil =>
    simp only [takeGroups, Except.ok.injEq, Prod.mk.injEq]
    constructor
    · rintro ⟨rfl, rfl⟩
      exact ⟨fun _ => [], by simp, reads_nil.2 rfl, by simp⟩
    · rintro ⟨g, -, hreads, hgroup⟩
      exact ⟨Home.ext_group fun k => by simpa using (hgroup k).symm, reads_nil.1 hreads⟩
  | cons k ks ih =>
    obtain ⟨hk, hks⟩ := List.nodup_cons.1 hks
    have hrest := none_setGroup hk hnone
    rw [takeGroups_cons (hnone k List.mem_cons_self)]
    constructor
    · -- the descriptions read here join those that the rest of the kinds are read from
      rintro ⟨xs, c₁, hxs, hreads, hgroups⟩
      obtain ⟨g, hg, hreads', hgroup⟩ := (ih hks (hrest _)).1 hgroups
      have hself : Function.update g k xs k = xs := Function.update_self ..
      have hother : ∀ k' ∈ ks, Function.update g k xs k' = g k' := by
        intro k' hk'
        refine Function.update_of_ne ?_ ..
        rintro rfl
        exact hk hk'
      refine ⟨Function.update g k xs, List.forall_mem_cons.2 ⟨?_, ?_⟩, ?_, ?_⟩
      · rw [hself]
        exact hxs
      · intro k' hk'
        rw [hother k' hk']
        exact hg k' hk'
      · rw [List.flatMap_cons, hself, List.flatMap_congr fun k' hk' => by rw [hother k' hk']]
        exact reads_append.2 ⟨c₁, hreads, hreads'⟩
      · intro k'
        rw [hgroup k', ← described_cons hk hself k']
        exact ite_congr rfl (fun hmem => by rw [hother k' hmem]) fun _ => rfl
    · rintro ⟨g, hg, hreads, hgroup⟩
      obtain ⟨hgk, hg⟩ := List.forall_mem_cons.1 hg
      rw [List.flatMap_cons] at hreads
      obtain ⟨c₁, hreads, hreads'⟩ := reads_append.1 hreads
      refine ⟨g k, c₁, hgk, hreads, (ih hks (hrest _)).2 ⟨g, hg, hreads', fun k' => ?_⟩⟩
      rw [hgroup k', described_cons hk rfl k']

/-! ## Refusals -/

theorem malformed_of_take (he : c.take n what = .error e) : e.Malformed := by
  simp only [take] at he
  split at he
  · obtain rfl := Except.error.inj he
    exact ⟨_, rfl⟩
  · cases he

theorem malformed_of_takeByte (he : c.takeByte what = .error e) : e.Malformed := by
  rcases bind_eq_error.1 he with he | ⟨_, _, he⟩
  · exact malformed_of_take he
  · cases he

/-- A device is refused as a malformed snapshot, whatever is wrong with it. -/
theorem malformed_of_takeDevice (he : c.takeDevice k = .error e) : e.Malformed := by
  simp only [takeDevice, bind_eq_error, Prod.exists] at he
  rcases he with he | ⟨_, _, -, he | ⟨_, _, -, he | ⟨_, _, -, he⟩⟩⟩
  · exact malformed_of_take he
  · exact malformed_of_takeByte he
  · exact malformed_of_take he
  · split at he
    · cases he
    · obtain rfl := Except.error.inj he
      exact ⟨_, rfl⟩

/-- The home never refuses a device for want of room. -/
theorem malformed_of_takeDevices (hroom : (h.group k).length + n ≤ Home.capacity)
    (he : takeDevices k n c h = .error e) : e.Malformed := by
  induction n generalizing c h with
  | zero => cases he
  | succ n ih =>
    simp only [takeDevices, bind_eq_error, Prod.exists] at he
    rcases he with he | ⟨d, c₁, hd, he | ⟨h₁, index, h₁eq, he⟩⟩
    · exact malformed_of_takeDevice he
    -- what has been read is a device that is described, so there is room for it
    all_goals
      obtain ⟨x, -, -, rfl⟩ := takeDevice_eq_ok.1 hd
      have hadd : h.add (x.device k) = _ := add_device (by omega)
    · rw [hadd] at he
      cases he
    · obtain ⟨rfl, -⟩ := Prod.mk.inj (Except.ok.inj (hadd.symm.trans h₁eq))
      refine ih ?_ he
      rw [Home.group_setGroup_self, List.length_append, List.length_singleton]
      omega

theorem malformed_of_takeGroups (hks : ks.Nodup) (hnone : ∀ k ∈ ks, h.group k = [])
    (he : takeGroups ks c h = .error e) : e.Malformed := by
  induction ks generalizing c h with
  | nil => cases he
  | cons k ks ih =>
    obtain ⟨hk, hks⟩ := List.nodup_cons.1 hks
    have hhead := hnone k List.mem_cons_self
    simp only [takeGroups, bind_eq_error, Prod.exists] at he
    rcases he with he | ⟨count, c₁, hcount, he | ⟨h₁, c₂, hdevices, he⟩⟩
    · exact malformed_of_takeByte he
    · exact malformed_of_takeDevices (room_of_count hhead count) he
    · obtain ⟨xs, -, -, rfl⟩ := (takeGroup_eq_ok hhead).1 ⟨count, c₁, hcount, hdevices⟩
      exact ih hks (none_setGroup hk hnone _) he

end Cursor

namespace Home

variable {h : Home} {b : Bytes} {e : DeviceError}

theorem empty_group (k : Kind) : empty.group k = [] := by
  cases k <;> rfl

theorem mem_all (k : Kind) : k ∈ Kind.all := by
  cases k <;> decide

/-- What follows a layout is left unread. -/
theorem takeGroups_bytes (l : Layout) (rest : Bytes) :
    Cursor.takeGroups Kind.all { rest := l.bytes ++ rest } empty =
      .ok (l.home, { position := l.bytes.length, rest }) := by
  refine (Cursor.takeGroups_eq_ok (by decide) fun k _ => empty_group k).2
    ⟨l.descriptions, fun k _ => ⟨l.fits k, l.size k⟩, ⟨rfl, (Nat.zero_add _).symm⟩, ?_⟩
  intro k
  rw [if_pos (mem_all k), Layout.group_home, Layout.devices]

/-- The byte strings that are read are those that are laid out, and they are read as what they
describe. -/
theorem ofSnapshot_eq_ok : ofSnapshot b = .ok h ↔ ∃ l : Layout, b = l.bytes ∧ h = l.home := by
  simp only [ofSnapshot, bind_eq_ok, Prod.exists,
    Cursor.takeGroups_eq_ok (by decide : Kind.all.Nodup) fun k _ => empty_group k]
  constructor
  · rintro ⟨h', c, ⟨g, hg, hreads, hgroup⟩, hend⟩
    split at hend
    · rename_i hlen
      obtain rfl := Except.ok.inj hend
      have hrest := hreads.rest
      rw [List.length_eq_zero_iff.1 hlen, List.append_nil] at hrest
      refine ⟨⟨g, fun k => (hg k (mem_all k)).1, fun k => (hg k (mem_all k)).2⟩, hrest, ?_⟩
      refine ext_group ?_
      intro k
      rw [hgroup k, if_pos (mem_all k), Layout.group_home, Layout.devices]
    · cases hend
  · rintro ⟨l, rfl, rfl⟩
    have hread := takeGroups_bytes l []
    rw [List.append_nil, Cursor.takeGroups_eq_ok (by decide) fun k _ => empty_group k] at hread
    exact ⟨l.home, _, hread, rfl⟩

/-- Every refusal says that the bytes are no snapshot. -/
theorem malformed_of_ofSnapshot (he : ofSnapshot b = .error e) : e.Malformed := by
  simp only [ofSnapshot, bind_eq_error, Prod.exists] at he
  rcases he with he | ⟨h, c, -, he⟩
  · exact Cursor.malformed_of_takeGroups (by decide) (fun k _ => empty_group k) he
  · split at he
    · cases he
    · obtain rfl := Except.error.inj he
      exact ⟨_, rfl⟩

end Home

namespace Layout

/-- No layout goes on where another one ends. -/
theorem eq_of_isPrefix {l l' : Layout} (h : l.bytes <+: l'.bytes) : l.bytes = l'.bytes := by
  obtain ⟨more, hmore⟩ := h
  have hl := Home.takeGroups_bytes l more
  have hl' := Home.takeGroups_bytes l' []
  rw [List.append_nil, ← hmore, hl] at hl'
  obtain ⟨-, hc⟩ := Prod.mk.inj (Except.ok.inj hl')
  obtain ⟨-, rfl⟩ := Cursor.mk.inj hc
  rw [← hmore, List.append_nil]

end Layout

end HomeControl
