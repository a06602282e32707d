import HomeControl.Device.Basic
import HomeControl.Device.Action

/-!
# Homes

A home is one list of devices for each kind. Devices are only ever added at the end of their list,
and only up to the 255 that the count byte of a snapshot can tell, so the index a device gets when it
is added addresses it from then on.
-/

namespace HomeControl

/-- The devices of a home, by kind. -/
structure Home where
  /-- The lights. -/
  lights : List Device := []
  /-- The blinds. -/
  blinds : List Device := []
  /-- The thermostats. -/
  thermos : List Device := []
  /-- The televisions. -/
  tvs : List Device := []
  /-- The security locks. -/
  slocks : List Device := []
  deriving DecidableEq

namespace Home

/-- A home without devices. -/
def empty : Home := {}

/-- The devices of one kind, by index. -/
def group (h : Home) : Kind → List Device
  | .light => h.lights
  | .blind => h.blinds
  | .thermo => h.thermos
  | .tv => h.tvs
  | .slock => h.slocks

/-- The home with another list of devices of one kind. -/
def setGroup (h : Home) (k : Kind) (ds : List Device) : Home :=
  match k with
  | .light => { h with lights := ds }
  | .blind => { h with blinds := ds }
  | .thermo => { h with thermos := ds }
  | .tv => { h with tvs := ds }
  | .slock => { h with slocks := ds }

/-- A group that has been replaced is the new one. -/
@[simp] theorem group_setGroup_self (h : Home) (k : Kind) (ds : List Device) :
    (h.setGroup k ds).group k = ds := by
  cases k <;> rfl

theorem group_setGroup_of_ne {h : Home} {k k' : Kind} {ds : List Device} (hk : k' ≠ k) :
    (h.setGroup k ds).group k' = h.group k' := by
  cases k <;> cases k' <;> first | rfl | exact absurd rfl hk

theorem setGroup_group (h : Home) (k : Kind) : h.setGroup k (h.group k) = h := by
  cases k <;> rfl

theorem setGroup_setGroup (h : Home) (k : Kind) (ds es : List Device) :
    (h.setGroup k ds).setGroup k es = h.setGroup k es := by
  cases k <;> rfl

/-- Homes with the same groups are equal. -/
theorem ext_group {h h' : Home} (hg : ∀ k, h.group k = h'.group k) : h = h' := by
  obtain ⟨⟩ := h
  obtain ⟨⟩ := h'
  have hl := hg .light
  have hb := hg .blind
  have ht := hg .thermo
  have hv := hg .tv
  have hs := hg .slock
  simp only [group] at hl hb ht hv hs
  simp [*]

/-- The most devices of one kind. -/
def capacity : Nat := 255

/-- The device of a kind at an index. -/
def device? (h : Home) (k : Kind) (index : UInt8) : Option Device :=
  (h.group k)[index.toNat]?

/-- The number of devices of all kinds. -/
def count (h : Home) : Nat :=
  Kind.all.foldl (fun n k => n + (h.group k).length) 0

/-- Adds a device after those of its kind; also returns its index. -/
def add (h : Home) (d : Device) : Except DeviceError (Home × UInt8) :=
  let ds := h.group d.kind
  if ds.length < capacity then
    .ok (h.setGroup d.kind (ds ++ [d]), UInt8.ofNat ds.length)
  else
    .error (.invalidDevice d.kind "too many devices of this kind")

/-- Applies an action to the device it addresses. -/
def apply (h : Home) (a : Action) : Except DeviceError Home :=
  match Kind.ofCode? a.kind with
  | none => .error (.unknownKind a.kind)
  | some k =>
    match h.device? k a.index with
    | none => .error (.unknownDevice k a.index)
    | some d =>
      match d.apply a.opcode a.params with
      | .error e => .error e
      | .ok d => .ok (h.setGroup k ((h.group k).set a.index.toNat d))

/-- Applies an action if the home accepts it and leaves the home alone otherwise. -/
def applyOrKeep (h : Home) (a : Action) : Home :=
  match h.apply a with
  | .ok h => h
  | .error _ => h

end Home

end HomeControl
