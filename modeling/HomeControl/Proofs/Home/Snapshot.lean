import HomeControl.Proofs.Home.Format
import HomeControl.Proofs.Text.Cut

/-!
# Snapshots are read as they are written

The snapshot of a valid home is read as that home with every name as its field shows it
(`ofSnapshot_snapshot`). A name of at most sixteen bytes that does not end in a blank is shown as it
is, so a home with such names only is read as itself (`ofSnapshot_of_tidy`).
-/

namespace HomeControl

namespace Device

/-- The device as a snapshot shows it. -/
def shown (d : Device) : Device :=
  { d with name := nameOfField d.nameField }

/-- What a snapshot says of a device. -/
def description (d : Device) : Description :=
  { field := d.nameField, state := d.state, params := d.params }

/-- A name that its field shows as it is. -/
structure Tidy (d : Device) : Prop where
  fits : (Utf8.encode d.name).length ≤ nameLength
  trimmed : Text.trimEnd d.name = d.name

variable {d : Device}

@[simp] theorem shown_kind (d : Device) : d.shown.kind = d.kind := by
  simp only [shown]

@[simp] theorem shown_state (d : Device) : d.shown.state = d.state := by
  simp only [shown]

@[simp] theorem shown_params (d : Device) : d.shown.params = d.params := by
  simp only [shown]

/-- The field of a name has sixteen bytes, whatever the name. -/
theorem length_nameField (d : Device) : d.nameField.length = nameLength := by
  unfold nameField
  simp only [List.length_append, List.length_replicate, List.length_take]
  omega

theorem Tidy.shown_eq (h : d.Tidy) : d.shown = d := by
  have hfield : d.nameField =
      Utf8.encode (d.name ++ String.ofList (List.replicate
        (nameLength - (Utf8.encode d.name).length) ' ')) := by
    rw [Utf8.encode_append, Utf8.encode_spaces, nameField, List.take_of_length_le h.fits]
  rw [shown, nameOfField, hfield, Utf8.decodeLossy_encode, Text.trimEnd_append_spaces, h.trimmed]

end Device

namespace Home

variable {h : Home}

/-- The home as its snapshot shows it. -/
def shown (h : Home) : Home where
  lights := h.lights.map Device.shown
  blinds := h.blinds.map Device.shown
  thermos := h.thermos.map Device.shown
  tvs := h.tvs.map Device.shown
  slocks := h.slocks.map Device.shown

/-- A home is shown device by device. -/
theorem group_shown (h : Home) (k : Kind) : h.shown.group k = (h.group k).map Device.shown := by
  cases k <;> simp only [group, shown]

/-- All names are tidy. -/
def Tidy (h : Home) : Prop :=
  ∀ k, ∀ d ∈ h.group k, d.Tidy

theorem Tidy.shown_eq (ht : h.Tidy) : h.shown = h := by
  refine ext_group ?_
  intro k
  rw [group_shown]
  exact (List.map_congr_left fun d hd => (ht k d hd).shown_eq).trans (List.map_id _)

/-- The snapshot of a valid home lays out its devices. -/
def layout (hv : h.Valid) : Layout where
  descriptions k := (h.group k).map Device.description
  fits := by
    intro k x hx
    obtain ⟨d, hd, rfl⟩ := List.mem_map.1 hx
    obtain ⟨rfl, hlegal⟩ := hv.legal k d hd
    exact ⟨d.length_nameField, hlegal.1, hlegal.2⟩
  size := by
    intro k
    rw [List.length_map]
    exact hv.size k

/-- The layout of a home is its snapshot. -/
theorem bytes_layout (hv : h.Valid) : (layout hv).bytes = h.snapshot := by
  simp only [Layout.bytes, snapshot, layout, Description.group, groupSnapshot, List.length_map,
    List.flatMap_map]
  rfl

/-- What this layout describes is the home as it is shown. -/
theorem home_layout (hv : h.Valid) : (layout hv).home = h.shown := by
  refine ext_group ?_
  intro k
  rw [Layout.group_home, Layout.devices, group_shown]
  simp only [layout, List.map_map]
  refine List.map_congr_left ?_
  intro d hd
  obtain ⟨rfl, -⟩ := hv.legal k d hd
  rfl

/-- The snapshot of a valid home is read as what it shows. -/
theorem ofSnapshot_snapshot (hv : h.Valid) : ofSnapshot h.snapshot = .ok h.shown :=
  ofSnapshot_eq_ok.2 ⟨layout hv, (bytes_layout hv).symm, (home_layout hv).symm⟩

/-- A home of tidy names is read back from its snapshot. -/
theorem ofSnapshot_of_tidy (hv : h.Valid) (ht : h.Tidy) : ofSnapshot h.snapshot = .ok h := by
  rw [ofSnapshot_snapshot hv, ht.shown_eq]

/-- A snapshot is short enough for a line. -/
theorem length_snapshot_le (hv : h.Valid) : h.snapshot.length ≤ 5 * (1 + 255 * 19) := by
  rw [← bytes_layout hv]
  exact (layout hv).length_bytes_le

end Home

end HomeControl
