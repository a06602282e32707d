import HomeControl.Proofs.Home.Snapshot
import HomeControl.Proofs.Text.Cut
import Mathlib.Data.List.Forall2

/-!
# Snapshots there and back

A snapshot shows every device as it is but for its name, and what it shows it shows again as it is:
a name that was cut inside a character ends in U+FFFD, whose own encoding is cut at the same place and
read as U+FFFD once more (`Home.snapshot_round_trip`). The other way round, a byte string that is read
is written again with the same bytes outside of the name fields, and with the same bytes throughout if
the name fields hold nothing that reading drops or replaces (`Home.format_exact`).
-/

namespace HomeControl

namespace Device

variable {d : Device} {c : Char} {part rest field : Bytes}

theorem nameField_of_take (h : (Utf8.encode d.name).take nameLength = field) :
    d.nameField = field ++ List.replicate (nameLength - field.length) 0x20 := by
  rw [nameField, h]

theorem shown_name (d : Device) : d.shown.name = nameOfField d.nameField := by
  simp only [shown]

/-- A name that is cut inside a character ends in U+FFFD. -/
theorem nameOfField_cut (t : String) (hc : String.utf8EncodeChar c = part ++ rest) (hp : part ≠ [])
    (hr : rest ≠ []) : nameOfField (Utf8.encode t ++ part) = t.push '\uFFFD' := by
  rw [nameOfField, Utf8.decodeLossy_cut t hc hp hr]
  refine Text.trimEnd_eq_self ?_
  intro e he
  obtain rfl : e = '\uFFFD' := by simpa using he.symm
  decide

theorem shown_name_of_cut {t : String} (hc : String.utf8EncodeChar c = part ++ rest) (hp : part ≠ [])
    (hr : rest ≠ []) (ht : (Utf8.encode d.name).take nameLength = Utf8.encode t ++ part)
    (hlen : (Utf8.encode t ++ part).length = nameLength) : d.shown.name = t.push '\uFFFD' := by
  rw [shown_name, nameField_of_take ht, hlen, Nat.sub_self, List.replicate_zero, List.append_nil,
    nameOfField_cut t hc hp hr]

/-- A name that is cut between two characters, or not at all, loses blanks at most. -/
theorem tidy_shown_of_take {t : String} (ht : (Utf8.encode d.name).take nameLength = Utf8.encode t) :
    d.shown.Tidy := by
  have hfield : d.nameField = Utf8.encode (t ++ String.ofList (List.replicate
      (nameLength - (Utf8.encode t).length) ' ')) := by
    rw [nameField_of_take ht, Utf8.encode_append, Utf8.encode_spaces]
  have hname : d.shown.name = Text.trimEnd t := by
    rw [shown_name, hfield, nameOfField, Utf8.decodeLossy_encode, Text.trimEnd_append_spaces]
  constructor
  · have hfits : (Utf8.encode t).length ≤ nameLength := by
      rw [← ht]
      exact List.length_take_le _ _
    have hkept := congrArg List.length (congrArg Utf8.encode (Text.trimEnd_append t))
    rw [Utf8.encode_append, List.length_append] at hkept
    rw [hname]
    omega
  · rw [hname, Text.trimEnd_trimEnd]

/-- What is shown of a device is shown as it is. -/
theorem shown_shown (d : Device) : d.shown.shown = d.shown := by
  rcases Utf8.take_encode d.name nameLength with ⟨t, ht⟩ | ⟨t, c, part, rest, hc, hp, hr, ht, hlen⟩
  · exact (tidy_shown_of_take ht).shown_eq
  · have hname := shown_name_of_cut hc hp hr ht hlen
    obtain ⟨fffd, hfffd, hthree⟩ : ∃ bs, String.utf8EncodeChar '\uFFFD' = bs ∧ bs.length = 3 :=
      ⟨_, rfl, by decide⟩
    have hpart : 0 < part.length := List.length_pos_iff.2 hp
    have hshort : part.length ≤ 3 := by
      have hfour := c.utf8Size_le_four
      have hrest := List.length_pos_iff.2 hr
      rw [← String.length_utf8EncodeChar, hc, List.length_append] at hfour
      omega
    have hroom := hlen
    rw [List.length_append] at hroom
    by_cases hwhole : part.length = 3
    · -- there is room for the whole of U+FFFD
      refine Tidy.shown_eq ⟨?_, ?_⟩
      · rw [hname, Utf8.encode_push, hfffd, List.length_append]
        omega
      · rw [hname, ← nameOfField_cut t hc hp hr, nameOfField, Text.trimEnd_trimEnd]
    · -- U+FFFD is cut where the character has been cut, so it is read as U+FFFD again
      have hsame : (Utf8.encode d.shown.name).take nameLength =
          Utf8.encode t ++ fffd.take part.length := by
        have hleft : nameLength - (Utf8.encode t).length = part.length := by omega
        rw [hname, Utf8.encode_push, hfffd, List.take_append, hleft,
          List.take_of_length_le (by omega)]
      have hfull : (Utf8.encode t ++ fffd.take part.length).length = nameLength := by
        rw [List.length_append, List.length_take]
        omega
      have hbegun : fffd.take part.length ≠ [] := by
        rw [← List.length_pos_iff, List.length_take]
        omega
      have hmissing : fffd.drop part.length ≠ [] := by
        rw [← List.length_pos_iff, List.length_drop]
        omega
      have hagain : d.shown.shown.name = d.shown.name := by
        rw [shown_name_of_cut (hfffd.trans (List.take_append_drop part.length fffd).symm) hbegun
          hmissing hsame hfull, hname]
      rw [shown, ← shown_name, hagain]

end Device

namespace Home

variable {h : Home}

theorem shown_shown (h : Home) : h.shown.shown = h.shown := by
  refine ext_group ?_
  intro k
  rw [group_shown, group_shown, List.map_map]
  exact List.map_congr_left fun d _ => d.shown_shown

theorem Valid.shown (hv : h.Valid) : h.shown.Valid :=
  home_layout hv ▸ (layout hv).valid_home

/-- **Homes through snapshots.** The snapshot of a home that has been built device by device can be
read. If no name is longer than its field or ends in a blank, what is read is the home. In any case it
has the same devices of each kind in the same order, with the same states and parameters, and its own
snapshot is read as itself. -/
theorem snapshot_round_trip (hb : h.Built) :
    ((∀ k, ∀ d ∈ h.group k, (Utf8.encode d.name).length ≤ nameLength ∧
        ∀ c, d.name.toList.getLast? = some c → Text.isBlank c = false) →
      ofSnapshot h.snapshot = .ok h) ∧
    ∃ h', ofSnapshot h.snapshot = .ok h' ∧
      (∀ k, List.Forall₂ (fun d d' => d'.kind = d.kind ∧ d'.state = d.state ∧ d'.params = d.params)
        (h.group k) (h'.group k)) ∧
      ofSnapshot h'.snapshot = .ok h' := by
  refine ⟨?_, h.shown, ofSnapshot_snapshot hb.valid, ?_, ?_⟩
  · intro htidy
    refine ofSnapshot_of_tidy hb.valid fun k d hd => ⟨(htidy k d hd).1, ?_⟩
    exact Text.trimEnd_eq_self (htidy k d hd).2
  · intro k
    rw [group_shown, List.forall₂_map_right_iff]
    exact List.forall₂_same.2 fun d _ => ⟨d.shown_kind, d.shown_state, d.shown_params⟩
  · rw [ofSnapshot_snapshot hb.valid.shown, shown_shown]

/-- A television whose sixteenth byte is the first of two, and one whose name fits. -/
theorem snapshot_round_trip_tv :
    let den : Device := { kind := .tv, name := "living room tv-é", state := 1, params := [3, 40] }
    let hall : Device := { kind := .tv, name := "hall tv", state := 0, params := [1, 0] }
    let cut : Home := { tvs := [den, hall] }
    let fitting : Home := { tvs := [hall] }
    cut.Built ∧ fitting.Built ∧ ofSnapshot fitting.snapshot = .ok fitting ∧
      ∃ h', ofSnapshot cut.snapshot = .ok h' ∧
        (∀ k, List.Forall₂ (fun d d' => d'.kind = d.kind ∧ d'.state = d.state ∧ d'.params = d.params)
          (cut.group k) (h'.group k)) ∧
        ofSnapshot h'.snapshot = .ok h' := by
  intro den hall cut fitting
  have hden : Device.make .tv "living room tv-é" 1 [3, 40] = .ok den := rfl
  have hhall : Device.make .tv "hall tv" 0 [1, 0] = .ok hall := rfl
  have hone : ({ tvs := [den] } : Home).Built := .add .empty hden rfl
  have hcut : cut.Built := .add hone hhall rfl
  have hfitting : fitting.Built := .add .empty hhall rfl
  have htidy : ∀ k, ∀ d ∈ fitting.group k, (Utf8.encode d.name).length ≤ nameLength ∧
      ∀ c, d.name.toList.getLast? = some c → Text.isBlank c = false := by
    intro k d hd
    obtain rfl : d = hall := by cases k <;> simp_all [fitting, group]
    have hlast : "hall tv".toList.getLast? = some 'v' := by decide +kernel
    refine ⟨by decide +kernel, ?_⟩
    intro c hc
    obtain rfl : 'v' = c := Option.some.inj (hlast.symm.trans hc)
    decide
  exact ⟨hcut, hfitting, (snapshot_round_trip hfitting).1 htidy, (snapshot_round_trip hcut).2⟩

end Home

/-! ## Byte strings -/

namespace Description

variable {k : Kind} {x : Description}

/-- The name field is text, and the blanks at its end are spaces. -/
def Spaced (x : Description) : Prop :=
  ∃ s, Utf8.decode? x.field = some s ∧ ∀ c ∈ s.toList.reverse.takeWhile Text.isBlank, c = ' '

/-- A field that ends in spaces only is filled again with as many. -/
theorem nameField_device (hx : x.Spaced) (hl : x.field.length = nameLength) :
    (x.device k).nameField = x.field := by
  obtain ⟨s, hs, hblanks⟩ := hx
  have hfield : x.field = Utf8.encode s := Utf8.decode?_eq_some_iff.1 hs
  obtain ⟨n, hn⟩ : ∃ n, (s.toList.reverse.takeWhile Text.isBlank).reverse = List.replicate n ' ' :=
    ⟨_, List.eq_replicate_iff.2 ⟨rfl, fun c hc => hblanks c (List.mem_reverse.1 hc)⟩⟩
  have hsplit : x.field = Utf8.encode (Text.trimEnd s) ++ List.replicate n 0x20 := by
    rw [hfield, ← Utf8.encode_spaces, ← Utf8.encode_append, ← hn, Text.trimEnd_append]
  have hname : (x.device k).name = Text.trimEnd s := by
    rw [device, Device.nameOfField, hfield, Utf8.decodeLossy_encode]
  rw [hsplit, List.length_append, List.length_replicate] at hl
  have hwhole : (Utf8.encode (x.device k).name).take nameLength = Utf8.encode (Text.trimEnd s) := by
    rw [hname, List.take_of_length_le (by omega)]
  have hleft : nameLength - (Utf8.encode (Text.trimEnd s)).length = n := by omega
  rw [Device.nameField_of_take hwhole, hleft, hsplit]

end Description

namespace Layout

/-- Written again, a home that has been read describes its devices with name fields of its own. -/
theorem descriptions_layout (l : Layout) (k : Kind) : (Home.layout l.valid_home).descriptions k =
    (l.descriptions k).map fun x => (x.device k).description := by
  simp only [Home.layout, group_home, devices, List.map_map]
  rfl

end Layout

namespace Home

/-- **The format.** A byte string is read exactly if it lays out, for each kind in order, a count byte
and that many descriptions, and nothing more; otherwise it is refused as malformed. Nothing that is
read goes on where something else that is read ends. What is read is the home that is described, and
written again it is as long and differs in name fields only, in none if all name fields are text with no
other blanks at the end than spaces. -/
theorem format_exact :
    (∀ b, (∃ h, ofSnapshot b = .ok h) ↔ ∃ l : Layout, b = l.bytes) ∧
    (∀ b e, ofSnapshot b = .error e → ∃ reason, e = .malformedSnapshot reason) ∧
    (∀ b b' h h', ofSnapshot b = .ok h → ofSnapshot b' = .ok h' → b <+: b' → b = b') ∧
    ∀ l : Layout, ofSnapshot l.bytes = .ok l.home ∧
      ∃ l' : Layout, l.home.snapshot = l'.bytes ∧ l'.bytes.length = l.bytes.length ∧
        (∀ k, List.Forall₂ (fun x x' => x'.state = x.state ∧ x'.params = x.params)
          (l.descriptions k) (l'.descriptions k)) ∧
        ((∀ k, ∀ x ∈ l.descriptions k, x.Spaced) → l'.bytes = l.bytes) := by
  refine ⟨?_, fun b e => malformed_of_ofSnapshot, ?_, ?_⟩
  · intro b
    constructor
    · rintro ⟨h, hread⟩
      obtain ⟨l, hl, -⟩ := ofSnapshot_eq_ok.1 hread
      exact ⟨l, hl⟩
    · rintro ⟨l, hl⟩
      exact ⟨l.home, ofSnapshot_eq_ok.2 ⟨l, hl, rfl⟩⟩
  · intro b b' h h' hread hread' hprefix
    obtain ⟨l, rfl, -⟩ := ofSnapshot_eq_ok.1 hread
    obtain ⟨l', rfl, -⟩ := ofSnapshot_eq_ok.1 hread'
    exact Layout.eq_of_isPrefix hprefix
  · intro l
    refine ⟨ofSnapshot_eq_ok.2 ⟨l, rfl, rfl⟩, layout l.valid_home, (bytes_layout _).symm, ?_, ?_, ?_⟩
    · refine Layout.length_bytes_congr fun k => ?_
      rw [Layout.descriptions_layout, List.length_map]
    · intro k
      rw [Layout.descriptions_layout, List.forall₂_map_right_iff]
      refine List.forall₂_same.2 fun x _ => ?_
      simp only [Device.description, Description.device, and_self]
    · intro hspaced
      have hsame : ∀ k, (layout l.valid_home).descriptions k = l.descriptions k := by
        intro k
        rw [Layout.descriptions_layout]
        refine (List.map_congr_left fun x hx => ?_).trans (List.map_id _)
        rw [Device.description, Description.nameField_device (hspaced k x hx) (l.fits k x hx).field]
        rfl
      simp only [Layout.bytes, hsame]

/-- One lamp, and nothing else. -/
def lampOnly : Layout where
  descriptions
    | .light => [{ field := Utf8.encode "lamp            ", state := 1, params := [40] }]
    | _ => []
  fits := by
    intro k x hx
    cases k <;> simp at hx
    subst hx
    exact ⟨by decide +kernel, by decide, rfl⟩
  size := by
    intro k
    cases k <;> simp [capacity]

/-- The lamp is read, written again byte by byte, and not read if anything follows. -/
theorem format_exact_lamp :
    (∀ k, ∀ x ∈ lampOnly.descriptions k, x.Spaced) ∧ ofSnapshot lampOnly.bytes = .ok lampOnly.home ∧
      lampOnly.home.snapshot = lampOnly.bytes ∧
      ¬ ∃ h, ofSnapshot (lampOnly.bytes ++ [0]) = .ok h := by
  have hspaced : ∀ k, ∀ x ∈ lampOnly.descriptions k, x.Spaced := by
    intro k x hx
    cases k <;> simp [lampOnly] at hx
    subst hx
    have hblanks : ("lamp            ".toList.reverse.takeWhile Text.isBlank).all (· == ' ') = true := by
      decide +kernel
    refine ⟨"lamp            ", Utf8.decode?_encode _, ?_⟩
    intro c hc
    simpa using List.all_eq_true.1 hblanks c hc
  obtain ⟨-, -, hends, hlaid⟩ := format_exact
  obtain ⟨hread, l', hagain, -, -, hsame⟩ := hlaid lampOnly
  refine ⟨hspaced, hread, hagain.trans (hsame hspaced), ?_⟩
  rintro ⟨h, hmore⟩
  have heq := hends _ _ _ _ hread hmore (List.prefix_append _ _)
  simp at heq

end Home

end HomeControl
