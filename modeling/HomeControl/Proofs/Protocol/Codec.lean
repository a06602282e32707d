import HomeControl.Proofs.Protocol.Line
import Mathlib.Tactic.SplitIfs

/-!
# The language of lines

A line is read exactly if what stands before the terminators at its end is `Legible`, and up to case
and terminators it is then the one line of the message it is read as (`Line.codec_exact`).
-/

namespace HomeControl

namespace Keycode

theorem ofWire?_eq_none {b : UInt8} : ofWire? b = none ↔ 9 < b := by
  rw [UInt8.lt_iff_toNat_lt]
  unfold ofWire?
  split <;> simp_all [← UInt8.toNat_inj]
  omega

/-- The bytes from 0 to 9 are those of keycodes. -/
theorem exists_wire?_iff {b : UInt8} : (∃ k : Keycode, k.wire? = some b) ↔ b ≤ 9 := by
  rw [← UInt8.not_lt, ← ofWire?_eq_none]
  constructor
  · rintro ⟨k, hk⟩ hnone
    rw [ofWire?_of_wire? hk] at hnone
    cases hnone
  · intro h
    obtain ⟨k, hk⟩ := Option.ne_none_iff_exists'.1 h
    exact ⟨k, wire?_of_ofWire? hk⟩

theorem exists_wire?_eq_some_iff {k : Keycode} :
    (∃ b, k.wire? = some b) ↔ k ≠ .internal ∧ k ≠ .waitUserInput := by
  cases k <;> simp [wire?]

end Keycode

namespace Line

variable {m : Message} {line text : Bytes} {d : UInt8}

/-- What a line may say: an even number of digits, and at least the two of a byte from 0 to 9. -/
structure Legible (text : Bytes) : Prop where
  nonempty : text ≠ []
  even : text.length % 2 = 0
  digits : ∀ d ∈ text, Hex.IsDigit d
  /-- A zero and then a decimal digit. -/
  keycode : ∃ d rest, text = 48 :: d :: rest ∧ 48 ≤ d ∧ d ≤ 57

theorem legible_iff :
    Legible text ↔ ∃ b payload, b ≤ 9 ∧ text.map Hex.lower = Hex.encode (b :: payload) := by
  constructor
  · intro h
    obtain ⟨bs, hbs⟩ := Hex.exists_decodePairs 0 h.even h.digits
    rw [Hex.decodePairs_eq_ok] at hbs
    obtain ⟨d, rest, rfl, hd, hd'⟩ := h.keycode
    cases bs with
    | nil => cases hbs
    | cons b payload =>
      refine ⟨b, payload, ?_, hbs⟩
      rw [Hex.encode_cons, List.map_cons, List.map_cons, List.cons.injEq, List.cons.injEq] at hbs
      have hhigh := Hex.value?_iff_toNat.1 (Hex.value?_eq_some.2 ⟨Hex.high_lt b, hbs.1⟩)
      have hlow := Hex.value?_iff_toNat.1 (Hex.value?_eq_some.2 ⟨Hex.low_lt b, hbs.2.1⟩)
      simp only [UInt8.le_iff_toNat_le, UInt8.toNat_div, UInt8.toNat_mod, UInt8.reduceToNat]
        at hd hd' hhigh hlow ⊢
      omega
  · rintro ⟨b, payload, hb, h⟩
    have hlen : text.length = 2 * (payload.length + 1) := by
      rw [← List.length_map, h, Hex.length_encode, List.length_cons]
    have hdigits : ∀ d ∈ text, Hex.IsDigit d := by
      intro d hd
      exact Hex.isDigit_of_lower (Hex.isLowerDigit_of_mem_encode (h ▸ List.mem_map_of_mem hd))
    rw [Hex.encode_cons] at h
    obtain ⟨x, s, rfl, hx, h⟩ := List.map_eq_cons_iff.1 h
    obtain ⟨y, s, rfl, hy, h⟩ := List.map_eq_cons_iff.1 h
    have hhigh := Hex.value?_iff_toNat.1 (Hex.value?_eq_some.2 ⟨Hex.high_lt b, hx⟩)
    have hlow := Hex.value?_iff_toNat.1 (Hex.value?_eq_some.2 ⟨Hex.low_lt b, hy⟩)
    refine ⟨by simp, by omega, hdigits, y, s, ?_⟩
    simp only [UInt8.le_iff_toNat_le, UInt8.toNat_div, UInt8.toNat_mod, UInt8.reduceToNat,
      List.cons.injEq, and_true, ← UInt8.toNat_inj] at hb hhigh hlow ⊢
    omega

theorem exists_decode_iff : (∃ m, decode line = .ok m) ↔ Legible (strip line) := by
  simp only [decode_eq_ok, legible_iff, ← Keycode.exists_wire?_iff]
  constructor
  · rintro ⟨m, b, hb, h⟩
    exact ⟨b, m.payload, ⟨m.keycode, hb⟩, h⟩
  · rintro ⟨b, payload, ⟨keycode, hb⟩, h⟩
    exact ⟨{ keycode, payload }, b, hb, h⟩

/-- **Lines and messages.** A message that travels is written as lower-case digits and one line feed,
and any text that differs from these digits in case only is read as the message, whatever terminators
follow. Any line can be cut before the terminators it ends with, and it is read exactly if what stands
before them is legible. The message it is read as travels and is written as that very text in lower
case, so lines that are read as one message differ in case and terminators only. -/
theorem codec_exact :
    (∀ m : Message, m.keycode ≠ .internal → m.keycode ≠ .waitUserInput →
      ∃ text, encode m = .ok (text ++ [lineFeed]) ∧ (∀ d ∈ text, Hex.IsLowerDigit d) ∧
        ∀ variant ending : Bytes, variant.map Hex.lower = text →
          (∀ b ∈ ending, b = carriageReturn ∨ b = lineFeed) →
            decode (variant ++ ending) = .ok m) ∧
    (∀ line, ∃ text ending, Cut line text ending) ∧
    (∀ line text ending, Cut line text ending →
      ((∃ m, decode line = .ok m) ↔ Legible text) ∧
      ∀ m, decode line = .ok m →
        m.keycode ≠ .internal ∧ m.keycode ≠ .waitUserInput ∧
          encode m = .ok (text.map Hex.lower ++ [lineFeed])) ∧
    (∀ line text ending line' text' ending' m, Cut line text ending → Cut line' text' ending' →
      decode line = .ok m → decode line' = .ok m → text.map Hex.lower = text'.map Hex.lower) := by
  refine ⟨?_, fun line => ⟨strip line, exists_cut line⟩, ?_, ?_⟩
  · intro m hinternal hwait
    obtain ⟨b, hb⟩ := Keycode.exists_wire?_eq_some_iff.2 ⟨hinternal, hwait⟩
    have hlower : ∀ d ∈ Hex.encode (b :: m.payload), Hex.IsLowerDigit d := fun d hd =>
      Hex.isLowerDigit_of_mem_encode hd
    refine ⟨Hex.encode (b :: m.payload), by simp [encode, Message.bytes, hb], hlower, ?_⟩
    intro variant ending hvariant hending
    have hdigits : ∀ d ∈ variant, isTerminator d = false := by
      intro d hd
      refine not_isTerminator_of_isDigit (Hex.isDigit_of_lower (hlower _ ?_))
      rw [← hvariant]
      exact List.mem_map_of_mem hd
    refine decode_eq_ok.2 ⟨b, hb, ?_⟩
    have hcut := cut_append hdigits fun d hd => isTerminator_iff.2 (hending d hd)
    rw [hcut.strip_eq, hvariant]
  · intro line text ending hcut
    obtain rfl := hcut.strip_eq
    refine ⟨exists_decode_iff, ?_⟩
    intro m h
    obtain ⟨b, hb, hline⟩ := decode_eq_ok.1 h
    obtain ⟨hinternal, hwait⟩ := Keycode.exists_wire?_eq_some_iff.1 ⟨b, hb⟩
    exact ⟨hinternal, hwait, by simp [encode, Message.bytes, hb, hline]⟩
  · intro line text ending line' text' ending' m hcut hcut' h h'
    obtain rfl := hcut.strip_eq
    obtain rfl := hcut'.strip_eq
    obtain ⟨b, hb, hline⟩ := decode_eq_ok.1 h
    obtain ⟨b', hb', hline'⟩ := decode_eq_ok.1 h'
    obtain rfl := Option.some.inj (hb.symm.trans hb')
    rw [hline, hline']

/-- A confirmation, read with a capital digit and three terminators. -/
theorem codec_exact_confirm :
    let m : Message := .confirm 0xAB true
    let text := Utf8.encode "07ab01"
    let variant := Utf8.encode "07aB01"
    let ending := [carriageReturn, lineFeed, lineFeed]
    m.keycode ≠ .internal ∧ m.keycode ≠ .waitUserInput ∧ encode m = .ok (text ++ [lineFeed]) ∧
      variant.map Hex.lower = text ∧ Cut (variant ++ ending) variant ending ∧
      decode (variant ++ ending) = .ok m ∧ Legible variant := by
  intro m text variant ending
  obtain ⟨hwritten, -, hread, -⟩ := codec_exact
  have hline : ofMessage m = text ++ [lineFeed] := by decide +kernel
  have henc : encode m = .ok (text ++ [lineFeed]) := hline ▸ encode_of_wire rfl
  have hvariant : variant.map Hex.lower = text := by decide +kernel
  have hcut : Cut (variant ++ ending) variant ending :=
    cut_append (by decide +kernel) (by decide +kernel)
  obtain ⟨text', henc', -, hall⟩ := hwritten m (by decide) (by decide)
  obtain rfl : text' = text :=
    List.append_cancel_right (Except.ok.inj (henc'.symm.trans henc))
  have hdec := hall variant ending hvariant hcut.terminators
  exact ⟨by decide, by decide, henc, hvariant, hcut, hdec, (hread _ _ _ hcut).1.1 ⟨m, hdec⟩⟩

end Line

end HomeControl
