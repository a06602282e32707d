import HomeControl.Text.Hex
import Mathlib.Tactic.SplitIfs

/-!
# Hexadecimal text is read in either case

Digits are written in lower case and read in either, so a text is read as some bytes exactly if its
lower-case form is what is written for them (`Hex.decode_eq_ok`). In particular what is written is read
back.
-/

namespace HomeControl.Hex

/-- The lower-case form of an ASCII letter; any other byte stays as it is. -/
def lower (b : UInt8) : UInt8 :=
  if 65 ≤ b ∧ b ≤ 90 then b + 32 else b

/-- A hexadecimal digit in lower case. -/
def IsLowerDigit (b : UInt8) : Prop :=
  48 ≤ b ∧ b ≤ 57 ∨ 97 ≤ b ∧ b ≤ 102

/-- A hexadecimal digit of either case. -/
def IsDigit (b : UInt8) : Prop :=
  IsLowerDigit b ∨ 65 ≤ b ∧ b ≤ 70

instance (b : UInt8) : Decidable (IsLowerDigit b) :=
  inferInstanceAs (Decidable (_ ∨ _))

instance (b : UInt8) : Decidable (IsDigit b) :=
  inferInstanceAs (Decidable (_ ∨ _))

variable {b d n : UInt8} {s bs : Bytes} {position : Nat}

/-! ## Single digits -/

/-- The digits from 0 to 9 follow ASCII 48, those from a to f follow ASCII 97. -/
theorem digit_toNat (hn : n.toNat < 16) :
    (digit n).toNat = if n.toNat < 10 then n.toNat + 48 else n.toNat + 87 := by
  unfold digit
  simp only [UInt8.lt_iff_toNat_lt, UInt8.reduceToNat]
  split <;> simp only [UInt8.toNat_add, UInt8.reduceToNat] <;> omega

/-- Only the capital letters move, and they move by 32. -/
theorem lower_toNat (b : UInt8) :
    (lower b).toNat = if 65 ≤ b.toNat ∧ b.toNat ≤ 90 then b.toNat + 32 else b.toNat := by
  unfold lower
  simp only [UInt8.le_iff_toNat_le, UInt8.reduceToNat]
  split
  · simp only [UInt8.toNat_add, UInt8.reduceToNat]
    omega
  · rfl

theorem lower_of_isLowerDigit (h : IsLowerDigit d) : lower d = d := by
  simp only [IsLowerDigit, UInt8.le_iff_toNat_le, UInt8.reduceToNat] at h
  rw [← UInt8.toNat_inj, lower_toNat]
  split <;> omega

/-- What is a digit in lower case is a digit. -/
theorem isDigit_of_lower (h : IsLowerDigit (lower d)) : IsDigit d := by
  simp only [IsDigit, IsLowerDigit, UInt8.le_iff_toNat_le, UInt8.reduceToNat, lower_toNat] at h ⊢
  split at h <;> omega

theorem isLowerDigit_digit (hn : n.toNat < 16) : IsLowerDigit (digit n) := by
  simp only [IsLowerDigit, UInt8.le_iff_toNat_le, UInt8.reduceToNat]
  rw [digit_toNat hn]
  split <;> omega

/-- Three ranges of bytes are digits, and no other byte has a value. -/
theorem value?_toNat (b : UInt8) :
    (value? b).map UInt8.toNat =
      if 48 ≤ b.toNat ∧ b.toNat ≤ 57 then some (b.toNat - 48)
      else if 97 ≤ b.toNat ∧ b.toNat ≤ 102 then some (b.toNat - 87)
      else if 65 ≤ b.toNat ∧ b.toNat ≤ 70 then some (b.toNat - 55)
      else none := by
  have hsub : ∀ k : UInt8, k.toNat ≤ b.toNat → (b - k).toNat = b.toNat - k.toNat := by
    intro k hk
    exact UInt8.toNat_sub_of_le _ _ (UInt8.le_iff_toNat_le.2 hk)
  unfold value?
  simp only [UInt8.le_iff_toNat_le, UInt8.reduceToNat]
  split_ifs with h₁ h₂ h₃
  · simp [hsub 48 h₁.1]
  · simp [hsub 87 (by simp; omega)]
  · simp [hsub 55 (by simp; omega)]
  · rfl

/-- The bytes that stand for a number below 16, spelled out. -/
theorem value?_iff_toNat : value? b = some n ↔
    n.toNat < 10 ∧ b.toNat = n.toNat + 48 ∨
      10 ≤ n.toNat ∧ n.toNat < 16 ∧ (b.toNat = n.toNat + 87 ∨ b.toNat = n.toNat + 55) := by
  have hv : value? b = some n ↔ (value? b).map UInt8.toNat = some n.toNat := by
    rw [Option.map_eq_some_iff]
    simp [UInt8.toNat_inj]
  rw [hv, value?_toNat]
  split_ifs with h₁ h₂ h₃
  · rw [Option.some.injEq]
    omega
  · rw [Option.some.injEq]
    omega
  · rw [Option.some.injEq]
    omega
  · rw [false_iff]
    omega

/-- A byte is read as a number exactly if its lower-case form is what is written for the number. -/
theorem value?_eq_some : value? b = some n ↔ n.toNat < 16 ∧ lower b = digit n := by
  rw [value?_iff_toNat]
  by_cases hn : n.toNat < 16
  · rw [← UInt8.toNat_inj, lower_toNat, digit_toNat hn]
    split_ifs <;> omega
  · constructor
    · intro h
      omega
    · intro h
      exact absurd h.1 hn

/-- The bytes that have a value are the digits. -/
theorem exists_value?_iff : (∃ n, value? b = some n) ↔ IsDigit b := by
  rw [← Option.isSome_iff_exists, ← Option.isSome_map (f := UInt8.toNat), value?_toNat]
  simp only [IsDigit, IsLowerDigit, UInt8.le_iff_toNat_le, UInt8.reduceToNat]
  split_ifs <;> simp <;> omega

/-! ## Texts of digits -/

theorem high_lt (b : UInt8) : (b / 16).toNat < 16 := by
  have hb := b.toNat_lt
  simp only [UInt8.toNat_div, UInt8.reduceToNat]
  omega

theorem low_lt (b : UInt8) : (b % 16).toNat < 16 := by
  simp only [UInt8.toNat_mod, UInt8.reduceToNat]
  omega

theorem high_join_low (b : UInt8) : b / 16 * 16 + b % 16 = b := by
  have hb := b.toNat_lt
  apply UInt8.toNat_inj.1
  simp only [UInt8.toNat_add, UInt8.toNat_mul, UInt8.toNat_div, UInt8.toNat_mod, UInt8.reduceToNat]
  omega

/-- A byte is written as the digit of its high half and then that of its low half. -/
theorem encode_cons (b : UInt8) (bs : Bytes) :
    encode (b :: bs) = digit (b / 16) :: digit (b % 16) :: encode bs := by
  rw [encode, List.flatMap_cons, digits, ← encode, List.cons_append, List.singleton_append]

/-- Nothing but lower-case digits is written. -/
theorem isLowerDigit_of_mem_encode (hd : d ∈ encode bs) : IsLowerDigit d := by
  obtain ⟨b, -, hb⟩ := List.mem_flatMap.1 hd
  have hb' : d = digit (b / 16) ∨ d = digit (b % 16) := by simpa [digits] using hb
  rcases hb' with rfl | rfl
  · exact isLowerDigit_digit (high_lt b)
  · exact isLowerDigit_digit (low_lt b)

theorem length_encode (bs : Bytes) : (encode bs).length = 2 * bs.length := by
  induction bs with
  | nil => rfl
  | cons b bs ih =>
    rw [encode, List.flatMap_cons, List.length_append, ← encode, ih, List.length_cons]
    simp [digits]
    omega

/-- The digits of a byte are those of the halves it is put together from. -/
theorem digits_join {high low : UInt8} (hh : high.toNat < 16) (hl : low.toNat < 16) :
    digits (high * 16 + low) = [digit high, digit low] := by
  have hhigh : (high * 16 + low) / 16 = high := by
    apply UInt8.toNat_inj.1
    simp
    omega
  have hlow : (high * 16 + low) % 16 = low := by
    apply UInt8.toNat_inj.1
    simp
    omega
  rw [digits, hhigh, hlow]

/-- Pairs of digits are read as some bytes exactly if they are, up to case, what is written for them. -/
theorem decodePairs_eq_ok : decodePairs position s = .ok bs ↔ s.map lower = encode bs := by
  constructor
  · -- the reader's own recursion one way, the bytes that are written the other
    intro h
    fun_induction decodePairs position s generalizing bs with
    | case1 =>
      obtain rfl := Except.ok.inj h
      rfl
    | case5 position x y rest high low hy hx tail htail ih =>
      obtain rfl := Except.ok.inj h
      obtain ⟨hh, hlx⟩ := value?_eq_some.1 hx
      obtain ⟨hl, hly⟩ := value?_eq_some.1 hy
      have hjoin := digits_join hh hl
      rw [digits, List.cons.injEq, List.cons.injEq] at hjoin
      rw [List.map_cons, List.map_cons, hlx, hly, ih htail, encode_cons, hjoin.1, hjoin.2.1]
    | case2 | case3 | case4 | case6 => cases h
  · intro h
    induction bs generalizing s position with
    | nil =>
      obtain rfl := List.map_eq_nil_iff.1 h
      rfl
    | cons b bs ih =>
      rw [encode_cons] at h
      obtain ⟨x, s, rfl, hx, hs⟩ := List.map_eq_cons_iff.1 h
      obtain ⟨y, s, rfl, hy, hs⟩ := List.map_eq_cons_iff.1 hs
      have hvx : value? x = some (b / 16) := value?_eq_some.2 ⟨high_lt b, hx⟩
      have hvy : value? y = some (b % 16) := value?_eq_some.2 ⟨low_lt b, hy⟩
      rw [decodePairs, hvx, hvy]
      simp only [ih hs, high_join_low]

/-- A text is read as some bytes exactly if its lower-case form is what is written for them. -/
theorem decode_eq_ok : decode s = .ok bs ↔ s.map lower = encode bs := by
  unfold decode
  split
  · rename_i hodd
    constructor
    · intro h
      cases h
    · intro h
      have hlen : s.length = 2 * bs.length := by rw [← List.length_map, h, length_encode]
      omega
  · exact decodePairs_eq_ok

/-- What is written is read back. -/
theorem decode_encode (bs : Bytes) : decode (encode bs) = .ok bs := by
  refine decode_eq_ok.2 ((List.map_congr_left ?_).trans (List.map_id _))
  intro d hd
  exact lower_of_isLowerDigit (isLowerDigit_of_mem_encode hd)

/-- An even number of digits can be read. -/
theorem exists_decodePairs (position : Nat) (heven : s.length % 2 = 0) (hd : ∀ d ∈ s, IsDigit d) :
    ∃ bs, decodePairs position s = .ok bs := by
  fun_induction decodePairs position s with
  | case1 => exact ⟨[], rfl⟩
  | case2 => simp at heven
  -- a digit stands where the reader has found none
  | case3 position x y rest hx =>
    obtain ⟨n, hn⟩ := exists_value?_iff.2 (hd x (by simp))
    rw [hx] at hn
    cases hn
  | case4 position x y rest hy =>
    obtain ⟨n, hn⟩ := exists_value?_iff.2 (hd y (by simp))
    rw [hy] at hn
    cases hn
  | case5 => exact ⟨_, rfl⟩
  | case6 position x y rest high low hy hx fault hfault ih =>
    have hrest : rest.length % 2 = 0 := by
      rw [List.length_cons, List.length_cons] at heven
      omega
    obtain ⟨bs, hbs⟩ := ih hrest fun d hd' => hd d (by simp [hd'])
    rw [hfault] at hbs
    cases hbs

end HomeControl.Hex
