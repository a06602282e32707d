import HomeControl.Proofs.Text.Cut
import HomeControl.Text.Decimal
import HomeControl.Text.Split

/-!
# Numbers as they are written

A number below the bound is read as it is written, without sign and leading zeros. Such texts hold
digits only, so nothing is trimmed from them, and a list of them with commas in between is cut into them
again.
-/

namespace HomeControl

namespace Decimal

variable {bound n : Nat} {c : Char}

/-- A byte as it is written. -/
def ofByte (b : UInt8) : String :=
  toString b.toNat

/-- Counting that stops at the bound is counting, and stopping then. -/
theorem foldl_digits (bound n : Nat) (cs : List Char) :
    cs.foldl (fun n c => min bound (n * 10 + (c.toNat - 48))) (min bound n) =
      min bound (Nat.ofDigitChars 10 cs n) := by
  induction cs generalizing n with
  | nil => simp
  | cons c cs ih =>
    have hstep : min bound (min bound n * 10 + (c.toNat - 48)) = min bound (10 * n + (c.toNat - 48)) := by
      omega
    rw [List.foldl_cons, hstep, ih, Nat.ofDigitChars_cons]
    rfl

/-- The digits of a number below the bound are read as that number. -/
theorem digitsBelow?_toDigits (h : n < bound) : digitsBelow? bound (Nat.toDigits 10 n) = some n := by
  have hall : (Nat.toDigits 10 n).all Char.isDigit = true :=
    List.all_eq_true.2 fun c hc => Nat.isDigit_of_mem_toDigits (by decide) (by decide) hc
  have hcount := foldl_digits bound 0 (Nat.toDigits 10 n)
  rw [Nat.ofDigitChars_ten_toDigits, Nat.min_zero, Nat.min_eq_right (Nat.le_of_lt h)] at hcount
  simp [digitsBelow?, Nat.toDigits_ne_nil, hall, hcount, h]

theorem unsignedBelow?_toString (h : n < bound) : unsignedBelow? bound (toString n) = some n := by
  rw [unsignedBelow?, Nat.toString_eq_repr, Nat.toList_repr]
  split
  · rename_i cs hplus
    have hdigit : '+'.isDigit = true :=
      Nat.isDigit_of_mem_toDigits (b := 10) (n := n) (by decide) (by decide) (by simp [hplus])
    cases hdigit
  · exact digitsBelow?_toDigits h

theorem byte?_ofByte (b : UInt8) : byte? (ofByte b) = some b := by
  rw [byte?, ofByte, unsignedBelow?_toString b.toNat_lt]
  simp

theorem isDigit_of_mem_ofByte {b : UInt8} (hc : c ∈ (ofByte b).toList) : c.isDigit = true := by
  rw [ofByte, Nat.toString_eq_repr, Nat.toList_repr] at hc
  exact Nat.isDigit_of_mem_toDigits (by decide) (by decide) hc

end Decimal

namespace Text

theorem isBlank_of_isDigit {c : Char} (hc : c.isDigit = true) : isBlank c = false := by
  have hrange : 48 ≤ c.toNat ∧ c.toNat ≤ 57 := by
    simpa [Char.isDigit, UInt32.le_iff_toNat_le] using hc
  simp [isBlank]
  omega

theorem trim_eq_self {s : String} (h : ∀ c ∈ s.toList, isBlank c = false) : trim s = s := by
  have hfront : s.toList.dropWhile isBlank = s.toList := by
    cases hs : s.toList with
    | nil => rfl
    | cons c cs => rw [List.dropWhile_cons_of_neg (by simp [h c (by simp [hs])])]
  rw [trim, hfront, String.ofList_toList]
  exact trimEnd_eq_self fun c hc => h c (List.mem_of_getLast? hc)

/-- Cutting at a separator is what the library calls splitting on it. -/
theorem splitChars_eq (sep : Char) (cs : List Char) : splitChars sep cs = cs.splitOn sep := by
  induction cs with
  | nil => rfl
  | cons c cs ih =>
    rw [splitChars, ih, List.splitOn_cons_eq_if_modifyHead]
    by_cases hc : c = sep
    · simp [hc]
    · rw [if_neg hc, if_neg (by simpa using hc)]
      have hne : cs.splitOn sep ≠ [] := List.splitOn_ne_nil sep cs
      cases hcut : cs.splitOn sep with
      | nil => exact absurd hcut hne
      | cons piece pieces => rfl

/-- What is joined consists of the separators and the parts. -/
theorem mem_intercalate {c sep : Char} {parts : List String}
    (hc : c ∈ ((String.singleton sep).intercalate parts).toList) :
    c = sep ∨ ∃ s ∈ parts, c ∈ s.toList := by
  induction parts with
  | nil => simp at hc
  | cons s parts ih =>
    cases parts with
    | nil =>
      rw [String.intercalate_singleton] at hc
      exact .inr ⟨s, List.mem_cons_self, hc⟩
    | cons t parts =>
      rw [String.intercalate_cons_cons, String.toList_append, String.toList_append,
        String.toList_singleton, List.append_assoc, List.mem_append, List.mem_append,
        List.mem_singleton] at hc
      rcases hc with hs | rfl | hlater
      · exact .inr ⟨s, List.mem_cons_self, hs⟩
      · exact .inl rfl
      · exact (ih hlater).imp_right fun ⟨u, hu, hcu⟩ => ⟨u, List.mem_cons_of_mem _ hu, hcu⟩

/-- Texts with a character in between that none of them holds are cut into these texts. -/
theorem split_intercalate {sep : Char} {parts : List String} (hne : parts ≠ [])
    (hsep : ∀ s ∈ parts, sep ∉ s.toList) :
    split sep ((String.singleton sep).intercalate parts) = parts := by
  rw [split, splitChars_eq, String.toList_intercalate, String.toList_singleton,
    List.splitOn_intercalate sep (by simpa using hsep) (by simpa using hne), List.map_map]
  simp [Function.comp_def]

end Text

end HomeControl
