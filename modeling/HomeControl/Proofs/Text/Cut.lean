import HomeControl.Proofs.Text.Utf8
import HomeControl.Text.Blank

/-!
# Text that is cut or trimmed

The first bytes of an encoding are the encoding of fewer characters, or that and the beginning of one
more character, which lossy reading shows as a single U+FFFD. Trimming splits a text into what it keeps
and the blanks at its end.
-/

namespace HomeControl

namespace Utf8

variable {c : Char} {part rest : Bytes}

/-- A byte is held back with the others, or it ends a piece. -/
theorem Scan.push_cases (s : Scan) (b : UInt8) :
    s.push b = { s with held := s.held ++ [b] } ∨ s.pieces.length < (s.push b).pieces.length := by
  obtain ⟨held, ps⟩ := s
  unfold Scan.push
  split
  · rename_i hheld
    subst hheld
    unfold Scan.start
    split
    · exact Or.inr (by simp)
    · exact Or.inr (by simp)
    · exact Or.inl rfl
  · split_ifs
    · exact Or.inr (by simp)
    · exact Or.inl rfl
    · refine Or.inr ?_
      unfold Scan.start
      split <;> simp only [List.length_cons] <;> omega

theorem Scan.foldl_push_cases (s : Scan) (bs : Bytes) :
    bs.foldl Scan.push s = { s with held := s.held ++ bs } ∨
      s.pieces.length < (bs.foldl Scan.push s).pieces.length := by
  induction bs generalizing s with
  | nil => simp
  | cons b bs ih =>
    rw [List.foldl_cons]
    rcases s.push_cases b with hb | hb
    · rw [hb]
      simpa using ih { s with held := s.held ++ [b] }
    · rcases ih (s.push b) with hbs | hbs
      · rw [hbs]
        exact Or.inr hb
      · exact Or.inr (Nat.lt_trans hb hbs)

/-- The beginning of a character's bytes is held back: the bytes that follow it end one piece only. -/
theorem foldl_push_beginning (hc : String.utf8EncodeChar c = part ++ rest) (hr : rest ≠ [])
    (ps : List (Option Char)) :
    part.foldl Scan.push { held := [], pieces := ps } = { held := part, pieces := ps } := by
  have hall := foldl_push_encodeChar c ps
  rw [hc, List.foldl_append] at hall
  -- a piece ended by the beginning and another ended by the rest would be one too many
  rcases Scan.foldl_push_cases { held := [], pieces := ps } part with h | h
  · simpa using h
  · generalize part.foldl Scan.push { held := [], pieces := ps } = s at h hall
    rcases Scan.foldl_push_cases s rest with h' | h'
    · rw [hall] at h'
      have hheld : [] = s.held ++ rest := congrArg Scan.held h'
      exact absurd (List.append_eq_nil_iff.1 hheld.symm).2 hr
    · rw [hall] at h'
      simp at h h'
      omega

/-- A character of which only the beginning is left is shown as U+FFFD. -/
theorem decodeLossy_cut (t : String) (hc : String.utf8EncodeChar c = part ++ rest) (hp : part ≠ [])
    (hr : rest ≠ []) : decodeLossy (encode t ++ part) = t.push '\uFFFD' := by
  have hscan : (encode t ++ part).foldl Scan.push {} =
      { held := part, pieces := (t.toList.map some).reverse } := by
    rw [List.foldl_append, encode, foldl_push_encode, foldl_push_beginning hc hr, List.append_nil]
  obtain ⟨b, part, rfl⟩ := List.exists_cons_of_ne_nil hp
  rw [decodeLossy, pieces, hscan]
  apply String.toList_inj.1
  simp [Scan.finish, Function.comp_def]

theorem encode_append (s t : String) : encode (s ++ t) = encode s ++ encode t := by
  simp [encode, String.toList_append]

theorem encode_spaces (n : Nat) :
    encode (String.ofList (List.replicate n ' ')) = List.replicate n 0x20 := by
  have hs : String.utf8EncodeChar ' ' = [0x20] := by decide
  rw [encode, String.toList_ofList]
  induction n with
  | zero => rfl
  | succ n ih => rw [List.replicate_succ, List.flatMap_cons, hs, ih, List.replicate_succ]; rfl

theorem encode_push (t : String) (c : Char) :
    encode (t.push c) = encode t ++ String.utf8EncodeChar c := by
  simp [encode]

theorem encode_cons (c : Char) (t : String) :
    encode (String.ofList (c :: t.toList)) = String.utf8EncodeChar c ++ encode t := by
  simp [encode]

/-- A cut falls between two characters or inside one. -/
theorem take_encode (s : String) (n : Nat) : (∃ t, (encode s).take n = encode t) ∨
    ∃ t c part rest, String.utf8EncodeChar c = part ++ rest ∧ part ≠ [] ∧ rest ≠ [] ∧
      (encode s).take n = encode t ++ part ∧ (encode t ++ part).length = n := by
  rw [encode]
  generalize s.toList = cs
  induction cs generalizing n with
  | nil => exact Or.inl ⟨"", by simp [encode]⟩
  | cons c cs ih =>
    rw [List.flatMap_cons, List.take_append]
    generalize hbs : String.utf8EncodeChar c = bs at ih
    by_cases hn : n < bs.length
    · have hrest : n - bs.length = 0 := by omega
      rw [hrest, List.take_zero, List.append_nil]
      by_cases hzero : n = 0
      · exact Or.inl ⟨"", by simp [hzero, encode]⟩
      · refine Or.inr ⟨"", c, bs.take n, bs.drop n, ?_, ?_, ?_, ?_, ?_⟩
        · rw [hbs, List.take_append_drop]
        · intro hnil
          have hlen := congrArg List.length hnil
          rw [List.length_take, List.length_nil] at hlen
          omega
        · intro hnil
          have hlen := congrArg List.length hnil
          rw [List.length_drop, List.length_nil] at hlen
          omega
        · simp [encode]
        · simp [encode]
          omega
    · rw [List.take_of_length_le (by omega : bs.length ≤ n)]
      rcases ih (n - bs.length) with ⟨t, ht⟩ | ⟨t, c', part, rest, hc', hp, hr, ht, hlen⟩
      · exact Or.inl ⟨String.ofList (c :: t.toList), by rw [ht, encode_cons, hbs]⟩
      · refine Or.inr ⟨String.ofList (c :: t.toList), c', part, rest, hc', hp, hr, ?_, ?_⟩
        · rw [ht, encode_cons, hbs, List.append_assoc]
        · rw [encode_cons, hbs, List.append_assoc, List.length_append, hlen]
          omega

end Utf8

namespace Text

/-- What trimming keeps and what it drops. -/
theorem trimEnd_append (s : String) :
    trimEnd s ++ String.ofList (s.toList.reverse.takeWhile isBlank).reverse = s := by
  apply String.toList_inj.1
  rw [trimEnd, String.toList_append, String.toList_ofList, String.toList_ofList,
    ← List.reverse_append, List.takeWhile_append_dropWhile, List.reverse_reverse]

theorem trimEnd_append_spaces (s : String) (n : Nat) :
    trimEnd (s ++ String.ofList (List.replicate n ' ')) = trimEnd s := by
  have hb : ∀ c ∈ List.replicate n ' ', isBlank c = true := by
    intro c hc
    rw [List.eq_of_mem_replicate hc]
    decide
  rw [trimEnd, String.toList_append, String.toList_ofList, List.reverse_append,
    List.reverse_replicate, List.dropWhile_append_of_pos hb, trimEnd]

theorem trimEnd_eq_self {s : String} (h : ∀ c, s.toList.getLast? = some c → isBlank c = false) :
    trimEnd s = s := by
  rw [List.getLast?_eq_head?_reverse] at h
  have hkeep : s.toList.reverse.dropWhile isBlank = s.toList.reverse := by
    cases hr : s.toList.reverse with
    | nil => rfl
    | cons c cs =>
      have hc := h c (by rw [hr]; rfl)
      rw [List.dropWhile_cons_of_neg (by simp [hc])]
  rw [trimEnd, hkeep, List.reverse_reverse, String.ofList_toList]

@[simp] theorem trimEnd_trimEnd (s : String) : trimEnd (trimEnd s) = trimEnd s := by
  refine trimEnd_eq_self ?_
  intro c hc
  rw [trimEnd, String.toList_ofList, List.getLast?_reverse] at hc
  have hfirst := List.head?_dropWhile_not isBlank s.toList.reverse
  rw [hc] at hfirst
  simpa using hfirst

end Text

end HomeControl
