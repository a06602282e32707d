import HomeControl.Text.Utf8
import Mathlib.Tactic.SplitIfs

/-!
# Strict reading undoes writing

A byte string is read strictly exactly if it is the encoding of a string, and then it gives that
string: `decode?_eq_some_iff`. One direction follows a character's bytes through the scan, the other
keeps an account of the bytes that the scan has taken.
-/

namespace HomeControl.Utf8

/-! ## Bytes as numbers -/

/-- The width that a leading byte announces, range by range. -/
theorem width_eq (b : UInt8) :
    width b = if b.toNat < 0x80 then 1 else if b.toNat < 0xC2 then 0 else if b.toNat < 0xE0 then 2
      else if b.toNat < 0xF0 then 3 else if b.toNat < 0xF5 then 4 else 0 := by
  simp [width, UInt8.lt_iff_toNat_lt]

/-- The range of the second byte depends on the first. -/
theorem continues_lead (a b : UInt8) :
    continues [a] b = true ↔
      (if a.toNat = 0xE0 then 0xA0 else if a.toNat = 0xF0 then 0x90 else 0x80) ≤ b.toNat ∧
      b.toNat ≤ (if a.toNat = 0xED then 0x9F else if a.toNat = 0xF4 then 0x8F else 0xBF) := by
  unfold continues
  split <;> simp_all [UInt8.le_iff_toNat_le, ← UInt8.toNat_inj]

/-- The bytes after the second are free. -/
theorem continues_later (a a' : UInt8) (held : Bytes) (b : UInt8) :
    continues (a :: a' :: held) b = true ↔ 0x80 ≤ b.toNat ∧ b.toNat ≤ 0xBF := by
  simp [continues, UInt8.le_iff_toNat_le]

/-- A scalar value is no surrogate and not too large. -/
theorem toNat_scalar_range (c : Char) : c.toNat < 0xD800 ∨ 0xDFFF < c.toNat ∧ c.toNat < 0x110000 :=
  c.valid

/-- A scalar value is the value of its character. -/
theorem toNat_ofNat_of_scalar {n : Nat} (h : n < 0xD800 ∨ 0xDFFF < n ∧ n < 0x110000) :
    (Char.ofNat n).toNat = n := by
  have hv : n.isValidChar := h
  rw [Char.ofNat, dif_pos hv]
  rfl

/-! ## Reading what has been written -/

/-- An ASCII byte is a character by itself. -/
theorem push_single {b : UInt8} {ps : List (Option Char)} (hw : width b = 1) :
    Scan.push { held := [], pieces := ps } b = { held := [], pieces := some (scalar [b]) :: ps } := by
  simp [Scan.push, Scan.start, hw]

theorem push_lead {b : UInt8} {ps : List (Option Char)} (hw : 2 ≤ width b) :
    Scan.push { held := [], pieces := ps } b = { held := [b], pieces := ps } := by
  simp only [Scan.push, Scan.start]
  split <;> first | rfl | omega

theorem push_middle {a b : UInt8} {held : Bytes} {ps : List (Option Char)}
    (hc : continues (a :: held) b = true) (hw : held.length + 2 ≠ width a) :
    Scan.push { held := a :: held, pieces := ps } b =
      { held := a :: held ++ [b], pieces := ps } := by
  simp [Scan.push, hc, hw]

/-- The byte that makes a character whole completes it. -/
theorem push_last {a b : UInt8} {held : Bytes} {ps : List (Option Char)}
    (hc : continues (a :: held) b = true) (hw : held.length + 2 = width a) :
    Scan.push { held := a :: held, pieces := ps } b =
      { held := [], pieces := some (scalar (a :: held ++ [b])) :: ps } := by
  simp [Scan.push, hc, hw]

theorem foldl_push_two {a b : UInt8} (hw : width a = 2) (hb : continues [a] b = true)
    (ps : List (Option Char)) :
    [a, b].foldl Scan.push { held := [], pieces := ps } =
      { held := [], pieces := some (scalar [a, b]) :: ps } := by
  rw [List.foldl_cons, push_lead (by omega), List.foldl_cons, push_last hb (by simp [hw])]
  rfl

theorem foldl_push_three {a b c : UInt8} (hw : width a = 3) (hb : continues [a] b = true)
    (hc : continues [a, b] c = true) (ps : List (Option Char)) :
    [a, b, c].foldl Scan.push { held := [], pieces := ps } =
      { held := [], pieces := some (scalar [a, b, c]) :: ps } := by
  rw [List.foldl_cons, push_lead (by omega), List.foldl_cons, push_middle hb (by simp [hw]),
    List.foldl_cons, List.singleton_append, push_last hc (by simp [hw])]
  rfl

theorem foldl_push_four {a b c d : UInt8} (hw : width a = 4) (hb : continues [a] b = true)
    (hc : continues [a, b] c = true) (hd : continues [a, b, c] d = true) (ps : List (Option Char)) :
    [a, b, c, d].foldl Scan.push { held := [], pieces := ps } =
      { held := [], pieces := some (scalar [a, b, c, d]) :: ps } := by
  rw [List.foldl_cons, push_lead (by omega), List.foldl_cons, push_middle hb (by simp [hw]),
    List.foldl_cons, List.singleton_append, push_middle hc (by simp [hw]), List.foldl_cons,
    List.cons_append, List.singleton_append, push_last hd (by simp [hw])]
  rfl

theorem toNat_ofNat_of_lt {n : Nat} (h : n < 256) : (UInt8.ofNat n).toNat = n := by
  simp only [UInt8.toNat_ofNat']
  omega

theorem width_of_ascii {b : UInt8} (h : b.toNat < 0x80) : width b = 1 := by
  simp [width_eq, h]

theorem width_of_two {b : UInt8} (h : 0xC2 ≤ b.toNat) (h' : b.toNat < 0xE0) : width b = 2 := by
  rw [width_eq, if_neg (by omega), if_neg (by omega), if_pos h']

theorem width_of_three {b : UInt8} (h : 0xE0 ≤ b.toNat) (h' : b.toNat < 0xF0) : width b = 3 := by
  rw [width_eq, if_neg (by omega), if_neg (by omega), if_neg (by omega), if_pos h']

theorem width_of_four {b : UInt8} (h : 0xF0 ≤ b.toNat) (h' : b.toNat < 0xF5) : width b = 4 := by
  rw [width_eq, if_neg (by omega), if_neg (by omega), if_neg (by omega), if_neg (by omega),
    if_pos h']

/-! The three encodings that take more than one byte: the ranges of the bytes, and the number that they
make up together. -/

theorem foldl_push_encoded_two {n : Nat} (hn : 0x7F < n) (hn' : n ≤ 0x7FF) (ps : List (Option Char)) :
    [UInt8.ofNat (n / 64 % 32 + 192), UInt8.ofNat (n % 64 + 128)].foldl Scan.push
        { held := [], pieces := ps } =
      { held := [], pieces := some (Char.ofNat n) :: ps } := by
  have ha : (UInt8.ofNat (n / 64 % 32 + 192)).toNat = n / 64 % 32 + 192 :=
    toNat_ofNat_of_lt (by omega)
  have hb : (UInt8.ofNat (n % 64 + 128)).toNat = n % 64 + 128 := toNat_ofNat_of_lt (by omega)
  generalize UInt8.ofNat (n / 64 % 32 + 192) = a, UInt8.ofNat (n % 64 + 128) = b at ha hb ⊢
  have hw : width a = 2 := width_of_two (by omega) (by omega)
  have hab : continues [a] b = true := by
    rw [continues_lead]
    constructor <;> split <;> (try split) <;> omega
  have hsum : a.toNat % 32 * 64 + b.toNat % 64 = n := by omega
  rw [foldl_push_two hw hab, scalar, hsum]

theorem foldl_push_encoded_three {n : Nat} (hn : 0x7FF < n) (hn' : n ≤ 0xFFFF)
    (hscalar : n < 0xD800 ∨ 0xDFFF < n) (ps : List (Option Char)) :
    [UInt8.ofNat (n / 4096 % 16 + 224), UInt8.ofNat (n / 64 % 64 + 128),
        UInt8.ofNat (n % 64 + 128)].foldl Scan.push { held := [], pieces := ps } =
      { held := [], pieces := some (Char.ofNat n) :: ps } := by
  have ha : (UInt8.ofNat (n / 4096 % 16 + 224)).toNat = n / 4096 % 16 + 224 :=
    toNat_ofNat_of_lt (by omega)
  have hb : (UInt8.ofNat (n / 64 % 64 + 128)).toNat = n / 64 % 64 + 128 :=
    toNat_ofNat_of_lt (by omega)
  have hd : (UInt8.ofNat (n % 64 + 128)).toNat = n % 64 + 128 := toNat_ofNat_of_lt (by omega)
  generalize UInt8.ofNat (n / 4096 % 16 + 224) = a, UInt8.ofNat (n / 64 % 64 + 128) = b,
    UInt8.ofNat (n % 64 + 128) = d at ha hb hd ⊢
  have hw : width a = 3 := width_of_three (by omega) (by omega)
  have hab : continues [a] b = true := by
    rw [continues_lead]
    constructor <;> split <;> (try split) <;> omega
  have habd : continues [a, b] d = true := (continues_later a b [] d).2 (by omega)
  have hsum : a.toNat % 16 * 4096 + b.toNat % 64 * 64 + d.toNat % 64 = n := by omega
  rw [foldl_push_three hw hab habd, scalar, hsum]

theorem foldl_push_encoded_four {n : Nat} (hn : 0xFFFF < n) (hn' : n < 0x110000)
    (ps : List (Option Char)) :
    [UInt8.ofNat (n / 262144 % 8 + 240), UInt8.ofNat (n / 4096 % 64 + 128),
        UInt8.ofNat (n / 64 % 64 + 128), UInt8.ofNat (n % 64 + 128)].foldl Scan.push
        { held := [], pieces := ps } =
      { held := [], pieces := some (Char.ofNat n) :: ps } := by
  have ha : (UInt8.ofNat (n / 262144 % 8 + 240)).toNat = n / 262144 % 8 + 240 :=
    toNat_ofNat_of_lt (by omega)
  have hb : (UInt8.ofNat (n / 4096 % 64 + 128)).toNat = n / 4096 % 64 + 128 :=
    toNat_ofNat_of_lt (by omega)
  have hd : (UInt8.ofNat (n / 64 % 64 + 128)).toNat = n / 64 % 64 + 128 :=
    toNat_ofNat_of_lt (by omega)
  have he : (UInt8.ofNat (n % 64 + 128)).toNat = n % 64 + 128 := toNat_ofNat_of_lt (by omega)
  generalize UInt8.ofNat (n / 262144 % 8 + 240) = a, UInt8.ofNat (n / 4096 % 64 + 128) = b,
    UInt8.ofNat (n / 64 % 64 + 128) = d, UInt8.ofNat (n % 64 + 128) = e at ha hb hd he ⊢
  have hw : width a = 4 := width_of_four (by omega) (by omega)
  have hab : continues [a] b = true := by
    rw [continues_lead]
    constructor <;> split <;> (try split) <;> omega
  have habd : continues [a, b] d = true := (continues_later a b [] d).2 (by omega)
  have habde : continues [a, b, d] e = true := (continues_later a b [d] e).2 (by omega)
  have hsum : a.toNat % 8 * 262144 + b.toNat % 64 * 4096 + d.toNat % 64 * 64 + e.toNat % 64 = n := by
    omega
  rw [foldl_push_four hw hab habd habde, scalar, hsum]

/-- The bytes of a character are scanned as that character. -/
theorem foldl_push_encodeChar (c : Char) (ps : List (Option Char)) :
    (String.utf8EncodeChar c).foldl Scan.push { held := [], pieces := ps } =
      { held := [], pieces := some c :: ps } := by
  have hc := toNat_scalar_range c
  have hv : c.val.toNat = c.toNat := rfl
  have hofNat := Char.ofNat_toNat c
  simp only [String.utf8EncodeChar, hv]
  generalize c.toNat = n at hc hofNat ⊢
  subst hofNat
  split
  · have ha : (UInt8.ofNat n).toNat = n := toNat_ofNat_of_lt (by omega)
    generalize UInt8.ofNat n = a at ha ⊢
    have hn : scalar [a] = Char.ofNat n := by rw [scalar, ha]
    rw [List.foldl_cons, push_single (width_of_ascii (by omega)), hn, List.foldl_nil]
  split
  · exact foldl_push_encoded_two (by omega) (by omega) ps
  split
  · exact foldl_push_encoded_three (by omega) (by omega) (by omega) ps
  · exact foldl_push_encoded_four (by omega) (by omega) ps

theorem foldl_push_encode (cs : List Char) (ps : List (Option Char)) :
    (cs.flatMap String.utf8EncodeChar).foldl Scan.push { held := [], pieces := ps } =
      { held := [], pieces := (cs.map some).reverse ++ ps } := by
  induction cs generalizing ps with
  | nil => rfl
  | cons c cs ih => simp [List.foldl_append, foldl_push_encodeChar, ih]

/-- An encoded text is whole: no piece of it is replaced. -/
theorem pieces_encode (s : String) : pieces (encode s) = s.toList.map some := by
  simp [pieces, encode, foldl_push_encode, Scan.finish]

theorem decode?_encode (s : String) : decode? (encode s) = some s := by
  have hm : (s.toList.map some).mapM id = some s.toList := by
    rw [List.mapM_map]
    simpa using List.mapM_pure (m := Option) (l := s.toList) (f := id)
  simp [decode?, pieces_encode, hm]

theorem encode_injective {s t : String} (h : encode s = encode t) : s = t := by
  have ht := decode?_encode t
  rw [← h, decode?_encode] at ht
  exact Option.some.inj ht

/-- Nothing of an encoded text is lost, even to a reader that would replace what it cannot read. -/
theorem decodeLossy_encode (s : String) : decodeLossy (encode s) = s := by
  simp [decodeLossy, pieces_encode, Function.comp_def]

/-! ## Bytes that stand for themselves -/

/-- An ASCII byte occurs in the encoding of its own character only. -/
theorem mem_encodeChar_iff {b : UInt8} (hb : b.toNat < 0x80) (c : Char) :
    b ∈ String.utf8EncodeChar c ↔ c.toNat = b.toNat := by
  have hc := toNat_scalar_range c
  have hv : c.val.toNat = c.toNat := rfl
  simp only [String.utf8EncodeChar, hv]
  generalize c.toNat = n at hc ⊢
  split_ifs <;> simp only [List.mem_cons, List.not_mem_nil, ← UInt8.toNat_inj,
    UInt8.toNat_ofNat', or_false] <;> omega

/-- A byte below 0x80 stands for its character and is part of no other encoding. -/
theorem mem_encode_iff {b : UInt8} (hb : b.toNat < 0x80) {s : String} :
    b ∈ encode s ↔ ∃ c ∈ s.toList, c.toNat = b.toNat := by
  simp [encode, mem_encodeChar_iff hb]

/-! ## Writing what has been read -/

/-- The beginning of an encoding that a scan may hold back. -/
inductive Held : Bytes → Prop where
  /-- No encoding has begun. -/
  | none : Held []
  /-- Its first byte. -/
  | one {a : UInt8} (hw : 2 ≤ width a) : Held [a]
  /-- Its first two bytes, of at least three. -/
  | two {a b : UInt8} (hw : 3 ≤ width a) (hb : continues [a] b = true) : Held [a, b]
  /-- Its first three bytes, of four. -/
  | three {a b c : UInt8} (hw : 4 ≤ width a) (hb : continues [a] b = true)
      (hc : continues [a, b] c = true) : Held [a, b, c]

/-- A byte is determined by its number. -/
theorem ofNat_eq_of_toNat_eq {n : Nat} {b : UInt8} (h : n = b.toNat) : UInt8.ofNat n = b := by
  rw [h, UInt8.ofNat_toNat]

theorem range_of_width_two {a : UInt8} (h : width a = 2) : 0xC2 ≤ a.toNat ∧ a.toNat < 0xE0 := by
  rw [width_eq] at h
  split_ifs at h <;> omega

theorem range_of_width_three {a : UInt8} (h : width a = 3) : 0xE0 ≤ a.toNat ∧ a.toNat < 0xF0 := by
  rw [width_eq] at h
  split_ifs at h <;> omega

theorem range_of_width_four {a : UInt8} (h : width a = 4) : 0xF0 ≤ a.toNat ∧ a.toNat < 0xF5 := by
  rw [width_eq] at h
  split_ifs at h <;> omega

theorem width_le_four (a : UInt8) : width a ≤ 4 := by
  rw [width_eq]
  split_ifs <;> omega

/-- A byte on its own is the encoding of what it is read as. -/
theorem encodeChar_scalar_one {a : UInt8} (hw : width a = 1) :
    String.utf8EncodeChar (scalar [a]) = [a] := by
  have ha : a.toNat < 0x80 := by
    rw [width_eq] at hw
    split_ifs at hw <;> omega
  have hn : (scalar [a]).val.toNat = a.toNat := toNat_ofNat_of_scalar (by omega)
  simp only [String.utf8EncodeChar, hn]
  rw [if_pos (by omega), UInt8.ofNat_toNat]

/-- Two bytes that make a character are the encoding of it. -/
theorem encodeChar_scalar_two {a b : UInt8} (hw : width a = 2) (hb : continues [a] b = true) :
    String.utf8EncodeChar (scalar [a, b]) = [a, b] := by
  obtain ⟨ha, ha'⟩ := range_of_width_two hw
  rw [continues_lead] at hb
  have hb' : 0x80 ≤ b.toNat ∧ b.toNat ≤ 0xBF := by
    split_ifs at hb <;> omega
  have hn : (scalar [a, b]).val.toNat = a.toNat % 32 * 64 + b.toNat % 64 :=
    toNat_ofNat_of_scalar (by omega)
  simp only [String.utf8EncodeChar, hn]
  rw [if_neg (by omega), if_pos (by omega), ofNat_eq_of_toNat_eq (b := a) (by omega),
    ofNat_eq_of_toNat_eq (b := b) (by omega)]

theorem encodeChar_scalar_three {a b c : UInt8} (hw : width a = 3) (hb : continues [a] b = true)
    (hc : continues [a, b] c = true) : String.utf8EncodeChar (scalar [a, b, c]) = [a, b, c] := by
  obtain ⟨ha, ha'⟩ := range_of_width_three hw
  rw [continues_later] at hc
  rw [continues_lead] at hb
  have hb' : 0x80 ≤ b.toNat ∧ b.toNat ≤ 0xBF ∧ (a.toNat = 0xE0 → 0xA0 ≤ b.toNat) ∧
      (a.toNat = 0xED → b.toNat ≤ 0x9F) := by
    split_ifs at hb <;> omega
  have hn : (scalar [a, b, c]).val.toNat =
      a.toNat % 16 * 4096 + b.toNat % 64 * 64 + c.toNat % 64 :=
    toNat_ofNat_of_scalar (by omega)
  simp only [String.utf8EncodeChar, hn]
  rw [if_neg (by omega), if_neg (by omega), if_pos (by omega),
    ofNat_eq_of_toNat_eq (b := a) (by omega), ofNat_eq_of_toNat_eq (b := b) (by omega),
    ofNat_eq_of_toNat_eq (b := c) (by omega)]

theorem encodeChar_scalar_four {a b c d : UInt8} (hw : width a = 4) (hb : continues [a] b = true)
    (hc : continues [a, b] c = true) (hd : continues [a, b, c] d = true) :
    String.utf8EncodeChar (scalar [a, b, c, d]) = [a, b, c, d] := by
  obtain ⟨ha, ha'⟩ := range_of_width_four hw
  rw [continues_later] at hc hd
  rw [continues_lead] at hb
  have hb' : 0x80 ≤ b.toNat ∧ b.toNat ≤ 0xBF ∧ (a.toNat = 0xF0 → 0x90 ≤ b.toNat) ∧
      (a.toNat = 0xF4 → b.toNat ≤ 0x8F) := by
    split_ifs at hb <;> omega
  have hn : (scalar [a, b, c, d]).val.toNat =
      a.toNat % 8 * 262144 + b.toNat % 64 * 4096 + c.toNat % 64 * 64 + d.toNat % 64 :=
    toNat_ofNat_of_scalar (by omega)
  simp only [String.utf8EncodeChar, hn]
  rw [if_neg (by omega), if_neg (by omega), if_neg (by omega),
    ofNat_eq_of_toNat_eq (b := a) (by omega), ofNat_eq_of_toNat_eq (b := b) (by omega),
    ofNat_eq_of_toNat_eq (b := c) (by omega), ofNat_eq_of_toNat_eq (b := d) (by omega)]

/-- The bytes that a scan has taken: those of the characters it has read, and the ones it holds
back. -/
def Scan.taken (s : Scan) : Bytes :=
  (s.pieces.reverse.flatMap fun piece => piece.elim [] String.utf8EncodeChar) ++ s.held

/-- A scan without ill-formed stretches. -/
structure Scan.Clean (s : Scan) : Prop where
  held : Held s.held
  pieces : none ∉ s.pieces

/-- What has been replaced stays replaced. -/
theorem Scan.none_mem_push {s : Scan} (h : none ∈ s.pieces) (b : UInt8) :
    none ∈ (s.push b).pieces := by
  unfold Scan.push
  split
  · unfold Scan.start
    split <;> simp [h]
  · split_ifs
    · simp [h]
    · exact h
    · unfold Scan.start
      split <;> simp [h]

/-- A byte that does not continue the encoding that has begun makes it ill-formed. -/
theorem Scan.none_mem_push_of_not_continues {a b : UInt8} {held : Bytes} {ps : List (Option Char)}
    (hc : continues (a :: held) b = false) :
    none ∈ (Scan.push { held := a :: held, pieces := ps } b).pieces := by
  simp only [Scan.push, hc, Bool.false_eq_true, if_false]
  unfold Scan.start
  split <;> simp

/-- A character that has been read is added to the bytes taken. -/
theorem Scan.Clean.read {bs : Bytes} {ps : List (Option Char)} (hp : none ∉ ps)
    (he : String.utf8EncodeChar (scalar bs) = bs) :
    ({ held := [], pieces := some (scalar bs) :: ps } : Scan).Clean ∧
      ({ held := [], pieces := some (scalar bs) :: ps } : Scan).taken =
        ({ held := [], pieces := ps } : Scan).taken ++ bs := by
  generalize scalar bs = c at he
  refine ⟨⟨.none, by simpa using hp⟩, ?_⟩
  simp [taken, he]

/-- What is held comes after the pieces. -/
theorem Scan.taken_held (held : Bytes) (ps : List (Option Char)) :
    ({ held, pieces := ps } : Scan).taken = ({ held := [], pieces := ps } : Scan).taken ++ held := by
  simp [taken]

/-- A byte that leaves a scan clean is added to the bytes it has taken. -/
theorem Scan.Clean.push {s : Scan} (h : s.Clean) {b : UInt8} (hp : none ∉ (s.push b).pieces) :
    (s.push b).Clean ∧ (s.push b).taken = s.taken ++ [b] := by
  obtain ⟨held, ps⟩ := s
  have hpieces : none ∉ ps := h.pieces
  cases h.held with
  | none =>
    by_cases h1 : width b = 1
    · rw [push_single h1]
      exact Scan.Clean.read hpieces (encodeChar_scalar_one h1)
    by_cases h2 : 2 ≤ width b
    · rw [push_lead h2]
      exact ⟨⟨.one h2, hpieces⟩, taken_held [b] ps⟩
    · have h0 : width b = 0 := by omega
      exact absurd hp (by simp [Scan.push, Scan.start, h0])
  | @one a hw =>
    cases hc : continues [a] b with
    | false => exact absurd (none_mem_push_of_not_continues hc) hp
    | true =>
      rw [taken_held [a], List.append_assoc]
      by_cases h2 : width a = 2
      · rw [push_last hc (by simp [h2])]
        exact Scan.Clean.read hpieces (encodeChar_scalar_two h2 hc)
      · rw [push_middle hc (by simp; omega)]
        exact ⟨⟨.two (by omega) hc, hpieces⟩, taken_held [a, b] ps⟩
  | @two a a' hw hb =>
    cases hc : continues [a, a'] b with
    | false => exact absurd (none_mem_push_of_not_continues hc) hp
    | true =>
      rw [taken_held [a, a'], List.append_assoc]
      by_cases h3 : width a = 3
      · rw [push_last hc (by simp [h3])]
        exact Scan.Clean.read hpieces (encodeChar_scalar_three h3 hb hc)
      · rw [push_middle hc (by simp; omega)]
        exact ⟨⟨.three (by omega) hb hc, hpieces⟩, taken_held [a, a', b] ps⟩
  | @three a a' a'' hw hb hb' =>
    have h4 : width a = 4 := by
      have hle := width_le_four a
      omega
    cases hc : continues [a, a', a''] b with
    | false => exact absurd (none_mem_push_of_not_continues hc) hp
    | true =>
      rw [taken_held [a, a', a''], List.append_assoc, push_last hc (by simp [h4])]
      exact Scan.Clean.read hpieces (encodeChar_scalar_four h4 hb hb' hc)

theorem Scan.none_mem_foldl {s : Scan} (h : none ∈ s.pieces) (bs : Bytes) :
    none ∈ (bs.foldl Scan.push s).pieces := by
  induction bs generalizing s with
  | nil => exact h
  | cons b bs ih => exact ih (Scan.none_mem_push h b)

/-- A scan that ends without ill-formed stretches has taken all bytes. -/
theorem Scan.Clean.foldl {s : Scan} (h : s.Clean) {bs : Bytes}
    (hp : none ∉ (bs.foldl Scan.push s).pieces) :
    (bs.foldl Scan.push s).taken = s.taken ++ bs := by
  induction bs generalizing s with
  | nil => simp
  | cons b bs ih =>
    have hb : none ∉ (s.push b).pieces := fun hn => hp (Scan.none_mem_foldl hn bs)
    obtain ⟨hc, ht⟩ := h.push hb
    rw [List.foldl_cons, ih hc hp, ht, List.append_assoc, List.singleton_append]

/-- If every piece is a character, the pieces are those characters. -/
theorem eq_map_some_of_mapM {ps : List (Option Char)} {cs : List Char} (h : ps.mapM id = some cs) :
    ps = cs.map some := by
  induction ps generalizing cs with
  | nil =>
    obtain rfl : cs = [] := by simpa using h.symm
    rfl
  | cons p ps ih =>
    cases p with
    | none => simp at h
    | some c =>
      cases hps : ps.mapM id with
      | none => simp [hps] at h
      | some ds =>
        obtain rfl : c :: ds = cs := by simpa [hps] using h
        rw [ih hps, List.map_cons]

/-- What is read strictly is read off its encoding. -/
theorem encode_of_decode? {bs : Bytes} {s : String} (h : decode? bs = some s) : encode s = bs := by
  obtain ⟨cs, hcs, rfl⟩ := Option.map_eq_some_iff.1 h
  have hpieces : pieces bs = cs.map some := eq_map_some_of_mapM hcs
  have hnone : none ∉ (bs.foldl Scan.push {}).pieces := by
    intro hn
    have hmem : none ∈ pieces bs := by
      unfold pieces Scan.finish
      split <;> simp [hn]
    simp [hpieces] at hmem
  have htaken := Scan.Clean.foldl ⟨.none, by simp⟩ hnone
  unfold pieces Scan.finish at hpieces
  split at hpieces
  case h_1 hheld =>
    simp only [Scan.taken, hheld, hpieces, List.append_nil] at htaken
    simpa [encode, List.flatMap_map] using htaken
  case h_2 =>
    have hmem : none ∈ cs.map some := by
      rw [← hpieces]
      simp
    simp at hmem

/-- A text is decoded exactly from its encoding. -/
theorem decode?_eq_some_iff {bs : Bytes} {s : String} : decode? bs = some s ↔ bs = encode s := by
  constructor
  · intro h
    exact (encode_of_decode? h).symm
  · rintro rfl
    exact decode?_encode s

end HomeControl.Utf8
