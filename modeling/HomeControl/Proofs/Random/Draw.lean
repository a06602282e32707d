import HomeControl.Random.Draw
import Mathlib.Data.List.Forall2

/-!
# What draws give

A draw is told how many words it may refuse, so two things are said of it. `Always P x` is a
postcondition: whatever `x` gives, from whatever stream, satisfies `P`. `Refines x y` compares two
draws that differ in their patience only: where `x` does not give up, `y` gives the same and leaves the
stream at the same place. Both pass through the sequencing of draws, so each is proved of the single
draw below a bound and carried from there to everything that is made of such draws.
-/

namespace HomeControl.Random

variable {α β : Type} {x y : Draw α} {f g : α → Draw β}

/-- All that a draw gives satisfies `P`, whatever the stream. -/
def Always (P : α → Prop) (x : Draw α) : Prop :=
  ∀ s a s', x.run s = some (a, s') → P a

/-- Where `x` does not give up, `y` does as `x`. -/
def Refines (x y : Draw α) : Prop :=
  ∀ s r, x.run s = some r → y.run s = some r

/-! ## Sequencing -/

/-- A draw that follows another one goes on in the stream where that one has stopped. -/
theorem run_bind_eq_some {s : Stream} {r : β × Stream} : (x >>= f).run s = some r ↔
    ∃ a s₁, x.run s = some (a, s₁) ∧ (f a).run s₁ = some r := by
  rw [StateT.run_bind, Option.bind_eq_bind, Option.bind_eq_some_iff, Prod.exists]

namespace Always

variable {P : α → Prop} {Q : β → Prop}

theorem pure {a : α} (ha : P a) : Always P (Pure.pure a) := by
  intro s b s' h
  obtain ⟨rfl, -⟩ : a = b ∧ s = s' := by simpa using h
  exact ha

/-- What is drawn first may be relied on in what is drawn next. -/
theorem bind (hx : Always P x) (hf : ∀ a, P a → Always Q (f a)) : Always Q (x >>= f) := by
  intro s b s' h
  obtain ⟨a, s₁, ha, hb⟩ := run_bind_eq_some.1 h
  exact hf a (hx s a s₁ ha) s₁ b s' hb

theorem mono {P' : α → Prop} (hx : Always P x) (hP : ∀ a, P a → P' a) : Always P' x :=
  fun s a s' h => hP a (hx s a s' h)

/-- One draw for each entry of a list. -/
theorem mapM {R : α → β → Prop} {as : List α} (hf : ∀ a ∈ as, Always (R a) (f a)) :
    Always (List.Forall₂ R as) (as.mapM f) := by
  induction as with
  | nil => exact .pure .nil
  | cons a as ih =>
    rw [List.mapM_cons]
    refine (hf a List.mem_cons_self).bind ?_
    intro b hb
    refine (ih fun a' ha' => hf a' (List.mem_cons_of_mem a ha')).bind ?_
    intro bs hbs
    exact .pure (.cons hb hbs)

/-- Draws for each of some items meet the condition one by one, and there are as many results. -/
theorem mapM_mem {as : List α} (hf : ∀ a ∈ as, Always Q (f a)) :
    Always (fun bs => bs.length = as.length ∧ ∀ b ∈ bs, Q b) (as.mapM f) := by
  refine (mapM hf).mono ?_
  intro bs hbs
  have hflip : List.Forall₂ (fun b _ => Q b ∧ True) bs as := hbs.flip.imp fun b a hb => ⟨hb, trivial⟩
  exact ⟨hbs.length_eq.symm, ((List.forall₂_and_left bs as).1 hflip).1⟩

end Always

namespace Refines

theorem refl (x : Draw α) : Refines x x :=
  fun _ _ h => h

/-- A refinement may be followed by another. -/
theorem bind (hx : Refines x y) (hf : ∀ a, Refines (f a) (g a)) : Refines (x >>= f) (y >>= g) := by
  intro s r h
  obtain ⟨a, s₁, ha, hr⟩ := run_bind_eq_some.1 h
  exact run_bind_eq_some.2 ⟨a, s₁, hx s (a, s₁) ha, hf a s₁ r hr⟩

/-- Draws for a list refine others if each of them does. -/
theorem mapM (hf : ∀ a, Refines (f a) (g a)) (as : List α) : Refines (as.mapM f) (as.mapM g) := by
  induction as with
  | nil => exact .refl _
  | cons a as ih =>
    rw [List.mapM_cons, List.mapM_cons]
    exact (hf a).bind fun b => ih.bind fun bs => .refl _

end Refines

/-! ## Draws below a bound -/

section Below

variable {word : Stream → Nat × Stream} {width n zone tries tries' low high : Nat}

/-- A draw keeps the next word or goes on after it. -/
theorem run_drawBelow_succ (word : Stream → Nat × Stream) (width n zone tries : Nat) (s : Stream) :
    (drawBelow word width n zone (tries + 1)).run s =
      if (word s).1 * n % wordCount width ≤ zone then
        some ((word s).1 * n / wordCount width, (word s).2)
      else (drawBelow word width n zone tries).run (word s).2 := rfl

/-- The high half of a product with `n` is below `n`, whichever word is kept. -/
theorem always_drawBelow (hword : ∀ s, (word s).1 < wordCount width) (hn : 0 < n) :
    Always (· < n) (drawBelow word width n zone tries) := by
  induction tries with
  | zero =>
    intro s a s' h
    cases h
  | succ tries ih =>
    intro s a s' h
    rw [run_drawBelow_succ] at h
    split at h
    · obtain ⟨rfl, -⟩ := Prod.mk.inj (Option.some.inj h)
      exact Nat.div_lt_of_lt_mul (Nat.mul_lt_mul_of_pos_right (hword s) hn)
    · exact ih _ a s' h

/-- With more tries a draw does as it does with fewer, where those are enough. -/
theorem refines_drawBelow (h : tries ≤ tries') :
    Refines (drawBelow word width n zone tries) (drawBelow word width n zone tries') := by
  induction tries generalizing tries' with
  | zero =>
    intro s r hr
    cases hr
  | succ tries ih =>
    obtain ⟨more, rfl⟩ : ∃ more, tries' = more + 1 := ⟨tries' - 1, by omega⟩
    intro s r hr
    rw [run_drawBelow_succ] at hr ⊢
    split at hr
    · rename_i hkeep
      rw [if_pos hkeep]
      exact hr
    · rename_i hrefuse
      rw [if_neg hrefuse]
      exact ih (Nat.le_of_succ_le_succ h) _ r hr

theorem word32_lt (s : Stream) : (word32 s).1 < wordCount 32 :=
  s.next.1.toNat_lt

theorem word64_lt (s : Stream) : (word64 s).1 < wordCount 64 :=
  s.next64.1.toNat_lt

theorem always_position (hn : 0 < n) : Always (· < n) (position tries n) :=
  always_drawBelow word32_lt hn

theorem always_wideBelow (hn : 0 < n) : Always (· < n) (wideBelow tries n) :=
  always_drawBelow word64_lt hn

/-- A byte between two bounds keeps to both. -/
theorem always_byteBetween (hl : low ≤ high) (hh : high < 256) :
    Always (fun b => low ≤ b.toNat ∧ b.toNat ≤ high) (byteBetween tries low high) := by
  refine (always_drawBelow word32_lt (Nat.succ_pos _)).bind ?_
  intro v hv
  have hfits : (UInt8.ofNat (low + v)).toNat = low + v := by
    rw [UInt8.toNat_ofNat']
    omega
  refine .pure ?_
  rw [hfits]
  omega

theorem refines_byteBetween (h : tries ≤ tries') :
    Refines (byteBetween tries low high) (byteBetween tries' low high) :=
  (refines_drawBelow h).bind fun _ => .refl _

end Below

end HomeControl.Random
