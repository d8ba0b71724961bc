import Mathlib.Data.Nat.Size
import Mathlib.Tactic

/-!
# Foundations - Rounding of integers

Rounding an integer to a significand of a given number of bits, to nearest with
ties to even: what the conversion to a binary floating-point format computes.

Main results:

- Theorem {lit}`NearestEven.unique`: there is one nearest multiple with ties to even.
- Theorem {lit}`roundTo_eq_roundTo_iff`: when rounding to a coarse grid gives the same
  as rounding to a finer one.
- Theorem {lit}`representable_roundSignificand`: a rounded integer needs no further
  rounding.
- Theorem {lit}`roundSignificand_eq_iff`: the integers that two significands round
  alike.
-/

namespace OomHero
namespace Rounding

/-! ## Rounding to a multiple -/

/-- The multiple of {lit}`g` nearest to a number; the even one of two as near. -/
def roundTo (g n : Nat) : Nat :=
  if 2 * (n % g) < g then n / g * g
  else if g < 2 * (n % g) then (n / g + 1) * g
  else if n / g % 2 = 0 then n / g * g
  else (n / g + 1) * g

/-- {lit}`NearestEven g n k` says that {lit}`k * g` is nearest to {lit}`n`, and that
{lit}`k` is even if another multiple is as near. -/
structure NearestEven (g n k : Nat) : Prop where
  below : 2 * n ≤ 2 * (k * g) + g
  above : 2 * (k * g) ≤ 2 * n + g
  tie : 2 * n = 2 * (k * g) + g ∨ 2 * (k * g) = 2 * n + g → k % 2 = 0

/-- Only one multiple is nearest with ties to even. -/
theorem NearestEven.unique {g n k k' : Nat} (hg : 0 < g) (hk : NearestEven g n k)
    (hk' : NearestEven g n k') : k = k' := by
  have key : ∀ {a b : Nat}, NearestEven g n a → NearestEven g n b → ¬ a < b := by
    intro a b ha hb hlt
    have hgap : a * g + g ≤ b * g := by
      have hmul := Nat.mul_le_mul_right g (Nat.succ_le_of_lt hlt)
      rwa [Nat.succ_mul] at hmul
    have hbelow := ha.below
    have habove := hb.above
    -- both are as near, so they are neighbours and both are even
    have hnext : b * g = (a + 1) * g := by
      rw [Nat.succ_mul]
      omega
    have hb1 : b = a + 1 := Nat.eq_of_mul_eq_mul_right hg hnext
    have haeven := ha.tie (Or.inl (by omega))
    have hbeven := hb.tie (Or.inr (by omega))
    omega
  have hle := key hk hk'
  have hge := key hk' hk
  omega

/-- Rounding gives the nearest multiple with ties to even. -/
theorem exists_nearestEven {g : Nat} (hg : 0 < g) (n : Nat) :
    ∃ k, NearestEven g n k ∧ roundTo g n = k * g := by
  have hdiv : n = n / g * g + n % g := (Nat.div_add_mod' n g).symm
  have hmod := Nat.mod_lt n hg
  have hup : (n / g + 1) * g = n / g * g + g := Nat.succ_mul _ _
  unfold roundTo
  split_ifs with hlow hhigh heven
  · exact ⟨n / g, ⟨by omega, by omega, by omega⟩, rfl⟩
  · exact ⟨n / g + 1, ⟨by omega, by omega, by omega⟩, rfl⟩
  · exact ⟨n / g, ⟨by omega, by omega, fun _ => heven⟩, rfl⟩
  · exact ⟨n / g + 1, ⟨by omega, by omega, fun _ => by omega⟩, rfl⟩

theorem NearestEven.roundTo_eq {g n k : Nat} (hg : 0 < g) (h : NearestEven g n k) :
    roundTo g n = k * g := by
  obtain ⟨k', hk', heq⟩ := exists_nearestEven hg n
  rw [heq, h.unique hg hk']

/-! ## Rounding to two grids -/

/-- A number is at most half of {lit}`h` away from a multiple of {lit}`g`. -/
def Near (h g n : Nat) : Prop :=
  2 * (n % g) ≤ h ∨ 2 * g ≤ 2 * (n % g) + h

instance (h g n : Nat) : Decidable (Near h g n) :=
  inferInstanceAs (Decidable (_ ∨ _))

/-- If a number is near a multiple of a coarse grid, both grids round it to that. -/
theorem roundTo_of_close {h m n k : Nat} (hh : 0 < h) (hm : 0 < m) (heven : m % 2 = 0)
    (hbelow : 2 * n ≤ 2 * (k * (h * m)) + h) (habove : 2 * (k * (h * m)) ≤ 2 * n + h) :
    roundTo (h * m) n = k * (h * m) ∧ roundTo h n = k * (h * m) := by
  have hcoarse : 2 * h ≤ h * m := by
    rw [Nat.mul_comm]
    apply Nat.mul_le_mul_left
    omega
  have hassoc : k * m * h = k * (h * m) := by ring
  have hkm : k * m % 2 = 0 := by
    rw [Nat.mul_mod, heven, Nat.mul_zero, Nat.zero_mod]
  constructor
  · exact NearestEven.roundTo_eq (by omega) ⟨by omega, by omega, fun htie => by omega⟩
  · rw [← hassoc]
    exact NearestEven.roundTo_eq hh ⟨by omega, by omega, fun _ => hkm⟩

/-- Two grids round alike exactly the numbers near the coarse one. -/
theorem roundTo_eq_roundTo_iff {h m : Nat} (hh : 0 < h) (hm : m = 1 ∨ 0 < m ∧ m % 2 = 0)
    (n : Nat) : roundTo (h * m) n = roundTo h n ↔ Near h (h * m) n := by
  unfold Near
  rcases hm with rfl | ⟨hpos, heven⟩
  · rw [Nat.mul_one]
    constructor
    · intro _
      omega
    · intro _
      rfl
  · have hg : 0 < h * m := Nat.mul_pos hh hpos
    have hdiv := Nat.div_add_mod' n (h * m)
    have hmod := Nat.mod_lt n hg
    have hup : (n / (h * m) + 1) * (h * m) = n / (h * m) * (h * m) + h * m := Nat.succ_mul _ _
    constructor
    · intro heq
      obtain ⟨k, -, hcoarse⟩ := exists_nearestEven hg n
      obtain ⟨j, hj, hfine⟩ := exists_nearestEven hh n
      have hbelow := hj.below
      have habove := hj.above
      rw [← hfine, ← heq, hcoarse] at hbelow habove
      rcases Nat.lt_or_ge (n / (h * m)) k with hlt | hge
      · right
        have hmul : (n / (h * m) + 1) * (h * m) ≤ k * (h * m) := Nat.mul_le_mul_right _ hlt
        omega
      · left
        have hmul := Nat.mul_le_mul_right (h * m) hge
        omega
    · intro hnear
      rcases hnear with hlow | hhigh
      · have hboth := roundTo_of_close hh hpos heven (n := n) (k := n / (h * m))
          (by omega) (by omega)
        rw [hboth.1, hboth.2]
      · have hboth := roundTo_of_close hh hpos heven (n := n) (k := n / (h * m) + 1)
          (by omega) (by omega)
        rw [hboth.1, hboth.2]

/-! ## Rounding to a significand -/

/-- The distance between the multiples that have {lit}`p` significant bits and are as
large as {lit}`n`. -/
def spacing (p n : Nat) : Nat :=
  2 ^ (n.size - p)

/-- Round an integer to {lit}`p` significant bits. -/
def roundSignificand (p : Nat) (x : Int) : Int :=
  x.sign * roundTo (spacing p x.natAbs) x.natAbs

/-- An integer with {lit}`p` significant bits and an exponent up to {lit}`emax`. -/
def Representable (p emax : Nat) (x : Int) : Prop :=
  ∃ significand exponent, x.natAbs = significand * 2 ^ exponent ∧ significand ≤ 2 ^ p ∧
    exponent ≤ emax

theorem Representable.zero (p emax : Nat) : Representable p emax 0 :=
  ⟨0, 0, by simp, by simp, by simp⟩

/-- A rounded integer has as many significant bits as it was rounded to. -/
theorem representable_roundSignificand {p q emax : Nat} (hpq : p ≤ q) {x : Int}
    (hx : x.natAbs.size ≤ p + emax) : Representable q emax (roundSignificand p x) := by
  by_cases hzero : x = 0
  · subst hzero
    unfold roundSignificand
    rw [Int.sign_zero, Int.zero_mul]
    exact Representable.zero q emax
  · obtain ⟨k, hk, hround⟩ :=
      exists_nearestEven (Nat.two_pow_pos (x.natAbs.size - p)) x.natAbs
    have habs : (roundSignificand p x).natAbs = k * 2 ^ (x.natAbs.size - p) := by
      unfold roundSignificand spacing
      rw [Int.natAbs_mul, Int.natAbs_sign_of_ne_zero hzero, Nat.one_mul, Int.natAbs_natCast, hround]
    have hlt : x.natAbs < 2 ^ p * 2 ^ (x.natAbs.size - p) := by
      rw [← Nat.pow_add, ← Nat.size_le]
      omega
    have hbits : k ≤ 2 ^ p := by
      by_contra hmore
      have hmul := Nat.mul_le_mul_right (2 ^ (x.natAbs.size - p))
        (Nat.succ_le_of_lt (Nat.lt_of_not_le hmore))
      rw [Nat.succ_mul] at hmul
      have habove := hk.above
      have hspacing := Nat.two_pow_pos (x.natAbs.size - p)
      omega
    refine ⟨k, x.natAbs.size - p, habs, hbits.trans ?_, by omega⟩
    exact Nat.pow_le_pow_right (by omega) hpq

/-- Two significands round an integer alike exactly when it is near a multiple that
fits the shorter one. -/
theorem roundSignificand_eq_iff {p q : Nat} (hpq : p ≤ q) (x : Int) :
    roundSignificand p x = roundSignificand q x ↔
      Near (spacing q x.natAbs) (spacing p x.natAbs) x.natAbs := by
  by_cases hzero : x = 0
  · subst hzero
    simp [roundSignificand, Near]
  · have hfactor : spacing p x.natAbs =
        spacing q x.natAbs * 2 ^ (x.natAbs.size - p - (x.natAbs.size - q)) := by
      unfold spacing
      rw [← Nat.pow_add]
      congr 1
      omega
    have hshape : ∀ d : Nat, 2 ^ d = 1 ∨ 0 < 2 ^ d ∧ 2 ^ d % 2 = 0 := by
      intro d
      cases d with
      | zero => exact Or.inl rfl
      | succ d => exact Or.inr ⟨Nat.two_pow_pos _, by omega⟩
    have hround := roundTo_eq_roundTo_iff (Nat.two_pow_pos (x.natAbs.size - q))
      (hshape (x.natAbs.size - p - (x.natAbs.size - q))) x.natAbs
    have hsign : x.sign ≠ 0 := by
      rwa [ne_eq, Int.sign_eq_zero_iff_zero]
    unfold roundSignificand
    rw [Int.mul_eq_mul_left_iff hsign, Int.natCast_inj, hfactor]
    exact hround

end Rounding
end OomHero
