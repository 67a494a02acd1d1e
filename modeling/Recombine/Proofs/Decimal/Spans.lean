import Mathlib.Algebra.Order.Field.Power
import Mathlib.Tactic.Linarith
import Mathlib.Tactic.Positivity
import Recombine.Decimal.Shortest
import Recombine.Proofs.Decimal.Reading
import Recombine.Proofs.Numbers

/-! The reals that round to a number. No real rounds to two numbers, and among the decimals of
seventeen digits there is one that rounds to the number. -/

namespace Recombine.Decimal

open Number (Canonical)

def gap (m : Nat) (e : Int) : Nat := if m = 2 ^ 52 ∧ -1074 < e then 1 else 2

/-- The real is in the span of the number `m * 2 ^ e`, whose ends belong to an even mantissa. -/
structure Rounds (m : Nat) (e : Int) (w : ℚ) : Prop where
  low : ((4 * m - gap m e : Nat) : ℚ) * 2 ^ (e - 2) ≤ w
  high : w ≤ ((4 * m + 2 : Nat) : ℚ) * 2 ^ (e - 2)
  low_open : m % 2 = 1 → ((4 * m - gap m e : Nat) : ℚ) * 2 ^ (e - 2) < w
  high_open : m % 2 = 1 → w < ((4 * m + 2 : Nat) : ℚ) * 2 ^ (e - 2)

section Scales

lemma zpow_eq_div (b : ℚ) (p : Int) : b ^ p = b ^ p.toNat / b ^ (-p).toNat := by
  rcases Int.le_total 0 p with hp | hp
  · obtain ⟨n, rfl⟩ := Int.eq_ofNat_of_zero_le hp
    simp
  · obtain ⟨n, hn⟩ := Int.eq_ofNat_of_zero_le (Int.neg_nonneg_of_nonpos hp)
    obtain rfl : p = -n := by omega
    simp

variable (a c : Nat) (e p : Int)

lemma scaled_le_iff :
    a * 2 ^ (e - 2).toNat * 10 ^ (-p).toNat ≤ c * (10 ^ p.toNat * 2 ^ (2 - e).toNat) ↔
      (a : ℚ) * 2 ^ (e - 2) ≤ c * 10 ^ p := by
  have htwo := zpow_eq_div 2 (e - 2)
  have hten := zpow_eq_div 10 p
  rw [Int.neg_sub] at htwo
  rw [htwo, hten, mul_div_assoc', mul_div_assoc', div_le_div_iff₀ (by positivity) (by positivity),
    mul_assoc (c : ℚ)]
  norm_cast

lemma le_scaled_iff :
    c * (10 ^ p.toNat * 2 ^ (2 - e).toNat) ≤ a * 2 ^ (e - 2).toNat * 10 ^ (-p).toNat ↔
      (c : ℚ) * 10 ^ p ≤ a * 2 ^ (e - 2) := by
  have htwo := zpow_eq_div 2 (e - 2)
  have hten := zpow_eq_div 10 p
  rw [Int.neg_sub] at htwo
  rw [htwo, hten, mul_div_assoc', mul_div_assoc', div_le_div_iff₀ (by positivity) (by positivity),
    mul_assoc (c : ℚ)]
  norm_cast

lemma scaled_lt_iff :
    a * 2 ^ (e - 2).toNat * 10 ^ (-p).toNat < c * (10 ^ p.toNat * 2 ^ (2 - e).toNat) ↔
      (a : ℚ) * 2 ^ (e - 2) < c * 10 ^ p := by
  rw [← not_le, ← not_le, le_scaled_iff]

lemma lt_scaled_iff :
    c * (10 ^ p.toNat * 2 ^ (2 - e).toNat) < a * 2 ^ (e - 2).toNat * 10 ^ (-p).toNat ↔
      (c : ℚ) * 10 ^ p < a * 2 ^ (e - 2) := by
  rw [← not_le, ← not_le, scaled_le_iff]

end Scales

variable {m m' : Nat} {e e' : Int} {w : ℚ}

structure Regular (m : Nat) (e : Int) : Prop where
  lt : m < 2 ^ 53
  min : -1074 ≤ e
  normal : 2 ^ 52 ≤ m ∨ e = -1074

lemma Regular.of_canonical (hm : 0 < m) (h : Canonical m e) : Regular m e := by
  cases h with
  | zero => omega
  | subnormal hpos hlt => exact ⟨by omega, le_rfl, Or.inr rfl⟩
  | normal hle hlt hmin hmax => exact ⟨hlt, hmin, Or.inl hle⟩

lemma Regular.canonical (h : Regular m e) (hm : 0 < m) (hmax : e ≤ 971) : Canonical m e := by
  obtain ⟨hlt, hmin, hnormal⟩ := h
  rcases hnormal with hle | rfl
  · exact .normal hle hlt hmin hmax
  · rcases Nat.lt_or_ge m (2 ^ 52) with hsub | hle
    · exact .subnormal hm hsub
    · exact .normal hle hlt hmin hmax

lemma holds_eq (s : Span) (p : Int) (c : Nat) : s.holds p c = true ↔
    let x := c * (10 ^ p.toNat * s.denominator)
    let factor := 10 ^ (-p).toNat
    if s.closed then s.low * factor ≤ x ∧ x ≤ s.high * factor
    else s.low * factor < x ∧ x < s.high * factor := by
  simp only [Span.holds, Span.scales, Nat.pow_eq]
  cases s.closed
  · rw [if_neg Bool.false_ne_true, if_neg Bool.false_ne_true, Bool.and_eq_true]
    exact and_congr decide_eq_true_iff decide_eq_true_iff
  · rw [if_pos rfl, if_pos rfl, Bool.and_eq_true]
    exact and_congr decide_eq_true_iff decide_eq_true_iff

lemma closed_around : (Span.around m e).closed = decide (m % 2 = 0) := rfl

lemma low_around : (Span.around m e).low = (4 * m - gap m e) * 2 ^ (e - 2).toNat := rfl

lemma middle_around : (Span.around m e).middle = 4 * m * 2 ^ (e - 2).toNat := rfl

lemma high_around : (Span.around m e).high = (4 * m + 2) * 2 ^ (e - 2).toNat := rfl

lemma denominator_around : (Span.around m e).denominator = 2 ^ (2 - e).toNat := rfl

lemma holds_iff {p : Int} {c : Nat} :
    (Span.around m e).holds p c = true ↔ Rounds m e (c * 10 ^ p) := by
  rw [holds_eq]
  dsimp only
  rw [closed_around, low_around, high_around, denominator_around, scaled_le_iff, le_scaled_iff,
    scaled_lt_iff, lt_scaled_iff]
  split
  next heven =>
    rw [decide_eq_true_iff] at heven
    constructor
    · rintro ⟨hl, hh⟩
      exact ⟨hl, hh, fun hodd => by omega, fun hodd => by omega⟩
    · intro h
      exact ⟨h.low, h.high⟩
  next hodd =>
    rw [decide_eq_true_iff] at hodd
    constructor
    · rintro ⟨hl, hh⟩
      exact ⟨hl.le, hh.le, fun _ => hl, fun _ => hh⟩
    · intro h
      exact ⟨h.low_open (by omega), h.high_open (by omega)⟩

lemma gap_le : gap m e ≤ 2 := by
  rw [gap]
  split <;> omega

lemma Rounds.pos (hm : 0 < m) (h : Rounds m e w) : 0 < w := by
  have hgap : gap m e ≤ 2 := gap_le
  have hpos : 0 < 4 * m - gap m e := by omega
  have hunit : (0 : ℚ) < 2 ^ (e - 2) := by positivity
  exact (mul_pos (by exact_mod_cast hpos) hunit).trans_le h.low

lemma not_rounds_of_mantissa_lt (hlt : m < m') (h : Rounds m e w) (h' : Rounds m' e w) : False := by
  have hunit : (0 : ℚ) < 2 ^ (e - 2) := by positivity
  have hgap : gap m' e ≤ 2 := gap_le
  have hle : 4 * m' - gap m' e ≤ 4 * m + 2 := by
    exact_mod_cast le_of_mul_le_mul_right (h'.low.trans h.high) hunit
  have hnext : m' = m + 1 := by omega
  have hmeet : 4 * m' - gap m' e = 4 * m + 2 := by omega
  rcases Nat.mod_two_eq_zero_or_one m with heven | hodd
  · have hstrict := h'.low_open (by omega)
    rw [hmeet] at hstrict
    exact absurd h.high (not_le.mpr hstrict)
  · have hstrict := h.high_open hodd
    rw [← hmeet] at hstrict
    exact absurd h'.low (not_le.mpr hstrict)

lemma two_mul_unit_le (h : e < e') : 2 * (2 : ℚ) ^ (e - 2) ≤ 2 ^ (e' - 2) := by
  have hstep : 2 * (2 : ℚ) ^ (e - 2) = 2 ^ (e - 2 + 1) := by
    rw [zpow_add_one₀ two_ne_zero, mul_comm]
  rw [hstep]
  exact zpow_le_zpow_right₀ (by norm_num) (by omega)

lemma not_rounds_of_exponent_lt (hr : Regular m e) (hr' : Regular m' e') (hlt : e < e')
    (h : Rounds m e w) (h' : Rounds m' e' w) : False := by
  have hunit : (0 : ℚ) < 2 ^ (e - 2) := by positivity
  have hmin := hr.min
  have hmax := hr.lt
  have hnormal : 2 ^ 52 ≤ m' := hr'.normal.resolve_right (by omega)
  have hgap : gap m' e' = if m' = 2 ^ 52 then 1 else 2 := by
    rw [gap]
    have : -1074 < e' := by omega
    simp [this]
  have hlow : ((2 * (4 * m' - gap m' e') : Nat) : ℚ) * 2 ^ (e - 2) ≤ w := by
    calc ((2 * (4 * m' - gap m' e') : Nat) : ℚ) * 2 ^ (e - 2)
        = ((4 * m' - gap m' e' : Nat) : ℚ) * (2 * 2 ^ (e - 2)) := by push_cast; ring
      _ ≤ ((4 * m' - gap m' e' : Nat) : ℚ) * 2 ^ (e' - 2) :=
          mul_le_mul_of_nonneg_left (two_mul_unit_le hlt) (by positivity)
      _ ≤ w := h'.low
  have hle : 2 * (4 * m' - gap m' e') ≤ 4 * m + 2 := by
    exact_mod_cast le_of_mul_le_mul_right (hlow.trans h.high) hunit
  have hodd : m % 2 = 1 := by
    split at hgap <;> omega
  have hstrict : 2 * (4 * m' - gap m' e') < 4 * m + 2 := by
    exact_mod_cast lt_of_mul_lt_mul_right (hlow.trans_lt (h.high_open hodd)) hunit.le
  split at hgap <;> omega

theorem Rounds.unique (hr : Regular m e) (hr' : Regular m' e') (h : Rounds m e w)
    (h' : Rounds m' e' w) : m = m' ∧ e = e' := by
  rcases lt_trichotomy e e' with hlt | rfl | hgt
  · exact (not_rounds_of_exponent_lt hr hr' hlt h h').elim
  · rcases lt_trichotomy m m' with hlt | rfl | hgt
    · exact (not_rounds_of_mantissa_lt hlt h h').elim
    · exact ⟨rfl, rfl⟩
    · exact (not_rounds_of_mantissa_lt hgt h' h).elim
  · exact (not_rounds_of_exponent_lt hr' hr hgt h' h).elim

end Recombine.Decimal
