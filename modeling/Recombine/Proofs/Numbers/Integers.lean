import Recombine.Proofs.Decimal.Literals
import Recombine.Proofs.Numbers.Order

namespace Recombine.Number

open Float.Model Float.Model.UnpackedFloat

variable {x y : Float} {i j : Int}

lemma signed_mul (n : Bool) (a b : Nat) : signed n (a * b) = signed n a * b := by
  cases n <;> simp [signed]

lemma natAbs_signed (n : Bool) (a : Nat) : (signed n a).natAbs = a := by
  cases n <;> simp [signed]

lemma integral_iff_of_neg (n : Bool) (m k : Nat) :
    (if m % 2 ^ k = 0 then some (signed n (m / 2 ^ k)) else none) = some i ↔
      signed n m = i * 2 ^ k := by
  have hpow : (2 ^ k : Int) ≠ 0 := by positivity
  split
  next hdvd =>
    obtain ⟨q, rfl⟩ := Nat.dvd_of_mod_eq_zero hdvd
    rw [Nat.mul_div_cancel_left q (by positivity), Option.some.injEq, Nat.mul_comm, signed_mul]
    push_cast
    exact (mul_left_inj' hpow).symm
  next hdvd =>
    refine iff_of_false (Option.some_ne_none _).symm fun h => hdvd ?_
    have habs := congrArg Int.natAbs h
    rw [natAbs_signed, Int.natAbs_mul, Int.natAbs_pow] at habs
    rw [habs]
    exact Nat.mul_mod_left _ _

lemma integral?_eq_some_iff : integral? x = some i ↔ value? x = some (i : ℚ) := by
  rw [integral?, value?]
  cases parts x with
  | nan | infinite => exact iff_of_false (Option.some_ne_none _).symm (Option.some_ne_none _).symm
  | finite n m e =>
    simp only [Nat.pow_eq, Option.some.injEq]
    split
    next he =>
      obtain ⟨k, rfl⟩ := Int.eq_ofNat_of_zero_le he
      rw [Option.some.injEq, Int.toNat_natCast, signed_mul, zpow_natCast]
      norm_cast
    next he =>
      obtain ⟨k, hk⟩ := Int.eq_ofNat_of_zero_le (by omega : 0 ≤ -e)
      obtain rfl : e = -k := by omega
      rw [neg_neg, Int.toNat_natCast, integral_iff_of_neg, zpow_neg, zpow_natCast,
        mul_inv_eq_iff_eq_mul₀ (by positivity)]
      norm_cast

lemma value?_ofInt_zero : value? (ofInt 0) = some 0 := by
  have hparts : parts (ofInt 0) = .finite false 0 0 := by decide +kernel
  rw [value?, hparts]
  simp [signed]

lemma value?_round {m : Nat} (s : Sign) (hm : 0 < m) (hle : m ≤ 2 ^ 53) :
    value? (.ofModel (pack (UnpackedFloat.round Format.binary64 s m 0))) =
      some (signed (isNegative s) m : ℚ) := by
  obtain ⟨m', e, hbits, hc, hvalue, hround⟩ := Decimal.exists_round_natural s hm hle
  rw [hround, value?, Decimal.parts_finiteOrZero hc (by omega)]
  cases s <;> simp [signed, isNegative, hvalue]

lemma ofInt_eq_round (h : i ≠ 0) : ∃ s : Sign, signed (isNegative s) i.natAbs = i ∧
    ofInt i = .ofModel (pack (UnpackedFloat.round Format.binary64 s i.natAbs 0)) := by
  have hofInt : ofInt i =
    .ofModel (pack (UnpackedFloat.normalize Format.binary64 i 0 .positive)) := rfl
  rw [hofInt, UnpackedFloat.normalize]
  rcases lt_or_gt_of_ne h with hneg | hpos
  · obtain ⟨n, rfl⟩ := Int.eq_negSucc_of_lt_zero hneg
    rw [compare_lt_iff_lt.mpr hneg]
    exact ⟨.negative, rfl, rfl⟩
  · lift i to Nat using hpos.le
    rw [compare_gt_iff_gt.mpr hpos]
    exact ⟨.positive, rfl, rfl⟩

lemma value?_ofInt (h : i.natAbs ≤ 2 ^ 53) : value? (ofInt i) = some (i : ℚ) := by
  by_cases hzero : i = 0
  · rw [hzero, Int.cast_zero]
    exact value?_ofInt_zero
  · obtain ⟨s, hsigned, hround⟩ := ofInt_eq_round hzero
    rw [hround, value?_round s (Int.natAbs_pos.mpr hzero) h, hsigned]

lemma isFinite_ofInt (h : i.natAbs < 2 ^ 64) : isFinite (ofInt i) = true := by
  by_cases hzero : i = 0
  · rw [hzero]
    decide +kernel
  · obtain ⟨s, -, hround⟩ := ofInt_eq_round hzero
    have hpos : 0 < i.natAbs := Int.natAbs_pos.mpr hzero
    obtain ⟨m, e, hregular, hrounds, hexact⟩ := Decimal.exists_round_exact (s := s)
      (Decimal.le_scaled hpos) (Decimal.scaled_value _)
    obtain ⟨hm, hc⟩ := hrounds.canonical_of_small hpos h hregular
    rw [hround, Decimal.round_eq, hexact]
    exact isFinite_iff.mpr ⟨_, _, _, Decimal.parts_finiteOrZero hc hm⟩

lemma compare_rank_ofInt (hi : i.natAbs ≤ 2 ^ 53) (hj : j.natAbs ≤ 2 ^ 53) :
    compare (rank (ofInt i)) (rank (ofInt j)) = compare i j := by
  by_cases heq : i = j
  · rw [heq, compare_eq_iff_eq.mpr rfl, compare_eq_iff_eq.mpr rfl]
  · have hplaces := position_eq_iff (value?_ofInt hi) (value?_ofInt hj)
    rw [Int.cast_inj] at hplaces
    have hne : position (ofInt i) ≠ 0 ∨ position (ofInt j) ≠ 0 := by
      by_contra hzero
      rw [not_or, not_not, not_not] at hzero
      exact heq (hplaces.mp (hzero.1.trans hzero.2.symm))
    rw [compare_rank hne, compare_position (value?_ofInt hi) (value?_ofInt hj), ← cmp_eq_compare,
      Int.cast_strictMono.cmp_map_eq, cmp_eq_compare]

end Recombine.Number
