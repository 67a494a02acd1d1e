import Recombine.Proofs.Decimal.Spans

/-! Products and quotients of binary numbers are rounded to the nearest number, of two equally near
ones to that with an even mantissa. -/

namespace Recombine.Decimal

open Float.Model Float.Model.UnpackedFloat

section Bits

variable {em : ExtendedMantissa} {x : ℚ}

def halves (em : ExtendedMantissa) : ℚ := em.mantissa + if em.roundBit then 1 / 2 else 0

/-- The real has the given bits, and others below them if the sticky bit is set. -/
def Within (em : ExtendedMantissa) (x : ℚ) : Prop :=
  if em.stickyBit then halves em < x ∧ x < halves em + 1 / 2 else x = halves em

lemma Within.le (h : Within em x) : (em.mantissa : ℚ) ≤ x := by
  obtain ⟨m, r, s⟩ := em
  cases r <;> cases s <;> simp only [Within, halves, Bool.false_eq_true, if_true, if_false] at h <;>
    dsimp only <;> linarith

lemma Within.lt (h : Within em x) : x < em.mantissa + 1 := by
  obtain ⟨m, r, s⟩ := em
  cases r <;> cases s <;> simp only [Within, halves, Bool.false_eq_true, if_true, if_false] at h <;>
    dsimp only <;> linarith

lemma halves_shiftRightOne (em : ExtendedMantissa) :
    halves em.shiftRightOne = (em.mantissa : ℚ) / 2 := by
  have hsplit : (em.mantissa : ℚ) = 2 * (em.mantissa / 2 : Nat) + (em.mantissa % 2 : Nat) := by
    exact_mod_cast (Nat.div_add_mod em.mantissa 2).symm
  rw [halves, ExtendedMantissa.shiftRightOne, hsplit]
  rcases Nat.mod_two_eq_zero_or_one em.mantissa with hm | hm
  · rw [hm]
    norm_num
  · rw [hm]
    norm_num
    ring

lemma Within.shiftRightOne (h : Within em x) : Within em.shiftRightOne (x / 2) := by
  have hle := h.le
  have hlt := h.lt
  rw [Within, halves_shiftRightOne]
  obtain ⟨m, r, s⟩ := em
  cases r <;> cases s <;>
    simp only [Within, halves, ExtendedMantissa.shiftRightOne, Bool.or_true, Bool.or_false,
      Bool.false_eq_true, if_true, if_false] at h hle hlt ⊢ <;>
    first | exact ⟨by linarith, by linarith⟩ | linarith

lemma shiftRight_succ (em : ExtendedMantissa) (n : Nat) :
    em >>> (n + 1) = (em >>> n).shiftRightOne := rfl

lemma Within.shiftRight (h : Within em x) (n : Nat) : Within (em >>> n) (x / 2 ^ n) := by
  induction n with
  | zero =>
    rw [pow_zero, div_one]
    exact h
  | succ n ih =>
    rw [shiftRight_succ, pow_succ, ← div_div]
    exact ih.shiftRightOne

lemma mantissa_shiftRight (em : ExtendedMantissa) (n : Nat) :
    (em >>> n).mantissa = em.mantissa / 2 ^ n := by
  induction n with
  | zero => exact (Nat.div_one _).symm
  | succ n ih =>
    rw [shiftRight_succ, pow_succ, ← Nat.div_div_eq_div_mul, ← ih]
    rfl

structure Nearest (n : Nat) (x : ℚ) : Prop where
  low : (n : ℚ) - 1 / 2 ≤ x
  high : x ≤ n + 1 / 2
  low_open : n % 2 = 1 → (n : ℚ) - 1 / 2 < x
  high_open : n % 2 = 1 → x < n + 1 / 2

lemma Within.nearest (h : Within em x) : Nearest em.roundedMantissa x := by
  obtain ⟨m, r, s⟩ := em
  cases r <;> cases s <;>
    simp only [Within, halves, Bool.false_eq_true, if_true, if_false] at h <;>
    simp only [ExtendedMantissa.roundedMantissa, ExtendedMantissa.accuracy,
      Accuracy.roundToNearestEven]
  · constructor <;> intros <;> linarith
  · constructor <;> intros <;> linarith
  · -- a tie goes to the even neighbour, so that no odd one is at half a unit
    rcases Nat.mod_two_eq_zero_or_one m with hm | hm
    · rw [hm, Nat.add_zero]
      exact ⟨by linarith, by linarith, fun hodd => by omega, fun hodd => by omega⟩
    · rw [hm]
      refine ⟨?_, ?_, fun hodd => by omega, fun hodd => by omega⟩ <;> push_cast <;> linarith
  · constructor <;> intros <;> push_cast <;> linarith

lemma roundedMantissa_le (em : ExtendedMantissa) : em.roundedMantissa ≤ em.mantissa + 1 := by
  obtain ⟨m, r, s⟩ := em
  cases r <;> cases s <;>
    simp only [ExtendedMantissa.roundedMantissa, ExtendedMantissa.accuracy,
      Accuracy.roundToNearestEven] <;> omega

lemma le_roundedMantissa (em : ExtendedMantissa) : em.mantissa ≤ em.roundedMantissa := by
  obtain ⟨m, r, s⟩ := em
  cases r <;> cases s <;>
    simp only [ExtendedMantissa.roundedMantissa, ExtendedMantissa.accuracy,
      Accuracy.roundToNearestEven] <;> omega

end Bits

section Places

variable {m : Nat} {e : Int} {w x : ℚ}

def place (m : Nat) (e : Int) : Int := max (m.log2 + e - 52) (-1074)

lemma targetExponent_eq (t : Int) : Format.binary64.targetExponent t = max (t - 53) (-1074) := rfl

lemma targetExponent_totalExponent (m : Nat) (e : Int) :
    Format.binary64.targetExponent (totalExponent m e) = place m e := by
  rw [targetExponent_eq, totalExponent, place]
  congr 1
  omega

lemma Nearest.rounds (h : Nearest m x) (hx : 0 ≤ x)
    (hlow : m = 2 ^ 52 → -1074 < e → (m : ℚ) - 1 / 4 ≤ x) (hw : w = x * 2 ^ e) :
    Rounds m e w := by
  have hunit : (0 : ℚ) < 2 ^ (e - 2) := by positivity
  have hquarters : w = 4 * x * 2 ^ (e - 2) := by
    rw [hw, zpow_sub₀ two_ne_zero]
    norm_num
    ring
  have hgap : ((4 * m - gap m e : Nat) : ℚ) ≤ 4 * x ∧
      (m % 2 = 1 → ((4 * m - gap m e : Nat) : ℚ) < 4 * x) := by
    rcases Nat.eq_zero_or_pos m with rfl | hpos
    · rw [Nat.mul_zero, Nat.zero_sub, Nat.cast_zero]
      exact ⟨by linarith, fun hodd => by omega⟩
    · rw [gap]
      split
      next hnarrow =>
        rw [Nat.cast_sub (by omega)]
        push_cast
        exact ⟨by linarith [hlow hnarrow.1 hnarrow.2], fun hodd => by omega⟩
      next =>
        rw [Nat.cast_sub (by omega)]
        push_cast
        exact ⟨by linarith [h.low], fun hodd => by linarith [h.low_open hodd]⟩
  rw [hquarters]
  refine ⟨?_, ?_, fun hodd => ?_, fun hodd => ?_⟩
  · exact mul_le_mul_of_nonneg_right hgap.1 hunit.le
  · refine mul_le_mul_of_nonneg_right ?_ hunit.le
    push_cast
    linarith [h.high]
  · exact mul_lt_mul_of_pos_right (hgap.2 hodd) hunit
  · refine mul_lt_mul_of_pos_right ?_ hunit
    push_cast
    linarith [h.high_open hodd]

lemma Nearest.rounds_carry (h : Nearest (2 ^ 53) x) (hx : x < 2 ^ 53) (hw : w = x * 2 ^ e) :
    Rounds (2 ^ 52) (e + 1) w := by
  -- Rounding up to a power of two leaves one bit too many, which is given to the exponent.
  have hlow := h.low
  push_cast at hlow
  have hhalf : Nearest (2 ^ 52) (x / 2) := by
    refine ⟨?_, ?_, fun hodd => by omega, fun hodd => by omega⟩ <;> push_cast <;> linarith
  refine hhalf.rounds (by linarith) (fun _ _ => ?_) ?_
  · push_cast
    linarith
  · rw [hw, zpow_add_one₀ two_ne_zero]
    ring

end Places

section Rounding

variable {s : Sign} {m : Nat} {e : Int} {accuracy : Accuracy} {w : ℚ}

def finiteOrZero (s : Sign) (m : Nat) (e : Int) : UnpackedFloat :=
  if h : m = 0 then .zero s else .finite s m e (Nat.pos_of_ne_zero h)

lemma shiftToTargetExponent_eq (m : Nat) (e : Int) (accuracy : Accuracy) :
    shiftToTargetExponent Format.binary64 m e accuracy =
      (ExtendedMantissa.ofMantissaAndAccuracy m accuracy >>> (place m e - e).toNat,
        e + (place m e - e).toNat) := by
  rw [shiftToTargetExponent, targetExponent_totalExponent]
  rfl

lemma shiftToTargetExponent_of_lt (hlt : m < 2 ^ 53) (hmin : -1074 ≤ e) :
    shiftToTargetExponent Format.binary64 m e .exact = (⟨m, false, false⟩, e) := by
  have hlog : m.log2 ≤ 52 := by
    rcases Nat.eq_zero_or_pos m with rfl | hpos
    · decide
    · exact Nat.le_of_lt_succ ((Nat.log2_lt hpos.ne').mpr hlt)
  have hshift : (place m e - e).toNat = 0 := by
    rw [place]
    omega
  rw [shiftToTargetExponent_eq, hshift]
  exact Prod.ext rfl (Int.add_zero e)

lemma shiftToTargetExponent_carry (hmin : -1074 ≤ e) :
    shiftToTargetExponent Format.binary64 (2 ^ 53) e .exact = (⟨2 ^ 52, false, false⟩, e + 1) := by
  have hshift : (place (2 ^ 53) e - e).toNat = 1 := by
    rw [place, Nat.log2_two_pow]
    omega
  rw [shiftToTargetExponent_eq, hshift]
  rfl

lemma mantissa_ofMantissaAndAccuracy (m : Nat) (accuracy : Accuracy) :
    (ExtendedMantissa.ofMantissaAndAccuracy m accuracy).mantissa = m := by
  rcases accuracy with _ | _ | _ | _ <;> rfl

lemma shifted_mantissa (he : e ≤ place m e) : m / 2 ^ (place m e - e).toNat < 2 ^ 53 ∧
    (2 ^ 52 ≤ m / 2 ^ (place m e - e).toNat ∨ place m e = -1074) := by
  have hlt : m < 2 ^ (m.log2 + 1) := Nat.lt_log2_self
  constructor
  · rw [Nat.div_lt_iff_lt_mul (by positivity), ← pow_add]
    refine hlt.trans_le (Nat.pow_le_pow_right (by decide) ?_)
    rw [place]
    omega
  · by_cases hmin : place m e = -1074
    · exact Or.inr hmin
    · rw [place] at he hmin
      have hm : m ≠ 0 := by
        rintro rfl
        rw [Nat.log2_zero] at he hmin
        omega
      rw [Nat.le_div_iff_mul_le (by positivity), ← pow_add]
      have hlog : 52 + (place m e - e).toNat = m.log2 := by
        rw [place]
        omega
      rw [hlog]
      exact Or.inl (Nat.log2_self_le hm)

lemma exists_round (h : Within (.ofMantissaAndAccuracy m accuracy) (w / 2 ^ e))
    (he : e ≤ place m e) : ∃ m' e', Regular m' e' ∧ Rounds m' e' w ∧
      roundWithAccuracy Format.binary64 s m e accuracy = finiteOrZero s m' e' := by
  obtain ⟨hlt, hnormal⟩ := shifted_mantissa he
  have hplace : e + (place m e - e).toNat = place m e := by omega
  have hmin : -1074 ≤ place m e := le_max_right _ _
  have hshifted := h.shiftRight (place m e - e).toNat
  rw [div_div, ← zpow_natCast, ← zpow_add₀ two_ne_zero, hplace] at hshifted
  have hmantissa := mantissa_shiftRight (.ofMantissaAndAccuracy m accuracy) (place m e - e).toNat
  rw [mantissa_ofMantissaAndAccuracy] at hmantissa
  rw [← hmantissa] at hlt hnormal
  rw [roundWithAccuracy, shiftToTargetExponent_eq, hplace]
  generalize ExtendedMantissa.ofMantissaAndAccuracy m accuracy >>> (place m e - e).toNat = em
    at hshifted hlt hnormal
  generalize place m e = p at hmin hshifted hnormal
  have hw : w = w / 2 ^ p * 2 ^ p := (div_mul_cancel₀ w (by positivity)).symm
  generalize w / 2 ^ p = x at hshifted hw
  have hle := hshifted.le
  have hnearest := hshifted.nearest
  have hup := le_roundedMantissa em
  have hdown := roundedMantissa_le em
  have hpos : 0 ≤ x := (Nat.cast_nonneg _).trans hle
  dsimp only
  generalize em.roundedMantissa = r at hnearest hup hdown
  rcases Nat.lt_or_ge r (2 ^ 53) with hr | hr
  · have hlow : r = 2 ^ 52 → -1074 < p → (r : ℚ) - 1 / 4 ≤ x := by
      intro hr hp
      have hbits : r ≤ em.mantissa := by omega
      have hcast : (r : ℚ) ≤ em.mantissa := by exact_mod_cast hbits
      linarith
    refine ⟨r, p, ⟨hr, hmin, hnormal.imp_left hup.trans'⟩, hnearest.rounds hpos hlow hw, ?_⟩
    rw [shiftToTargetExponent_of_lt hr hmin]
    rfl
  · obtain rfl : r = 2 ^ 53 := by omega
    have hlt' : x < 2 ^ 53 := by
      have hcast : (em.mantissa : ℚ) + 1 ≤ 2 ^ 53 := by exact_mod_cast hlt
      exact hshifted.lt.trans_le hcast
    refine ⟨2 ^ 52, p + 1, ⟨by decide, by omega, Or.inl le_rfl⟩,
      hnearest.rounds_carry hlt' hw, ?_⟩
    rw [shiftToTargetExponent_carry hmin]
    rfl

end Rounding

section Products

variable {s : Sign} {m n : Nat} {e p : Int} {w : ℚ}

lemma within_exact (m : Nat) : Within (.ofMantissaAndAccuracy m .exact) m := by
  simp [Within, halves, ExtendedMantissa.ofMantissaAndAccuracy]

lemma exists_round_exact (hm : 2 ^ 52 ≤ m) (hw : w = m * 2 ^ e) : ∃ m' e', Regular m' e' ∧
    Rounds m' e' w ∧ roundWithAccuracy Format.binary64 s m e .exact = finiteOrZero s m' e' := by
  refine exists_round ?_ ?_
  · rw [hw, mul_div_cancel_right₀ _ (by positivity)]
    exact within_exact m
  · have hlog := (Nat.le_log2 (by omega)).mpr hm
    rw [place]
    omega

lemma within_div (m : Nat) (hn : 0 < n) :
    Within (.ofMantissaAndAccuracy (m / n) (accuracyOfFraction (m % n) n)) ((m : ℚ) / n) := by
  have hpos : (0 : ℚ) < n := by exact_mod_cast hn
  have hsplit : (m : ℚ) / n = (m / n : Nat) + ((m % n : Nat) : ℚ) / n := by
    rw [eq_comm, ← eq_sub_iff_add_eq', div_eq_iff hpos.ne', sub_mul, div_mul_cancel₀ _ hpos.ne',
      eq_sub_iff_add_eq]
    exact_mod_cast Nat.mod_add_div' m n
  have hlt : ((m % n : Nat) : ℚ) / n < 1 := by
    rw [div_lt_one hpos]
    exact_mod_cast Nat.mod_lt m hn
  rw [hsplit, accuracyOfFraction]
  split
  next hzero =>
    rw [hzero, Nat.cast_zero, zero_div, add_zero]
    exact within_exact _
  next hne =>
    have hrest : (0 : ℚ) < ((m % n : Nat) : ℚ) / n :=
      div_pos (by exact_mod_cast Nat.pos_of_ne_zero hne) hpos
    generalize m % n = r at hlt hrest
    rcases hcompare : compare (2 * r) n with _ | _ | _
    · have hr : (r : ℚ) / n < 1 / 2 := by
        rw [div_lt_div_iff₀ hpos two_pos]
        exact_mod_cast (by rw [compare_lt_iff_lt] at hcompare; omega : r * 2 < 1 * n)
      simp only [Within, halves, ExtendedMantissa.ofMantissaAndAccuracy, Bool.false_eq_true,
        if_true, if_false]
      constructor <;> linarith
    · have hr : (r : ℚ) / n = 1 / 2 := by
        rw [div_eq_div_iff hpos.ne' two_ne_zero]
        exact_mod_cast (by rw [compare_eq_iff_eq] at hcompare; omega : r * 2 = 1 * n)
      simp only [Within, halves, ExtendedMantissa.ofMantissaAndAccuracy, Bool.false_eq_true,
        if_true, if_false]
      linarith
    · have hr : 1 / 2 < (r : ℚ) / n := by
        rw [div_lt_div_iff₀ two_pos hpos]
        exact_mod_cast (by rw [compare_gt_iff_gt] at hcompare; omega : 1 * n < r * 2)
      simp only [Within, halves, ExtendedMantissa.ofMantissaAndAccuracy, if_true]
      constructor <;> linarith

lemma le_scaled_div {k : Nat} (hm : 0 < m) (hn : 0 < n)
    (h : 52 + (n.log2 + 1) ≤ m.log2 + k) : 2 ^ 52 ≤ m * 2 ^ k / n := by
  rw [Nat.le_div_iff_mul_le hn]
  calc 2 ^ 52 * n ≤ 2 ^ 52 * 2 ^ (n.log2 + 1) := Nat.mul_le_mul_left _ Nat.lt_log2_self.le
    _ = 2 ^ (52 + (n.log2 + 1)) := (pow_add 2 _ _).symm
    _ ≤ 2 ^ (m.log2 + k) := Nat.pow_le_pow_right two_pos h
    _ = 2 ^ m.log2 * 2 ^ k := pow_add 2 _ _
    _ ≤ m * 2 ^ k := Nat.mul_le_mul_right _ (Nat.log2_self_le hm.ne')

lemma exists_round_div (hm : 0 < m) (hn : 0 < n) (hw : w = m * 2 ^ e / (n * 2 ^ p)) :
    ∃ m' e', Regular m' e' ∧ Rounds m' e' w ∧
      UnpackedFloat.div Format.binary64 (.finite .positive m e hm) (.finite .positive n p hn) =
        finiteOrZero .positive m' e' := by
  have htarget : Format.binary64.targetExponent (totalExponent m e - totalExponent n p) =
      max (m.log2 + e - (n.log2 + p) - 53) (-1074) := by
    rw [targetExponent_eq, totalExponent, totalExponent]
    congr 1
    omega
  have hdiv : UnpackedFloat.div Format.binary64 (.finite .positive m e hm)
      (.finite .positive n p hn) = roundWithAccuracy Format.binary64 .positive
        (divCore Format.binary64 m e n p).1 (divCore Format.binary64 m e n p).2.1
        (divCore Format.binary64 m e n p).2.2 := rfl
  rw [hdiv, divCore, htarget]
  dsimp only
  generalize hq : min (e - p) (max (m.log2 + e - (n.log2 + p) - 53) (-1074)) = q
  have hshift : e - p - q = (e - p - q).toNat := by omega
  generalize (e - p - q).toNat = k at hshift
  rw [Nat.shiftLeft_eq]
  refine exists_round ?_ ?_
  · have hscaled : w / 2 ^ q = ((m * 2 ^ k : Nat) : ℚ) / n := by
      have hsum : e = k + q + p := by omega
      rw [hw, hsum, zpow_add₀ two_ne_zero, zpow_add₀ two_ne_zero, zpow_natCast]
      push_cast
      field_simp
    rw [hscaled]
    exact within_div _ hn
  · rw [place]
    by_cases hfloor : q ≤ -1074
    · omega
    · have hbits : 2 ^ 52 ≤ m * 2 ^ k / n := le_scaled_div hm hn (by omega)
      have hlog := (Nat.le_log2 (by omega)).mpr hbits
      omega

lemma exists_round_mul (hm : 0 < m) (hn : 0 < n) (hbits : 2 ^ 52 ≤ m * n)
    (hw : w = m * 2 ^ e * (n * 2 ^ p)) : ∃ m' e', Regular m' e' ∧ Rounds m' e' w ∧
      UnpackedFloat.mul Format.binary64 (.finite .positive m e hm) (.finite .positive n p hn) =
        finiteOrZero .positive m' e' := by
  refine exists_round_exact hbits ?_
  rw [hw, zpow_add₀ two_ne_zero]
  push_cast
  ring

end Products

end Recombine.Decimal
