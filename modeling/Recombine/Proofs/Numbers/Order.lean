import Mathlib.Algebra.Order.Field.Power
import Mathlib.Algebra.Order.Field.Rat
import Mathlib.Tactic.NormNum
import Mathlib.Tactic.Positivity
import Mathlib.Tactic.Ring
import Recombine.Proofs.Numbers

/-! Numbers in order. The fields of a number below its sign, taken with the sign, stand in the order
of the numbers, which is that of the values of finite ones. -/

namespace Recombine.Number

open Float.Model

def magnitude (x : Float) : Nat := (word x).toNat % 2 ^ 63

/-- Where a number stands among the others; both zeros stand in one place. -/
def position (x : Float) : Int := signed (negative x) (magnitude x)

variable {x y : Float} {n n' : Bool} {m m' : Nat} {e e' : Int}

section Fields

lemma magnitude_lt (x : Float) : magnitude x < 2 ^ 63 := Nat.mod_lt _ (by decide)

lemma word_eq (x : Float) : (word x).toNat = (negative x).toNat * 2 ^ 63 + magnitude x := by
  have hsign : (negative x).toNat = (word x).toNat / 2 ^ 63 := by
    have hfield := toNat_signField x
    have hword := toNat_word x
    have hexponent := (exponentField x).isLt
    have hmantissa := (mantissaField x).isLt
    cases hn : negative x
    · rw [hn, if_neg Bool.false_ne_true] at hfield
      rw [Bool.toNat_false]
      omega
    · rw [hn, if_pos rfl] at hfield
      rw [Bool.toNat_true]
      omega
  rw [hsign, magnitude]
  exact (Nat.div_add_mod' _ _).symm

lemma rank_eq (x : Float) : rank x = position x - (negative x).toNat := by
  have hbits : x.toBits.toNat = (word x).toNat := rfl
  have hword := word_eq x
  have hlt := magnitude_lt x
  simp only [rank, hbits, position, signed, Nat.pow_eq]
  generalize (word x).toNat = w at *
  cases hn : negative x
  · rw [hn, Bool.toNat_false] at hword
    rw [if_pos (by omega), if_neg Bool.false_ne_true, Bool.toNat_false]
    omega
  · rw [hn, Bool.toNat_true] at hword
    rw [if_neg (by omega), if_pos rfl, Bool.toNat_true]
    omega

lemma position_sign (x : Float) :
    negative x = false ∧ 0 ≤ position x ∨ negative x = true ∧ position x ≤ 0 := by
  rw [position, signed]
  cases negative x
  · exact Or.inl ⟨rfl, Int.natCast_nonneg _⟩
  · exact Or.inr ⟨rfl, Int.neg_nonpos_of_nonneg (Int.natCast_nonneg _)⟩

lemma natAbs_position (x : Float) : (position x).natAbs = magnitude x := by
  rw [position, signed]
  split <;> omega

lemma eq_of_position_eq (h : position x = position y) (hne : position x ≠ 0) : x = y := by
  have hsign : negative x = negative y := by
    rcases position_sign x with ⟨hx, hpos⟩ | ⟨hx, hpos⟩ <;>
      rcases position_sign y with ⟨hy, hpos'⟩ | ⟨hy, hpos'⟩ <;>
      first | exact hx.trans hy.symm | omega
  apply eq_of_word_eq
  apply BitVec.eq_of_toNat_eq
  rw [word_eq, word_eq, hsign, ← natAbs_position, ← natAbs_position, h]

lemma compare_rank (h : position x ≠ 0 ∨ position y ≠ 0) :
    compare (rank x) (rank y) = compare (position x) (position y) := by
  have hsign (z : Float) : (negative z).toNat = 0 ∧ 0 ≤ position z ∨
      (negative z).toNat = 1 ∧ position z ≤ 0 := by
    rcases position_sign z with ⟨hz, hpos⟩ | ⟨hz, hpos⟩ <;> rw [hz]
    · exact Or.inl ⟨rfl, hpos⟩
    · exact Or.inr ⟨rfl, hpos⟩
  have hx := hsign x
  have hy := hsign y
  rw [rank_eq, rank_eq]
  rcases lt_trichotomy (position x) (position y) with hlt | heq | hgt
  · rw [compare_lt_iff_lt.mpr hlt, compare_lt_iff_lt]
    omega
  · rw [compare_eq_iff_eq.mpr heq, compare_eq_iff_eq]
    omega
  · rw [compare_gt_iff_gt.mpr hgt, compare_gt_iff_gt]
    omega

lemma magnitudeBits_lt (hc : Canonical m e) : magnitudeBits m e < 2047 * 2 ^ 52 := by
  rw [magnitudeBits]
  cases hc <;> split <;> omega

lemma position_of_word {bits : Nat} (hbits : bits < 2 ^ 63)
    (h : (word x).toNat = (if n then 1 else 0) * 2 ^ 63 + bits) : position x = signed n bits := by
  have hlt := magnitude_lt x
  rw [word_eq] at h
  rw [position]
  cases n <;> cases hn : negative x <;> rw [hn] at h <;>
    simp only [Bool.toNat_true, Bool.toNat_false, Bool.false_eq_true, if_true, if_false] at h
  · rw [(by omega : magnitude x = bits)]
  · omega
  · omega
  · rw [(by omega : magnitude x = bits)]

lemma position_of_finite (h : parts x = .finite n m e) :
    position x = signed n (magnitudeBits m e) := by
  obtain ⟨hc, hword⟩ := canonical_and_word_of_parts h
  have hbits := magnitudeBits_lt hc
  exact position_of_word (by omega) hword

lemma position_of_infinite (h : parts x = .infinite n) :
    position x = signed n (2047 * 2 ^ 52) := by
  have hword := toNat_word x
  rw [toNat_signField] at hword
  rw [parts_eq] at h
  split at h
  next hones =>
    split at h
    next hzeros =>
      obtain rfl := Parts.infinite.inj h
      have hbits : (-1#11).toNat * 2 ^ 52 + (0#52).toNat = 2047 * 2 ^ 52 := rfl
      rw [hones, hzeros, Nat.add_assoc, hbits] at hword
      exact position_of_word (by norm_num) hword
    next => cases h
  next =>
    split at h
    · split at h <;> cases h
    · cases h

end Fields

section Comparison

variable {α : Type} [AddCommGroup α] [LinearOrder α] [IsOrderedAddMonoid α] {f : Nat → Int → α}

structure Grows (f : Nat → Int → α) : Prop where
  positive {m : Nat} {e : Int} (hc : Canonical m e) (hm : 0 < m) : 0 < f m e
  exponent {m m' : Nat} {e e' : Int} (hc : Canonical m e) (hc' : Canonical m' e') (hm' : 0 < m')
    (h : e < e') : f m e < f m' e'
  mantissa {m m' : Nat} {e : Int} (hc : Canonical m e) (hc' : Canonical m' e) (h : m < m') :
    f m e < f m' e

inductive Amounts (f : Nat → Int → α) : UnpackedFloat → α → Prop
  | zero (s : UnpackedFloat.Sign) : Amounts f (.zero s) 0
  | positive {m : Nat} {e : Int} (hc : Canonical m e) (hm : 0 < m) :
    Amounts f (.finite .positive m e hm) (f m e)
  | negative {m : Nat} {e : Int} (hc : Canonical m e) (hm : 0 < m) :
    Amounts f (.finite .negative m e hm) (-f m e)

omit [IsOrderedAddMonoid α] in
lemma Grows.compare_eq (h : Grows f)
    (hc : Canonical m e) (hc' : Canonical m' e') (hm : 0 < m) (hm' : 0 < m') :
    compare (f m e) (f m' e') = (compare e e').then (compare m m') := by
  rcases lt_trichotomy e e' with hlt | rfl | hgt
  · rw [compare_lt_iff_lt.mpr hlt, compare_lt_iff_lt.mpr (h.exponent hc hc' hm' hlt)]
    rfl
  · rw [compare_eq_iff_eq.mpr rfl, Ordering.eq_then]
    rcases lt_trichotomy m m' with hlt | rfl | hgt
    · rw [compare_lt_iff_lt.mpr hlt, compare_lt_iff_lt.mpr (h.mantissa hc hc' hlt)]
    · rw [compare_eq_iff_eq.mpr rfl, compare_eq_iff_eq.mpr rfl]
    · rw [compare_gt_iff_gt.mpr hgt, compare_gt_iff_gt.mpr (h.mantissa hc' hc hgt)]
  · rw [compare_gt_iff_gt.mpr hgt, compare_gt_iff_gt.mpr (h.exponent hc' hc hm hgt)]
    rfl

lemma Grows.unpacked_compare (h : Grows f) {u v : UnpackedFloat} {a b : α} (hu : Amounts f u a)
    (hv : Amounts f v b) : u.compare v = some (compare a b) := by
  cases hu with
  | zero s =>
    cases hv with
    | zero s' => exact congrArg some (compare_eq_iff_eq.mpr rfl).symm
    | positive hc' hm' =>
      exact congrArg some (compare_lt_iff_lt.mpr (h.positive hc' hm')).symm
    | negative hc' hm' =>
      exact congrArg some (compare_gt_iff_gt.mpr (neg_neg_of_pos (h.positive hc' hm'))).symm
  | positive hc hm =>
    cases hv with
    | zero s' => exact congrArg some (compare_gt_iff_gt.mpr (h.positive hc hm)).symm
    | positive hc' hm' => exact congrArg some (h.compare_eq hc hc' hm hm').symm
    | negative hc' hm' =>
      exact congrArg some (compare_gt_iff_gt.mpr
        ((neg_neg_of_pos (h.positive hc' hm')).trans (h.positive hc hm))).symm
  | negative hc hm =>
    cases hv with
    | zero s' => exact congrArg some (compare_lt_iff_lt.mpr (neg_neg_of_pos (h.positive hc hm))).symm
    | positive hc' hm' =>
      exact congrArg some (compare_lt_iff_lt.mpr
        ((neg_neg_of_pos (h.positive hc hm)).trans (h.positive hc' hm'))).symm
    | @negative m' e' hc' hm' =>
      have hanti : StrictAnti (Neg.neg : α → α) := fun _ _ => neg_lt_neg
      rw [← cmp_eq_compare, hanti.cmp_map_eq, cmp_eq_compare, h.compare_eq hc' hc hm' hm,
        Std.OrientedOrd.eq_swap (α := Int), Std.OrientedOrd.eq_swap (α := Nat), ← Ordering.swap_then]
      rfl

end Comparison

lemma normal_of_exponent_lt (hc : Canonical m e) (hc' : Canonical m' e') (hm' : 0 < m')
    (h : e < e') : 2 ^ 52 ≤ m' ∧ m < 2 ^ 53 := by
  cases hc <;> cases hc' <;> omega

lemma grows_magnitudeBits : Grows fun m e => (magnitudeBits m e : Int) where
  positive {m e} hc hm := by
    have hmin : -1074 ≤ e := by cases hc <;> omega
    rw [magnitudeBits]
    split <;> omega
  exponent {m m' e e'} hc hc' hm' h := by
    obtain ⟨hnormal, hlt⟩ := normal_of_exponent_lt hc hc' hm' h
    have hmin : -1074 ≤ e := by cases hc <;> omega
    rw [magnitudeBits, magnitudeBits, if_neg (Nat.not_lt.mpr hnormal)]
    split <;> omega
  mantissa {m m' e} hc hc' h := by
    have hmin : -1074 ≤ e := by cases hc <;> omega
    rw [magnitudeBits, magnitudeBits]
    split <;> split <;> omega

lemma grows_value : Grows fun m e => (m : ℚ) * 2 ^ e where
  positive _ hm := mul_pos (Nat.cast_pos.mpr hm) (by positivity)
  exponent {m m' e e'} hc hc' hm' h := by
    obtain ⟨hnormal, hlt⟩ := normal_of_exponent_lt hc hc' hm' h
    have hmantissa : (m : ℚ) < 2 ^ 53 := by exact_mod_cast hlt
    have hmantissa' : (2 ^ 52 : ℚ) ≤ m' := by exact_mod_cast hnormal
    have hunit : (2 : ℚ) ^ (e + 1) ≤ 2 ^ e' := zpow_le_zpow_right₀ one_le_two h
    calc (m : ℚ) * 2 ^ e < 2 ^ 53 * 2 ^ e := mul_lt_mul_of_pos_right hmantissa (by positivity)
      _ = 2 ^ 52 * 2 ^ (e + 1) := by
        rw [zpow_add_one₀ two_ne_zero]
        ring
      _ ≤ m' * 2 ^ e' := mul_le_mul hmantissa' hunit (by positivity) (by positivity)
  mantissa _ _ h := mul_lt_mul_of_pos_right (Nat.cast_lt.mpr h) (by positivity)

section Values

variable {v w : ℚ}

def value? (x : Float) : Option ℚ :=
  match parts x with
  | .finite n m e => some (signed n m * 2 ^ e)
  | _ => none

lemma exists_finite_of_value? (h : value? x = some v) : ∃ n m e, parts x = .finite n m e := by
  rw [value?] at h
  split at h
  next n m e hparts => exact ⟨n, m, e, hparts⟩
  next => cases h

lemma amounts_of_finite {α : Type} [AddCommGroup α] (f : Nat → Int → α) (hzero : f 0 0 = 0)
    (h : parts x = .finite n m e) :
    Amounts f x.toModel.unpack (if n then -f m e else f m e) := by
  have hc := canonical_of_parts h
  rw [parts] at h
  cases hu : x.toModel.unpack with
  | infinity s => rw [hu] at h; cases h
  | notANumber => rw [hu] at h; cases h
  | zero s =>
    rw [hu] at h
    cases h
    rw [hzero, neg_zero, ite_self]
    exact .zero s
  | finite s m' e' hm =>
    rw [hu] at h
    cases h
    cases s
    · exact .negative hc hm
    · exact .positive hc hm

lemma amounts_position (h : parts x = .finite n m e) :
    Amounts (fun m e => (magnitudeBits m e : Int)) x.toModel.unpack (position x) := by
  rw [position_of_finite h]
  exact amounts_of_finite _ rfl h

lemma not_nan_of_value? (h : value? x = some v) : parts x ≠ .nan := by
  obtain ⟨n, m, e, hparts⟩ := exists_finite_of_value? h
  rw [hparts]
  exact Parts.noConfusion

lemma amounts_of_value? (h : value? x = some v) :
    Amounts (fun m e => (m : ℚ) * 2 ^ e) x.toModel.unpack v := by
  obtain ⟨n, m, e, hparts⟩ := exists_finite_of_value? h
  have hvalue : v = if n then -((m : ℚ) * 2 ^ e) else (m : ℚ) * 2 ^ e := by
    rw [value?, hparts] at h
    rw [← Option.some.inj h, signed]
    cases n <;> simp
  rw [hvalue]
  exact amounts_of_finite _ (by simp) hparts

lemma compare_position (hx : value? x = some v) (hy : value? y = some w) :
    compare (position x) (position y) = compare v w := by
  obtain ⟨n, m, e, hparts⟩ := exists_finite_of_value? hx
  obtain ⟨n', m', e', hparts'⟩ := exists_finite_of_value? hy
  have hplaces := grows_magnitudeBits.unpacked_compare (amounts_position hparts)
    (amounts_position hparts')
  have hvalues := grows_value.unpacked_compare (amounts_of_value? hx) (amounts_of_value? hy)
  exact Option.some.inj (hplaces.symm.trans hvalues)

lemma position_eq_iff (hx : value? x = some v) (hy : value? y = some w) :
    position x = position y ↔ v = w := by
  rw [← compare_eq_iff_eq, compare_position hx hy, compare_eq_iff_eq]

lemma value?_of_position_eq_zero (hx : parts x ≠ .nan) (h : position x = 0) :
    value? x = some 0 := by
  cases hparts : parts x with
  | nan => exact absurd hparts hx
  | infinite n =>
    rw [position_of_infinite hparts, signed] at h
    split at h <;> omega
  | finite n m e =>
    have hm : m = 0 := by
      by_contra hne
      have hpositive := grows_magnitudeBits.positive (canonical_of_parts hparts)
        (Nat.pos_of_ne_zero hne)
      rw [position_of_finite hparts, signed] at h
      split at h <;> omega
    rw [value?, hparts, hm]
    cases n <;> simp [signed]

lemma value?_congr (hx : parts x ≠ .nan) (hy : parts y ≠ .nan) (h : position x = position y) :
    value? x = value? y := by
  by_cases hzero : position x = 0
  · rw [value?_of_position_eq_zero hx hzero, value?_of_position_eq_zero hy (h ▸ hzero)]
  · rw [eq_of_position_eq h hzero]

lemma unpack_of_infinite (h : parts x = .infinite n) :
    x.toModel.unpack = .infinity (if n then .negative else .positive) := by
  rw [parts] at h
  cases hu : x.toModel.unpack with
  | infinity s =>
    rw [hu] at h
    cases h
    cases s <;> rfl
  | notANumber | zero | finite => rw [hu] at h; cases h

lemma compare_infinity {α : Type} [AddCommGroup α] {f : Nat → Int → α} {u : UnpackedFloat} {a : α}
    (h : Amounts f u a) : UnpackedFloat.compare (.infinity .positive) u = some .gt ∧
      UnpackedFloat.compare (.infinity .negative) u = some .lt ∧
      u.compare (.infinity .positive) = some .lt ∧ u.compare (.infinity .negative) = some .gt := by
  cases h <;> exact ⟨rfl, rfl, rfl, rfl⟩

lemma position_between (h : parts x = .finite n m e) :
    signed true (2047 * 2 ^ 52) < position x ∧ position x < signed false (2047 * 2 ^ 52) := by
  have hbits := magnitudeBits_lt (canonical_of_parts h)
  rw [position_of_finite h]
  cases n <;> simp only [signed, Bool.false_eq_true, if_true, if_false] <;> omega

lemma unpacked_compare (hx : parts x ≠ .nan) (hy : parts y ≠ .nan) :
    x.toModel.unpack.compare y.toModel.unpack = some (compare (position x) (position y)) := by
  cases hpx : parts x with
  | nan => exact absurd hpx hx
  | infinite n =>
    rw [unpack_of_infinite hpx, position_of_infinite hpx]
    cases hpy : parts y with
    | nan => exact absurd hpy hy
    | infinite n' =>
      rw [unpack_of_infinite hpy, position_of_infinite hpy]
      cases n <;> cases n' <;> rfl
    | finite n' m' e' =>
      obtain ⟨habove, hbelow⟩ := position_between hpy
      obtain ⟨hpositive, hnegative, -⟩ := compare_infinity (amounts_position hpy)
      cases n
      · exact hpositive.trans (congrArg some (compare_gt_iff_gt.mpr hbelow).symm)
      · exact hnegative.trans (congrArg some (compare_lt_iff_lt.mpr habove).symm)
  | finite n m e =>
    cases hpy : parts y with
    | nan => exact absurd hpy hy
    | infinite n' =>
      rw [unpack_of_infinite hpy, position_of_infinite hpy]
      obtain ⟨habove, hbelow⟩ := position_between hpx
      obtain ⟨-, -, hpositive, hnegative⟩ := compare_infinity (amounts_position hpx)
      cases n'
      · exact hpositive.trans (congrArg some (compare_lt_iff_lt.mpr hbelow).symm)
      · exact hnegative.trans (congrArg some (compare_gt_iff_gt.mpr habove).symm)
    | finite n' m' e' =>
      exact grows_magnitudeBits.unpacked_compare (amounts_position hpx) (amounts_position hpy)

lemma beq_eq (x y : Float) :
    (x == y) = (x.toModel.unpack.compare y.toModel.unpack == some .eq) := rfl

lemma lt_iff_unpacked :
    x < y ↔ (x.toModel.unpack.compare y.toModel.unpack == some .lt) = true :=
  ⟨fun h => of_decide_eq_true h, fun h => decide_eq_true h⟩

lemma unpack_of_nan (h : parts x = .nan) : x.toModel.unpack = .notANumber := by
  rw [parts] at h
  cases hu : x.toModel.unpack with
  | notANumber => rfl
  | infinity | zero | finite => rw [hu] at h; cases h

lemma unpacked_compare_of_nan (h : parts x = .nan ∨ parts y = .nan) :
    x.toModel.unpack.compare y.toModel.unpack = none := by
  rcases h with h | h <;> rw [unpack_of_nan h]
  · cases y.toModel.unpack <;> rfl
  · cases x.toModel.unpack <;> rfl

lemma beq_iff (hx : parts x ≠ .nan) (hy : parts y ≠ .nan) :
    (x == y) = true ↔ position x = position y := by
  rw [beq_eq, unpacked_compare hx hy, beq_iff_eq, Option.some.injEq, compare_eq_iff_eq]

lemma beq_comm (x y : Float) : (x == y) = (y == x) := by
  by_cases hnan : parts x = .nan ∨ parts y = .nan
  · rw [beq_eq, beq_eq, unpacked_compare_of_nan hnan, unpacked_compare_of_nan hnan.symm]
  · obtain ⟨hx, hy⟩ := not_or.mp hnan
    rw [Bool.eq_iff_iff, beq_iff hx hy, beq_iff hy hx, eq_comm]

lemma lt_iff (hx : parts x ≠ .nan) (hy : parts y ≠ .nan) : x < y ↔ position x < position y := by
  rw [lt_iff_unpacked, unpacked_compare hx hy, beq_iff_eq, Option.some.injEq, compare_lt_iff_lt]

lemma compare?_eq_some_iff {o : Ordering} : compare? x y = some o ↔
    parts x ≠ .nan ∧ parts y ≠ .nan ∧ compare (position x) (position y) = o := by
  by_cases hnan : parts x = .nan ∨ parts y = .nan
  · have hcompare : compare? x y = none := by
      simp only [compare?, beq_eq, lt_iff_unpacked, unpacked_compare_of_nan hnan,
        unpacked_compare_of_nan hnan.symm]
      rfl
    rw [hcompare]
    exact iff_of_false (fun h => nomatch h) fun h => hnan.elim h.1 h.2.1
  · obtain ⟨hx, hy⟩ := not_or.mp hnan
    have hcompare : compare? x y = some (compare (position x) (position y)) := by
      simp only [compare?, beq_iff hx hy, lt_iff hx hy, lt_iff hy hx]
      rcases lt_trichotomy (position x) (position y) with hlt | heq | hgt
      · rw [if_neg hlt.ne, if_pos hlt, compare_lt_iff_lt.mpr hlt]
      · rw [if_pos heq, compare_eq_iff_eq.mpr heq]
      · rw [if_neg hgt.ne', if_neg hgt.not_gt, if_pos hgt, compare_gt_iff_gt.mpr hgt]
    rw [hcompare, Option.some.injEq]
    exact ⟨fun h => ⟨hx, hy, h⟩, fun h => h.2.2⟩

lemma compare?_isSome_iff : (compare? x y).isSome = true ↔ parts x ≠ .nan ∧ parts y ≠ .nan := by
  simp [Option.isSome_iff_exists, compare?_eq_some_iff]

end Values

end Recombine.Number
