import Recombine.Proofs.Decimal.Identification
import Recombine.Proofs.Decimal.Rounding

namespace Recombine.Decimal

open Float.Model Float.Model.UnpackedFloat
open Number (Canonical parts)

section Operations

variable {m n : Nat} {e p : Int} {w v : ℚ} {x y : Float}

def HasValue (x : Float) (w : ℚ) : Prop :=
  ∃ m e, 2 ^ 52 ≤ m ∧ parts x = .finite false m e ∧ w = m * 2 ^ e

lemma HasValue.unpack (h : HasValue x w) : ∃ m e, ∃ hm : 0 < m, 2 ^ 52 ≤ m ∧
    x.toModel.unpack = .finite .positive m e hm ∧ w = m * 2 ^ e := by
  obtain ⟨m, e, hbits, hparts, hw⟩ := h
  rw [parts] at hparts
  cases hu : x.toModel.unpack with
  | infinity s => rw [hu] at hparts; cases hparts
  | notANumber => rw [hu] at hparts; cases hparts
  | zero s =>
    rw [hu, Number.Parts.finite.injEq] at hparts
    omega
  | finite s m' e' hm =>
    rw [hu, Number.Parts.finite.injEq] at hparts
    obtain ⟨hs, rfl, rfl⟩ := hparts
    cases s with
    | negative => cases hs
    | positive => exact ⟨_, _, hm, hbits, rfl, hw⟩

def IsRounded (x : Float) (w : ℚ) : Prop := ∃ m e, Regular m e ∧ Rounds m e w ∧
  x = .ofModel (pack (finiteOrZero .positive m e))

lemma HasValue.mul (hx : HasValue x w) (hy : HasValue y v) : IsRounded (x * y) (w * v) := by
  obtain ⟨m, e, hm, hmbits, hxu, rfl⟩ := hx.unpack
  obtain ⟨n, p, hn, hnbits, hyu, rfl⟩ := hy.unpack
  obtain ⟨m', e', hregular, hrounds, hmul⟩ :=
    exists_round_mul (e := e) (p := p) hm hn (hmbits.trans (Nat.le_mul_of_pos_right m hn)) rfl
  refine ⟨m', e', hregular, hrounds, ?_⟩
  rw [← hmul, ← hxu, ← hyu]
  rfl

lemma HasValue.div (hx : HasValue x w) (hy : HasValue y v) : IsRounded (x / y) (w / v) := by
  obtain ⟨m, e, hm, -, hxu, rfl⟩ := hx.unpack
  obtain ⟨n, p, hn, -, hyu, rfl⟩ := hy.unpack
  obtain ⟨m', e', hregular, hrounds, hdiv⟩ := exists_round_div (e := e) (p := p) hm hn rfl
  refine ⟨m', e', hregular, hrounds, ?_⟩
  rw [← hdiv, ← hxu, ← hyu]
  rfl

def areOf (n : Nat) : Number.Parts → Bool
  | .finite false m e => 2 ^ 52 ≤ m && n * 2 ^ (-e).toNat = m * 2 ^ e.toNat
  | _ => false

lemma hasValue_of_areOf (h : areOf n (parts x) = true) : HasValue x n := by
  unfold areOf at h
  split at h
  next m e hparts =>
    obtain ⟨hbits, hvalue⟩ := Bool.and_eq_true_iff.mp h
    refine ⟨m, e, of_decide_eq_true hbits, hparts, ?_⟩
    rw [zpow_eq_div, mul_div_assoc', eq_div_iff (by positivity)]
    exact_mod_cast of_decide_eq_true hvalue
  next => cases h

lemma areOf_power : ∀ k : Fin Float.exactlyRepresentablePowersOfTen.size,
    areOf (10 ^ k.val) (parts Float.exactlyRepresentablePowersOfTen[k]) = true := by
  decide +kernel

lemma hasValue_power {k : Nat} (hk : k < Float.exactlyRepresentablePowersOfTen.size) :
    HasValue Float.exactlyRepresentablePowersOfTen[k] (10 ^ k) := by
  have hvalue := hasValue_of_areOf (areOf_power ⟨k, hk⟩)
  push_cast at hvalue
  exact hvalue

lemma finiteOrZero_of_pos (s : Sign) (hm : 0 < m) : finiteOrZero s m e = .finite s m e hm :=
  dif_neg hm.ne'

lemma parts_finiteOrZero {s : Sign} (hc : Canonical m e) (hm : 0 < m) :
    parts (.ofModel (pack (finiteOrZero s m e))) = .finite (Number.isNegative s) m e := by
  rw [finiteOrZero_of_pos _ hm]
  exact Number.parts_ofModel_pack_finite hc hm

lemma nearest_self (m : Nat) : Nearest m m := by
  constructor <;> intros <;> linarith

lemma rounds_self (m : Nat) (e : Int) : Rounds m e (m * 2 ^ e) :=
  (nearest_self m).rounds (Nat.cast_nonneg m) (fun _ _ => by linarith) rfl

lemma le_scaled (hm : 0 < m) : 2 ^ 52 ≤ m * 2 ^ (52 - m.log2) :=
  calc 2 ^ 52 ≤ 2 ^ (m.log2 + (52 - m.log2)) := Nat.pow_le_pow_right two_pos (by omega)
    _ = 2 ^ m.log2 * 2 ^ (52 - m.log2) := pow_add 2 _ _
    _ ≤ m * 2 ^ (52 - m.log2) := Nat.mul_le_mul_right _ (Nat.log2_self_le hm.ne')

lemma scaled_lt (hm : 0 < m) (hlt : m < 2 ^ 53) : m * 2 ^ (52 - m.log2) < 2 ^ 53 := by
  have hlog : m.log2 < 53 := (Nat.log2_lt hm.ne').mpr hlt
  calc m * 2 ^ (52 - m.log2) < 2 ^ (m.log2 + 1) * 2 ^ (52 - m.log2) :=
        Nat.mul_lt_mul_of_pos_right Nat.lt_log2_self (by positivity)
    _ = 2 ^ 53 := by rw [← pow_add]; congr 1; omega

lemma scaled_value (m : Nat) :
    (m : ℚ) = (m * 2 ^ (52 - m.log2) : Nat) * 2 ^ (-((52 - m.log2 : Nat) : Int)) := by
  rw [zpow_neg, zpow_natCast]
  push_cast
  field_simp

lemma exists_normal (hm : 0 < m) (hle : m ≤ 2 ^ 53) :
    ∃ m' e, 2 ^ 52 ≤ m' ∧ Canonical m' e ∧ (m : ℚ) = m' * 2 ^ e := by
  rcases hle.lt_or_eq with hlt | rfl
  · exact ⟨_, _, le_scaled hm, .normal (le_scaled hm) (scaled_lt hm hlt) (by omega) (by omega),
      scaled_value m⟩
  · exact ⟨2 ^ 52, 1, le_rfl, .normal le_rfl (by norm_num) (by norm_num) (by norm_num), by norm_num⟩

lemma round_eq (s : Sign) (m : Nat) : UnpackedFloat.round Format.binary64 s m 0 =
    roundWithAccuracy Format.binary64 s (m * 2 ^ (52 - m.log2)) (-((52 - m.log2 : Nat) : Int))
      .exact := by
  have htarget : (0 - place m 0).toNat = 52 - m.log2 := by
    rw [place]
    omega
  rw [UnpackedFloat.round, targetExponent_totalExponent, decreaseExponent, htarget,
    Nat.shiftLeft_eq, zero_sub]

lemma exists_round_natural (s : Sign) (hm : 0 < m) (hle : m ≤ 2 ^ 53) :
    ∃ m' e, 2 ^ 52 ≤ m' ∧ Canonical m' e ∧ (m : ℚ) = m' * 2 ^ e ∧
      UnpackedFloat.round Format.binary64 s m 0 = finiteOrZero s m' e := by
  obtain ⟨n, p, hbits, hc, hvalue⟩ := exists_normal hm hle
  obtain ⟨m', e, hregular, hrounds, hround⟩ :=
    exists_round_exact (s := s) (le_scaled hm) (scaled_value m)
  have hself := rounds_self n p
  rw [← hvalue] at hself
  obtain ⟨rfl, rfl⟩ := hrounds.unique hregular (.of_canonical (by omega) hc) hself
  exact ⟨_, _, hbits, hc, hvalue, (round_eq s m).trans hround⟩

lemma normalize_natural (hm : 0 < m) :
    UnpackedFloat.normalize Format.binary64 m 0 .positive =
      UnpackedFloat.round Format.binary64 .positive m 0 := by
  have hcompare : compare (m : Int) 0 = .gt := by
    rw [compare_gt_iff_gt]
    exact_mod_cast hm
  rw [UnpackedFloat.normalize, hcompare]
  rfl

lemma hasValue_toFloat (hm : 0 < m) (hlt : m < 2 ^ 53) : HasValue m.toUInt64.toFloat m := by
  have htoNat : m.toUInt64.toNat = m := Nat.mod_eq_of_lt (by omega)
  have hfloat : m.toUInt64.toFloat =
      .ofModel (pack (UnpackedFloat.normalize Format.binary64 m 0 .positive)) := by
    conv_rhs => rw [← htoNat]
    rfl
  obtain ⟨m', e, hbits, hc, hvalue, hround⟩ := exists_round_natural .positive hm hlt.le
  refine ⟨m', e, hbits, ?_, hvalue⟩
  rw [hfloat, normalize_natural hm, hround]
  exact parts_finiteOrZero hc (by omega)

end Operations

section Literals

variable {n : Numeral} {m : Nat} {e : Int}

def InReach (n : Numeral) : Prop :=
  -((2 ^ 11 : Int) + n.count.log2) ≤ n.exponent ∧ n.exponent ≤ 2 ^ 11

lemma exists_round_ofScientific (hcount : 0 < n.count) (hreach : InReach n) :
    ∃ m e, Regular m e ∧ Rounds m e n.value ∧
      UnpackedFloat.ofScientific Format.binary64 n.count n.exponent =
        finiteOrZero .positive m e := by
  obtain ⟨hmin, hmax⟩ := hreach
  rw [UnpackedFloat.ofScientific, dif_neg hcount.ne', if_neg (not_lt.mpr hmax),
    if_neg (not_lt.mpr hmin)]
  have hpower (k : Nat) : 0 < 10 ^ k := by positivity
  by_cases hpos : 0 ≤ n.exponent
  · rw [if_pos hpos]
    have hbits : 2 ^ 52 ≤ (n.count <<< 53) * 10 ^ n.exponent.toNat := by
      rw [Nat.shiftLeft_eq]
      calc 2 ^ 52 ≤ 1 * 2 ^ 53 * 1 := by decide
        _ ≤ n.count * 2 ^ 53 * 10 ^ n.exponent.toNat :=
          Nat.mul_le_mul (Nat.mul_le_mul_right _ hcount) (hpower _)
    have hten : (10 : ℚ) ^ n.exponent = 10 ^ n.exponent.toNat := by
      rw [← zpow_natCast, Int.toNat_of_nonneg hpos]
    have hunit : (2 : ℚ) ^ (-(Format.mantissaBits Format.binary64 : Int)) = (2 ^ 53)⁻¹ :=
      zpow_neg 2 53
    refine exists_round_mul _ (hpower _) hbits ?_
    have hbits' : Format.mantissaBits Format.binary64 = 53 := rfl
    rw [Numeral.value, Nat.shiftLeft_eq, hten, hunit, zpow_zero, hbits']
    push_cast
    norm_num
    ring
  · rw [if_neg hpos]
    refine exists_round_div hcount (hpower _) ?_
    rw [Numeral.value, zpow_eq_div 10, Int.toNat_of_nonpos (by omega : n.exponent ≤ 0)]
    push_cast
    ring

lemma value_eq_div (h : n.exponent < 0) : n.value = n.count / 10 ^ n.exponent.natAbs := by
  have habs : -n.exponent = n.exponent.natAbs := by omega
  rw [Numeral.value, ← zpow_natCast, ← habs, zpow_neg, div_inv_eq_mul]

lemma value_eq_mul (h : ¬ n.exponent < 0) : n.value = n.count * 10 ^ n.exponent.natAbs := by
  rw [Numeral.value, ← zpow_natCast, Int.natAbs_of_nonneg (not_lt.mp h)]

lemma isRounded_magnitude (hcount : 0 < n.count) (hreach : InReach n) :
    IsRounded n.magnitude n.value := by
  have hexponent : (if decide (n.exponent < 0) = true then Int.negOfNat n.exponent.natAbs
      else Int.ofNat n.exponent.natAbs) = n.exponent := by
    have hsigned := signed_natAbs n.exponent
    rw [Number.signed] at hsigned
    conv_rhs => rw [← hsigned]
    split
    next => exact Int.negOfNat_eq
    next => rfl
  rw [Numeral.magnitude, Float.ofScientific]
  split
  next hsmall =>
    have hvalue := hasValue_toFloat hcount hsmall.1
    have hpower := hasValue_power (k := n.exponent.natAbs) (Nat.lt_succ_of_le hsmall.2)
    dsimp only
    by_cases hneg : n.exponent < 0
    · rw [if_pos (decide_eq_true hneg), value_eq_div hneg]
      exact hvalue.div hpower
    · rw [if_neg (by simpa using hneg), value_eq_mul hneg]
      exact hvalue.mul hpower
  next =>
    obtain ⟨m, e, hregular, hrounds, hround⟩ := exists_round_ofScientific hcount hreach
    refine ⟨m, e, hregular, hrounds, ?_⟩
    rw [← hround]
    dsimp only
    rw [hexponent]
    rfl

section Bounds

variable {w : ℚ}

lemma Rounds.lt_of_canonical (hc : Canonical m e) (h : Rounds m e w) : w < 2 ^ (1024 : Int) := by
  have hrange : m < 2 ^ 53 ∧ e ≤ 971 := by cases hc <;> omega
  have hunit : (2 : ℚ) ^ (e - 2) ≤ 2 ^ (969 : Int) := zpow_le_zpow_right₀ one_le_two (by omega)
  have hmantissa : ((4 * m + 2 : Nat) : ℚ) < 2 ^ (55 : Int) := by
    exact_mod_cast (by omega : 4 * m + 2 < 2 ^ 55)
  calc w ≤ (4 * m + 2 : Nat) * 2 ^ (e - 2) := h.high
    _ < 2 ^ (55 : Int) * 2 ^ (e - 2) := mul_lt_mul_of_pos_right hmantissa (by positivity)
    _ ≤ 2 ^ (55 : Int) * 2 ^ (969 : Int) := mul_le_mul_of_nonneg_left hunit (by positivity)
    _ = 2 ^ (1024 : Int) := (zpow_add₀ two_ne_zero 55 969).symm

lemma Rounds.gt_of_canonical (hm : 0 < m) (hc : Canonical m e) (h : Rounds m e w) :
    2 ^ (-1076 : Int) < w := by
  have hmin : -1074 ≤ e := by cases hc <;> omega
  have hunit : (2 : ℚ) ^ (-1076 : Int) ≤ 2 ^ (e - 2) := zpow_le_zpow_right₀ one_le_two (by omega)
  have hgap : gap m e ≤ 2 := gap_le
  have hmantissa : (2 : ℚ) ≤ (4 * m - gap m e : Nat) := by
    exact_mod_cast (by omega : 2 ≤ 4 * m - gap m e)
  have hpos : (0 : ℚ) < 2 ^ (-1076 : Int) := by positivity
  calc (2 : ℚ) ^ (-1076 : Int) < 2 * 2 ^ (-1076 : Int) := by linarith
    _ ≤ (4 * m - gap m e : Nat) * 2 ^ (e - 2) :=
        mul_le_mul hmantissa hunit (by positivity) (by positivity)
    _ ≤ w := h.low

end Bounds

lemma inReach_of_rounds (hm : 0 < m) (hc : Canonical m e) (h : Rounds m e n.value) :
    0 < n.count ∧ InReach n := by
  have hpos := h.pos hm
  have hcount : 0 < n.count := by
    refine Nat.pos_of_ne_zero fun hzero => ?_
    rw [Numeral.value, hzero, Nat.cast_zero, zero_mul] at hpos
    exact lt_irrefl 0 hpos
  refine ⟨hcount, ?_, ?_⟩
  · by_contra hlow
    rw [not_le] at hlow
    have hbits : (n.count : ℚ) ≤ 2 ^ (n.count.log2 + 1) := by
      exact_mod_cast Nat.lt_log2_self.le
    have hten : (10 : ℚ) ^ n.exponent ≤ 2 ^ n.exponent := by
      obtain ⟨k, hk⟩ := Int.eq_ofNat_of_zero_le (by omega : 0 ≤ -n.exponent)
      rw [← neg_neg n.exponent, hk, zpow_neg, zpow_neg, zpow_natCast,
        zpow_natCast]
      exact inv_anti₀ (by positivity) (pow_le_pow_left₀ (by norm_num) (by norm_num) k)
    have hsmall : n.value ≤ 2 ^ (-1076 : Int) :=
      calc n.value ≤ 2 ^ (n.count.log2 + 1) * 2 ^ n.exponent :=
            mul_le_mul hbits hten (by positivity) (by positivity)
        _ = 2 ^ ((n.count.log2 + 1 : Nat) + n.exponent) := by
          rw [zpow_add₀ two_ne_zero, zpow_natCast]
        _ ≤ 2 ^ (-1076 : Int) := zpow_le_zpow_right₀ one_le_two (by push_cast; omega)
    exact absurd (h.gt_of_canonical hm hc) (not_lt.mpr hsmall)
  · by_contra hhigh
    rw [not_le] at hhigh
    have hone : (1 : ℚ) ≤ n.count := by exact_mod_cast hcount
    have hlarge : (2 : ℚ) ^ (1024 : Int) ≤ n.value :=
      calc (2 : ℚ) ^ (1024 : Int) ≤ 10 ^ (1024 : Int) :=
            zpow_le_zpow_left₀ (by norm_num) (by norm_num) (by norm_num)
        _ ≤ 10 ^ n.exponent := zpow_le_zpow_right₀ (by norm_num) (by omega)
        _ ≤ n.value := le_mul_of_one_le_left (by positivity) hone
    exact absurd (h.lt_of_canonical hc) (not_lt.mpr hlarge)

lemma parts_magnitude (hm : 0 < m) (hc : Canonical m e) (h : Rounds m e n.value) :
    parts n.magnitude = .finite false m e := by
  obtain ⟨hcount, hreach⟩ := inReach_of_rounds hm hc h
  obtain ⟨m', e', hregular, hrounds, hmagnitude⟩ := isRounded_magnitude hcount hreach
  obtain ⟨rfl, rfl⟩ := hrounds.unique hregular (.of_canonical hm hc) h
  rw [hmagnitude]
  exact parts_finiteOrZero hc hm

lemma parts_zero : parts (.ofModel (pack (.zero .positive))) = .finite false 0 0 := by
  decide +kernel

lemma unpack_toFloat_zero : (Nat.toUInt64 0).toFloat.toModel.unpack = .zero .positive := by
  rfl

lemma parts_magnitude_zero (hzero : n.count = 0) : parts n.magnitude = .finite false 0 0 := by
  rw [Numeral.magnitude, hzero, Float.ofScientific]
  split
  next hsmall =>
    have hk : n.exponent.natAbs < Float.exactlyRepresentablePowersOfTen.size :=
      Nat.lt_succ_of_le hsmall.2
    obtain ⟨m, e, hm, -, hpower, -⟩ := (hasValue_power hk).unpack
    dsimp only
    generalize Float.exactlyRepresentablePowersOfTen[n.exponent.natAbs] = y at hpower
    have hmul : parts ((Nat.toUInt64 0).toFloat * y) = .finite false 0 0 := by
      change parts (.ofModel (pack (UnpackedFloat.mul Format.binary64
        (Nat.toUInt64 0).toFloat.toModel.unpack y.toModel.unpack))) = _
      rw [unpack_toFloat_zero, hpower]
      exact parts_zero
    have hdiv : parts ((Nat.toUInt64 0).toFloat / y) = .finite false 0 0 := by
      change parts (.ofModel (pack (UnpackedFloat.div Format.binary64
        (Nat.toUInt64 0).toFloat.toModel.unpack y.toModel.unpack))) = _
      rw [unpack_toFloat_zero, hpower]
      exact parts_zero
    split
    · exact hdiv
    · exact hmul
  next =>
    exact parts_zero

lemma float?_eq_some {x : Float} {negative : Bool} (hx : parts x = .finite negative m e)
    (hsign : n.negative = negative) (hvalue : m = 0 ∧ n.value = 0 ∨ 0 < m ∧ Rounds m e n.value) :
    n.float? = some x := by
  have hc := Number.canonical_of_parts hx
  have hmagnitude : parts n.magnitude = .finite false m e := by
    rcases hvalue with ⟨rfl, hzero⟩ | ⟨hm, hrounds⟩
    · obtain rfl : e = 0 := by cases hc <;> first | rfl | omega
      rw [Numeral.value, mul_eq_zero, Nat.cast_eq_zero] at hzero
      exact parts_magnitude_zero (hzero.resolve_right (by positivity))
    · exact parts_magnitude hm hc hrounds
  have hfinite : Number.isFinite n.magnitude = true := Number.isFinite_iff.mpr ⟨_, _, _, hmagnitude⟩
  rw [Numeral.float?, if_pos hfinite, hsign]
  congr 1
  cases negative with
  | false => exact Number.eq_of_parts_eq hmagnitude hx
  | true => exact Number.eq_of_parts_eq (Number.parts_neg hmagnitude) hx

def numeral (x : Float) : Numeral :=
  match Numeral.read (Layout.json.write x) with
  | some (n, _) => n
  | none => ⟨false, 0, 0, false⟩

lemma numeral_spec {x : Float} (hx : Number.isFinite x = true) :
    (numeral x).whole = false ∧ (numeral x).float? = some x ∧
      ∀ r, Ends r → Numeral.read (Layout.json.write x ++ r) = some (numeral x, r) := by
  obtain ⟨negative, m, e, hparts⟩ := Number.isFinite_iff.mp hx
  obtain ⟨n, hsign, hwhole, hvalue, hread⟩ := exists_read_write hparts
  have hends : Ends [] := fun c hc => nomatch hc
  have hnumeral : numeral x = n := by
    have hall := hread [] hends
    rw [List.append_nil] at hall
    rw [numeral, hall]
  rw [hnumeral]
  exact ⟨hwhole, float?_eq_some hparts hsign hvalue, hread⟩

lemma int?_numeral {x : Float} (hx : Number.isFinite x = true) : (numeral x).int? = none := by
  rw [Numeral.int?, (numeral_spec hx).1]
  rfl

lemma float?_numeral {x : Float} (hx : Number.isFinite x = true) : (numeral x).float? = some x :=
  (numeral_spec hx).2.1

def integer (i : Int) : Numeral := ⟨decide (i < 0), i.natAbs, 0, true⟩

lemma int?_integer (i : Int) : (integer i).int? = some i := by
  have hminus : (decide (i < 0) && i.natAbs == 0) = false := by
    rw [Bool.and_eq_false_iff, decide_eq_false_iff_not, beq_eq_false_iff_ne]
    omega
  rw [Numeral.int?, integer, signed_natAbs]
  dsimp only
  rw [hminus]
  rfl

lemma Rounds.canonical_of_small {k : Nat} (hpos : 0 < k) (hk : k < 2 ^ 64) (hr : Regular m e)
    (h : Rounds m e k) : 0 < m ∧ Canonical m e := by
  have hm : 0 < m := by
    refine Nat.pos_of_ne_zero fun hzero => ?_
    obtain rfl : e = -1074 := hr.normal.resolve_left (by omega)
    have hunit : (2 : ℚ) ^ (-1074 - 2 : Int) ≤ 2 ^ (-2 : Int) :=
      zpow_le_zpow_right₀ one_le_two (by omega)
    have hhigh := h.high
    have hone : (1 : ℚ) ≤ k := by exact_mod_cast hpos
    rw [hzero] at hhigh
    generalize (2 : ℚ) ^ (-1074 - 2 : Int) = unit at hunit hhigh
    norm_num at hunit hhigh
    linarith
  refine ⟨hm, hr.canonical hm ?_⟩
  by_contra hlarge
  have hbits : 2 ^ 52 ≤ m := hr.normal.resolve_right (by omega)
  have hgap : gap m e ≤ 2 := gap_le
  have hunit : (2 : ℚ) ^ (64 : Int) ≤ 2 ^ (e - 2) := zpow_le_zpow_right₀ one_le_two (by omega)
  have hone : (1 : ℚ) ≤ (4 * m - gap m e : Nat) := by
    exact_mod_cast (by omega : 1 ≤ 4 * m - gap m e)
  have hlow : (2 : ℚ) ^ (64 : Int) ≤ k :=
    calc (2 : ℚ) ^ (64 : Int) ≤ 1 * 2 ^ (e - 2) := by rwa [one_mul]
      _ ≤ (4 * m - gap m e : Nat) * 2 ^ (e - 2) := mul_le_mul_of_nonneg_right hone (by positivity)
      _ ≤ k := h.low
  exact absurd (by exact_mod_cast hlow) (Nat.not_le.mpr hk)

lemma float?_integer_isSome {i : Int} (h : i.natAbs < 2 ^ 64) :
    (integer i).float?.isSome = true := by
  have hfinite : Number.isFinite (integer i).magnitude = true := by
    rcases Nat.eq_zero_or_pos i.natAbs with hzero | hpos
    · exact Number.isFinite_iff.mpr ⟨_, _, _, parts_magnitude_zero hzero⟩
    · have hreach : InReach (integer i) := by
        constructor <;> simp only [integer] <;> omega
      obtain ⟨m, e, hregular, hrounds, hmagnitude⟩ := isRounded_magnitude hpos hreach
      have hvalue : (integer i).value = i.natAbs := by
        rw [Numeral.value, integer, zpow_zero, mul_one]
      rw [hvalue] at hrounds
      obtain ⟨hm, hc⟩ := hrounds.canonical_of_small hpos h hregular
      rw [hmagnitude]
      exact Number.isFinite_iff.mpr ⟨_, _, _, parts_finiteOrZero hc hm⟩
  rw [Numeral.float?, if_pos hfinite]
  rfl

end Literals

end Recombine.Decimal
