import Mathlib.Algebra.Order.Ring.Nat
import Recombine.Number

namespace Recombine.Number

open Float.Model

/-- The mantissas and exponents of zero, of the numbers below the normal ones, and of these. -/
inductive Canonical : Nat → Int → Prop
  | zero : Canonical 0 0
  | subnormal {m : Nat} (hpos : 0 < m) (hlt : m < 2 ^ 52) : Canonical m (-1074)
  | normal {m : Nat} {e : Int} (hle : 2 ^ 52 ≤ m) (hlt : m < 2 ^ 53) (hmin : -1074 ≤ e)
      (hmax : e ≤ 971) : Canonical m e

abbrev word (x : Float) : BitVec 64 := x.toModel.toBits.toBitVec

abbrev signField (x : Float) : BitVec 1 :=
  @UnpackedFloat.unpackSign Format.binary64 (word x)

abbrev exponentField (x : Float) : BitVec 11 :=
  @UnpackedFloat.unpackExponent Format.binary64 (word x)

abbrev mantissaField (x : Float) : BitVec 52 :=
  @UnpackedFloat.unpackMantissa Format.binary64 (word x)

def negative (x : Float) : Bool := isNegative (UnpackedFloat.Sign.ofBitVec (signField x))

lemma eq_of_word_eq {x y : Float} (h : word x = word y) : x = y := by
  obtain ⟨⟨_, _⟩⟩ := x
  obtain ⟨⟨_, _⟩⟩ := y
  cases UInt64.toBitVec_inj.mp h
  rfl

lemma toNat_word (x : Float) : (word x).toNat = (signField x).toNat * 2 ^ 63 +
    (exponentField x).toNat * 2 ^ 52 + (mantissaField x).toNat := by
  have hsign : (signField x).toNat = (word x).toNat / 2 ^ 63 % 2 := by
    change ((word x).toNat >>> 63) % 2 = _
    rw [Nat.shiftRight_eq_div_pow]
  have hexponent : (exponentField x).toNat = (word x).toNat / 2 ^ 52 % 2 ^ 11 := by
    change ((word x).toNat >>> 52) % 2 ^ 11 = _
    rw [Nat.shiftRight_eq_div_pow]
  have hmantissa : (mantissaField x).toNat = (word x).toNat % 2 ^ 52 := rfl
  have hlt : (word x).toNat < 2 ^ 64 := (word x).isLt
  omega

lemma toNat_signField (x : Float) : (signField x).toNat = if negative x then 1 else 0 := by
  have hbit : signField x = 0#1 ∨ signField x = 1#1 := by
    have hlt := (signField x).isLt
    rcases (by omega : (signField x).toNat = 0 ∨ (signField x).toNat = 1) with h | h
    · exact Or.inl (BitVec.eq_of_toNat_eq h)
    · exact Or.inr (BitVec.eq_of_toNat_eq h)
  rcases hbit with h | h <;> rw [negative, h] <;> rfl

lemma parts_eq (x : Float) : parts x =
    if exponentField x = -1#11 then
      if mantissaField x = 0#52 then .infinite (negative x) else .nan
    else if exponentField x = 0#11 then
      if mantissaField x = 0#52 then .finite (negative x) 0 0
      else .finite (negative x) (mantissaField x).toNat (-1074)
    else .finite (negative x) (2 ^ 52 + (mantissaField x).toNat)
      ((exponentField x).toNat - 1075) := by
  have hbit : (1#1 ++ mantissaField x).toNat = 2 ^ 52 + (mantissaField x).toNat := by
    change 2 ^ 52 ||| (mantissaField x).toNat = _
    rw [Nat.or_comm, Nat.or_two_pow_eq_add_of_lt (mantissaField x).isLt, Nat.add_comm]
  rw [parts, Float.Model.unpack]
  delta UnpackedFloat.unpack
  by_cases hones : exponentField x = -1#11
  · rw [if_pos hones, if_pos hones]
    by_cases hm : mantissaField x = 0#52
    · rw [if_pos hm, if_pos hm]
      rfl
    · rw [if_neg hm, if_neg hm]
  rw [if_neg hones, if_neg hones]
  by_cases hzeros : exponentField x = 0#11
  · rw [if_pos hzeros, if_pos hzeros]
    by_cases hm : mantissaField x = 0#52
    · rw [dif_pos hm, if_pos hm]
      rfl
    · rw [dif_neg hm, if_neg hm]
      have hexponent : ((exponentField x).toNat : Int) - 1075 + 1 = -1074 := by
        rw [hzeros]
        rfl
      rw [← hexponent]
      rfl
  · rw [if_neg hzeros, if_neg hzeros, ← hbit]
    rfl

lemma isFinite_iff {x : Float} : isFinite x = true ↔ ∃ n m e, parts x = .finite n m e := by
  rw [isFinite]
  cases parts x <;> simp

def magnitudeBits (m : Nat) (e : Int) : Nat :=
  if m < 2 ^ 52 then m else (e + 1075).toNat * 2 ^ 52 + (m - 2 ^ 52)

section Finite

variable {x y : Float} {n : Bool} {m : Nat} {e : Int} (h : parts x = .finite n m e)

include h

lemma canonical_and_word_of_parts : Canonical m e ∧
    (word x).toNat = (if n then 1 else 0) * 2 ^ 63 + magnitudeBits m e := by
  have hword := toNat_word x
  rw [toNat_signField] at hword
  have hm := (mantissaField x).isLt
  have hlt := (exponentField x).isLt
  rw [parts_eq] at h
  by_cases hones : exponentField x = -1#11
  · rw [if_pos hones] at h
    split at h <;> cases h
  rw [if_neg hones] at h
  by_cases hzeros : exponentField x = 0#11
  · rw [if_pos hzeros] at h
    rw [hzeros] at hword
    have hbits : (word x).toNat = (if negative x then 1 else 0) * 2 ^ 63 +
        magnitudeBits (mantissaField x).toNat (-1074) := by
      rw [hword, magnitudeBits, if_pos hm, BitVec.toNat_zero, Nat.zero_mul, Nat.add_zero]
    by_cases hm0 : mantissaField x = 0#52
    · rw [if_pos hm0] at h
      cases h
      rw [hm0] at hbits
      exact ⟨.zero, hbits⟩
    · rw [if_neg hm0] at h
      cases h
      have hpos : 0 < (mantissaField x).toNat := by
        refine Nat.pos_of_ne_zero fun hz => hm0 ?_
        exact BitVec.eq_of_toNat_eq hz
      exact ⟨.subnormal hpos hm, hbits⟩
  · rw [if_neg hzeros] at h
    cases h
    have hpos : 0 < (exponentField x).toNat := by
      refine Nat.pos_of_ne_zero fun hz => hzeros ?_
      exact BitVec.eq_of_toNat_eq hz
    have hmax : (exponentField x).toNat ≠ 2047 := by
      intro hz
      apply hones
      exact BitVec.eq_of_toNat_eq hz
    have hge : ¬ 2 ^ 52 + (mantissaField x).toNat < 2 ^ 52 := by omega
    have hexponent : (((exponentField x).toNat : Int) - 1075 + 1075).toNat =
        (exponentField x).toNat := by omega
    refine ⟨.normal (Nat.le_add_right _ _) ?_ ?_ ?_, ?_⟩
    · omega
    · omega
    · omega
    · rw [hword, magnitudeBits, if_neg hge, hexponent, Nat.add_sub_cancel_left, Nat.add_assoc]

lemma canonical_of_parts : Canonical m e := (canonical_and_word_of_parts h).1

lemma eq_of_parts_eq (hy : parts y = .finite n m e) : x = y := by
  apply eq_of_word_eq
  apply BitVec.eq_of_toNat_eq
  rw [(canonical_and_word_of_parts h).2, (canonical_and_word_of_parts hy).2]

end Finite

lemma unpackSign_packComponents (s : UnpackedFloat.Sign) (e : BitVec 11) (m : BitVec 52) :
    @UnpackedFloat.unpackSign Format.binary64
      (UnpackedFloat.packComponents Format.binary64 s e m) = s.toBitVec := by
  ext i hi
  obtain rfl : i = 0 := by omega
  have hbit : (s.toBitVec ++ e ++ m).getLsbD 63 = s.toBitVec.getLsbD 0 := by
    rw [BitVec.getLsbD_append, BitVec.getLsbD_append]
    rfl
  change (BitVec.extractLsb 63 63 (s.toBitVec ++ e ++ m)).getLsbD 0 = s.toBitVec.getLsbD 0
  rw [BitVec.getLsbD_extractLsb, ← hbit]
  rfl

lemma parts_ofModel_pack {s : UnpackedFloat.Sign} {e : BitVec 11} {m : BitVec 52}
    {u : UnpackedFloat}
    (h : UnpackedFloat.pack Format.binary64 u =
      UnpackedFloat.packComponents Format.binary64 s e m) :
    parts (.ofModel (pack u)) =
    if e = -1#11 then
      if m = 0#52 then .infinite (isNegative s) else .nan
    else if e = 0#11 then
      if m = 0#52 then .finite (isNegative s) 0 0
      else .finite (isNegative s) m.toNat (-1074)
    else .finite (isNegative s) (2 ^ 52 + m.toNat)
      (e.toNat - 1075) := by
  have hword : word (.ofModel (pack u)) = UnpackedFloat.packComponents Format.binary64 s e m := h
  rw [parts_eq, negative, signField, exponentField, mantissaField, hword, unpackSign_packComponents,
    UnpackedFloat.unpackExponent_packComponents, UnpackedFloat.unpackMantissa_packComponents]
  cases s <;> rfl

lemma toNat_ofNat_exponent {e : Int} (hmin : -1074 ≤ e) (hmax : e ≤ 971) :
    (BitVec.ofNat 11 (e + 1075).toNat).toNat = (e + 1075).toNat := by
  rw [BitVec.toNat_ofNat]
  exact Nat.mod_eq_of_lt (by omega)

lemma parts_ofModel_pack_finite {s : UnpackedFloat.Sign} {m : Nat} {e : Int} (hc : Canonical m e)
    (hm : 0 < m) : parts (.ofModel (pack (.finite s m e hm))) = .finite (isNegative s) m e := by
  have hrange : -1074 ≤ e ∧ e ≤ 971 := by cases hc <;> omega
  have hbias : e + (Format.binary64.exponentBias : Nat) + (52 : Nat) = e + 1075 := by
    change e + (1023 : Int) + 52 = e + 1075
    omega
  have hlt : ¬ 2 ^ 11 ≤ (e + 1075).toNat + 1 := by omega
  have htoNat := toNat_ofNat_exponent hrange.1 hrange.2
  have hpack : UnpackedFloat.pack Format.binary64 (.finite s m e hm) =
      if 2 ^ 11 ≤ (e + (Format.binary64.exponentBias : Nat) + (52 : Nat)).toNat + 1 then
        UnpackedFloat.packedInfinity Format.binary64 s
      else if m.log2 + 1 = 53 then
        UnpackedFloat.packComponents Format.binary64 s
          (.ofNat 11 (e + (Format.binary64.exponentBias : Nat) + (52 : Nat)).toNat) (.ofNat 52 m)
      else UnpackedFloat.packComponents Format.binary64 s 0#11 (.ofNat 52 m) := rfl
  rw [hbias, if_neg hlt] at hpack
  cases hc with
  | zero => omega
  | subnormal hpos hsub =>
    have hlog : m.log2 + 1 ≠ 53 := by
      have := (Nat.log2_lt hpos.ne').mpr hsub
      omega
    rw [if_neg hlog] at hpack
    have hmantissa : (BitVec.ofNat 52 m).toNat = m := by
      rw [BitVec.toNat_ofNat, Nat.mod_eq_of_lt hsub]
    have hne : BitVec.ofNat 52 m ≠ 0#52 := by
      intro hz
      rw [hz] at hmantissa
      exact hpos.ne hmantissa
    rw [parts_ofModel_pack hpack, if_neg (by decide), if_pos rfl, if_neg hne, hmantissa]
  | normal hle hlt' hmin hmax =>
    have hlog : m.log2 + 1 = 53 := by
      have := (Nat.log2_eq_iff hm.ne').mpr ⟨hle, hlt'⟩
      omega
    rw [if_pos hlog] at hpack
    have hmantissa : (BitVec.ofNat 52 m).toNat = m - 2 ^ 52 := by
      rw [BitVec.toNat_ofNat]
      omega
    have hones : BitVec.ofNat 11 (e + 1075).toNat ≠ -1#11 := by
      intro h
      rw [h] at htoNat
      have : (-1#11).toNat = 2047 := rfl
      omega
    have hzeros : BitVec.ofNat 11 (e + 1075).toNat ≠ 0#11 := by
      intro h
      rw [h] at htoNat
      have : (0#11).toNat = 0 := rfl
      omega
    have hm' : 2 ^ 52 + (m - 2 ^ 52) = m := by omega
    have he' : ((e + 1075).toNat : Int) - 1075 = e := by omega
    rw [parts_ofModel_pack hpack, if_neg hones, if_neg hzeros, hmantissa, htoNat, hm', he']

lemma parts_neg {x : Float} {n : Bool} {m : Nat} {e : Int} (h : parts x = .finite n m e) :
    parts (-x) = .finite (!n) m e := by
  have hcanonical := canonical_of_parts h
  have hneg : -x = .ofModel (pack x.toModel.unpack.neg) := rfl
  rw [hneg]
  rw [parts] at h
  cases hu : x.toModel.unpack with
  | infinity s => rw [hu] at h; cases h
  | notANumber => rw [hu] at h; cases h
  | zero s =>
    rw [hu] at h
    cases h
    have hzeros := parts_ofModel_pack (u := (UnpackedFloat.zero s).neg) rfl
    rw [hzeros]
    cases s <;> rfl
  | finite s m' e' hpos =>
    rw [hu] at h
    cases h
    refine (parts_ofModel_pack_finite hcanonical hpos).trans ?_
    cases s <;> rfl

lemma isFinite_neg {x : Float} (h : isFinite x = true) : isFinite (-x) = true := by
  obtain ⟨n, m, e, hparts⟩ := isFinite_iff.mp h
  exact isFinite_iff.mpr ⟨!n, m, e, parts_neg hparts⟩

end Recombine.Number
