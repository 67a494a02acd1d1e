import Recombine.Proofs.Numbers.Integers
import Recombine.Value

namespace Recombine.Value

open Number (parts integral? value? position ofInt)

def IsNaN : Value → Prop
  | float x => parts x = .nan
  | _ => False

instance : DecidablePred IsNaN
  | float x => inferInstanceAs (Decidable (parts x = .nan))
  | null | bool _ | int _ | text _ => .isFalse id

structure Comparable (a b : Value) : Prop where
  left : ¬ a.IsNaN
  right : ¬ b.IsNaN
  notLarge : ¬ (a.IsLarge ∧ b.IsFloat)
  notLarge' : ¬ (a.IsFloat ∧ b.IsLarge)

variable {a b : Value} {x y : Float} {i : Int64}

instance : Decidable (a.Comparable b) :=
  decidable_of_iff (¬ a.IsNaN ∧ ¬ b.IsNaN ∧ ¬ (a.IsLarge ∧ b.IsFloat) ∧ ¬ (a.IsFloat ∧ b.IsLarge))
    ⟨fun ⟨hleft, hright, hlarge, hlarge'⟩ => ⟨hleft, hright, hlarge, hlarge'⟩,
      fun h => ⟨h.left, h.right, h.notLarge, h.notLarge'⟩⟩

def keyInt? (x : Float) : Option Int :=
  (integral? x).filter fun i => Int64.minValue.toInt ≤ i ∧ i ≤ Int64.maxValue.toInt

lemma key_float (x : Float) : key (float x) =
    match keyInt? x with
    | some i => .int (Int64.ofInt i)
    | none => .float x.toBits := by
  rw [key, keyInt?]
  cases integral? x with
  | none => rfl
  | some i =>
    rw [Option.filter_some]
    by_cases hrange : Int64.minValue.toInt ≤ i ∧ i ≤ Int64.maxValue.toInt
    · rw [if_pos (decide_eq_true hrange)]
      exact if_pos hrange
    · rw [if_neg (by rwa [decide_eq_true_iff])]
      exact if_neg hrange

lemma keyInt?_eq_some_iff {i : Int} : keyInt? x = some i ↔
    value? x = some (i : ℚ) ∧ Int64.minValue.toInt ≤ i ∧ i ≤ Int64.maxValue.toInt := by
  rw [keyInt?, Option.filter_eq_some_iff, Number.integral?_eq_some_iff, decide_eq_true_iff]

lemma toInt_ofInt_of_keyInt? {i : Int} (h : keyInt? x = some i) : (Int64.ofInt i).toInt = i := by
  obtain ⟨-, hmin, hmax⟩ := keyInt?_eq_some_iff.mp h
  exact Int64.toInt_ofInt_of_le hmin (Int.lt_of_le_of_lt hmax (by decide))

lemma keyInt?_congr (hx : parts x ≠ .nan) (hy : parts y ≠ .nan) (h : position x = position y) :
    keyInt? x = keyInt? y := by
  apply Option.ext
  intro i
  rw [keyInt?_eq_some_iff, keyInt?_eq_some_iff, Number.value?_congr hx hy h]

lemma eq_of_position_eq (hx : parts x ≠ .nan) (hnone : keyInt? x = none)
    (h : position x = position y) : x = y := by
  -- The bits of such floats are their keys, which only the zeros could share.
  refine Number.eq_of_position_eq h fun hzero => ?_
  have hvalue := Number.value?_of_position_eq_zero hx hzero
  have hkey : keyInt? x = some 0 :=
    keyInt?_eq_some_iff.mpr ⟨by rw [hvalue, Int.cast_zero], by decide, by decide⟩
  rw [hnone] at hkey
  cases hkey

lemma eq_of_toBits_eq (h : x.toBits = y.toBits) : x = y :=
  Number.eq_of_word_eq (congrArg UInt64.toBitVec h)

lemma key_float_eq_key_float_iff (hx : parts x ≠ .nan) (hy : parts y ≠ .nan) :
    (float x).key = (float y).key ↔ position x = position y := by
  rw [key_float, key_float]
  constructor
  · intro h
    cases hi : keyInt? x with
    | none =>
      cases hj : keyInt? y with
      | none =>
        rw [hi, hj] at h
        rw [eq_of_toBits_eq (Key.float.inj h)]
      | some j =>
        rw [hi, hj] at h
        cases h
    | some i =>
      cases hj : keyInt? y with
      | none =>
        rw [hi, hj] at h
        cases h
      | some j =>
        rw [hi, hj] at h
        have hint := congrArg Int64.toInt (Key.int.inj h)
        rw [toInt_ofInt_of_keyInt? hi, toInt_ofInt_of_keyInt? hj] at hint
        have hvalue := (keyInt?_eq_some_iff.mp hi).1
        have hvalue' := (keyInt?_eq_some_iff.mp hj).1
        rw [Number.position_eq_iff hvalue hvalue', hint]
  · intro h
    rw [← keyInt?_congr hx hy h]
    cases hi : keyInt? x with
    | none => rw [eq_of_position_eq hx hi h]
    | some i => rfl

lemma key_int_eq_key_float_iff : (int i).key = (float x).key ↔ value? x = some (i.toInt : ℚ) := by
  have hrange := And.intro i.minValue_le_toInt i.toInt_le
  have hiff : value? x = some (i.toInt : ℚ) ↔ keyInt? x = some i.toInt := by
    rw [keyInt?_eq_some_iff]
    exact (and_iff_left hrange).symm
  rw [hiff, key_float]
  cases hj : keyInt? x with
  | none => exact iff_of_false (fun h => nomatch h) fun h => nomatch h
  | some j =>
    rw [key, Key.int.injEq, Option.some.injEq, ← Int64.toInt_inj, toInt_ofInt_of_keyInt? hj]
    exact eq_comm

lemma looseEq_float_iff (hx : parts x ≠ .nan) (hy : parts y ≠ .nan) :
    (float x).looseEq (float y) = true ↔ position x = position y :=
  Number.beq_iff hx hy

lemma looseEq_int_float_iff (hi : i.toInt.natAbs ≤ 2 ^ 53) (hx : parts x ≠ .nan) :
    (int i).looseEq (float x) = true ↔ value? x = some (i.toInt : ℚ) := by
  have hvalue := Number.value?_ofInt hi
  have hnan := Number.not_nan_of_value? hvalue
  refine (Number.beq_iff hnan hx).trans ⟨fun h => ?_, fun h => ?_⟩
  · rw [← Number.value?_congr hnan hx h, hvalue]
  · exact (Number.position_eq_iff hvalue h).mpr rfl

lemma looseEq_float_int_iff (hx : parts x ≠ .nan) (hi : i.toInt.natAbs ≤ 2 ^ 53) :
    (float x).looseEq (int i) = true ↔ value? x = some (i.toInt : ℚ) := by
  have hnan := Number.not_nan_of_value? (Number.value?_ofInt hi)
  rw [← looseEq_int_float_iff hi hx]
  exact (Number.beq_iff hx hnan).trans (eq_comm.trans (Number.beq_iff hnan hx).symm)

def Key.kindRank : Key → Nat
  | null => 0
  | bool _ => 1
  | int _ | float _ => 2
  | text _ => 3

lemma kindRank_key (a : Value) : a.key.kindRank = a.kindRank := by
  cases a with
  | float x =>
    rw [key_float]
    cases keyInt? x <;> rfl
  | _ => rfl

lemma kindRank_eq_of_looseEq (h : a.looseEq b = true) : a.kindRank = b.kindRank := by
  cases a <;> cases b <;> first | rfl | cases h

theorem Comparable.key_eq_key_iff (h : a.Comparable b) : a.key = b.key ↔ a.looseEq b = true := by
  by_cases hkind : a.kindRank = b.kindRank
  · cases a with
    | null =>
      cases b with
      | null => exact iff_of_true rfl rfl
      | _ => cases hkind
    | bool p =>
      cases b with
      | bool q => simp [key, looseEq]
      | _ => cases hkind
    | text s =>
      cases b with
      | text t => simp [key, looseEq]
      | _ => cases hkind
    | int i =>
      cases b with
      | int j => simp [key, looseEq]
      | float y =>
        have hsmall : ¬ 2 ^ 53 < i.toInt.natAbs := fun hlarge => h.notLarge ⟨hlarge, trivial⟩
        exact key_int_eq_key_float_iff.trans
          (looseEq_int_float_iff (Nat.not_lt.mp hsmall) h.right).symm
      | _ => cases hkind
    | float x =>
      cases b with
      | int j =>
        have hsmall : ¬ 2 ^ 53 < j.toInt.natAbs := fun hlarge => h.notLarge' ⟨trivial, hlarge⟩
        exact eq_comm.trans (key_int_eq_key_float_iff.trans
          (looseEq_float_int_iff h.left (Nat.not_lt.mp hsmall)).symm)
      | float y =>
        exact (key_float_eq_key_float_iff h.left h.right).trans
          (looseEq_float_iff h.left h.right).symm
      | _ => cases hkind
  · refine iff_of_false (fun heq => hkind ?_) fun heq => hkind (kindRank_eq_of_looseEq heq)
    rw [← kindRank_key, heq, kindRank_key]

example : (int 9007199254740993).looseEq (float 9007199254740992) = true ∧
    (int 9007199254740993).key ≠ (float 9007199254740992).key := by
  decide +kernel

end Recombine.Value
