import Mathlib.Order.Bounds.Basic
import Recombine.Engine.Table

/-! Column types ordered by what a column can hold. The type of a column is the least upper bound
of the types of its cells, and there is none exactly when the cells are of different kinds. -/

namespace Recombine

namespace Value

def isFloat : Value → Bool
  | float _ => true
  | _ => false

def asFloat : Value → Value
  | int i => .float (Number.ofInt i.toInt)
  | v => v

lemma asFloat_null : null.asFloat = null := rfl

lemma asFloat_asFloat (v : Value) : v.asFloat.asFloat = v.asFloat := by
  cases v <;> rfl

end Value

/-- A cell as it is in a column of the cells `vs`, where one float makes all numbers floats. -/
def unify (vs : List Value) (v : Value) : Value :=
  if vs.any Value.isFloat then v.asFloat else v

lemma unify_null (vs : List Value) : unify vs .null = .null := by
  simp only [unify, Value.asFloat_null, ite_self]

def OneKind (vs : List Value) : Prop :=
  ∃ k, ∀ v ∈ vs, v = .null ∨ v.kindRank = k

lemma oneKind_iff {vs : List Value} : OneKind vs ↔
    ∀ v ∈ vs, ∀ w ∈ vs, v = .null ∨ w = .null ∨ v.kindRank = w.kindRank := by
  constructor
  · rintro ⟨k, hk⟩ v hv w hw
    exact (hk v hv).imp_right fun hv' => (hk w hw).imp_right fun hw' => hv'.trans hw'.symm
  · intro h
    by_cases hnull : ∀ v ∈ vs, v = .null
    · exact ⟨0, fun v hv => Or.inl (hnull v hv)⟩
    · push Not at hnull
      obtain ⟨w, hw, hne⟩ := hnull
      exact ⟨w.kindRank, fun v hv => (h v hv w hw).imp_right fun hvw => hvw.resolve_left hne⟩

namespace ColumnType

instance : LE ColumnType :=
  ⟨fun s t => s = .blank ∨ s = t ∨ (s = .int ∧ t = .float)⟩

instance (s t : ColumnType) : Decidable (s ≤ t) :=
  inferInstanceAs (Decidable (s = .blank ∨ s = t ∨ (s = .int ∧ t = .float)))

instance : PartialOrder ColumnType where
  le_refl t := Or.inr (Or.inl rfl)
  le_trans s t u := by cases s <;> cases t <;> cases u <;> decide
  le_antisymm s t := by cases s <;> cases t <;> decide

lemma float_le_iff {t : ColumnType} : float ≤ t ↔ t = float := by
  cases t <;> decide

lemma le_int_of_le_float {t : ColumnType} (h : t ≤ float) (hne : t ≠ float) : t ≤ int := by
  cases t <;> revert h hne <;> decide

lemma join?_eq_some {s t u : ColumnType} (h : s.join? t = some u) (w : ColumnType) :
    u ≤ w ↔ s ≤ w ∧ t ≤ w := by
  cases s <;> cases t <;> cases u <;> revert h <;> cases w <;> decide

lemma join?_eq_none {s t : ColumnType} (h : s.join? t = none) (w : ColumnType) :
    ¬ (s ≤ w ∧ t ≤ w) := by
  cases s <;> cases t <;> revert h <;> cases w <;> decide

def kindRank : ColumnType → Nat
  | blank => 0
  | bool => 1
  | int | float => 2
  | text => 3

def ofKindRank : Nat → ColumnType
  | 0 => blank
  | 1 => bool
  | 2 => float
  | _ => text

lemma kindRank_of_le {s t : ColumnType} (h : s ≤ t) : s = blank ∨ s.kindRank = t.kindRank := by
  cases s <;> cases t <;> revert h <;> decide

lemma le_ofKindRank (t : ColumnType) : t ≤ ofKindRank t.kindRank := by
  cases t <;> decide

lemma ofValue_eq_blank_iff {v : Value} : ofValue v = blank ↔ v = .null := by
  cases v <;> simp [ofValue]

lemma kindRank_ofValue (v : Value) : (ofValue v).kindRank = v.kindRank := by
  cases v <;> rfl

lemma eq_or_numbers_of_kindRank_eq {s t : ColumnType} (h : s.kindRank = t.kindRank) :
    s = t ∨ (s = int ∧ t = float) ∨ (s = float ∧ t = int) := by
  cases s <;> cases t <;> simp [kindRank] at h ⊢

lemma kindRank_unify (vs : List Value) (v : Value) :
    (ofValue (unify vs v)).kindRank = (ofValue v).kindRank := by
  rw [unify]
  split
  next => cases v <;> rfl
  next => rfl

lemma ofValue_eq_float_iff {v : Value} : ofValue v = float ↔ v.isFloat = true := by
  cases v <;> simp [ofValue, Value.isFloat]

lemma ofValue_asFloat_le {v : Value} (h : ofValue v ≤ float) : ofValue v.asFloat ≤ float := by
  cases v with
  | int => exact le_refl float
  | _ => exact h

def typesOf (vs : List Value) : Set ColumnType := {t | ∃ v ∈ vs, ofValue v = t}

lemma mem_upperBounds_typesOf {vs : List Value} {w : ColumnType} :
    w ∈ upperBounds (typesOf vs) ↔ ∀ v ∈ vs, ofValue v ≤ w := by
  constructor
  · intro h v hv
    exact h ⟨v, hv, rfl⟩
  · rintro h _ ⟨v, hv, rfl⟩
    exact h v hv

lemma bddAbove_typesOf_iff (vs : List Value) : BddAbove (typesOf vs) ↔ OneKind vs := by
  constructor
  · rintro ⟨w, hw⟩
    refine ⟨w.kindRank, fun v hv => ?_⟩
    have hle := mem_upperBounds_typesOf.mp hw v hv
    rcases kindRank_of_le hle with hb | hk
    · exact Or.inl (ofValue_eq_blank_iff.mp hb)
    · exact Or.inr ((kindRank_ofValue v).symm.trans hk)
  · rintro ⟨k, hk⟩
    refine ⟨ofKindRank k, mem_upperBounds_typesOf.mpr fun v hv => ?_⟩
    rcases hk v hv with rfl | rfl
    · exact Or.inl rfl
    · rw [← kindRank_ofValue]
      exact le_ofKindRank _

lemma isLUB_eq_float_iff {vs : List Value} {t : ColumnType} (h : IsLUB (typesOf vs) t) :
    t = float ↔ vs.any Value.isFloat = true := by
  have hub := mem_upperBounds_typesOf.mp h.1
  rw [List.any_eq_true]
  constructor
  · rintro rfl
    by_contra hno
    have hint : int ∈ upperBounds (typesOf vs) := by
      refine mem_upperBounds_typesOf.mpr fun v hv => le_int_of_le_float (hub v hv) fun hv' => hno ?_
      exact ⟨v, hv, ofValue_eq_float_iff.mp hv'⟩
    exact absurd (h.2 hint) (by decide)
  · rintro ⟨v, hv, hfloat⟩
    have hle := hub v hv
    rw [ofValue_eq_float_iff.mpr hfloat] at hle
    exact float_le_iff.mp hle

lemma cellValue_cell? {t : ColumnType} {v : Value} (h : ofValue v ≤ t) :
    Column.cellValue (t.cell? v) = if t = float then v.asFloat else v := by
  cases v <;> cases t <;> first | rfl | (rcases h with h | h | ⟨h, h'⟩ <;> cases h <;> cases h')

end ColumnType

end Recombine
