import Recombine.Proofs.Columns.Selection
import Recombine.Proofs.Numbers.Integers

namespace Recombine

open Number (parts)

namespace Value

def IsNumber : Value → Prop
  | int _ => True
  | float x => parts x ≠ .nan
  | null | bool _ | text _ => False

inductive Ordered : Value → Value → Prop
  | numbers {a b : Value} (ha : a.IsNumber) (hb : b.IsNumber) : Ordered a b
  | texts (s t : String) : Ordered (text s) (text t)

variable {a b : Value}

lemma parts_ofInt_ne_nan (i : Int64) : parts (Number.ofInt i.toInt) ≠ .nan := by
  have hrange : i.toInt.natAbs < 2 ^ 64 := by
    have hmin := i.le_toInt
    have hmax := i.toInt_lt
    omega
  obtain ⟨n, m, e, hparts⟩ := Number.isFinite_iff.mp (Number.isFinite_ofInt hrange)
  rw [hparts]
  exact fun h => nomatch h

lemma compare?_isSome_iff : (a.compare? b).isSome = true ↔ a.Ordered b := by
  constructor
  · intro h
    cases a with
    | null | bool => cases b <;> cases h
    | text s =>
      cases b with
      | text t => exact .texts s t
      | _ => cases h
    | int i =>
      cases b with
      | int j => exact .numbers trivial trivial
      | float y => exact .numbers trivial (Number.compare?_isSome_iff.mp h).2
      | _ => cases h
    | float x =>
      cases b with
      | int j => exact .numbers (Number.compare?_isSome_iff.mp h).1 trivial
      | float y =>
        obtain ⟨hx, hy⟩ := Number.compare?_isSome_iff.mp h
        exact .numbers hx hy
      | _ => cases h
  · rintro (⟨ha, hb⟩ | ⟨s, t⟩)
    · cases a with
      | int i =>
        cases b with
        | int j => rfl
        | float y => exact Number.compare?_isSome_iff.mpr ⟨parts_ofInt_ne_nan i, hb⟩
        | _ => cases hb
      | float x =>
        cases b with
        | int j => exact Number.compare?_isSome_iff.mpr ⟨ha, parts_ofInt_ne_nan j⟩
        | float y => exact Number.compare?_isSome_iff.mpr ⟨ha, hb⟩
        | _ => cases hb
      | _ => cases ha
    · rfl

lemma compare?_eq_none (h : ¬ a.Ordered b) : a.compare? b = none := by
  rwa [← compare?_isSome_iff, Bool.not_eq_true, Option.isSome_eq_false_iff,
    Option.isNone_iff_eq_none] at h

lemma Ordered.looseEq_eq (h : a.Ordered b) : a.looseEq b = (a.compare? b == some .eq) := by
  cases h with
  | texts s t => exact beq_eq_compare s t
  | numbers ha hb =>
    cases a with
    | int i =>
      cases b with
      | int j => exact beq_eq_compare i j
      | float y => exact (Number.compare?_eq_eq_iff _ _).symm
      | _ => cases hb
    | float x =>
      cases b with
      | int j => exact (Number.compare?_eq_eq_iff _ _).symm
      | float y => exact (Number.compare?_eq_eq_iff _ _).symm
      | _ => cases hb
    | _ => cases ha

end Value

namespace Test

inductive Takes : Test → Operand → Prop
  | scalar {t : Test} (h : t ∈ [eq, ne, gt, ge, lt, le, contains]) (x : Value) :
      Takes t (.scalar x)
  | between (lo hi : Value) : Takes between (.list [lo, hi])
  | oneOf (xs : List Value) : Takes oneOf (.list xs)

variable {t : Test} {operand : Operand} {v x : Value}

lemma takes_of_holds (h : t.holds operand v = true) : t.Takes operand := by
  unfold holds at h
  split at h
  next => exact .scalar (by simp) _
  next => exact .scalar (by simp) _
  next => exact .scalar (by simp) _
  next => exact .scalar (by simp) _
  next => exact .scalar (by simp) _
  next => exact .scalar (by simp) _
  next => exact .between _ _
  next => exact .oneOf _
  next => exact .scalar (by simp) _
  next => cases h

lemma exists_verdicts (h : v.Ordered x) : ∃ o, ∀ t verdict, verdict? t = some verdict →
    t.holds (.scalar x) v = verdict (some o) := by
  obtain ⟨o, ho⟩ := Option.isSome_iff_exists.mp (Value.compare?_isSome_iff.mpr h)
  refine ⟨o, fun t verdict hverdict => ?_⟩
  rw [holds_eq_verdict hverdict h.looseEq_eq, ho]

lemma existsUnique_holds (h : v.Ordered x) :
    ∃! t, t ∈ [lt, eq, gt] ∧ t.holds (.scalar x) v = true := by
  obtain ⟨o, hverdicts⟩ := exists_verdicts h
  have hlt := hverdicts lt _ rfl
  have heq := hverdicts eq _ rfl
  have hgt := hverdicts gt _ rfl
  simp only [List.mem_cons, List.not_mem_nil, or_false]
  cases o with
  | lt => exact ⟨lt, by simp [hlt], by rintro t ⟨rfl | rfl | rfl, ht⟩ <;> simp_all⟩
  | eq => exact ⟨eq, by simp [heq], by rintro t ⟨rfl | rfl | rfl, ht⟩ <;> simp_all⟩
  | gt => exact ⟨gt, by simp [hgt], by rintro t ⟨rfl | rfl | rfl, ht⟩ <;> simp_all⟩

lemma ge_holds_iff (h : v.Ordered x) : ge.holds (.scalar x) v = true ↔
    gt.holds (.scalar x) v = true ∨ eq.holds (.scalar x) v = true := by
  obtain ⟨o, hverdicts⟩ := exists_verdicts h
  rw [hverdicts ge _ rfl, hverdicts gt _ rfl, hverdicts eq _ rfl]
  cases o <;> decide

lemma le_holds_iff (h : v.Ordered x) : le.holds (.scalar x) v = true ↔
    lt.holds (.scalar x) v = true ∨ eq.holds (.scalar x) v = true := by
  obtain ⟨o, hverdicts⟩ := exists_verdicts h
  rw [hverdicts le _ rfl, hverdicts lt _ rfl, hverdicts eq _ rfl]
  cases o <;> decide

lemma holds_of_not_ordered (h : ¬ v.Ordered x) (ht : t ∈ [lt, le, gt, ge]) :
    t.holds (.scalar x) v = false := by
  have hnone := Value.compare?_eq_none h
  simp only [List.mem_cons, List.not_mem_nil, or_false] at ht
  rcases ht with rfl | rfl | rfl | rfl <;> simp [holds, hnone]

/-- What tests accept is one order and one equality of cells, and nothing beyond them. -/
structure Coherent (accepts : Test → Operand → Value → Prop) : Prop where
  one_of_three {v x : Value} : v.Ordered x →
    ∃! t, t ∈ [lt, eq, gt] ∧ accepts t (.scalar x) v
  ge_iff {v x : Value} : v.Ordered x →
    (accepts ge (.scalar x) v ↔ accepts gt (.scalar x) v ∨ accepts eq (.scalar x) v)
  le_iff {v x : Value} : v.Ordered x →
    (accepts le (.scalar x) v ↔ accepts lt (.scalar x) v ∨ accepts eq (.scalar x) v)
  unordered {v x : Value} : ¬ v.Ordered x → ∀ t ∈ [lt, le, gt, ge], ¬ accepts t (.scalar x) v
  ne_iff (v x : Value) : accepts ne (.scalar x) v ↔ ¬ accepts eq (.scalar x) v
  between_iff (v lo hi : Value) : accepts between (.list [lo, hi]) v ↔
    accepts ge (.scalar lo) v ∧ accepts le (.scalar hi) v
  oneOf_iff (v : Value) (xs : List Value) :
    accepts oneOf (.list xs) v ↔ ∃ x ∈ xs, accepts eq (.scalar x) v
  takes {t : Test} {operand : Operand} : ¬ t.Takes operand → ∀ v, ¬ accepts t operand v

end Test

namespace Filter

open Test

theorem accepts_coherent (column : String) :
    Coherent fun t operand v => accepts ⟨column, t, operand⟩ v = true where
  one_of_three := existsUnique_holds
  ge_iff := ge_holds_iff
  le_iff := le_holds_iff
  unordered h t ht := by simp [accepts, holds_of_not_ordered h ht]
  ne_iff v x := by simp [accepts, holds]
  between_iff v lo hi := by simp [accepts, holds]
  oneOf_iff v xs := by simp [accepts, holds]
  takes h _ := fun haccepts => h (takes_of_holds haccepts)

theorem accepts_rounded_and_nan :
    Value.Ordered (.int 9007199254740993) (.float 9007199254740992) ∧
      ¬ Value.Ordered (.float (0 / 0)) (.float (0 / 0)) ∧
      ¬ Takes between (.list [.int 1]) ∧
      accepts ⟨"n", ge, .scalar (.float 9007199254740992)⟩ (.int 9007199254740993) = true ∧
      accepts ⟨"n", ge, .scalar (.float (0 / 0))⟩ (.float (0 / 0)) ≠ true ∧
      accepts ⟨"n", between, .list [.int 1]⟩ (.int 1) ≠ true := by
  have hcoherent := accepts_coherent "n"
  have hrounded : Value.Ordered (.int 9007199254740993) (.float 9007199254740992) :=
    Value.compare?_isSome_iff.mp (by decide +kernel)
  have hnan : ¬ Value.Ordered (.float (0 / 0)) (.float (0 / 0)) := by
    rw [← Value.compare?_isSome_iff]
    decide +kernel
  have hlist : ¬ Takes between (.list [.int 1]) := fun h => nomatch h
  have heq : accepts ⟨"n", eq, .scalar (.float 9007199254740992)⟩ (.int 9007199254740993) = true :=
    by decide +kernel
  exact ⟨hrounded, hnan, hlist, (hcoherent.ge_iff hrounded).mpr (Or.inr heq),
    hcoherent.unordered hnan ge (by simp), hcoherent.takes hlist _⟩

end Filter

end Recombine
