import Mathlib.Algebra.GroupWithZero.Nat
import Mathlib.Algebra.Ring.Int.Defs
import Mathlib.Data.List.Induction
import Mathlib.Data.List.Infix
import Recombine.Engine.Accumulator
import Recombine.Proofs.Values

/-! What aggregates give for the values that were pushed: counts, sums that are exact as long as
they are integers, and the earliest of the least or of the greatest values. -/

namespace Recombine

namespace Value

def integer? : Value → Option Int
  | int i => some i.toInt
  | _ => none

def integers (vs : List Value) : List Int := vs.filterMap integer?

def numbers (vs : List Value) : List Float := vs.filterMap number?

lemma integer?_of_number? {v : Value} (h : v.number? = none) : v.integer? = none := by
  cases v with
  | int i => cases h
  | float x => rfl
  | null => rfl
  | bool b => rfl
  | text s => rfl

end Value

namespace Total

variable {vs : List Value} {v : Value} {t : Total}

def InRange (s : Int) : Prop := Int64.minValue.toInt ≤ s ∧ s ≤ Int64.maxValue.toInt

instance : DecidablePred InRange := fun _ => inferInstanceAs (Decidable (_ ∧ _))

def StaysInRange (vs : List Value) : Prop := ∀ is, is <+: Value.integers vs → InRange is.sum

instance : DecidablePred StaysInRange := fun vs =>
  decidable_of_iff (∀ is ∈ (Value.integers vs).inits, InRange is.sum) (by simp [StaysInRange])

def HasNoFloat (vs : List Value) : Prop := ∀ x, .float x ∉ vs

structure Sums (vs : List Value) (t : Total) : Prop where
  numbers : t.numbers = (Value.numbers vs).length
  floats : t.floats = 0 ↔ HasNoFloat vs
  whole : ∀ n, t.whole = some n ↔ StaysInRange vs ∧ n.toInt = (Value.integers vs).sum
  sum : t.sum = (Value.numbers vs).foldl (· + ·) 0

example : ¬ StaysInRange [.int Int64.maxValue, .int 1, .int (-1)] := by decide

lemma toInt_ofInt {s : Int} (h : InRange s) : (Int64.ofInt s).toInt = s := by
  obtain ⟨hmin, hmax⟩ := h
  rw [Int64.toInt_minValue] at hmin
  rw [Int64.toInt_maxValue] at hmax
  exact Int64.toInt_ofInt_of_le hmin (by omega)

lemma add?_eq_some {a b n : Int64} :
    add? a b = some n ↔ InRange (a.toInt + b.toInt) ∧ n.toInt = a.toInt + b.toInt := by
  rw [add?]
  split
  next hrange =>
    rw [Option.some.injEq, InRange, and_iff_right hrange, ← Int64.toInt_inj, toInt_ofInt hrange]
    exact eq_comm
  next hrange => exact iff_of_false nofun fun h => hrange h.1

lemma integers_concat_int (vs : List Value) (i : Int64) :
    Value.integers (vs ++ [.int i]) = Value.integers vs ++ [i.toInt] :=
  List.filterMap_append

lemma staysInRange_concat_int {i : Int64} : StaysInRange (vs ++ [.int i]) ↔
    StaysInRange vs ∧ InRange ((Value.integers vs).sum + i.toInt) := by
  simp only [StaysInRange, integers_concat_int, List.prefix_concat_iff, or_imp, forall_and,
    forall_eq, List.sum_append, List.sum_singleton]
  exact and_comm

lemma StaysInRange.inRange_sum (h : StaysInRange vs) : InRange (Value.integers vs).sum :=
  h _ (List.prefix_refl _)

lemma sums_start : Sums [] {} where
  numbers := rfl
  floats := iff_of_true rfl fun _ => List.not_mem_nil
  whole n := by
    rw [Option.some.injEq, ← Int64.toInt_inj, and_iff_right (by decide)]
    exact eq_comm
  sum := rfl

lemma Sums.push_int (h : Sums vs t) (i : Int64) : Sums (vs ++ [.int i]) (t.push (.int i)) where
  numbers := by simp [push, h.numbers, Value.numbers, Value.number?]
  floats := by simp [push, h.floats, HasNoFloat]
  whole n := by
    rw [push, Option.bind_eq_some_iff, staysInRange_concat_int, integers_concat_int,
      List.sum_append, List.sum_singleton]
    simp only [h.whole, add?_eq_some]
    constructor
    · rintro ⟨m, ⟨hstays, hm⟩, hrange, hn⟩
      rw [hm] at hrange hn
      exact ⟨⟨hstays, hrange⟩, hn⟩
    · rintro ⟨⟨hstays, hrange⟩, hn⟩
      have hm := toInt_ofInt hstays.inRange_sum
      refine ⟨Int64.ofInt (Value.integers vs).sum, ⟨hstays, hm⟩, ?_⟩
      rw [hm]
      exact ⟨hrange, hn⟩
  sum := by simp [push, h.sum, Value.numbers, Value.number?]

lemma Sums.push_float (h : Sums vs t) (x : Float) :
    Sums (vs ++ [.float x]) (t.push (.float x)) where
  numbers := by simp [push, h.numbers, Value.numbers, Value.number?]
  floats := iff_of_false (Nat.succ_ne_zero _) fun hno =>
    hno x (List.mem_append_right _ List.mem_cons_self)
  whole n := by
    have hintegers : Value.integers (vs ++ [.float x]) = Value.integers vs := by
      simp [Value.integers, Value.integer?]
    simpa only [push, StaysInRange, hintegers] using h.whole n
  sum := by simp [push, h.sum, Value.numbers, Value.number?]

lemma Sums.push_other (h : Sums vs t) (hnumber : v.number? = none) (hpush : t.push v = t) :
    Sums (vs ++ [v]) (t.push v) := by
  have hnumbers : Value.numbers (vs ++ [v]) = Value.numbers vs := by
    simp [Value.numbers, hnumber]
  have hintegers : Value.integers (vs ++ [v]) = Value.integers vs := by
    simp [Value.integers, Value.integer?_of_number? hnumber]
  have hfloat : HasNoFloat (vs ++ [v]) ↔ HasNoFloat vs := by
    refine forall_congr' fun x => not_congr ?_
    rw [List.mem_append, List.mem_singleton, or_iff_left]
    rintro rfl
    cases hnumber
  rw [hpush]
  constructor
  · rw [hnumbers, h.numbers]
  · rw [hfloat, h.floats]
  · simpa only [StaysInRange, hintegers] using h.whole
  · rw [hnumbers, h.sum]

lemma Sums.push (h : Sums vs t) (v : Value) : Sums (vs ++ [v]) (t.push v) := by
  cases v with
  | int i => exact h.push_int i
  | float x => exact h.push_float x
  | null => exact h.push_other rfl rfl
  | bool b => exact h.push_other rfl rfl
  | text s => exact h.push_other rfl rfl

lemma sums_pushed (vs : List Value) : Sums vs (vs.foldl Total.push {}) := by
  induction vs using List.reverseRecOn with
  | nil => exact sums_start
  | append_singleton vs v ih =>
    rw [List.foldl_append]
    exact ih.push v

lemma Sums.result_eq_int (h : Sums vs t) {n : Int64} : t.result = .int n ↔
    HasNoFloat vs ∧ StaysInRange vs ∧ n.toInt = (Value.integers vs).sum := by
  rw [← h.whole n, ← h.floats, result]
  split
  next m hm =>
    rw [hm, Option.some.injEq]
    split
    next hfloats => rw [Value.int.injEq, and_iff_right hfloats]
    next hfloats => exact iff_of_false nofun fun h => hfloats h.1
  next hnone =>
    rw [hnone]
    exact iff_of_false nofun fun h => nomatch h.2

lemma Sums.exists_result_eq_int (h : Sums vs t) :
    (∃ n, t.result = .int n ∧ n.toInt = (Value.integers vs).sum) ↔
      HasNoFloat vs ∧ StaysInRange vs := by
  constructor
  · rintro ⟨n, hn, -⟩
    obtain ⟨hfloat, hstays, -⟩ := h.result_eq_int.mp hn
    exact ⟨hfloat, hstays⟩
  · rintro ⟨hfloat, hstays⟩
    have hn := toInt_ofInt hstays.inRange_sum
    exact ⟨_, h.result_eq_int.mpr ⟨hfloat, hstays, hn⟩, hn⟩

lemma Sums.result_eq_float (h : Sums vs t) (hwhole : ¬ (HasNoFloat vs ∧ StaysInRange vs)) :
    t.result = .float ((Value.numbers vs).foldl (· + ·) 0) := by
  rw [← h.sum, result]
  split
  next m hm =>
    rw [if_neg]
    exact fun hfloats => hwhole ⟨h.floats.mp hfloats, ((h.whole m).mp hm).1⟩
  next => rfl

lemma Sums.result_of_no_number (h : Sums vs t) (hnone : ∀ v ∈ vs, v.number? = none) :
    t.result = .int 0 := by
  have hintegers : Value.integers vs = [] :=
    List.filterMap_eq_nil_iff.mpr fun v hv => Value.integer?_of_number? (hnone v hv)
  refine h.result_eq_int.mpr ⟨fun x hx => ?_, fun is his => ?_, ?_⟩
  · cases hnone _ hx
  · rw [hintegers, List.prefix_nil] at his
    rw [his]
    decide
  · rw [hintegers]
    rfl

lemma Sums.average_eq (h : Sums vs t) : t.average = .float (if Value.numbers vs = [] then 0
    else (Value.numbers vs).foldl (· + ·) 0 / Number.ofNat (Value.numbers vs).length) := by
  simp only [average, h.numbers, h.sum, List.length_eq_zero_iff]

end Total

namespace Accumulator

open Total (HasNoFloat StaysInRange)

variable {vs : List Value} {v w best : Value} {wanted : Ordering}

def IsExtreme (wanted : Ordering) (vs : List Value) (v : Value) : Prop :=
  v ≠ .null ∧ ∀ w ∈ vs, w ≠ .null → w.totalCompare v ≠ wanted

instance : DecidablePred (IsExtreme wanted vs) := fun _ => inferInstanceAs (Decidable (_ ∧ _))

lemma foldl_push_count (n : Nat) (vs : List Value) :
    vs.foldl push (count n) = count (n + vs.length) := by
  induction vs generalizing n with
  | nil => rfl
  | cons v vs ih =>
    rw [List.foldl_cons, push, ih, List.length_cons]
    congr 1
    omega

lemma foldl_push_sum (t : Total) (vs : List Value) :
    vs.foldl push (sum t) = sum (vs.foldl Total.push t) :=
  List.foldl_hom sum fun _ _ => rfl

lemma foldl_push_average (t : Total) (vs : List Value) :
    vs.foldl push (average t) = average (vs.foldl Total.push t) :=
  List.foldl_hom average fun _ _ => rfl

lemma foldl_push_extremum (best : Value) (vs : List Value) :
    vs.foldl push (extremum wanted best) = extremum wanted (vs.foldl (better wanted) best) :=
  List.foldl_hom (extremum wanted) fun _ _ => rfl

lemma aggregate_count (vs : List Value) : aggregate .count vs = .int (Int64.ofNat vs.length) := by
  rw [aggregate, start, foldl_push_count, Nat.zero_add]
  rfl

lemma aggregate_sum (vs : List Value) : aggregate .sum vs = (vs.foldl Total.push {}).result := by
  rw [aggregate, start, foldl_push_sum]
  rfl

lemma aggregate_average (vs : List Value) :
    aggregate .average vs = (vs.foldl Total.push {}).average := by
  rw [aggregate, start, foldl_push_average]
  rfl

lemma aggregate_min (vs : List Value) : aggregate .min vs = vs.foldl (better .lt) .null := by
  rw [aggregate, start, foldl_push_extremum]
  rfl

lemma aggregate_max (vs : List Value) : aggregate .max vs = vs.foldl (better .gt) .null := by
  rw [aggregate, start, foldl_push_extremum]
  rfl

lemma aggregate_sum_int (i : Int64) : aggregate .sum [.int i] = .int i := by
  have hadd : Total.add? 0 i = some i := by
    rw [Total.add?_eq_some, Int64.toInt_zero, Int.zero_add, and_iff_left rfl]
    exact ⟨Int64.minValue_le_toInt i, Int64.toInt_le i⟩
  rw [aggregate_sum, List.foldl_cons, List.foldl_nil, Total.push, Total.result, Option.bind_some,
    hadd]
  rfl

lemma better_null : better wanted best .null = best := rfl

lemma better_of_null : better wanted .null v = v := by
  cases v <;> rfl

lemma aggregate_min_singleton (v : Value) : aggregate .min [v] = v := by
  rw [aggregate_min, List.foldl_cons, List.foldl_nil, better_of_null]

lemma aggregate_max_singleton (v : Value) : aggregate .max [v] = v := by
  rw [aggregate_max, List.foldl_cons, List.foldl_nil, better_of_null]

def IsExact (a : Aggregation) (vs : List Value) : Prop :=
  a = .min ∨ a = .max ∨ a = .sum ∧ HasNoFloat vs ∧ StaysInRange vs

lemma IsExact.aggregate_singleton {a : Aggregation} (h : IsExact a vs) :
    aggregate a [aggregate a vs] = aggregate a vs := by
  rcases h with rfl | rfl | ⟨rfl, hsum⟩
  · exact aggregate_min_singleton _
  · exact aggregate_max_singleton _
  · obtain ⟨n, hn, -⟩ := (Total.sums_pushed vs).exists_result_eq_int.mpr hsum
    rw [aggregate_sum vs, hn, aggregate_sum_int]

lemma better_of_ne_null (hbest : best ≠ .null) (hv : v ≠ .null) :
    better wanted best v = if v.totalCompare best = wanted then v else best := by
  have hbest' : best.isNull = false := by
    rw [Bool.eq_false_iff, Ne, Value.isNull_iff]
    exact hbest
  have hv' : v.isNull = false := by
    rw [Bool.eq_false_iff, Ne, Value.isNull_iff]
    exact hv
  simp only [better, hv', hbest', Bool.false_or, beq_iff_eq, Bool.false_eq_true, if_false]

lemma better_eq_null : better wanted best v = .null ↔ best = .null ∧ v = .null := by
  by_cases hv : v = .null
  · rw [hv, better_null]
    exact (and_iff_left rfl).symm
  by_cases hbest : best = .null
  · rw [hbest, better_of_null]
    exact (and_iff_right rfl).symm
  · rw [better_of_ne_null hbest hv]
    refine iff_of_false ?_ fun h => hbest h.1
    split
    · exact hv
    · exact hbest

lemma foldl_better_eq_null : vs.foldl (better wanted) .null = .null ↔ ∀ v ∈ vs, v = .null := by
  induction vs using List.reverseRecOn with
  | nil => exact iff_of_true rfl fun _ hv => (List.not_mem_nil hv).elim
  | append_singleton vs v ih =>
    rw [List.foldl_append, List.foldl_cons, List.foldl_nil, better_eq_null, ih,
      List.forall_mem_append, List.forall_mem_singleton]

lemma isExtreme_concat : IsExtreme wanted (vs ++ [v]) w ↔
    IsExtreme wanted vs w ∧ (v ≠ .null → v.totalCompare w ≠ wanted) := by
  rw [IsExtreme, List.forall_mem_append, List.forall_mem_singleton, ← and_assoc, IsExtreme]

lemma find?_isExtreme_eq_some : vs.find? (IsExtreme wanted vs) = some v ↔
    IsExtreme wanted vs v ∧
      ∃ before after, vs = before ++ v :: after ∧ ∀ w ∈ before, ¬ IsExtreme wanted vs w := by
  rw [List.find?_eq_some_iff_append]
  simp only [decide_eq_true_iff, Bool.not_eq_true', decide_eq_false_iff_not]

lemma find?_isExtreme_kept (hv : v ≠ .null → v.totalCompare best ≠ wanted)
    (h : vs.find? (IsExtreme wanted vs) = some best) :
    (vs ++ [v]).find? (IsExtreme wanted (vs ++ [v])) = some best := by
  obtain ⟨hbest, before, after, heq, hbefore⟩ := find?_isExtreme_eq_some.mp h
  refine find?_isExtreme_eq_some.mpr
    ⟨isExtreme_concat.mpr ⟨hbest, hv⟩, before, after ++ [v], ?_, ?_⟩
  · rw [heq, List.append_assoc, List.cons_append]
  · exact fun w hw hextreme => hbefore w hw (isExtreme_concat.mp hextreme).1

variable (hwanted : wanted ≠ .eq)

include hwanted

lemma totalCompare_self_ne (v : Value) : v.totalCompare v ≠ wanted := by
  have hself : v.totalCompare v = .eq := Std.ReflCmp.compare_self
  rw [hself]
  exact hwanted.symm

lemma totalCompare_ne_of_eq (h : v.totalCompare w = wanted) : w.totalCompare v ≠ wanted := by
  have hswap : w.totalCompare v = (v.totalCompare w).swap := Std.OrientedCmp.eq_swap
  rw [hswap, h]
  revert hwanted
  cases wanted <;> decide

lemma find?_isExtreme_replaced (hvs : Value.TransitiveOn (vs ++ [v])) (hv : v ≠ .null)
    (hlast : v.totalCompare best = wanted) (h : vs.find? (IsExtreme wanted vs) = some best) :
    (vs ++ [v]).find? (IsExtreme wanted (vs ++ [v])) = some v := by
  have hbest := (find?_isExtreme_eq_some.mp h).1
  have hmem : ∀ w ∈ vs, w ∈ vs ++ [v] := fun w hw => List.mem_append_left _ hw
  have hmem' : v ∈ vs ++ [v] := List.mem_append_right _ List.mem_cons_self
  have hbestMem := hmem best (List.mem_of_find?_eq_some h)
  refine find?_isExtreme_eq_some.mpr
    ⟨⟨hv, fun w hw hne => ?_⟩, vs, [], rfl, fun w hw hextreme => ?_⟩
  · rcases List.mem_append.mp hw with hw' | hw'
    · exact hvs.ne_trans hwanted hw hbestMem hmem' (hbest.2 w hw' hne)
        (totalCompare_ne_of_eq hwanted hlast)
    · rw [List.mem_singleton.mp hw']
      exact totalCompare_self_ne hwanted v
  · obtain ⟨hextreme, hnew⟩ := isExtreme_concat.mp hextreme
    exact hvs.ne_trans hwanted hmem' (hmem w hw) hbestMem (hnew hv) (hbest.2 w hw hextreme.1) hlast

lemma find?_isExtreme_first (hvs : ∀ w ∈ vs, w = .null) (hv : v ≠ .null) :
    (vs ++ [v]).find? (IsExtreme wanted (vs ++ [v])) = some v := by
  refine find?_isExtreme_eq_some.mpr
    ⟨⟨hv, fun w hw hne => ?_⟩, vs, [], rfl, fun w hw hextreme => ?_⟩
  · rcases List.mem_append.mp hw with hw | hw
    · exact absurd (hvs w hw) hne
    · rw [List.mem_singleton.mp hw]
      exact totalCompare_self_ne hwanted v
  · exact hextreme.1 (hvs w hw)

lemma find?_isExtreme (hvs : Value.TransitiveOn vs) (hne : ∃ v ∈ vs, v ≠ .null) :
    vs.find? (IsExtreme wanted vs) = some (vs.foldl (better wanted) .null) := by
  induction vs using List.reverseRecOn with
  | nil =>
    obtain ⟨v, hv, -⟩ := hne
    exact absurd hv List.not_mem_nil
  | append_singleton vs v ih =>
    rw [List.foldl_append, List.foldl_cons, List.foldl_nil]
    by_cases hnull : ∀ w ∈ vs, w = .null
    · have hv : v ≠ .null := by
        obtain ⟨w, hw, hne⟩ := hne
        rcases List.mem_append.mp hw with hw | hw
        · exact absurd (hnull w hw) hne
        · exact List.mem_singleton.mp hw ▸ hne
      rw [foldl_better_eq_null.mpr hnull, better_of_null]
      exact find?_isExtreme_first hwanted hnull hv
    -- from here on there is a best value, which the last one replaces or leaves
    · have hbest := ih (hvs.subset (List.subset_append_left _ _)) (by simpa using hnull)
      have hbestNe : vs.foldl (better wanted) .null ≠ .null :=
        fun h => hnull (foldl_better_eq_null.mp h)
      by_cases hv : v = .null
      · rw [hv, better_null]
        exact find?_isExtreme_kept (fun hne => absurd rfl hne) hbest
      rw [better_of_ne_null hbestNe hv]
      split
      next hlast => exact find?_isExtreme_replaced hwanted hvs hv hlast hbest
      next hlast => exact find?_isExtreme_kept (fun _ => hlast) hbest

omit hwanted

/-- What each aggregate gives for any values. A count is exact for all that fits in memory. A sum is
an integer only if it is the exact one, and else the sum in floats. An extremum is the earliest one,
where the order of the values is transitive. -/
theorem aggregate_pushed (vs : List Value) :
    aggregate .count vs = .int (Int64.ofNat vs.length) ∧
    (vs.length < 2 ^ 63 → ∃ n, aggregate .count vs = .int n ∧ n.toInt = vs.length) ∧
    ((∀ v ∈ vs, v.number? = none) → aggregate .sum vs = .int 0) ∧
    ((∃ n, aggregate .sum vs = .int n ∧ n.toInt = (Value.integers vs).sum) ↔
      HasNoFloat vs ∧ StaysInRange vs) ∧
    (¬ (HasNoFloat vs ∧ StaysInRange vs) →
      aggregate .sum vs = .float ((Value.numbers vs).foldl (· + ·) 0)) ∧
    aggregate .average vs = .float (if Value.numbers vs = [] then 0
      else (Value.numbers vs).foldl (· + ·) 0 / Number.ofNat (Value.numbers vs).length) ∧
    (aggregate .min vs = .null ↔ ∀ v ∈ vs, v = .null) ∧
    (aggregate .max vs = .null ↔ ∀ v ∈ vs, v = .null) ∧
    (Value.TransitiveOn vs → (∃ v ∈ vs, v ≠ .null) →
      vs.find? (IsExtreme .lt vs) = some (aggregate .min vs) ∧
      vs.find? (IsExtreme .gt vs) = some (aggregate .max vs)) := by
  have hcount := aggregate_count vs
  have hsums := Total.sums_pushed vs
  rw [aggregate_sum, aggregate_average, aggregate_min, aggregate_max]
  refine ⟨hcount, fun hlt => ⟨_, hcount, Int64.toInt_ofNat_of_lt hlt⟩, hsums.result_of_no_number,
    hsums.exists_result_eq_int, hsums.result_eq_float, hsums.average_eq, foldl_better_eq_null,
    foldl_better_eq_null, fun hvs hne => ?_⟩
  exact ⟨find?_isExtreme (by decide) hvs hne, find?_isExtreme (by decide) hvs hne⟩

def mixedCells : List Value := [.null, .float 2, .int 2, .text "b", .null, .text "b", .bool false]

theorem aggregate_mixedCells : Value.TransitiveOn mixedCells ∧ ¬ HasNoFloat mixedCells ∧
    (∀ v ∈ ([.null, .text "b"] : List Value), v.number? = none) ∧
    aggregate .count mixedCells = .int 7 ∧
    aggregate .sum mixedCells = .float ((Value.numbers mixedCells).foldl (· + ·) 0) ∧
    aggregate .sum [.null, .text "b"] = .int 0 ∧
    mixedCells.find? (IsExtreme .lt mixedCells) = some (aggregate .min mixedCells) ∧
    mixedCells.find? (IsExtreme .gt mixedCells) = some (aggregate .max mixedCells) := by
  have horder : Value.TransitiveOn mixedCells := by decide +kernel
  have hfloat : ¬ HasNoFloat mixedCells := fun h => h 2 (by decide +kernel)
  have hnone : ∀ v ∈ ([.null, .text "b"] : List Value), v.number? = none := by decide
  obtain ⟨hcount, -, -, -, hsum, -, -, -, hextrema⟩ := aggregate_pushed mixedCells
  exact ⟨horder, hfloat, hnone, hcount, hsum fun h => hfloat h.1,
    (aggregate_pushed _).2.2.1 hnone, hextrema horder (by decide +kernel)⟩

end Accumulator

end Recombine
