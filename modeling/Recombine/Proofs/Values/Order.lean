import Recombine.Proofs.Values
import Recombine.Proofs.Values.Keys

/-! Where the total order of cells is one: among cells of which none is a float, or none an integer
that is rounded when it is compared with floats. There cells are ordered by their kinds, and those of
one kind by integers or texts. -/

namespace Recombine.Value

open Number (parts position rank ofInt)

def IsZeroFloat : Value → Prop
  | float x => (x == 0) = true
  | _ => False

instance : DecidablePred IsZeroFloat
  | float x => inferInstanceAs (Decidable ((x == 0) = true))
  | null | bool _ | int _ | text _ => .isFalse id

def place (number : Value → Int) : Value → Int
  | bool b => b.toNat
  | int i => number (int i)
  | float x => number (float x)
  | null | text _ => 0

def wording : Value → String
  | text s => s
  | _ => ""

def standing (number : Value → Int) : Value → Value → Ordering :=
  compareLex (compareOn kindRank) (compareLex (compareOn (place number)) (compareOn wording))

def exact : Value → Int
  | int i => i.toInt
  | _ => 0

def rounded (v : Value) : Int := (v.number?.map rank).getD 0

variable {number : Value → Int} {a b : Value}

instance : Std.TransCmp (standing number) :=
  inferInstanceAs (Std.TransCmp (compareLex (compareOn kindRank)
    (compareLex (compareOn (place number)) (compareOn wording))))

lemma totalCompare_of_kindRank_ne (h : a.kindRank ≠ b.kindRank) :
    a.totalCompare b = compare a.kindRank b.kindRank := by
  cases a <;> cases b <;> first | rfl | exact absurd rfl h

lemma standing_of_kindRank_eq (h : a.kindRank = b.kindRank) : standing number a b =
    (compare (place number a) (place number b)).then (compare a.wording b.wording) := by
  rw [standing, compareLex, compareOn, compare_eq_iff_eq.mpr h]
  rfl

lemma totalCompare_eq_standing (h : a.kindRank = 2 → b.kindRank = 2 →
    a.totalCompare b = compare (number a) (number b)) :
    a.totalCompare b = standing number a b := by
  by_cases hkind : a.kindRank = b.kindRank
  · rw [standing_of_kindRank_eq hkind]
    cases a with
    | null =>
      cases b with
      | null => rfl
      | _ => cases hkind
    | bool p =>
      cases b with
      | bool q => cases p <;> cases q <;> rfl
      | _ => cases hkind
    | text s =>
      cases b with
      | text t => rfl
      | _ => cases hkind
    | int i =>
      cases b with
      | int j => exact (h rfl rfl).trans Ordering.then_eq.symm
      | float y => exact (h rfl rfl).trans Ordering.then_eq.symm
      | _ => cases hkind
    | float x =>
      cases b with
      | int j => exact (h rfl rfl).trans Ordering.then_eq.symm
      | float y => exact (h rfl rfl).trans Ordering.then_eq.symm
      | _ => cases hkind
  · rw [totalCompare_of_kindRank_ne hkind, standing, compareLex, compareOn]
    rcases lt_or_gt_of_ne hkind with hlt | hgt
    · rw [compare_lt_iff_lt.mpr hlt]
      rfl
    · rw [compare_gt_iff_gt.mpr hgt]
      rfl

lemma compare_int (i j : Int64) : compare i j = compare i.toInt j.toInt := by
  simp only [compare, compareOfLessAndEq, Int64.lt_iff_toInt_lt, ← Int64.toInt_inj]

lemma totalCompare_exact (ha : ¬ a.IsFloat) (hb : ¬ b.IsFloat) (hkind : a.kindRank = 2)
    (hkind' : b.kindRank = 2) : a.totalCompare b = compare a.exact b.exact := by
  cases a with
  | int i =>
    cases b with
    | int j => exact compare_int i j
    | float y => exact absurd trivial hb
    | _ => cases hkind'
  | float x => exact absurd trivial ha
  | _ => cases hkind

lemma totalCompare_rounded (ha : ¬ a.IsLarge) (hb : ¬ b.IsLarge) (hkind : a.kindRank = 2)
    (hkind' : b.kindRank = 2) : a.totalCompare b = compare a.rounded b.rounded := by
  cases a with
  | int i =>
    cases b with
    | int j =>
      exact (compare_int i j).trans
        (Number.compare_rank_ofInt (Nat.not_lt.mp ha) (Nat.not_lt.mp hb)).symm
    | float y => rfl
    | _ => cases hkind'
  | float x =>
    cases b with
    | int j => rfl
    | float y => rfl
    | _ => cases hkind'
  | _ => cases hkind

def Apart (s : Set Value) : Prop := ¬ ((∃ a ∈ s, a.IsFloat) ∧ ∃ a ∈ s, a.IsLarge)

lemma Apart.exists_standing {s : Set Value} (h : Apart s) :
    ∃ number, ∀ a ∈ s, ∀ b ∈ s, a.totalCompare b = standing number a b := by
  rcases not_and_or.mp h with hfloat | hlarge
  · have hnot : ∀ a ∈ s, ¬ a.IsFloat := fun a ha hfloat' => hfloat ⟨a, ha, hfloat'⟩
    exact ⟨exact, fun a ha b hb =>
      totalCompare_eq_standing (totalCompare_exact (hnot a ha) (hnot b hb))⟩
  · have hnot : ∀ a ∈ s, ¬ a.IsLarge := fun a ha hlarge' => hlarge ⟨a, ha, hlarge'⟩
    exact ⟨rounded, fun a ha b hb =>
      totalCompare_eq_standing (totalCompare_rounded (hnot a ha) (hnot b hb))⟩

lemma totalCompare_swap (a b : Value) : a.totalCompare b = (b.totalCompare a).swap :=
  Std.OrientedCmp.eq_swap

lemma totalCompare_self (a : Value) : a.totalCompare a = .eq := Std.ReflCmp.compare_self

lemma Apart.transCmp {s : Set Value} (h : Apart s) :
    Std.TransCmp fun a b : s => (a : Value).totalCompare b where
  eq_swap := totalCompare_swap _ _
  isLE_trans {a b c} hab hbc := by
    obtain ⟨number, hstanding⟩ := h.exists_standing
    rw [hstanding a a.2 b b.2] at hab
    rw [hstanding b b.2 c c.2] at hbc
    rw [hstanding a a.2 c c.2]
    exact Std.TransCmp.isLE_trans hab hbc

lemma TransitiveOn.of_apart {vs : List Value} (h : Apart {v | v ∈ vs}) : TransitiveOn vs := by
  intro a ha b hb c hc hab hbc
  exact h.transCmp.isLE_trans (a := ⟨a, ha⟩) (b := ⟨b, hb⟩) (c := ⟨c, hc⟩) hab hbc

lemma position_ne_zero {x : Float} (hx : parts x ≠ .nan) (h : ¬ (float x).IsZeroFloat) :
    position x ≠ 0 := by
  intro hzero
  have hnan : parts 0 ≠ .nan := by decide +kernel
  have hposition : position 0 = 0 := by decide +kernel
  exact h ((Number.beq_iff hx hnan).mpr (hzero.trans hposition.symm))

lemma totalCompare_of_numbers {x y : Float} {o : Ordering} (h : Number.compare? x y = some o)
    (hzero : ¬ (float x).IsZeroFloat ∨ ¬ (float y).IsZeroFloat) : Number.totalCompare x y = o := by
  obtain ⟨hx, hy, ho⟩ := Number.compare?_eq_some_iff.mp h
  rw [← ho]
  exact Number.compare_rank (hzero.imp (position_ne_zero hx) (position_ne_zero hy))

lemma totalCompare_of_compare? {o : Ordering} (h : a.compare? b = some o)
    (ha : ¬ a.IsZeroFloat) (hb : ¬ b.IsZeroFloat) : a.totalCompare b = o := by
  cases a with
  | null | bool => cases b <;> cases h
  | text s =>
    cases b with
    | text t => exact Option.some.inj h
    | _ => cases h
  | int i =>
    cases b with
    | int j => exact Option.some.inj h
    | float y => exact totalCompare_of_numbers h (Or.inr hb)
    | _ => cases h
  | float x =>
    cases b with
    | int j => exact totalCompare_of_numbers h (Or.inl ha)
    | float y => exact totalCompare_of_numbers h (Or.inl ha)
    | _ => cases h

/-- The total order is oriented. Where it is transitive, cells that are equal in it are so by an
equivalence; and it extends the partial order of cells, but for zeros. -/
theorem totalCompare_sound :
    (∀ a b : Value, a.totalCompare b = (b.totalCompare a).swap) ∧
    (∀ s : Set Value, ¬ ((∃ a ∈ s, a.IsFloat) ∧ ∃ a ∈ s, a.IsLarge) →
      (Std.TransCmp fun a b : s => (a : Value).totalCompare b) ∧
      Equivalence fun a b : s => (a : Value).totalCompare b = .eq) ∧
    (∀ (a b : Value) (o : Ordering), a.compare? b = some o → ¬ a.IsZeroFloat → ¬ b.IsZeroFloat →
      a.totalCompare b = o) := by
  refine ⟨totalCompare_swap, fun s h => ?_, fun a b o h => totalCompare_of_compare? h⟩
  have htrans := Apart.transCmp h
  refine ⟨htrans, fun a => totalCompare_self a, fun {a b} heq => ?_,
    fun hab hbc => htrans.eq_trans hab hbc⟩
  rw [totalCompare_swap, heq]
  rfl

def floatCells : Set Value := {v | v ∈ [null, int 9007199254740992, float 9007199254740992,
  float (-0.0), int 0, float (0 / 0), float (1 / 0), bool true, text ""]}

def largeCells : Set Value := {v | v ∈ [int Int64.maxValue, int 9007199254740993, int (-1), null,
  text "1"]}

theorem totalCompare_floatCells_and_largeCells :
    ((Std.TransCmp fun a b : floatCells => (a : Value).totalCompare b) ∧
      Equivalence fun a b : floatCells => (a : Value).totalCompare b = .eq) ∧
    ((Std.TransCmp fun a b : largeCells => (a : Value).totalCompare b) ∧
      Equivalence fun a b : largeCells => (a : Value).totalCompare b = .eq) ∧
    (int 9007199254740993).compare? (float 9007199254740992) = some .eq ∧
    (int 9007199254740993).totalCompare (float 9007199254740992) = .eq := by
  have hfloat : ¬ ((∃ a ∈ floatCells, a.IsFloat) ∧ ∃ a ∈ floatCells, a.IsLarge) := by
    rw [floatCells]
    simp only [Set.mem_ofPred_eq]
    decide +kernel
  have hlarge : ¬ ((∃ a ∈ largeCells, a.IsFloat) ∧ ∃ a ∈ largeCells, a.IsLarge) := by
    rw [largeCells]
    simp only [Set.mem_ofPred_eq]
    decide +kernel
  have hcompare : (int 9007199254740993).compare? (float 9007199254740992) = some .eq := by
    decide +kernel
  obtain ⟨-, hsets, hpartial⟩ := totalCompare_sound
  exact ⟨hsets floatCells hfloat, hsets largeCells hlarge, hcompare,
    hpartial _ _ _ hcompare (by decide) (by decide +kernel)⟩

end Recombine.Value
