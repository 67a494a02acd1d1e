import Mathlib.Data.List.TakeWhile
import Mathlib.Data.Nat.Cast.Order.Field
import Recombine.Decimal.Layout
import Recombine.Proofs.Decimal.Spans

/-! The shortest digits of a number round to it, so that its text is read back as a decimal that
rounds to no other number. -/

namespace Recombine.Decimal

open Number (Canonical)

section Counts

variable (count : Nat) (place : Int)

lemma toDigits_eq_digits_append : ∃ k, Nat.toDigits 10 count =
    (Scientific.ofCount count place).digits ++ zeros k := by
  have hzeros : (Nat.toDigits 10 count).reverse.takeWhile (· == '0') =
      zeros ((Nat.toDigits 10 count).reverse.takeWhile (· == '0')).length := by
    refine List.eq_replicate_iff.mpr ⟨rfl, fun c hc => ?_⟩
    simpa using List.mem_takeWhile_imp hc
  refine ⟨((Nat.toDigits 10 count).reverse.takeWhile (· == '0')).length, ?_⟩
  calc Nat.toDigits 10 count
      = ((Nat.toDigits 10 count).reverse.takeWhile (· == '0') ++
          (Nat.toDigits 10 count).reverse.dropWhile (· == '0')).reverse := by
        rw [List.takeWhile_append_dropWhile, List.reverse_reverse]
    _ = (Scientific.ofCount count place).digits ++
          ((Nat.toDigits 10 count).reverse.takeWhile (· == '0')).reverse := by
        rw [List.reverse_append]
        rfl
    _ = (Scientific.ofCount count place).digits ++ zeros _ := by
        rw [hzeros, zeros, List.reverse_replicate, List.length_replicate, zeros]

lemma exponent_ofCount : (Scientific.ofCount count place).exponent =
    (Nat.toDigits 10 count).length - 1 + place := rfl

variable {count} (hcount : 0 < count)

include hcount

lemma sound_ofCount : (Scientific.ofCount count place).Sound := by
  obtain ⟨k, hk⟩ := toDigits_eq_digits_append count place
  have hne : (Scientific.ofCount count place).digits ≠ [] := by
    intro hnil
    have hzero := countOf_toDigits count
    rw [hk, hnil, List.nil_append, countOf_zeros] at hzero
    exact absurd hzero hcount.ne
  have hlead := head?_toDigits_ne hcount
  have hdigits := allDigits_toDigits count
  rw [hk] at hlead hdigits
  rw [List.head?_append_of_ne_nil _ hne] at hlead
  exact ⟨fun c hc => hdigits c (List.mem_append_left _ hc), hne, Or.inr hlead⟩

omit hcount in
lemma value_ofCount : (Scientific.ofCount count place).value = count * (10 : ℚ) ^ place := by
  obtain ⟨k, hk⟩ := toDigits_eq_digits_append count place
  have hlength : (Nat.toDigits 10 count).length =
      (Scientific.ofCount count place).digits.length + k := by
    rw [hk, List.length_append, zeros, List.length_replicate]
  have hvalue : count = countOf (Scientific.ofCount count place).digits * 10 ^ k := by
    have hall := countOf_toDigits count
    rw [hk, countOf_append, countOf_zeros, zeros, List.length_replicate] at hall
    exact hall.symm
  have hexponent : (Scientific.ofCount count place).exponent + 1 -
      (Scientific.ofCount count place).digits.length = k + place := by
    rw [exponent_ofCount, hlength]
    omega
  rw [Scientific.value, hexponent, zpow_add₀ (by norm_num), zpow_natCast, ← mul_assoc]
  congr 1
  exact_mod_cast hvalue.symm

end Counts

section Search

variable {m : Nat} {e : Int}

lemma length_toDigits_sub_one {n : Nat} (h : 0 < n) :
    10 ^ ((Nat.toDigits 10 n).length - 1) ≤ n := by
  rcases Nat.lt_or_ge 1 (Nat.toDigits 10 n).length with hlen | hlen
  · refine Nat.le_of_not_lt fun hlt => ?_
    have hle := (Nat.length_toDigits_le_iff (by decide) (by omega)).mpr hlt
    omega
  · have hzero : (Nat.toDigits 10 n).length - 1 = 0 := by omega
    rw [hzero, pow_zero]
    exact h

lemma lt_pow_length_toDigits (n : Nat) : n < 10 ^ (Nat.toDigits 10 n).length :=
  (Nat.length_toDigits_le_iff (by decide) Nat.length_toDigits_pos).mp le_rfl

lemma magnitude_le {s : Span} (hd : 0 < s.denominator) (hm : 0 < s.middle) :
    (10 : ℚ) ^ (s.magnitude - 1) ≤ s.middle / s.denominator := by
  rw [Span.magnitude]
  by_cases hle : s.denominator ≤ s.middle
  · have hpos := Nat.div_pos hle hd
    have hlen : 0 < (Nat.toDigits 10 (s.middle / s.denominator)).length := Nat.length_toDigits_pos
    have hexponent : ((Nat.toDigits 10 (s.middle / s.denominator)).length : Int) - 1 =
        ((Nat.toDigits 10 (s.middle / s.denominator)).length - 1 : Nat) := by omega
    rw [if_pos hle, hexponent, zpow_natCast]
    calc (10 : ℚ) ^ ((Nat.toDigits 10 (s.middle / s.denominator)).length - 1)
        ≤ ((s.middle / s.denominator : Nat) : ℚ) := by
          exact_mod_cast length_toDigits_sub_one hpos
      _ ≤ s.middle / s.denominator := Nat.cast_div_le
  · have hlen : 0 < (Nat.toDigits 10 (s.denominator / s.middle)).length := Nat.length_toDigits_pos
    have hlt := lt_pow_length_toDigits (s.denominator / s.middle)
    rw [if_neg hle]
    generalize hi : (Nat.toDigits 10 (s.denominator / s.middle)).length - 1 = i
    obtain hsucc : (Nat.toDigits 10 (s.denominator / s.middle)).length = i + 1 := by omega
    rw [hsucc, Nat.div_lt_iff_lt_mul hm] at hlt
    dsimp only
    split
    next heq =>
      have hexponent : 1 - (i : Int) - 1 = -i := by omega
      rw [Nat.pow_eq, Nat.mul_comm] at heq
      rw [hexponent, zpow_neg, zpow_natCast, le_div_iff₀ (by exact_mod_cast hd),
        inv_mul_le_iff₀ (by positivity)]
      exact_mod_cast heq.ge
    next =>
      have hexponent : -(i : Int) - 1 = -(i + 1 : Nat) := by omega
      rw [hexponent, zpow_neg, zpow_natCast, le_div_iff₀ (by exact_mod_cast hd),
        inv_mul_le_iff₀ (by positivity)]
      exact_mod_cast hlt.le

lemma div_around : ((Span.around m e).middle : ℚ) / (Span.around m e).denominator =
    (4 * m : Nat) * 2 ^ (e - 2) := by
  rw [middle_around, denominator_around, zpow_eq_div 2 (e - 2), Int.neg_sub]
  push_cast
  ring

lemma floor_around (p : Int) :
    ((Span.around m e).floor p : ℚ) * 10 ^ p ≤ (4 * m : Nat) * 2 ^ (e - 2) ∧
      ((4 * m : Nat) : ℚ) * 2 ^ (e - 2) < ((Span.around m e).floor p + 1 : Nat) * 10 ^ p := by
  have hunit : 0 < 10 ^ p.toNat * 2 ^ (2 - e).toNat := by positivity
  have hfloor : (Span.around m e).floor p =
      4 * m * 2 ^ (e - 2).toNat * 10 ^ (-p).toNat / (10 ^ p.toNat * 2 ^ (2 - e).toNat) := rfl
  rw [hfloor, ← le_scaled_iff, ← scaled_lt_iff]
  refine ⟨Nat.div_mul_le_self _ _, ?_⟩
  rw [← Nat.div_lt_iff_lt_mul hunit]
  exact Nat.lt_succ_self _

lemma gap_eq (m : Nat) (e : Int) : gap m e = 1 ∧ m = 2 ^ 52 ∨ gap m e = 2 := by
  rw [gap]
  split
  next h => exact Or.inl ⟨rfl, h.1⟩
  next => exact Or.inr rfl

lemma exists_rounds {p : Int} (hm : 0 < m) (hmax : m < 2 ^ 53)
    (hp : (10 : ℚ) ^ (p + 16) ≤ (4 * m : Nat) * 2 ^ (e - 2)) :
    Rounds m e ((Span.around m e).floor p * 10 ^ p) ∨
      Rounds m e (((Span.around m e).floor p + 1 : Nat) * 10 ^ p) := by
  -- If both neighbours missed the span, the grid would be coarser than that of seventeen digits.
  obtain ⟨hbelow, habove⟩ := floor_around (m := m) (e := e) p
  have hunit : (0 : ℚ) < 2 ^ (e - 2) := by positivity
  have hgap : gap m e ≤ 2 := gap_le
  have hlow : ((4 * m - gap m e : Nat) : ℚ) * 2 ^ (e - 2) ≤ (4 * m : Nat) * 2 ^ (e - 2) := by
    refine mul_le_mul_of_nonneg_right ?_ hunit.le
    exact_mod_cast Nat.sub_le _ _
  have hhigh : ((4 * m : Nat) : ℚ) * 2 ^ (e - 2) < (4 * m + 2 : Nat) * 2 ^ (e - 2) := by
    refine mul_lt_mul_of_pos_right ?_ hunit
    exact_mod_cast Nat.lt_add_of_pos_right (by decide : 0 < 2)
  by_cases hin : ((4 * m - gap m e : Nat) : ℚ) * 2 ^ (e - 2) < (Span.around m e).floor p * 10 ^ p
  · have hin' := hbelow.trans_lt hhigh
    exact Or.inl ⟨hin.le, hin'.le, fun _ => hin, fun _ => hin'⟩
  by_cases hin' : (((Span.around m e).floor p + 1 : Nat) : ℚ) * 10 ^ p <
      (4 * m + 2 : Nat) * 2 ^ (e - 2)
  · have hin'' := hlow.trans_lt habove
    exact Or.inr ⟨hin''.le, hin'.le, fun _ => hin'', fun _ => hin'⟩
  rw [not_lt] at hin hin'
  have hcoarse : ((gap m e + 2 : Nat) : ℚ) * 2 ^ (e - 2) ≤ 10 ^ p := by
    have hsub : ((4 * m - gap m e : Nat) : ℚ) = 4 * m - gap m e := by
      rw [Nat.cast_sub (by omega)]
      push_cast
      rfl
    rw [hsub] at hin
    push_cast at hin' ⊢
    linarith
  have hscaled : (((gap m e + 2) * 10 ^ 16 : Nat) : ℚ) * 2 ^ (e - 2) ≤ (4 * m : Nat) * 2 ^ (e - 2) := by
    calc (((gap m e + 2) * 10 ^ 16 : Nat) : ℚ) * 2 ^ (e - 2)
        = (gap m e + 2 : Nat) * 2 ^ (e - 2) * 10 ^ 16 := by push_cast; ring
      _ ≤ 10 ^ p * 10 ^ 16 := mul_le_mul_of_nonneg_right hcoarse (by positivity)
      _ = 10 ^ (p + 16) := by rw [zpow_add₀ (by norm_num)]; norm_cast
      _ ≤ (4 * m : Nat) * 2 ^ (e - 2) := hp
  have hle : (gap m e + 2) * 10 ^ 16 ≤ 4 * m := by
    exact_mod_cast le_of_mul_le_mul_right hscaled hunit
  rcases gap_eq m e with ⟨hg, rfl⟩ | hg <;> rw [hg] at hle <;> omega

lemma nearest?_eq_some {s : Span} {tie : Tie} {p : Int} {c : Nat}
    (h : s.nearest? tie p = some c) : s.holds p c = true := by
  simp only [Span.nearest?] at h
  split at h
  next => cases h
  next hb _ => cases h; exact hb
  next _ ha => cases h; exact ha
  next hb ha =>
    cases h
    split
    · exact ha
    · exact hb

lemma nearest?_isSome {s : Span} (tie : Tie) {p : Int}
    (h : s.holds p (s.floor p) = true ∨ s.holds p (s.floor p + 1) = true) :
    (s.nearest? tie p).isSome = true := by
  simp only [Span.nearest?]
  split <;> simp_all

lemma pow_top_le {m : Nat} {e : Int} (hm : 0 < m) :
    (10 : ℚ) ^ ((Span.around m e).magnitude - 17 + 16) ≤ (4 * m : Nat) * 2 ^ (e - 2) := by
  have hexponent : (Span.around m e).magnitude - 17 + 16 = (Span.around m e).magnitude - 1 := by
    omega
  rw [hexponent, ← div_around]
  refine magnitude_le ?_ ?_
  · rw [denominator_around]
    positivity
  · rw [middle_around]
    positivity

lemma shortest_eq (tie : Tie) (hm : 0 < m) (hmax : m < 2 ^ 53) :
    ∃ (c : Nat) (p : Int), 0 < c ∧ Rounds m e (c * 10 ^ p) ∧ shortest tie m e = .ofCount c p := by
  have hlast : ((Span.around m e).nearest? tie ((Span.around m e).magnitude - 17)).isSome = true :=
    nearest?_isSome tie ((exists_rounds hm hmax (pow_top_le hm)).imp holds_iff.mpr holds_iff.mpr)
  rw [shortest, if_neg hm.ne']
  dsimp only
  cases hfound : (List.range 17).findSome? fun count =>
      ((Span.around m e).nearest? tie ((Span.around m e).magnitude - (count + 1 : Nat))).map
        (Scientific.ofCount · ((Span.around m e).magnitude - (count + 1 : Nat))) with
  | none =>
    have hnone := List.findSome?_eq_none_iff.mp hfound 16 (by simp)
    rw [Option.map_eq_none_iff] at hnone
    have hmissed : (Span.around m e).nearest? tie ((Span.around m e).magnitude - 17) = none := hnone
    rw [hmissed] at hlast
    cases hlast
  | some d =>
    obtain ⟨k, -, hk⟩ := List.exists_of_findSome?_eq_some hfound
    obtain ⟨c, hc, rfl⟩ := Option.map_eq_some_iff.mp hk
    have hrounds := holds_iff.mp (nearest?_eq_some hc)
    refine ⟨c, _, Nat.pos_of_ne_zero ?_, hrounds, rfl⟩
    rintro rfl
    have hpos := hrounds.pos hm
    rw [Nat.cast_zero, zero_mul] at hpos
    exact lt_irrefl 0 hpos

end Search

section Texts

variable {x y : Float} {negative : Bool} {m : Nat} {e : Int} {r r' : List Char}

lemma sound_and_value_shortest (tie : Tie) (hmax : m < 2 ^ 53) : (shortest tie m e).Sound ∧
    (m = 0 ∧ (shortest tie m e).value = 0 ∨ 0 < m ∧ Rounds m e (shortest tie m e).value) := by
  rcases Nat.eq_zero_or_pos m with rfl | hpos
  · refine ⟨Scientific.sound_zero, Or.inl ⟨rfl, ?_⟩⟩
    have hzero : countOf Scientific.zero.digits = 0 := rfl
    rw [shortest, if_pos rfl, Scientific.value, hzero, Nat.cast_zero, zero_mul]
  · obtain ⟨c, p, hc, hrounds, hshortest⟩ := shortest_eq (e := e) tie hpos hmax
    rw [hshortest, value_ofCount]
    exact ⟨sound_ofCount p hc, Or.inr ⟨hpos, hrounds⟩⟩

lemma write_eq (hx : Number.parts x = .finite negative m e) :
    Layout.json.write x = withSign negative (Layout.json.writeMagnitude m e) := by
  rw [Layout.write, hx]
  rfl

lemma exists_read_write (hx : Number.parts x = .finite negative m e) :
    ∃ n : Numeral, n.negative = negative ∧ n.whole = false ∧
      (m = 0 ∧ n.value = 0 ∨ 0 < m ∧ Rounds m e n.value) ∧
      ∀ r, Ends r → Numeral.read (Layout.json.write x ++ r) = some (n, r) := by
  have hmax : m < 2 ^ 53 := by cases Number.canonical_of_parts hx <;> omega
  obtain ⟨hsound, hvalue⟩ := sound_and_value_shortest (e := e) Layout.json.tie hmax
  have hread : Scientific.ReadsAs negative (shortest Layout.json.tie m e).value
      (Layout.json.write x) := by
    rw [write_eq hx, Layout.writeMagnitude]
    split
    · exact hsound.read_positional negative
    · exact hsound.read_scientific negative
  obtain ⟨n, hnegative, hwhole, hnvalue, hn⟩ := hread
  exact ⟨n, hnegative, hwhole, hnvalue ▸ hvalue, hn⟩

theorem write_append_inj (hx : Number.isFinite x = true) (hy : Number.isFinite y = true)
    (hr : Ends r) (hr' : Ends r') (h : Layout.json.write x ++ r = Layout.json.write y ++ r') :
    x = y ∧ r = r' := by
  obtain ⟨negative, m, e, hxparts⟩ := Number.isFinite_iff.mp hx
  obtain ⟨negative', m', e', hyparts⟩ := Number.isFinite_iff.mp hy
  obtain ⟨n, hsign, -, hvalue, hread⟩ := exists_read_write hxparts
  obtain ⟨n', hsign', -, hvalue', hread'⟩ := exists_read_write hyparts
  have hn := hread r hr
  rw [h, hread' r' hr', Option.some.injEq, Prod.mk.injEq] at hn
  obtain ⟨rfl, rfl⟩ := hn
  have hc := Number.canonical_of_parts hxparts
  have hc' := Number.canonical_of_parts hyparts
  have hsame : m = m' ∧ e = e' := by
    rcases hvalue with ⟨rfl, hzero⟩ | ⟨hpos, hrounds⟩
    · rcases hvalue' with ⟨rfl, -⟩ | ⟨hpos', hrounds'⟩
      · refine ⟨rfl, ?_⟩
        have hzero_exponent {e : Int} (h : Canonical 0 e) : e = 0 := by
          cases h <;> first | rfl | omega
        rw [hzero_exponent hc, hzero_exponent hc']
      · exact absurd hzero (hrounds'.pos hpos').ne'
    · rcases hvalue' with ⟨rfl, hzero⟩ | ⟨hpos', hrounds'⟩
      · exact absurd hzero (hrounds.pos hpos).ne'
      · exact hrounds.unique (.of_canonical hpos hc) (.of_canonical hpos' hc') hrounds'
  obtain ⟨rfl, rfl⟩ := hsame
  subst hsign hsign'
  exact ⟨Number.eq_of_parts_eq hxparts hyparts, rfl⟩

lemma writeInt_eq (i : Int) :
    Json.writeInt i = withSign (decide (i < 0)) (Nat.toDigits 10 i.natAbs) := by
  by_cases h : i < 0 <;> simp [Json.writeInt, withSign, h]

lemma read_writeInt (i : Int) (hr : Ends r) : Numeral.read (Json.writeInt i ++ r) =
    some (⟨decide (i < 0), i.natAbs, 0, true⟩, r) := by
  rw [writeInt_eq, withSign_append, read_integer _ _ hr]

theorem writeInt_append_inj {i j : Int} (hr : Ends r) (hr' : Ends r')
    (h : Json.writeInt i ++ r = Json.writeInt j ++ r') : i = j ∧ r = r' := by
  have hread := read_writeInt i hr
  rw [h, read_writeInt j hr'] at hread
  simp only [Option.some.injEq, Prod.mk.injEq, Numeral.mk.injEq, and_true] at hread
  obtain ⟨⟨hsign, habs⟩, rfl⟩ := hread
  rw [decide_eq_decide] at hsign
  exact ⟨by omega, rfl⟩

theorem write_append_ne_writeInt_append (hx : Number.isFinite x = true) {i : Int} (hr : Ends r)
    (hr' : Ends r') : Layout.json.write x ++ r ≠ Json.writeInt i ++ r' := by
  intro h
  obtain ⟨negative, m, e, hparts⟩ := Number.isFinite_iff.mp hx
  obtain ⟨n, -, hwhole, -, hread⟩ := exists_read_write hparts
  have hn := hread r hr
  rw [h, read_writeInt i hr', Option.some.injEq, Prod.mk.injEq] at hn
  obtain ⟨rfl, -⟩ := hn
  cases hwhole

end Texts

end Recombine.Decimal
