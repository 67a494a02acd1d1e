import Mathlib.Algebra.Order.Field.Rat
import Mathlib.Data.Rat.Cast.Defs
import Mathlib.Tactic.FieldSimp
import Mathlib.Tactic.Ring
import Recombine.Json.Basic
import Recombine.Decimal.Numeral

namespace Recombine.Decimal

def AllDigits (ds : List Char) : Prop := ∀ c ∈ ds, c.isDigit = true

def Stops (r : List Char) : Prop := ∀ c ∈ r.head?, c.isDigit = false

def Ends (r : List Char) : Prop :=
  ∀ c ∈ r.head?, c.isDigit = false ∧ c ≠ '.' ∧ c ≠ 'e' ∧ c ≠ 'E'

structure IsWhole (ds : List Char) : Prop where
  digits : AllDigits ds
  ne_nil : ds ≠ []
  plain : ds = ['0'] ∨ ds.head? ≠ some '0'

variable {ds fs r : List Char}

lemma Ends.stops (h : Ends r) : Stops r := fun c hc => (h c hc).1

lemma stops_cons {c : Char} (h : c.isDigit = false) : Stops (c :: r) := by
  intro c' hc
  cases hc
  exact h

lemma allDigits_zeros (n : Nat) : AllDigits (zeros n) := by
  intro c hc
  rw [List.eq_of_mem_replicate hc]
  rfl

lemma allDigits_append (hd : AllDigits ds) (hf : AllDigits fs) : AllDigits (ds ++ fs) :=
  List.forall_mem_append.mpr ⟨hd, hf⟩

lemma allDigits_toDigits (n : Nat) : AllDigits (Nat.toDigits 10 n) := fun _ hc =>
  Nat.isDigit_of_mem_toDigits (by decide) (by decide) hc

lemma digitRun_append (hd : AllDigits ds) (hr : Stops r) : digitRun (ds ++ r) = (ds, r) := by
  have hstop : r.takeWhile Char.isDigit = [] ∧ r.dropWhile Char.isDigit = r := by
    cases r with
    | nil => exact ⟨rfl, rfl⟩
    | cons c r =>
      have hc := hr c rfl
      simp [hc]
  rw [digitRun, List.takeWhile_append_of_pos hd, List.dropWhile_append_of_pos hd, hstop.1, hstop.2,
    List.append_nil]

lemma readWhole_append (hd : IsWhole ds) (hr : Stops r) : readWhole (ds ++ r) = some (ds, r) := by
  have hrun := digitRun_append hd.digits hr
  rw [readWhole, hrun]
  rcases hd.plain with rfl | hhead
  · rfl
  · cases ds with
    | nil => exact absurd rfl hd.ne_nil
    | cons c ds =>
      have hc : c ≠ '0' := by simpa using hhead
      split
      next heq => cases heq
      next heq => simp at heq; exact absurd heq.1.1 hc
      next heq => simp at heq; exact absurd heq.1.1 hc
      next => rfl

lemma readFraction_point (hf : AllDigits fs) (hne : fs ≠ []) (hr : Stops r) :
    readFraction ('.' :: (fs ++ r)) = some (fs, r) := by
  rw [readFraction, digitRun_append hf hr]
  cases fs with
  | nil => exact absurd rfl hne
  | cons => rfl

lemma readFraction_none (h : ∀ c ∈ r.head?, c ≠ '.') : readFraction r = some ([], r) := by
  cases r with
  | nil => rfl
  | cons c r =>
    have hc := h c rfl
    rw [readFraction]
    intro cs heq
    exact absurd (List.cons.inj heq).1 hc

lemma readExponent_none (h : ∀ c ∈ r.head?, c ≠ 'e' ∧ c ≠ 'E') :
    readExponent r = some (false, 0, r) := by
  cases r with
  | nil => rfl
  | cons c r =>
    obtain ⟨he, hE⟩ := h c rfl
    simp [readExponent, he, hE]

lemma countOf_eq (ds : List Char) : countOf ds = Nat.ofDigitChars 10 ds 0 := rfl

lemma countOf_append (ds fs : List Char) :
    countOf (ds ++ fs) = countOf ds * 10 ^ fs.length + countOf fs := by
  rw [countOf_eq, Nat.ofDigitChars_append, Nat.ofDigitChars_eq_ofDigitChars_zero, Nat.mul_comm]
  rfl

lemma countOf_zeros (n : Nat) : countOf (zeros n) = 0 := by
  rw [countOf_eq, zeros, Nat.ofDigitChars_replicate_zero, Nat.mul_zero]

lemma countOf_toDigits (n : Nat) : countOf (Nat.toDigits 10 n) = n :=
  Nat.ofDigitChars_ten_toDigits

lemma digitChar_ne_zero : ∀ n < 10, 0 < n → n.digitChar ≠ '0' := by
  decide

lemma head?_toDigits_ne {n : Nat} (h : 0 < n) : (Nat.toDigits 10 n).head? ≠ some '0' := by
  induction n using Nat.strongRecOn with
  | _ n ih =>
    rw [Nat.toDigits_eq_if (by decide)]
    split
    next hlt => simpa using digitChar_ne_zero n hlt h
    next hge =>
      have hq : 0 < n / 10 := Nat.div_pos (Nat.not_lt.mp hge) (by decide)
      rw [List.head?_append_of_ne_nil _ Nat.toDigits_ne_nil]
      exact ih (n / 10) (Nat.div_lt_self h (by decide)) hq

lemma isWhole_zero : IsWhole ['0'] :=
  ⟨fun _ hc => List.mem_singleton.mp hc ▸ rfl, List.cons_ne_nil _ _, Or.inl rfl⟩

lemma isWhole_toDigits (n : Nat) : IsWhole (Nat.toDigits 10 n) := by
  refine ⟨allDigits_toDigits n, Nat.toDigits_ne_nil, ?_⟩
  rcases Nat.eq_zero_or_pos n with rfl | hpos
  · exact Or.inl (Nat.toDigits_zero 10)
  · exact Or.inr (head?_toDigits_ne hpos)

lemma signed_natAbs (e : Int) : Number.signed (decide (e < 0)) e.natAbs = e := by
  by_cases he : e < 0
  · rw [Number.signed, if_pos (decide_eq_true he)]
    omega
  · rw [Number.signed, if_neg (by simpa using he)]
    omega

lemma readExponent_written (e : Int) (hr : Stops r) :
    readExponent (Scientific.writeExponent e ++ r) = some (true, e, r) := by
  have hrun := digitRun_append (allDigits_toDigits e.natAbs) hr
  have hcount := countOf_toDigits e.natAbs
  have hvalue := signed_natAbs e
  have hne : Nat.toDigits 10 e.natAbs ≠ [] := Nat.toDigits_ne_nil
  rw [Scientific.writeExponent]
  generalize Nat.toDigits 10 e.natAbs = ds at hrun hcount hne ⊢
  cases ds with
  | nil => exact absurd rfl hne
  | cons d ds =>
    rw [← hcount] at hvalue
    by_cases he : e < 0
    · rw [decide_eq_true he] at hvalue
      simp only [readExponent, if_pos he, List.cons_append, beq_self_eq_true, Bool.true_or, if_true]
      rw [← List.cons_append, hrun]
      dsimp only
      rw [hvalue]
    · rw [decide_eq_false he] at hvalue
      simp only [readExponent, if_neg he, List.cons_append, beq_self_eq_true, Bool.true_or, if_true]
      rw [← List.cons_append, hrun]
      dsimp only
      rw [hvalue]

def withSign (negative : Bool) (cs : List Char) : List Char := if negative then '-' :: cs else cs

lemma withSign_append (negative : Bool) (cs r : List Char) :
    withSign negative cs ++ r = withSign negative (cs ++ r) := by
  cases negative <;> rfl

lemma read_withSign {negative scaled : Bool} {e : Int} {t u : List Char} (hd : IsWhole ds)
    (ht : Stops t) (hfraction : readFraction t = some (fs, u))
    (hexponent : readExponent u = some (scaled, e, r)) :
    Numeral.read (withSign negative (ds ++ t)) =
      some (⟨negative, countOf (ds ++ fs), e - fs.length, fs.isEmpty && !scaled⟩, r) := by
  have hwhole := readWhole_append hd ht
  cases negative with
  | true =>
    simp only [Numeral.read, withSign, if_true, hwhole, hfraction, hexponent, Option.bind_eq_bind,
      Option.bind_some, Option.pure_def]
  | false =>
    obtain ⟨c, cs, rfl⟩ := List.exists_cons_of_ne_nil hd.ne_nil
    have hc : c ≠ '-' := by
      rintro rfl
      have hdigit := hd.digits '-' List.mem_cons_self
      revert hdigit
      decide
    simp only [Numeral.read, withSign, Bool.false_eq_true, if_false, List.cons_append]
    split
    next heq => exact absurd (List.cons.inj heq).1 hc
    next =>
      rw [← List.cons_append, hwhole]
      simp only [hfraction, hexponent, Option.bind_eq_bind, Option.bind_some, Option.pure_def]
      rfl

lemma read_integer (negative : Bool) (n : Nat) (hr : Ends r) :
    Numeral.read (withSign negative (Nat.toDigits 10 n ++ r)) = some (⟨negative, n, 0, true⟩, r) := by
  have hfraction := readFraction_none fun c hc => (hr c hc).2.1
  have hexponent := readExponent_none fun c hc => (hr c hc).2.2
  rw [read_withSign (isWhole_toDigits n) hr.stops hfraction hexponent, List.append_nil,
    countOf_toDigits]
  rfl

def Numeral.value (n : Numeral) : ℚ := n.count * (10 : ℚ) ^ n.exponent

namespace Scientific

def value (d : Scientific) : ℚ := countOf d.digits * (10 : ℚ) ^ (d.exponent + 1 - d.digits.length)

structure Sound (d : Scientific) : Prop where
  digits : AllDigits d.digits
  ne_nil : d.digits ≠ []
  lead : d = .zero ∨ d.digits.head? ≠ some '0'

lemma sound_zero : zero.Sound :=
  ⟨isWhole_zero.digits, isWhole_zero.ne_nil, Or.inl rfl⟩

variable {d : Scientific} (h : d.Sound)

include h

lemma Sound.isWhole_split : IsWhole d.split.1 := by
  rw [split]
  split
  next => exact isWhole_zero
  next hneg =>
    obtain ⟨c, cs, hcs⟩ := List.exists_cons_of_ne_nil h.ne_nil
    refine ⟨allDigits_append (fun x hx => h.digits x (List.mem_of_mem_take hx))
      (allDigits_zeros _), ?_, ?_⟩
    · rw [hcs]
      simp
    · rcases h.lead with rfl | hlead
      · exact Or.inl rfl
      · right
        rw [hcs] at hlead ⊢
        simpa using hlead

lemma Sound.allDigits_split : AllDigits d.split.2 := by
  rw [split]
  split
  next => exact allDigits_append (allDigits_zeros _) h.digits
  next => exact fun x hx => h.digits x (List.mem_of_mem_drop hx)

omit h in
lemma value_split : (countOf (d.split.1 ++ d.split.2) : ℚ) * 10 ^ (-(d.split.2.length : Int)) =
    d.value := by
  rw [split, value]
  split
  next hneg =>
    have hexponent : -((zeros (-d.exponent - 1).toNat ++ d.digits).length : Int) =
        d.exponent + 1 - d.digits.length := by
      rw [List.length_append, zeros, List.length_replicate]
      omega
    have hcount : countOf (['0'] ++ (zeros (-d.exponent - 1).toNat ++ d.digits)) =
        countOf d.digits := by
      rw [countOf_append, countOf_append, countOf_zeros]
      simp [countOf, digitValue]
    dsimp only
    rw [hexponent, hcount]
  next hneg =>
    dsimp only
    rcases Nat.le_total d.digits.length (d.exponent.toNat + 1) with hle | hle
    · have hexponent : d.exponent + 1 - d.digits.length =
          ((d.exponent.toNat + 1 - d.digits.length : Nat) : Int) := by omega
      rw [List.take_of_length_le hle, List.drop_of_length_le hle, List.append_nil, countOf_append,
        countOf_zeros, zeros, List.length_replicate, hexponent, zpow_natCast]
      simp
    · have hexponent : -((d.digits.drop (d.exponent.toNat + 1)).length : Int) =
          d.exponent + 1 - d.digits.length := by
        rw [List.length_drop]
        omega
      rw [Nat.sub_eq_zero_of_le hle, zeros, List.replicate_zero, List.append_nil,
        List.take_append_drop, hexponent]

def ReadsAs (negative : Bool) (value : ℚ) (cs : List Char) : Prop :=
  ∃ n : Numeral, n.negative = negative ∧ n.whole = false ∧ n.value = value ∧
    ∀ r, Ends r → Numeral.read (cs ++ r) = some (n, r)

lemma Sound.read_positional (negative : Bool) :
    ReadsAs negative d.value (withSign negative (d.writePositional true)) := by
  have hwhole := h.isWhole_split
  have hdigits := h.allDigits_split
  have hvalue := d.value_split
  have hexponent {r : List Char} (hr : Ends r) : readExponent r = some (false, 0, r) :=
    readExponent_none fun c hc => (hr c hc).2.2
  have hpoint (u : List Char) : Stops ('.' :: u) := stops_cons (by decide)
  rw [writePositional]
  generalize d.split = parts at hwhole hdigits hvalue ⊢
  obtain ⟨whole, _ | ⟨c, cs⟩⟩ := parts
  · refine ⟨⟨negative, countOf (whole ++ ['0']), 0 - 1, false⟩, rfl, rfl, ?_, fun r hr => ?_⟩
    · rw [← hvalue, Numeral.value, countOf_append]
      simp [countOf, digitValue]
    · have hfraction := readFraction_point isWhole_zero.digits isWhole_zero.ne_nil hr.stops
      have happend : whole ++ ['.', '0'] ++ r = whole ++ '.' :: (['0'] ++ r) := by simp
      dsimp only
      rw [if_pos rfl, withSign_append, happend]
      exact read_withSign hwhole (hpoint _) hfraction (hexponent hr)
  · refine ⟨⟨negative, countOf (whole ++ c :: cs), 0 - (c :: cs).length, false⟩, rfl, rfl, ?_,
      fun r hr => ?_⟩
    · rw [← hvalue, Numeral.value, Int.zero_sub]
    · have hfraction := readFraction_point hdigits (List.cons_ne_nil c cs) hr.stops
      have happend : whole ++ '.' :: c :: cs ++ r = whole ++ '.' :: (c :: cs ++ r) := by simp
      dsimp only
      rw [withSign_append, happend]
      exact read_withSign hwhole (hpoint _) hfraction (hexponent hr)

omit h in
lemma isWhole_singleton {c : Char} (hc : c.isDigit = true) : IsWhole [c] := by
  refine ⟨fun x hx => List.mem_singleton.mp hx ▸ hc, List.cons_ne_nil _ _, ?_⟩
  by_cases hzero : c = '0'
  · exact Or.inl (by rw [hzero])
  · exact Or.inr (by simpa using hzero)

lemma Sound.read_scientific (negative : Bool) :
    ReadsAs negative d.value (withSign negative d.writeScientific) := by
  have hexponent {r : List Char} (hr : Ends r) :
      readExponent (writeExponent d.exponent ++ r) = some (true, d.exponent, r) :=
    readExponent_written d.exponent hr.stops
  have hstops (r : List Char) : Stops (writeExponent d.exponent ++ r) := stops_cons (by decide)
  rw [writeScientific]
  rcases hds : d.digits with _ | ⟨c, _ | ⟨c', cs⟩⟩
  · exact absurd hds h.ne_nil
  · have hc : c.isDigit = true := h.digits c (hds ▸ List.mem_cons_self)
    refine ⟨⟨negative, countOf [c], d.exponent - 0, false⟩, rfl, rfl, ?_, fun r hr => ?_⟩
    · rw [Numeral.value, value, hds]
      simp
    · have hfraction : readFraction (writeExponent d.exponent ++ r) =
          some ([], writeExponent d.exponent ++ r) := by
        refine readFraction_none fun x hx => ?_
        cases hx
        decide
      dsimp only
      rw [withSign_append, List.cons_append, ← List.singleton_append]
      exact read_withSign (isWhole_singleton hc) (hstops r) hfraction (hexponent hr)
  · have hc : c.isDigit = true := h.digits c (hds ▸ List.mem_cons_self)
    have hcs : AllDigits (c' :: cs) := fun x hx => h.digits x (hds ▸ List.mem_cons_of_mem c hx)
    refine ⟨⟨negative, countOf ([c] ++ c' :: cs), d.exponent - (c' :: cs).length, false⟩, rfl, rfl,
      ?_, fun r hr => ?_⟩
    · rw [Numeral.value, value, hds]
      congr 2
      simp only [List.length_cons]
      omega
    · have hfraction := readFraction_point hcs (List.cons_ne_nil c' cs) (hstops r)
      have happend : c :: '.' :: (c' :: cs) ++ writeExponent d.exponent ++ r =
          [c] ++ '.' :: (c' :: cs ++ (writeExponent d.exponent ++ r)) := by simp
      rw [withSign_append, happend]
      exact read_withSign (isWhole_singleton hc) (stops_cons (by decide)) hfraction (hexponent hr)

end Scientific

end Recombine.Decimal
