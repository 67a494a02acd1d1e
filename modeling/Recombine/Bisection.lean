namespace Recombine

universe u

variable {α : Type u}

def bisect (place : α → Ordering) (as : List α) : Option α :=
  match _h : as.drop (as.length / 2) with
  | [] => none
  | a :: after =>
    match place a with
    | .eq => some a
    | .lt => bisect place after
    | .gt => bisect place (as.take (as.length / 2))
termination_by as.length
decreasing_by
  all_goals
    have hlen := congrArg List.length _h
    simp only [List.length_drop, List.length_cons, List.length_take] at hlen ⊢
    omega

def Bisected (place : α → Ordering) (as : List α) : Prop :=
  as.Pairwise fun a b => place a = .lt ∨ place b = .gt

variable {place : α → Ordering} {as before after : List α} {a b : α}

theorem Bisected.mem_of_place_eq (h : Bisected place (before ++ b :: after))
    (ha : a ∈ before ++ b :: after) (heq : place a = .eq) :
    a ∈ before ∧ place b = .gt ∨ a = b ∨ a ∈ after ∧ place b = .lt := by
  obtain ⟨-, hafter, hbefore⟩ := List.pairwise_append.1 h
  rcases List.mem_append.1 ha with ha | ha
  · rcases hbefore a ha b List.mem_cons_self with hlt | hgt
    · cases heq.symm.trans hlt
    · exact Or.inl ⟨ha, hgt⟩
  · rcases List.mem_cons.1 ha with rfl | ha
    · exact Or.inr (Or.inl rfl)
    · rcases (List.pairwise_cons.1 hafter).1 a ha with hlt | hgt
      · exact Or.inr (Or.inr ⟨ha, hlt⟩)
      · cases heq.symm.trans hgt

theorem take_append_of_drop {n : Nat} (h : as.drop n = b :: after) :
    as.take n ++ b :: after = as := by
  rw [← h, List.take_append_drop]

theorem bisect_eq_of_drop (h : as.drop (as.length / 2) = b :: after) :
    bisect place as =
      match place b with
      | .eq => some b
      | .lt => bisect place after
      | .gt => bisect place (as.take (as.length / 2)) := by
  rw [bisect]
  split
  next hnil => cases hnil.symm.trans h
  next c rest hcons =>
    obtain ⟨rfl, rfl⟩ := List.cons.inj (hcons.symm.trans h)
    rfl

theorem bisect_eq_some_iff (h : Bisected place as) :
    bisect place as = some a ↔ a ∈ as ∧ place a = .eq := by
  induction as using bisect.induct place with
  | case1 as hnil =>
    have hempty : as = [] := by
      rw [List.drop_eq_nil_iff] at hnil
      exact List.eq_nil_of_length_eq_zero (by omega)
    rw [bisect]
    split
    next => simp [hempty]
    next hcons => cases hnil.symm.trans hcons
  | case2 as b after hsplit hb =>
    have has := take_append_of_drop hsplit
    rw [bisect_eq_of_drop hsplit, hb]
    constructor
    · intro hsome
      cases hsome
      exact ⟨has ▸ List.mem_append_right _ List.mem_cons_self, hb⟩
    · rintro ⟨ha, heq⟩
      rcases (has.symm ▸ h).mem_of_place_eq (has.symm ▸ ha) heq with ⟨-, hgt⟩ | rfl | ⟨-, hlt⟩
      · cases hb.symm.trans hgt
      · rfl
      · cases hb.symm.trans hlt
  | case3 as b after hsplit hb ih =>
    have has := take_append_of_drop hsplit
    have hsub : (b :: after).Sublist as := has ▸ List.sublist_append_right _ _
    rw [bisect_eq_of_drop hsplit, hb]
    dsimp only
    rw [ih (h.sublist ((List.sublist_cons_self b after).trans hsub))]
    refine and_congr_left fun heq => ⟨fun ha => hsub.subset (List.mem_cons_of_mem b ha), ?_⟩
    intro ha
    rcases (has.symm ▸ h).mem_of_place_eq (has.symm ▸ ha) heq with ⟨-, hgt⟩ | rfl | ⟨ha, -⟩
    · cases hb.symm.trans hgt
    · cases hb.symm.trans heq
    · exact ha
  | case4 as b after hsplit hb ih =>
    have has := take_append_of_drop hsplit
    rw [bisect_eq_of_drop hsplit, hb]
    dsimp only
    rw [ih (h.sublist (List.take_sublist _ as))]
    refine and_congr_left fun heq => ⟨fun ha => List.mem_of_mem_take ha, fun ha => ?_⟩
    rcases (has.symm ▸ h).mem_of_place_eq (has.symm ▸ ha) heq with ⟨ha, -⟩ | rfl | ⟨-, hlt⟩
    · exact ha
    · cases hb.symm.trans heq
    · cases hb.symm.trans hlt

end Recombine
