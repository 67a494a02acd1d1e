import Recombine.Proofs.Json.RoundTrip

/-! Canonical texts tell values apart up to the order of members, and what is read from a canonical
text has that text again. -/

namespace Recombine.Json

inductive IsProper : Json → Prop
  | null : IsProper null
  | bool (b : Bool) : IsProper (bool b)
  | int (i : Int) (hmin : Int64.minValue.toInt ≤ i) (hmax : i < UInt64.size) : IsProper (int i)
  | float (x : Float) (h : Number.isFinite x = true) : IsProper (float x)
  | string (s : String) : IsProper (string s)
  | array (js : List Json) (h : ∀ j ∈ js, IsProper j) : IsProper (array js)
  | object (ms : List (String × Json)) (hkeys : (ms.map Prod.fst).Nodup)
      (h : ∀ m ∈ ms, IsProper m.2) : IsProper (object ms)

inductive SameKey (R : Json → Json → Prop) : String × Json → String × Json → Prop
  | intro (key : String) {j k : Json} (h : R j k) : SameKey R (key, j) (key, k)

/-- Values that differ only in the order of the members of their objects, at every level. -/
inductive Reordered : Json → Json → Prop
  | null : Reordered null null
  | bool (b : Bool) : Reordered (bool b) (bool b)
  | int (i : Int) : Reordered (int i) (int i)
  | float (x : Float) : Reordered (float x) (float x)
  | string (s : String) : Reordered (string s) (string s)
  | array {js ks : List Json} (h : List.Forall₂ Reordered js ks) : Reordered (array js) (array ks)
  | object {ms ns ps : List (String × Json)} (hperm : ms.Perm ns)
      (h : List.Forall₂ (SameKey Reordered) ns ps) : Reordered (object ms) (object ps)

mutual

def depth : Json → Nat
  | array js => itemsDepth js + 1
  | object ms => membersDepth ms + 1
  | _ => 0

def itemsDepth : List Json → Nat
  | [] => 0
  | j :: js => max (depth j) (itemsDepth js)

def membersDepth : List (String × Json) → Nat
  | [] => 0
  | (_, j) :: ms => max (depth j) (membersDepth ms)

end

variable {j k : Json} {js ks : List Json} {ms ps : List (String × Json)}

@[simp] lemma isProper_array_iff : (array js).IsProper ↔ ∀ j ∈ js, j.IsProper := by
  constructor
  · rintro ⟨⟩
    assumption
  · exact .array js

@[simp] lemma isProper_object_iff :
    (object ms).IsProper ↔ (ms.map Prod.fst).Nodup ∧ ∀ m ∈ ms, m.2.IsProper := by
  constructor
  · rintro ⟨⟩
    exact ⟨‹_›, ‹_›⟩
  · exact fun ⟨hkeys, h⟩ => .object ms hkeys h

section Canonical

lemma canonical_array (js : List Json) : (array js).canonical = array (js.map canonical) := by
  rw [canonical, canonicalItems_eq]

lemma canonical_object (ms : List (String × Json)) : (object ms).canonical =
    object (KeyMap.ofList (ms.map (Prod.map id canonical))).entries := by
  rw [canonical, canonicalMembers_eq]
  rfl

lemma IsNormal.isProper (h : j.IsNormal) : j.IsProper := by
  induction h with
  | null => exact .null
  | bool b => exact .bool b
  | int i hmin hmax => exact .int i hmin hmax
  | float x h => exact .float x h
  | string s => exact .string s
  | array js _ ih => exact .array js ih
  | object m _ ih => exact .object m.entries m.keys_nodup ih

lemma IsNormal.canonical_eq (h : j.IsNormal) : j.canonical = j := by
  induction h with
  | null | bool | int | float | string => rfl
  | array js _ ih => rw [canonical_array, List.map_congr_left ih, List.map_id']
  | object m _ ih =>
    have hentry : ∀ e ∈ m.entries, (e.1, e.2.canonical) = id e :=
      fun e he => Prod.ext rfl (ih e he)
    have hentries : (m.map canonical).entries = m.entries :=
      (List.map_congr_left hentry).trans (List.map_id m.entries)
    rw [canonical, ofList_canonicalMembers, hentries]

lemma IsProper.isNormal_canonical (h : j.IsProper) : j.canonical.IsNormal := by
  induction h with
  | null => exact .null
  | bool b => exact .bool b
  | int i hmin hmax => exact .int i hmin hmax
  | float x h => exact .float x h
  | string s => exact .string s
  | array js _ ih =>
    rw [canonical_array]
    exact .array _ (List.forall_mem_map.mpr ih)
  | object ms _ _ ih =>
    rw [canonical_object]
    refine .object _ fun e he => ?_
    obtain ⟨m, hm, rfl⟩ := List.mem_map.mp (KeyMap.mem_of_mem_entries_ofList he)
    exact ih m hm

lemma IsProper.kept_eq (h : j.IsProper) : j.kept = j.canonical := by
  have hnormal := h.isNormal_canonical
  calc j.kept = j.canonical.kept := by rw [kept, kept, hnormal.canonical_eq]
    _ = j.canonical := hnormal.isPlain

end Canonical

section Order

lemma canonical_object_eq_iff (hms : (ms.map Prod.fst).Nodup) (hps : (ps.map Prod.fst).Nodup) :
    (object ms).canonical = (object ps).canonical ↔
      (ms.map (Prod.map id canonical)).Perm (ps.map (Prod.map id canonical)) := by
  have hkeys (ns : List (String × Json)) :
      (ns.map (Prod.map id canonical)).map Prod.fst = ns.map Prod.fst := List.map_map
  rw [← hkeys] at hms hps
  rw [canonical_object, canonical_object, object.injEq, ← KeyMap.ext_iff,
    KeyMap.ofList_eq_ofList_iff hms hps]

lemma sameKey_iff {R : Json → Json → Prop} {m n : String × Json} :
    SameKey R m n ↔ m.1 = n.1 ∧ R m.2 n.2 := by
  obtain ⟨key, j⟩ := m
  obtain ⟨key', k⟩ := n
  constructor
  · rintro ⟨_, h⟩
    exact ⟨rfl, h⟩
  · rintro ⟨rfl, h⟩
    exact .intro _ h

lemma reordered_array_iff :
    (array js).Reordered (array ks) ↔ List.Forall₂ Reordered js ks := by
  constructor
  · rintro ⟨⟩
    assumption
  · exact .array

lemma reordered_object_iff : (object ms).Reordered (object ps) ↔
    ∃ ns, ms.Perm ns ∧ List.Forall₂ (SameKey Reordered) ns ps := by
  constructor
  · rintro ⟨⟩
    exact ⟨_, ‹_›, ‹_›⟩
  · rintro ⟨ns, hperm, h⟩
    exact .object hperm h

lemma canonical_eq_iff (hj : j.IsProper) (hk : k.IsProper) :
    j.canonical = k.canonical ↔ j.Reordered k := by
  induction hj generalizing k with
  | null | bool | int | float | string =>
    constructor
    · intro h
      cases hk <;> cases h
      constructor
    · rintro ⟨⟩
      rfl
  | array js _ ih =>
    cases hk with
    | array ks hks =>
      rw [canonical_array, canonical_array, array.injEq, reordered_array_iff]
      exact Sequence.map_eq_map_iff fun j hj k hk => ih j hj (hks k hk)
    | _ => exact iff_of_false (fun h => nomatch h) fun h => nomatch h
  | object ms hkeys _ ih =>
    cases hk with
    | object ps hkeys' hps =>
      have hmembers (ns : List (String × Json)) (h : ms.Perm ns) :
          ns.map (Prod.map id canonical) = ps.map (Prod.map id canonical) ↔
            List.Forall₂ (SameKey Reordered) ns ps := by
        refine Sequence.map_eq_map_iff fun m hm p hp => ?_
        -- `m` need not stand at the place of `p` in `ms`, but it is a member of it
        rw [sameKey_iff, Prod.ext_iff, ← ih m (h.mem_iff.mpr hm) (hps p hp)]
        rfl
      calc (object ms).canonical = (object ps).canonical
          ↔ (ms.map (Prod.map id canonical)).Perm (ps.map (Prod.map id canonical)) :=
            canonical_object_eq_iff hkeys hkeys'
        _ ↔ ∃ ns, ms.Perm ns ∧ ns.map (Prod.map id canonical) = ps.map (Prod.map id canonical) :=
          Sequence.map_perm_map_iff
        _ ↔ ∃ ns, ms.Perm ns ∧ List.Forall₂ (SameKey Reordered) ns ps :=
          exists_congr fun ns => and_congr_right (hmembers ns)
        _ ↔ (object ms).Reordered (object ps) := reordered_object_iff.symm
    | _ => exact iff_of_false (fun h => nomatch h) fun h => nomatch h

end Order

section Depth

mutual

theorem height_canonical : ∀ j : Json, j.canonical.toDoc.height ≤ j.depth
  | null | bool _ | int _ | string _ => Nat.zero_le _
  | float x => (height_float x).le
  | array js => height_array (height_of_mem_canonicalItems js)
  | object ms => height_object fun e he =>
    height_of_mem_canonicalMembers ms e (KeyMap.mem_of_mem_entries_ofList he)

theorem height_of_mem_canonicalItems : ∀ js : List Json, ∀ j ∈ canonicalItems js,
    j.toDoc.height ≤ itemsDepth js
  | [], _, hj => nomatch hj
  | j :: js, k, hk => by
    rcases List.mem_cons.mp hk with rfl | hk
    · exact (height_canonical j).trans (le_max_left _ _)
    · exact (height_of_mem_canonicalItems js k hk).trans (le_max_right _ _)

theorem height_of_mem_canonicalMembers : ∀ ms : List (String × Json), ∀ m ∈ canonicalMembers ms,
    m.2.toDoc.height ≤ membersDepth ms
  | [], _, hm => nomatch hm
  | (key, j) :: ms, m, hm => by
    rcases List.mem_cons.mp hm with rfl | hm
    · exact (height_canonical j).trans (le_max_left _ _)
    · exact (height_of_mem_canonicalMembers ms m hm).trans (le_max_right _ _)

end

end Depth

lemma IsProper.canonical_text_eq_iff (hj : j.IsProper) (hk : k.IsProper) :
    j.canonical.text = k.canonical.text ↔ j.Reordered k := by
  rw [Json.canonical_text_eq_iff, hj.kept_eq, hk.kept_eq]
  exact canonical_eq_iff hj hk

lemma IsProper.run_canonical_text (h : j.IsProper) (hdepth : j.depth ≤ maxDepth) :
    decode.run j.canonical.text = .ok j.canonical :=
  Decoder.run_text ((height_canonical j).trans hdepth) h.isNormal_canonical.isSettled

theorem canonical_text_iff_and_run :
    (∀ j k : Json, j.IsProper → k.IsProper →
      (j.canonical.text = k.canonical.text ↔ j.Reordered k)) ∧
    ∀ j : Json, j.IsProper → j.depth ≤ maxDepth → ∃ k, decode.run j.canonical.text = .ok k ∧
      j.Reordered k ∧ k.canonical.text = j.canonical.text := by
  refine ⟨fun j k hj hk => hj.canonical_text_eq_iff hk, fun j hj hdepth => ?_⟩
  have hcanonical := hj.isNormal_canonical.canonical_eq
  have hreordered := (canonical_eq_iff hj hj.isNormal_canonical.isProper).mp hcanonical.symm
  exact ⟨j.canonical, hj.run_canonical_text hdepth, hreordered, congrArg text hcanonical⟩

def nested : Json := object [
  ("z", array [int 1, float 1, object [("\"", float (-0.0)), ("", null)]]), ("a", bool true)]

def nestedSwapped : Json := object [
  ("a", bool true), ("z", array [int 1, float 1, object [("", null), ("\"", float (-0.0))]])]

theorem canonical_text_nested :
    nested.IsProper ∧ nestedSwapped.IsProper ∧ nested.Reordered nestedSwapped ∧
      nested.canonical.text = nestedSwapped.canonical.text ∧ nested.depth ≤ maxDepth ∧
      ∃ k, decode.run nested.canonical.text = .ok k ∧ nested.Reordered k ∧
        k.canonical.text = nested.canonical.text := by
  have hint := IsProper.int 1 (by decide) (by decide)
  have hone := IsProper.float 1 (by decide +kernel)
  have hzero := IsProper.float (-0.0) (by decide +kernel)
  have hproper : nested.IsProper := by
    simp [nested, hint, hone, hzero, IsProper.null, IsProper.bool]
  have hswapped : nestedSwapped.IsProper := by
    simp [nestedSwapped, hint, hone, hzero, IsProper.null, IsProper.bool]
  have hinner : Reordered (object [("\"", float (-0.0)), ("", null)])
      (object [("", null), ("\"", float (-0.0))]) :=
    .object (.swap _ _ _) (.cons (.intro _ .null) (.cons (.intro _ (.float _)) .nil))
  have hitems : Reordered (array [int 1, float 1, object [("\"", float (-0.0)), ("", null)]])
      (array [int 1, float 1, object [("", null), ("\"", float (-0.0))]]) :=
    .array (.cons (.int _) (.cons (.float _) (.cons hinner .nil)))
  have hreordered : nested.Reordered nestedSwapped :=
    .object (.swap _ _ _) (.cons (.intro _ (.bool _)) (.cons (.intro _ hitems) .nil))
  have hdepth : nested.depth ≤ maxDepth := by decide
  obtain ⟨htext, hrun⟩ := canonical_text_iff_and_run
  exact ⟨hproper, hswapped, hreordered, (htext _ _ hproper hswapped).mpr hreordered, hdepth,
    hrun _ hproper hdepth⟩

end Recombine.Json
