import Mathlib.Data.List.Sort
import Recombine.Pipeline.Workers
import Recombine.Proofs.Attempts
import Recombine.Proofs.KeyMaps

namespace Recombine

open Attempt

namespace Fetch

def Succeeds (f : Fetch) : Prop := ∃ rel, f = .ended (.ok rel)

instance : DecidablePred Succeeds
  | .ended (.ok rel) => .isTrue ⟨rel, rfl⟩
  | .ended (.error _) => .isFalse nofun
  | .stalled => .isFalse nofun

def rows : Fetch → Relation
  | ended (.ok rel) => rel
  | _ => []

lemma Succeeds.eq {f : Fetch} (h : f.Succeeds) : f = .ended (.ok f.rows) := by
  obtain ⟨rel, rfl⟩ := h
  rfl

end Fetch

namespace Collection

variable {data : Relations} {scans : List Scan} {fetch : Scan → Fetch} {yields : Scan → Relation}

def ofScans (scans : List Scan) (yields : Scan → Relation) : Collection where
  relations := KeyMap.ofList (scans.map fun s => (s.id, yields s))
  reports := scans.map fun s => ⟨s.id, s.source, (yields s).length⟩

lemma nodup_fst_map (hids : (scans.map Scan.id).Nodup) (yields : Scan → Relation) :
    ((scans.map fun s => (s.id, yields s)).map Prod.fst).Nodup := by
  rw [List.map_map]
  exact hids

lemma get?_ofScans (hids : (scans.map Scan.id).Nodup) {k : String} {rel : Relation} :
    (ofScans scans yields).relations.get? k = some rel ↔
      ∃ s ∈ scans, (s.id, yields s) = (k, rel) := by
  rw [← List.mem_map]
  exact KeyMap.get?_ofList_eq_some_iff (nodup_fst_map hids yields)

lemma keys_ofScans_perm (hids : (scans.map Scan.id).Nodup) (yields : Scan → Relation) :
    (ofScans scans yields).relations.keys.Perm (scans.map Scan.id) := by
  have hperm := (KeyMap.entries_ofList_perm (nodup_fst_map hids yields)).map Prod.fst
  rwa [List.map_map] at hperm

abbrev placed (scans : List Scan) : List (Nat × Scan) := (List.range scans.length).zip scans

lemma map_placed {α : Type} (f : Scan → α) (scans : List Scan) :
    (placed scans).map (fun item => f item.2) = scans.map f := by
  have hscans : (placed scans).map Prod.snd = scans := List.map_snd_zip (by rw [List.length_range])
  conv_rhs => rw [← hscans, List.map_map]
  rfl

lemma forall_placed {P : Scan → Prop} :
    (∀ item ∈ placed scans, P item.2) ↔ ∀ s ∈ scans, P s := by
  have hscans := map_placed id scans
  rw [List.map_id] at hscans
  conv_rhs => rw [← hscans]
  rw [List.forall_mem_map]
  rfl

lemma length_placed (scans : List Scan) : (placed scans).length = scans.length := by
  rw [List.length_zip, List.length_range, Nat.min_self]

def found (yields : Scan → Relation) (item : Nat × Scan) : Fetched := ⟨item.1, item.2, yields item.2⟩

lemma places_found (yields : Scan → Relation) (scans : List Scan) :
    ((placed scans).map (found yields)).map Fetched.place = List.range scans.length := by
  rw [List.map_map]
  exact List.map_fst_zip (by rw [List.length_range])

lemma mergeSort_of_perm {fs : List Fetched} (h : fs.Perm ((placed scans).map (found yields))) :
    fs.mergeSort (fun f g => f.place ≤ g.place) = (placed scans).map (found yields) := by
  have hsorted := List.pairwise_lt_range (n := scans.length)
  rw [← places_found yields scans, List.pairwise_map] at hsorted
  exact Sequence.mergeSort_eq_of_perm h hsorted

lemma ofFetched_of_perm {fs : List Fetched} (h : fs.Perm ((placed scans).map (found yields))) :
    ofFetched fs = ofScans scans yields := by
  rw [ofFetched, mergeSort_of_perm h, List.map_map, List.map_map]
  have hrelations := congrArg KeyMap.ofList (map_placed (fun s => (s.id, yields s)) scans)
  have hreports := map_placed (fun s => (⟨s.id, s.source, (yields s).length⟩ : ScanReport)) scans
  exact congrArg₂ Collection.mk hrelations hreports

section Completions

lemma length_completions {workers : Nat} {items : List (Nat × Scan)} (hworkers : 0 < workers)
    (h : ∀ item ∈ items, (fetch item.2).Succeeds) :
    (completions fetch workers items).length = items.length := by
  obtain ⟨workers, rfl⟩ := Nat.exists_eq_succ_of_ne_zero hworkers.ne'
  induction items with
  | nil => rfl
  | cons item items ih =>
    obtain ⟨hitem, hitems⟩ := List.forall_mem_cons.mp h
    rw [completions, hitem.eq]
    exact congrArg Nat.succ (ih hitems)

lemma fetched_cons {c : Completion} {cs : List Completion} {fs : List Fetched} :
    fetched (c :: cs) = .ok fs ↔ ∃ rel gs, c.result = .ok rel ∧ fetched cs = .ok gs ∧
      ⟨c.place, c.scan, rel⟩ :: gs = fs := by
  simp only [fetched, List.mapM_cons, bind_eq_ok, map_eq_ok, pure_eq_ok]
  constructor
  · rintro ⟨_, ⟨rel, hrel, rfl⟩, gs, hgs, rfl⟩
    exact ⟨rel, gs, hrel, hgs, rfl⟩
  · rintro ⟨rel, gs, hrel, hgs, rfl⟩
    exact ⟨_, ⟨rel, hrel, rfl⟩, gs, hgs, rfl⟩

lemma length_fetched {cs : List Completion} {fs : List Fetched} (h : fetched cs = .ok fs) :
    fs.length = cs.length := (mapM_eq_ok.mp h).length_eq.symm

lemma ofCompletions_eq_ok {n : Nat} {cs : List Completion} {c : Collection} :
    ofCompletions n cs = .ok (some c) ↔
      ∃ fs, (fetched cs = .ok fs ∧ fs.length = n) ∧ ofFetched fs = c := by
  simp only [ofCompletions, bind_eq_ok, pure_eq_ok]
  constructor
  · rintro ⟨fs, hfs, h⟩
    split at h
    next hlength => exact ⟨fs, ⟨hfs, hlength⟩, Option.some.inj h⟩
    next => cases h
  · rintro ⟨fs, ⟨hfs, hlength⟩, rfl⟩
    exact ⟨fs, hfs, if_pos hlength⟩

lemma within_eq_ok {limit n : Nat} {cs : List Completion} {c : Collection} :
    within limit n cs = .ok c ↔ ofCompletions n cs = .ok (some c) := by
  rw [within, bind_eq_ok]
  constructor
  · rintro ⟨found, hfound, h⟩
    cases found with
    | none => cases h
    | some c =>
      cases h
      exact hfound
  · intro hfound
    exact ⟨_, hfound, rfl⟩

end Completions

section Given

def rows (data : Relations) (s : Scan) : Relation := (data.get? s.id).getD []

def ofRelations (scans : List Scan) (data : Relations) : Collection where
  relations := data.filter fun id _ => (scans.map Scan.id).contains id
  reports := scans.map fun s => ⟨s.id, s.source, (rows data s).length⟩

lemma ofRelations_succeeds {s : Scan} :
    (Fetch.ofRelations data s).Succeeds ↔ data.contains s.id = true := by
  rw [Fetch.Succeeds, Fetch.ofRelations, KeyMap.contains_eq_isSome]
  cases data.get? s.id <;> simp

lemma rows_ofRelations (s : Scan) : (Fetch.ofRelations data s).rows = rows data s := by
  rw [Fetch.ofRelations, rows]
  cases data.get? s.id <;> rfl

lemma ofScans_rows (hids : (scans.map Scan.id).Nodup)
    (hdata : ∀ s ∈ scans, data.contains s.id = true) :
    ofScans scans (rows data) = ofRelations scans data := by
  refine congrArg₂ Collection.mk (KeyMap.ext_get? fun k => ?_) rfl
  have hrows : ∀ s ∈ scans, data.get? s.id = some (rows data s) := by
    intro s hs
    obtain ⟨rel, hrel⟩ := Option.isSome_iff_exists.mp
      ((KeyMap.contains_eq_isSome data s.id).symm.trans (hdata s hs))
    rw [rows, hrel, Option.getD_some]
  ext rel
  refine (get?_ofScans hids).trans ?_
  rw [KeyMap.get?_filter_eq_some_iff, List.contains_iff_mem]
  constructor
  · rintro ⟨s, hs, heq⟩
    cases heq
    exact ⟨hrows s hs, List.mem_map_of_mem hs⟩
  · rintro ⟨hrel, hk⟩
    obtain ⟨s, hs, rfl⟩ := List.mem_map.mp hk
    rw [hrows s hs] at hrel
    exact ⟨s, hs, Prod.ext rfl (Option.some.inj hrel)⟩

end Given

end Collection

end Recombine
