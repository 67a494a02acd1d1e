import Recombine.Cache.Key
import Recombine.Proofs.Json.Texts

/-! The text under which scanned relations are cached. It keeps everything but the numbers that are
not finite, which it has in common with null. -/

namespace Recombine

namespace Value

def IsFinite : Value → Prop
  | float x => Number.isFinite x = true
  | _ => True

instance : DecidablePred IsFinite
  | float x => inferInstanceAs (Decidable (Number.isFinite x = true))
  | null | bool _ | int _ | text _ => .isTrue trivial

def written : Value → Value
  | float x => if Number.isFinite x then float x else null
  | v => v

lemma toJson_written (v : Value) : v.written.toJson = v.toJson.written := by
  cases v with
  | float x =>
    rw [toJson, written, Json.written]
    split <;> rfl
  | _ => rfl

lemma toJson_inj {v w : Value} (h : v.toJson = w.toJson) : v = w := by
  cases v <;> cases w <;> first | rfl | cases h | skip
  all_goals simp_all [toJson, Int64.toInt_inj]

lemma IsFinite.written_eq {v : Value} (h : v.IsFinite) : v.written = v := by
  cases v with
  | float x => exact if_pos h
  | _ => rfl

end Value

namespace Row

def written (r : Row) : Row where
  cells := r.cells.map fun cell => (cell.1, cell.2.written)
  distinct := by
    rw [columnsOf, List.map_map]
    exact r.distinct

def IsFinite (r : Row) : Prop := ∀ cell ∈ r.cells, cell.2.IsFinite

instance : DecidablePred IsFinite := fun r =>
  inferInstanceAs (Decidable (∀ cell ∈ r.cells, cell.2.IsFinite))

lemma IsFinite.written_eq {r : Row} (h : r.IsFinite) : r.written = r := by
  apply Row.ext
  have hcells : ∀ cell ∈ r.cells, (cell.1, cell.2.written) = id cell := by
    intro cell hcell
    rw [(h cell hcell).written_eq]
    rfl
  exact (List.map_congr_left hcells).trans (List.map_id r.cells)

end Row

namespace Relations

def written (data : Relations) : Relations := data.map fun rel => rel.map Row.written

def IsFinite (data : Relations) : Prop := ∀ e ∈ data.entries, ∀ r ∈ e.2, r.IsFinite

lemma IsFinite.written_eq {data : Relations} (h : data.IsFinite) : data.written = data := by
  apply KeyMap.ext
  have hentries : ∀ e ∈ data.entries, (e.1, e.2.map Row.written) = id e := by
    intro e he
    have hrows : ∀ r ∈ e.2, r.written = id r := fun r hr => (h e he r hr).written_eq
    rw [List.map_congr_left hrows, List.map_id]
    rfl
  exact (List.map_congr_left hentries).trans (List.map_id data.entries)

lemma cellContent_inj {c d : String × Value} (h : cellContent c = cellContent d) : c = d := by
  simp only [cellContent, Json.array.injEq, List.cons.injEq, Json.string.injEq, and_true] at h
  exact Prod.ext h.1 (Value.toJson_inj h.2)

lemma rowContent_inj {r s : Row} (h : rowContent r = rowContent s) : r = s :=
  Row.ext (Json.list_inj (fun _ _ => cellContent_inj) h)

lemma content_inj {a b : Relations} (h : a.content = b.content) : a = b := by
  apply KeyMap.ext
  refine List.map_injective_iff.mpr ?_ (Json.object.inj h)
  rintro ⟨id, rel⟩ ⟨id', rel'⟩ heq
  obtain ⟨hid, hrel⟩ := Prod.mk.inj heq
  exact Prod.ext hid (Json.list_inj (fun _ _ => rowContent_inj) hrel)

lemma rowContent_written (r : Row) : rowContent r.written = (rowContent r).written := by
  rw [rowContent, rowContent, Json.written_list, Json.list, Row.written, List.map_map]
  refine congrArg Json.array (List.map_congr_left fun cell _ => ?_)
  simp only [Function.comp_apply, cellContent, Value.toJson_written, Json.written,
    Json.writtenItems]

lemma list_rowContent_written (rel : Relation) :
    Json.list rowContent (rel.map Row.written) = (Json.list rowContent rel).written := by
  rw [Json.written_list, Json.list, Json.list, List.map_map]
  exact congrArg Json.array (List.map_congr_left fun r _ => rowContent_written r)

lemma content_written (data : Relations) : data.written.content = data.content.written := by
  simp only [content, Json.ofKeyMap, Json.written, Json.writtenMembers_eq, written, KeyMap.map,
    List.map_map, Json.object.injEq]
  refine List.map_congr_left fun e _ => ?_
  simp only [Function.comp_apply, list_rowContent_written]

theorem content_text_eq_iff (a b : Relations) :
    a.content.text = b.content.text ↔ a.written = b.written := by
  rw [Json.text_eq_text_iff, ← content_written, ← content_written]
  exact ⟨content_inj, congrArg content⟩

def infinity : Float := .ofModel (.pack (.infinity .positive))

def ofCell (v : Value) : Relations := KeyMap.ofList [("a", [Row.ofList [("x", v)]])]

theorem content_infinity_eq_content_null :
    (ofCell (.float infinity)).content.text = (ofCell .null).content.text ∧
      ofCell (.float infinity) ≠ ofCell .null :=
  ⟨rfl, by decide⟩

end Relations

end Recombine
