import Recombine.Proofs.Plan.RoundTrip

/-! Relations are read back from their JSON texts, and texts are read as relations whose rows have
each column once, in its first place and with its last cell. -/

namespace Recombine

open Json Attempt

namespace Row

structure Keeps (r : Row) (cells : List (String × Value)) : Prop where
  distinct : r.columns.Nodup
  columns : r.columns = (columnsOf cells).eraseDups
  last : ∀ before column v after, cells = before ++ (column, v) :: after →
    column ∉ columnsOf after → r.get? column = some v

def WrittenAs (r : Row) (d : Doc) : Prop :=
  ∃ members cells, d = .object members true ∧
    List.Forall₂ (fun m cell => m.1 = some cell.1 ∧ Value.decode m.2 = .ok cell.2) members cells ∧
    r.Keeps cells

variable {r : Row} {cells : List (String × Value)} {column : String}

lemma exists_last (h : column ∈ columnsOf cells) :
    ∃ before v after, cells = before ++ (column, v) :: after ∧ column ∉ columnsOf after := by
  induction cells with
  | nil => cases h
  | cons cell cells ih =>
    by_cases hlater : column ∈ columnsOf cells
    · obtain ⟨before, v, after, rfl, hafter⟩ := ih hlater
      exact ⟨cell :: before, v, after, rfl, hafter⟩
    · obtain rfl : column = cell.1 := (List.mem_cons.mp h).resolve_right hlater
      exact ⟨[], cell.2, cells, rfl, hlater⟩

lemma keeps_ofList (cells : List (String × Value)) : (ofList cells).Keeps cells := by
  refine ⟨(ofList cells).distinct, columns_insertAll ∅ cells, ?_⟩
  rintro before column v after rfl hafter
  have hlater : ∀ cell ∈ after, cell.1 ≠ column := fun cell hcell heq =>
    hafter (heq ▸ List.mem_map_of_mem hcell)
  rw [ofList_append, insertAll, List.foldl_cons, ← insertAll, get?_insertAll_of_not_mem hlater,
    get?_insert, if_pos rfl]

lemma Keeps.eq_ofList (h : r.Keeps cells) : r = ofList cells := by
  have hlist := keeps_ofList cells
  apply Row.ext
  rw [cells_eq, cells_eq (ofList cells), h.columns, hlist.columns]
  refine List.map_congr_left fun column hcolumn => ?_
  obtain ⟨before, v, after, hcells, hafter⟩ := exists_last (List.mem_eraseDups.mp hcolumn)
  rw [value, value, h.last before column v after hcells hafter,
    hlist.last before column v after hcells hafter]

lemma keeps_iff : r.Keeps cells ↔ ofList cells = r := by
  constructor
  · exact fun h => h.eq_ofList.symm
  · rintro rfl
    exact keeps_ofList cells

lemma decode_eq_ok_iff {d : Doc} : decode d = .ok r ↔ r.WrittenAs d := by
  simp only [decode, map_eq_ok, Decoder.entries_eq_ok_iff, WrittenAs, keeps_iff]
  constructor
  · rintro ⟨cells, ⟨members, hd, hcells⟩, hr⟩
    exact ⟨members, cells, hd, hcells, hr⟩
  · rintro ⟨members, cells, hd, hcells, hr⟩
    exact ⟨cells, ⟨members, hd, hcells⟩, hr⟩

lemma IsFinite.decode_toJson (h : r.IsFinite) : decode r.toJson.toDoc = .ok r := by
  have hcells : ∀ cell ∈ r.cells, Value.decode cell.2.toJson.toDoc = .ok cell.2 := fun cell hcell =>
    Decoder.whole_eq_ok.mpr ⟨(h cell hcell).sound_toDoc, (h cell hcell).ofDoc_toDoc⟩
  exact map_eq_ok.mpr ⟨r.cells, Decoder.entries_toDoc hcells, Row.ext (cells_ofList r.distinct)⟩

lemma height_toJson (r : Row) : r.toJson.toDoc.height ≤ 1 :=
  height_object (List.forall_mem_map.mpr fun cell _ => cell.2.height_toJson.le)

end Row

namespace Relation

theorem run_text_and_run_iff :
    (∀ rel : Relation, (∀ r ∈ rel, r.IsFinite) → decode.run rel.toJson.text = .ok rel) ∧
      ∀ (text : String) (rel : Relation), decode.run text = .ok rel ↔
        ∃ items, Doc.ofText text = (.array items true, true) ∧
          List.Forall₂ (fun d r => r.WrittenAs d) items rel := by
  constructor
  · intro rel hfinite
    have hheight := height_list fun r (_ : r ∈ rel) => r.height_toJson
    refine Decoder.run_text (hheight.trans (by decide)) ?_
    exact Decoder.list_toDoc fun r hr => (hfinite r hr).decode_toJson
  · intro text rel
    rw [Decoder.run_eq_ok_iff, decode, Decoder.list_eq_ok_iff]
    simp only [Row.decode_eq_ok_iff]
    constructor
    · rintro ⟨⟨items, hitems, hrows⟩, halone⟩
      exact ⟨items, Prod.ext hitems halone, hrows⟩
    · rintro ⟨items, hread, hrows⟩
      rw [hread]
      exact ⟨⟨items, rfl, hrows⟩, rfl⟩

def edges : Relation := [
  Row.ofList [("n", .int Int64.minValue), ("", .float (-0.0)), ("a\"\\\n", .null),
    ("\u0000é", .text "\t")],
  Row.ofList [("", .float 0.0), ("n", .float 1.0), ("m", .int 1)],
  Row.ofList [("n", .int Int64.maxValue), ("b", .bool true), ("a\"\\\n", .float 9007199254740993)],
  ∅]

def repeated : String :=
  "[ \x7b\"a\": 1, \"b\": null, \"\\u0061\": 1.0\x7d, \x7b\x7d ]"

theorem run_text_edges_and_run_repeated :
    (∀ r ∈ edges, r.IsFinite) ∧ decode.run edges.toJson.text = .ok edges ∧
      decode.run repeated = .ok [Row.ofList [("a", .float 1.0), ("b", .null)], ∅] ∧
      ∃ items, Doc.ofText repeated = (.array items true, true) ∧
        List.Forall₂ (fun d r => Row.WrittenAs r d) items
          [Row.ofList [("a", .float 1.0), ("b", .null)], ∅] := by
  have hfinite : ∀ r ∈ edges, r.IsFinite := by decide +kernel
  have hrepeated : decode.run repeated = .ok [Row.ofList [("a", .float 1.0), ("b", .null)], ∅] := by
    decide +kernel
  exact ⟨hfinite, run_text_and_run_iff.1 edges hfinite, hrepeated,
    (run_text_and_run_iff.2 repeated _).mp hrepeated⟩

end Relation

end Recombine
