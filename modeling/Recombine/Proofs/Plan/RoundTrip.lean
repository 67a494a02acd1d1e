import Recombine.Proofs.Json.RoundTrip
import Recombine.Proofs.Plan.Decoding

namespace Recombine

open Json Attempt

lemma Field.decode_toJson (f : Field) : decode f.toJson.toDoc = .ok f := by
  obtain ⟨name, dtype⟩ := f
  refine Record.decode_toDoc (by decide) ((Record.member?_keys _ _ _).cons_cons _) ?_
  refine Record.seq_read (Record.map_read ?_) ?_
  · exact Record.field_read rfl rfl
  · exact Record.option_read_member? rfl

lemma Schema.decode_toJson (s : Schema) : decode s.toJson.toDoc = .ok s :=
  Decoder.list_toDoc fun f _ => f.decode_toJson

lemma Scan.decode_toJson (s : Scan) : decode s.toJson.toDoc = .ok s := by
  obtain ⟨id, source, schema⟩ := s
  refine Record.decode_toDoc (by decide) (List.Sublist.refl _) ?_
  refine Record.seq_read (Record.seq_read (Record.map_read ?_) ?_) ?_
  · exact Record.field_read rfl rfl
  · exact Record.field_read rfl rfl
  · exact Record.field_read rfl schema.decode_toJson

lemma JoinKey.decode_toJson (k : JoinKey) : decode k.toJson.toDoc = .ok k := by
  obtain ⟨left, right⟩ := k
  refine Record.decode_toDoc (by decide) (List.Sublist.refl _) ?_
  refine Record.seq_read (Record.map_read ?_) ?_
  · exact Record.field_read rfl rfl
  · exact Record.field_read rfl rfl

lemma Input.decode_toJson (i : Input) : decode i.toJson.toDoc = .ok i := by
  obtain ⟨ref, role⟩ := i
  refine Record.decode_toDoc (by decide) ((Record.member?_keys _ _ _).cons_cons _) ?_
  refine Record.seq_read (Record.map_read ?_) ?_
  · exact Record.field_read rfl rfl
  · exact Record.option_read_member? rfl

lemma Combination.decode_toJson (c : Combination) : decode c.toJson.toDoc = .ok c :=
  Decoder.choice_toDoc (by cases c <;> decide)

lemma Group.decode_toJson (g : Group) : decode g.toJson.toDoc = .ok g := by
  obtain ⟨id, combination, inputs, keys⟩ := g
  refine Record.decode_toDoc (by decide) (List.Sublist.refl _) ?_
  refine Record.seq_read (Record.seq_read (Record.seq_read (Record.map_read ?_) ?_) ?_) ?_
  · exact Record.field_read rfl rfl
  · exact Record.field_read rfl combination.decode_toJson
  · exact Record.field_read rfl (Decoder.list_toDoc fun i _ => i.decode_toJson)
  · exact Record.field_read rfl (Decoder.list_toDoc fun k _ => k.decode_toJson)

lemma Aggregation.decode_toJson (a : Aggregation) : decode a.toJson.toDoc = .ok a :=
  Decoder.choice_toDoc (by cases a <;> decide)

lemma Metric.decode_toJson (m : Metric) : decode m.toJson.toDoc = .ok m := by
  obtain ⟨name, aggregation, source⟩ := m
  refine Record.decode_toDoc (by decide) (((Record.member?_keys _ _ _).cons_cons _).cons_cons _) ?_
  refine Record.seq_read (Record.seq_read (Record.map_read ?_) ?_) ?_
  · exact Record.field_read rfl rfl
  · exact Record.field_read rfl aggregation.decode_toJson
  · exact Record.option_read_member? rfl

lemma Direction.decode_toJson (d : Direction) : decode d.toJson.toDoc = .ok d :=
  Decoder.choice_toDoc (by cases d <;> decide)

lemma Order.decode_toJson (o : Order) : decode o.toJson.toDoc = .ok o := by
  obtain ⟨column, direction⟩ := o
  refine Record.decode_toDoc (by decide) (List.Sublist.refl _) ?_
  refine Record.seq_read (Record.map_read ?_) ?_
  · exact Record.field_read rfl rfl
  · exact Record.field_read rfl direction.decode_toJson

lemma PostKind.decode_toJson (k : PostKind) : decode k.toJson.toDoc = .ok k :=
  Decoder.choice_toDoc (by cases k <;> decide)

lemma Test.IsSpelled.decode_toJson {t : Test} (h : t.IsSpelled) : decode t.toJson.toDoc = .ok t :=
  congrArg Except.ok h

namespace Value

lemma toDoc_float {x : Float} (h : Number.isFinite x = true) :
    (float x).toJson.toDoc = .number (Decimal.numeral x) :=
  if_pos h

lemma IsFinite.sound_toDoc {v : Value} (h : v.IsFinite) : v.toJson.toDoc.sound = true := by
  cases v with
  | null | bool | text => rfl
  | int i =>
    refine Decimal.float?_integer_isSome ?_
    have hmin := i.le_toInt
    have hmax := i.toInt_lt
    omega
  | float x =>
    rw [toDoc_float h, Doc.sound, Decimal.float?_numeral h]
    rfl

lemma IsFinite.ofDoc_toDoc {v : Value} (h : v.IsFinite) : ofDoc v.toJson.toDoc = .ok v := by
  cases v with
  | null | bool | text => rfl
  | int i =>
    refine congrArg Except.ok ?_
    rw [ofNumeral, Decimal.int?_integer]
    dsimp only
    rw [if_pos ⟨i.minValue_le_toInt, i.toInt_le⟩, Int64.ofInt_toInt]
  | float x =>
    rw [toDoc_float h, ofDoc, ofNumeral, Decimal.int?_numeral h, Decimal.float?_numeral h]
    rfl

end Value

namespace Operand

lemma ofDoc_scalar (v : Value) : ofDoc v.toJson.toDoc = scalar <$> Value.ofDoc v.toJson.toDoc := by
  cases v with
  | null | bool | int | text => rfl
  | float x =>
    rw [Value.toJson, toDoc]
    split <;> rfl

lemma IsFinite.decode_toJson {o : Operand} (h : o.IsFinite) : decode o.toJson.toDoc = .ok o := by
  rw [decode, Decoder.whole_eq_ok]
  cases o with
  | scalar v =>
    refine ⟨Value.IsFinite.sound_toDoc h, ?_⟩
    rw [toJson, ofDoc_scalar, Value.IsFinite.ofDoc_toDoc h]
    rfl
  | list vs =>
    have hsound := soundItems_itemDocs (List.forall_mem_map.mpr fun v hv => (h v hv).sound_toDoc)
    have hitems := Decoder.mapM_itemDocs fun v hv => (h v hv).ofDoc_toDoc
    rw [toJson, Json.list, toDoc, Doc.sound, ofDoc, hsound, hitems]
    exact ⟨rfl, rfl⟩

end Operand

lemma Filter.Writable.decode_toJson {f : Filter} (h : f.Writable) :
    decode f.toJson.toDoc = .ok f := by
  obtain ⟨column, test, operand⟩ := f
  refine Record.decode_toDoc (by decide) (List.Sublist.refl _) ?_
  refine Record.seq_read (Record.seq_read (Record.map_read ?_) ?_) ?_
  · exact Record.field_read rfl rfl
  · exact Record.field_read rfl h.spelled.decode_toJson
  · exact Record.field_read rfl h.finite.decode_toJson

namespace PostOp

structure Settled (op : PostOp) : Prop where
  filters : ∀ f ∈ op.filters, f.Writable
  limit : ∀ n, op.limit = some n → n < 2 ^ 64
  metadata : ∀ e ∈ op.metadata.entries, e.2.IsSettled
  shallow : ∀ e ∈ op.metadata.entries, e.2.toDoc.height + 4 ≤ maxDepth

lemma settled_of_decode {d : Doc} {op : PostOp} (h : decode d = .ok op)
    (hheight : d.height + 2 ≤ maxDepth) : op.Settled := by
  obtain ⟨ms, hms, -, hlimit, hmetadata⟩ := exists_reads_of_decode h
  have hlimit (n : Nat) (hn : op.limit = some n) : n < 2 ^ 64 := by
    rcases Record.optional_read_eq_ok hlimit with heq | ⟨m, -, hd⟩
    · rw [heq] at hn
      cases hn
    · exact Decoder.option_count_eq_ok (hn ▸ hd)
  have hmetadata : ∀ e ∈ op.metadata.entries,
      e.2.IsSettled ∧ e.2.toDoc.height + 4 ≤ maxDepth := by
    rcases Record.optional_read_eq_ok hmetadata with heq | ⟨m, hm, hd⟩
    · exact heq ▸ List.forall_mem_nil _
    · intro e he
      obtain ⟨part, hlt, hpart⟩ := Decoder.keyMap_eq_ok hd e he
      -- two levels are the operation and its metadata, two the plan and its list of operations
      have hle := height_of_decode hpart
      have hfield := hms m hm
      exact ⟨(isNormal_of_decode hpart).isSettled, by omega⟩
  exact ⟨(writable_of_decode h).filters, hlimit, fun e he => (hmetadata e he).1,
    fun e he => (hmetadata e he).2⟩

lemma Settled.decode_toJson {op : PostOp} (h : op.Settled) : decode op.toJson.toDoc = .ok op := by
  obtain ⟨id, target, kind, schema, filters, metrics, groupBy, orderBy, limit, metadata⟩ := op
  refine Record.decode_toDoc (by decide) (List.Sublist.refl _) ?_
  refine Record.seq_read (Record.seq_read (Record.seq_read (Record.seq_read (Record.seq_read
    (Record.seq_read (Record.seq_read (Record.seq_read (Record.seq_read (Record.map_read ?_) ?_) ?_)
      ?_) ?_) ?_) ?_) ?_) ?_) ?_
  · exact Record.field_read rfl rfl
  · exact Record.field_read rfl rfl
  · exact Record.field_read rfl kind.decode_toJson
  · exact Record.field_read rfl schema.decode_toJson
  · exact Record.field_read rfl (Decoder.list_toDoc fun f hf => (h.filters f hf).decode_toJson)
  · exact Record.field_read rfl (Decoder.list_toDoc fun m _ => m.decode_toJson)
  · exact Record.field_read rfl (Decoder.strings_toDoc groupBy)
  · exact Record.field_read rfl (Decoder.list_toDoc fun o _ => o.decode_toJson)
  · exact Record.field_read rfl (Decoder.option_count_toDoc h.limit)
  · exact Record.field_read rfl (Decoder.keyMap_toDoc h.metadata)

end PostOp

namespace Plan

def Settled (p : Plan) : Prop := ∀ op ∈ p.postOps, op.Settled

lemma settled_of_decode {d : Doc} {p : Plan} (h : decode d = .ok p)
    (hheight : d.height ≤ maxDepth) : p.Settled := by
  obtain ⟨ms, hms, hpostOps⟩ := exists_postOps_read_of_decode h
  rcases Record.optional_read_eq_ok hpostOps with heq | ⟨m, hm, hd⟩
  · rw [Settled, heq]
    exact List.forall_mem_nil _
  · intro op hop
    obtain ⟨part, hlt, hpart⟩ := Decoder.list_eq_ok hd op hop
    have hfield := hms m hm
    exact PostOp.settled_of_decode hpart (by omega)

lemma Settled.decode_toJson {p : Plan} (h : p.Settled) : decode p.toJson.toDoc = .ok p := by
  obtain ⟨scans, groups, postOps⟩ := p
  refine Record.decode_toDoc (by decide) (List.Sublist.refl _) ?_
  refine Record.seq_read (Record.seq_read (Record.map_read ?_) ?_) ?_
  · exact Record.field_read rfl (Decoder.list_toDoc fun s _ => s.decode_toJson)
  · exact Record.field_read rfl (Decoder.list_toDoc fun g _ => g.decode_toJson)
  · exact Record.field_read rfl (Decoder.list_toDoc fun op hop => (h op hop).decode_toJson)

end Plan

section Heights

lemma height_member? {n : Nat} (k : String) (s : Option String) :
    ∀ m ∈ member? k .string s, m.2.toDoc.height ≤ n := by
  cases s with
  | none => exact List.forall_mem_nil _
  | some s => exact List.forall_mem_singleton.mpr (Nat.zero_le n)

lemma Field.height_toJson (f : Field) : f.toJson.toDoc.height ≤ 1 := by
  refine height_object ?_
  simp only [List.forall_mem_cons]
  exact ⟨Nat.zero_le _, height_member? _ _⟩

lemma Schema.height_toJson (s : Schema) : s.toJson.toDoc.height ≤ 2 :=
  height_list fun f _ => f.height_toJson

lemma Scan.height_toJson (s : Scan) : s.toJson.toDoc.height ≤ 3 := by
  refine height_object ?_
  simp only [List.forall_mem_cons]
  exact ⟨Nat.zero_le _, Nat.zero_le _, s.schema.height_toJson, List.forall_mem_nil _⟩

lemma JoinKey.height_toJson (k : JoinKey) : k.toJson.toDoc.height ≤ 1 := by
  refine height_object ?_
  simp only [List.forall_mem_cons]
  exact ⟨Nat.zero_le _, Nat.zero_le _, List.forall_mem_nil _⟩

lemma Input.height_toJson (i : Input) : i.toJson.toDoc.height ≤ 1 := by
  refine height_object ?_
  simp only [List.forall_mem_cons]
  exact ⟨Nat.zero_le _, height_member? _ _⟩

lemma Group.height_toJson (g : Group) : g.toJson.toDoc.height ≤ 3 := by
  have hinputs := height_list fun i (_ : i ∈ g.inputs) => i.height_toJson
  have hkeys := height_list fun k (_ : k ∈ g.keys) => k.height_toJson
  refine height_object ?_
  simp only [List.forall_mem_cons]
  exact ⟨Nat.zero_le _, Nat.zero_le _, hinputs, hkeys, List.forall_mem_nil _⟩

lemma Metric.height_toJson (m : Metric) : m.toJson.toDoc.height ≤ 1 := by
  refine height_object ?_
  simp only [List.forall_mem_cons]
  exact ⟨Nat.zero_le _, Nat.zero_le _, height_member? _ _⟩

lemma Order.height_toJson (o : Order) : o.toJson.toDoc.height ≤ 1 := by
  refine height_object ?_
  simp only [List.forall_mem_cons]
  exact ⟨Nat.zero_le _, Nat.zero_le _, List.forall_mem_nil _⟩

lemma Value.height_toJson (v : Value) : v.toJson.toDoc.height = 0 := by
  cases v with
  | null | bool | int | text => rfl
  | float x => exact height_float x

lemma Operand.height_toJson (o : Operand) : o.toJson.toDoc.height ≤ 1 := by
  cases o with
  | scalar v => exact v.height_toJson.trans_le (Nat.zero_le 1)
  | list vs => exact height_list fun v _ => v.height_toJson.le

lemma Filter.height_toJson (f : Filter) : f.toJson.toDoc.height ≤ 2 := by
  refine height_object ?_
  simp only [List.forall_mem_cons]
  exact ⟨Nat.zero_le _, Nat.zero_le _, f.operand.height_toJson, List.forall_mem_nil _⟩

lemma PostOp.Settled.height_toJson {op : PostOp} (h : op.Settled) :
    op.toJson.toDoc.height ≤ maxDepth - 2 := by
  have hfilters := height_list fun f (_ : f ∈ op.filters) => f.height_toJson
  have hmetrics := height_list fun m (_ : m ∈ op.metrics) => m.height_toJson
  have horders := height_list fun o (_ : o ∈ op.orderBy) => o.height_toJson
  have hstrings : (strings op.groupBy).toDoc.height ≤ 1 :=
    height_list fun s _ => Nat.zero_le 0
  have hlimit : (ofOption (fun n => int n) op.limit).toDoc.height = 0 := by
    cases op.limit <;> rfl
  have hmetadata : (object op.metadata.entries).toDoc.height ≤ maxDepth - 3 :=
    height_object fun e he => Nat.le_sub_of_add_le (h.shallow e he)
  refine height_object ?_
  simp only [List.forall_mem_cons]
  exact ⟨Nat.zero_le _, Nat.zero_le _, Nat.zero_le _, op.schema.height_toJson.trans (by decide),
    hfilters.trans (by decide), hmetrics.trans (by decide), hstrings.trans (by decide),
    horders.trans (by decide), hlimit.trans_le (Nat.zero_le _), hmetadata, List.forall_mem_nil _⟩

lemma Plan.Settled.height_toJson {p : Plan} (h : p.Settled) : p.toJson.toDoc.height ≤ maxDepth := by
  have hscans := height_list fun s (_ : s ∈ p.scans) => s.height_toJson
  have hgroups := height_list fun g (_ : g ∈ p.groups) => g.height_toJson
  have hpostOps := height_list fun op (hop : op ∈ p.postOps) => (h op hop).height_toJson
  refine height_object ?_
  simp only [List.forall_mem_cons]
  exact ⟨hscans.trans (by decide), hgroups.trans (by decide), hpostOps, List.forall_mem_nil _⟩

end Heights

namespace Plan

def reformat (s : String) : Except Fault String := (fun p => p.toJson.text) <$> decode.run s

lemma Settled.run_text_toJson {p : Plan} (h : p.Settled) : decode.run p.toJson.text = .ok p :=
  Decoder.run_text h.height_toJson h.decode_toJson

theorem run_text_of_run {s : String} {p : Plan} (h : decode.run s = .ok p) :
    decode.run p.toJson.text = .ok p ∧ reformat s = .ok p.toJson.text ∧
      reformat p.toJson.text = .ok p.toJson.text := by
  obtain ⟨d, hheight, hd⟩ := Decoder.run_eq_ok h
  have hread := (settled_of_decode hd hheight).run_text_toJson
  exact ⟨hread, map_eq_ok.mpr ⟨p, h, rfl⟩, map_eq_ok.mpr ⟨p, hread, rfl⟩⟩

def looselyWritten : Json :=
  .object [
    ("scans", .array [.object [("datasource_id", .string "x"), ("id", .string "a")]]),
    ("combine_groups", .array [.object [
      ("group_id", .string "g"), ("operation", .string "standalone"),
      ("inputs", .array [.object [("ref_id", .string "a"), ("role", .null)]])]]),
    ("post_ops", .array [.object [
      ("op_id", .string "f"), ("target_group_id", .string "g"), ("operation", .string "filter"),
      ("filters", .array [
        .object [("attribute", .string "n"), ("operator", .string " In "),
          ("value", .array [.int 9223372036854775808, .null])],
        .object [("attribute", .string "n"), ("operator", .string " Like ")]]),
      ("metadata", .object [("k", .object [("b", .int 1), ("a", .null), ("b", .int 2)])])]])]

def looseFilters : List Filter := [
  { column := "n", test := .oneOf,
    operand := .list [.float (.ofScientific 9223372036854775808 false 0), .null] },
  { column := "n", test := .unknown " Like " }]

theorem run_text_of_looselyWritten : ∃ p, decode.run looselyWritten.text = .ok p ∧
    p.postOps.map PostOp.filters = [looseFilters] ∧
    decode.run p.toJson.text = .ok p ∧ reformat looselyWritten.text = .ok p.toJson.text ∧
      reformat p.toJson.text = .ok p.toJson.text := by
  have hfilters : (fun p => p.postOps.map PostOp.filters) <$> decode looselyWritten.toDoc =
      .ok [looseFilters] := by
    decide +kernel
  obtain ⟨p, hp, hfilters⟩ := map_eq_ok.mp hfilters
  have hrun : decode.run looselyWritten.text = .ok p := Decoder.run_text (by decide) hp
  exact ⟨p, hrun, hfilters, run_text_of_run hrun⟩

end Plan

end Recombine
