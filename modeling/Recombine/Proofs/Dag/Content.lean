import Recombine.Proofs.Dag.Checks
import Recombine.Proofs.Plan.Forms

namespace Recombine

open Json

lemma identifies_optional_int :
    Identifies (fun _ => True) fun n : Option Nat => ofOption (fun n => .int n) n := by
  rintro (_ | n) (_ | n') - - h
  · rfl
  · cases h
  · cases h
  · rw [Int.ofNat.inj (Json.int.inj h)]

namespace Action

def Writable : Action → Prop
  | filter fs => ∀ f ∈ fs, f.Writable
  | _ => True

lemma eq_of_kind_eq {a b : Action} (ha : a.Writable) (hb : b.Writable) (hkind : a.kind = b.kind)
    (h : (Json.object a.attributes).kept = (Json.object b.attributes).kept) : a = b := by
  cases a with
  | scan source =>
    cases b with
    | scan source' =>
      have hsource : source = source' := by
        simpa [attributes] using member_of_kept_eq h "datasource_id"
      rw [hsource]
    | _ => simp [kind, name] at hkind
  | combine c keys =>
    cases b with
    | combine c' keys' =>
      have hc : c.toJson.kept = c'.toJson.kept := by
        simpa [attributes] using member_of_kept_eq h "operation"
      have hkeys : keys = keys' := by
        apply JoinKey.identifies_toJson.omitted_list "join_keys" (fun _ _ => trivial) (fun _ _ => trivial)
        simpa [attributes] using member_of_kept_eq h "join_keys"
      rw [Combination.identifies_toJson _ _ trivial trivial hc, hkeys]
    | _ => simp [kind, name] at hkind
  | filter fs =>
    cases b with
    | filter fs' =>
      have hfs : fs = fs' := by
        apply Filter.identifies_toJson.list _ _ ha hb
        simpa [attributes] using member_of_kept_eq h "filters"
      rw [hfs]
    | _ => simp [kind, name] at hkind
  | aggregate groupBy ms =>
    cases b with
    | aggregate groupBy' ms' =>
      have hgroupBy : groupBy = groupBy' := by
        apply identifies_strings _ _ trivial trivial
        simpa [attributes] using member_of_kept_eq h "group_by"
      have hms : ms = ms' := by
        apply Metric.identifies_toJson.list _ _ (fun _ _ => trivial) (fun _ _ => trivial)
        simpa [attributes] using member_of_kept_eq h "metrics"
      rw [hgroupBy, hms]
    | _ => simp [kind, name] at hkind
  | project columns =>
    cases b with
    | project columns' =>
      have hcolumns : columns = columns' := by
        apply identifies_strings _ _ trivial trivial
        simpa [attributes] using member_of_kept_eq h "columns"
      rw [hcolumns]
    | _ => simp [kind, name] at hkind
  | sort os =>
    cases b with
    | sort os' =>
      have hos : os = os' := by
        apply Order.identifies_toJson.list _ _ (fun _ _ => trivial) (fun _ _ => trivial)
        simpa [attributes] using member_of_kept_eq h "order_by"
      rw [hos]
    | _ => simp [kind, name] at hkind
  | limit n =>
    cases b with
    | limit n' =>
      have hn : n = n' := by
        apply identifies_optional_int _ _ trivial trivial
        simpa [attributes] using member_of_kept_eq h "limit"
      rw [hn]
    | _ => simp [kind, name] at hkind

end Action

namespace Node

structure Writable (n : Node) : Prop where
  action : n.action.Writable
  metadata : ∀ e ∈ n.metadata.entries, e.2.IsPlain

lemma identifies_toJson : Identifies Writable toJson := by
  rintro ⟨id, inputs, schema, action, metadata⟩ ⟨id', inputs', schema', action', metadata'⟩ ha hb h
  have hid : id = id' := by simpa [toJson] using member_of_kept_eq h "node_id"
  have hinputs : inputs = inputs' := by
    apply identifies_strings _ _ trivial trivial
    simpa [toJson] using member_of_kept_eq h "inputs"
  have hfields : schema.toJson.kept = schema'.toJson.kept := by
    simpa [toJson] using member_of_kept_eq h "output_schema"
  have hschema : schema = schema' :=
    Field.identifies_toJson.list _ _ (fun _ _ => trivial) (fun _ _ => trivial) hfields
  have hkind : action.kind = action'.kind := by
    simpa [toJson] using member_of_kept_eq h "kind"
  have haction : action = action' := by
    apply Action.eq_of_kind_eq ha.action hb.action hkind
    simpa [toJson] using member_of_kept_eq h "attributes"
  have hmetadata : metadata = metadata' := by
    apply Identifies.omitted_object "metadata" ha.metadata hb.metadata
    simpa [toJson] using member_of_kept_eq h "metadata"
  rw [hid, hinputs, hschema, haction, hmetadata]

end Node

lemma Edge.identifies_toJson : Identifies (fun _ => True) Edge.toJson := by
  rintro ⟨source, target, role⟩ ⟨source', target', role'⟩ - - h
  have hsource : source = source' := by simpa [toJson] using member_of_kept_eq h "from_id"
  have htarget : target = target' := by simpa [toJson] using member_of_kept_eq h "to_id"
  have hrole : role = role' :=
    optional_string_inj (by simpa [toJson] using member_of_kept_eq h "role")
  rw [hsource, htarget, hrole]

namespace Dag

def Writable (d : Dag) : Prop := ∀ n ∈ d.nodes, n.Writable

lemma eq_of_contentText_eq {c d : Dag} (hc : c.Writable) (hd : d.Writable)
    (h : c.contentText = d.contentText) : c = d := by
  have hkept := canonical_text_eq_iff.mp h
  obtain ⟨nodes, edges⟩ := c
  obtain ⟨nodes', edges'⟩ := d
  have hnodes : nodes = nodes' := by
    apply Node.identifies_toJson.list _ _ hc hd
    simpa [content] using member_of_kept_eq hkept "nodes"
  have hedges : edges = edges' := by
    apply Edge.identifies_toJson.list _ _ (fun _ _ => trivial) (fun _ _ => trivial)
    simpa [content] using member_of_kept_eq hkept "edges"
  rw [hnodes, hedges]

end Dag

end Recombine
