import Recombine.Plan.Basic
import Recombine.Proofs.Cache.Content
import Recombine.Proofs.Json.Canonical

namespace Recombine

open Json

lemma identifies_choice {α : Type} {name : α → String} (h : ∀ a b, name a = name b → a = b) :
    Identifies (fun _ => True) fun a => .string (name a) :=
  fun a b _ _ heq => h a b (Json.string.inj heq)

lemma Combination.identifies_toJson : Identifies (fun _ => True) Combination.toJson :=
  identifies_choice fun a b => by cases a <;> cases b <;> decide

lemma Aggregation.identifies_toJson : Identifies (fun _ => True) Aggregation.toJson :=
  identifies_choice fun a b => by cases a <;> cases b <;> decide

lemma Direction.identifies_toJson : Identifies (fun _ => True) Direction.toJson :=
  identifies_choice fun a b => by cases a <;> cases b <;> decide

lemma optional_string_inj {a b : Option String}
    (h : (a.map fun s => (Json.string s).kept) = b.map fun s => (Json.string s).kept) : a = b :=
  Option.map_injective (fun _ _ => Json.string.inj) h

lemma Field.identifies_toJson : Identifies (fun _ => True) Field.toJson := by
  rintro ⟨name, dtype⟩ ⟨name', dtype'⟩ - - h
  have hname : name = name' := by simpa [toJson] using member_of_kept_eq h "name"
  have hdtype : dtype = dtype' :=
    optional_string_inj (by simpa [toJson] using member_of_kept_eq h "dtype")
  rw [hname, hdtype]

lemma JoinKey.identifies_toJson : Identifies (fun _ => True) JoinKey.toJson := by
  rintro ⟨left, right⟩ ⟨left', right'⟩ - - h
  have hleft : left = left' := by simpa [toJson] using member_of_kept_eq h "left"
  have hright : right = right' := by simpa [toJson] using member_of_kept_eq h "right"
  rw [hleft, hright]

lemma Metric.identifies_toJson : Identifies (fun _ => True) Metric.toJson := by
  rintro ⟨name, aggregation, source⟩ ⟨name', aggregation', source'⟩ - - h
  have hname : name = name' := by simpa [toJson] using member_of_kept_eq h "name"
  have haggregation : aggregation.toJson.kept = aggregation'.toJson.kept := by
    simpa [toJson] using member_of_kept_eq h "aggregation"
  have hsource : source = source' :=
    optional_string_inj (by simpa [toJson] using member_of_kept_eq h "source_attribute")
  rw [hname, Aggregation.identifies_toJson _ _ trivial trivial haggregation, hsource]

lemma Order.identifies_toJson : Identifies (fun _ => True) Order.toJson := by
  rintro ⟨column, direction⟩ ⟨column', direction'⟩ - - h
  have hcolumn : column = column' := by simpa [toJson] using member_of_kept_eq h "attribute"
  have hdirection : direction.toJson.kept = direction'.toJson.kept := by
    simpa [toJson] using member_of_kept_eq h "direction"
  rw [hcolumn, Direction.identifies_toJson _ _ trivial trivial hdirection]

lemma Value.kept_toJson {v : Value} (h : v.IsFinite) : v.toJson.kept = v.toJson := by
  have hcanonical : v.toJson.canonical = v.toJson := by
    cases v <;> rfl
  rw [kept, hcanonical, ← Value.toJson_written, h.written_eq]

lemma Value.identifies_toJson : Identifies Value.IsFinite Value.toJson := by
  intro v w hv hw h
  rw [Value.kept_toJson hv, Value.kept_toJson hw] at h
  exact Value.toJson_inj h

def Test.IsSpelled (t : Test) : Prop := Test.ofText t.text = t

lemma Test.identifies_toJson : Identifies Test.IsSpelled Test.toJson := by
  intro t u ht hu h
  have htext : t.text = u.text := Json.string.inj h
  rw [← ht, ← hu, htext]

namespace Operand

def IsFinite : Operand → Prop
  | scalar v => v.IsFinite
  | list vs => ∀ v ∈ vs, v.IsFinite

lemma identifies_toJson : Identifies IsFinite toJson := by
  have hlist (vs : List Value) : (list vs).toJson.kept = Json.list (fun v => v.toJson.kept) vs :=
    kept_list _ vs
  rintro (v | vs) (w | ws) ha hb h
  · rw [Value.identifies_toJson v w ha hb h]
  · rw [hlist, toJson, Value.kept_toJson ha] at h
    cases v <;> cases h
  · rw [hlist, toJson, Value.kept_toJson hb] at h
    cases w <;> cases h
  · rw [Value.identifies_toJson.list vs ws ha hb h]

end Operand

namespace Filter

structure Writable (f : Filter) : Prop where
  spelled : f.test.IsSpelled
  finite : f.operand.IsFinite

lemma identifies_toJson : Identifies Writable toJson := by
  rintro ⟨column, test, operand⟩ ⟨column', test', operand'⟩ ha hb h
  have hcolumn : column = column' := by simpa [toJson] using member_of_kept_eq h "attribute"
  have htest : test = test' := by
    apply Test.identifies_toJson _ _ ha.spelled hb.spelled
    simpa [toJson] using member_of_kept_eq h "operator"
  have hoperand : operand = operand' := by
    apply Operand.identifies_toJson _ _ ha.finite hb.finite
    simpa [toJson] using member_of_kept_eq h "value"
  rw [hcolumn, htest, hoperand]

end Filter

end Recombine
