import Recombine.Proofs.Dag.Content
import Recombine.Proofs.Dag.WellFormed
import Recombine.Proofs.Json.RoundTrip

namespace Recombine

open Json Attempt

lemma Test.isSpelled_of_mem_spellings : ∀ e ∈ spellings, e.2.IsSpelled := by
  unfold IsSpelled
  decide

lemma Test.isSpelled_ofText (s : String) : (ofText s).IsSpelled := by
  have hofText : ofText s = (spellings.lookup (Text.word s)).getD (unknown s) := rfl
  cases hlookup : spellings.lookup (Text.word s) with
  | none =>
    rw [hlookup, Option.getD_none] at hofText
    have hspelled : (unknown s).IsSpelled := hofText
    rwa [← hofText] at hspelled
  | some t =>
    rw [hlookup, Option.getD_some] at hofText
    obtain ⟨before, after, heq, -⟩ := List.lookup_eq_some_iff.mp hlookup
    have hmem : (Text.word s, t) ∈ spellings := by
      rw [heq]
      exact List.mem_append_right _ List.mem_cons_self
    rw [hofText]
    exact isSpelled_of_mem_spellings (Text.word s, t) hmem

lemma Operand.isFinite_of_ofDoc {d : Doc} {o : Operand} (hsound : d.sound = true)
    (h : ofDoc d = .ok o) : o.IsFinite := by
  unfold ofDoc at h
  split at h
  next items closed =>
    obtain ⟨vs, hvs, rfl⟩ := map_eq_ok.mp h
    intro v hv
    obtain ⟨d, hd, hdecode⟩ := Sequence.exists_of_mem_right (mapM_eq_ok.mp hvs) hv
    have hitems := Doc.soundItems_iff.mp (Bool.and_eq_true_iff.mp hsound).1
    exact Value.isFinite_of_ofDoc (hitems d hd) hdecode
  next =>
    obtain ⟨v, hv, rfl⟩ := map_eq_ok.mp h
    exact Value.isFinite_of_ofDoc hsound hv

lemma Operand.isFinite_of_decode {d : Doc} {o : Operand} (h : decode d = .ok o) : o.IsFinite := by
  obtain ⟨hsound, h⟩ := Decoder.whole_eq_ok.mp h
  exact isFinite_of_ofDoc hsound h

lemma Filter.writable_of_decode {d : Doc} {f : Filter} (h : decode d = .ok f) : f.Writable := by
  obtain ⟨ms, -, h⟩ := Record.decode_eq_ok h
  simp only [record, Record.seq_read_eq_ok, Record.map_read_eq_ok] at h
  obtain ⟨_, operand, ⟨_, test, ⟨column, -, rfl⟩, htest, rfl⟩, hoperand, rfl⟩ := h
  have hspelled : test.IsSpelled := by
    obtain ⟨m, -, hd⟩ := Record.required_read_eq_ok htest
    obtain ⟨s, -, heq⟩ := map_eq_ok.mp hd
    rw [← heq]
    exact Test.isSpelled_ofText s
  have hfinite : operand.IsFinite := by
    rcases Record.optional_read_eq_ok hoperand with rfl | ⟨m, -, hd⟩
    · trivial
    · exact Operand.isFinite_of_decode hd
  exact ⟨hspelled, hfinite⟩

namespace PostOp

structure Writable (op : PostOp) : Prop where
  filters : ∀ f ∈ op.filters, f.Writable
  metadata : ∀ e ∈ op.metadata.entries, e.2.IsPlain

lemma exists_reads_of_decode {d : Doc} {op : PostOp} (h : decode d = .ok op) : ∃ ms : Members,
    (∀ m ∈ ms.list, m.2.height < d.height) ∧
    (Record.optional "filters" [] (.list Filter.decode)).read ms = .ok op.filters ∧
    (Record.optional "limit" none (.option .count)).read ms = .ok op.limit ∧
    (Record.optional "metadata" ∅ (.keyMap Json.decode)).read ms = .ok op.metadata := by
  obtain ⟨ms, hms, h⟩ := Record.decode_eq_ok h
  simp only [record, Record.seq_read_eq_ok, Record.map_read_eq_ok] at h
  obtain ⟨_, metadata, ⟨_, limit, ⟨_, orderBy, ⟨_, groupBy, ⟨_, metrics, ⟨_, filters, ⟨_, schema,
    ⟨_, kind, ⟨_, target, ⟨id, -, rfl⟩, -, rfl⟩, -, rfl⟩, -, rfl⟩, hfilters, rfl⟩, -, rfl⟩, -, rfl⟩,
    -, rfl⟩, hlimit, rfl⟩, hmetadata, rfl⟩ := h
  exact ⟨ms, hms, hfilters, hlimit, hmetadata⟩

lemma writable_of_decode {d : Doc} {op : PostOp} (h : decode d = .ok op) : op.Writable := by
  obtain ⟨ms, -, hfilters, -, hmetadata⟩ := exists_reads_of_decode h
  refine ⟨?_, ?_⟩
  · rcases Record.optional_read_eq_ok hfilters with heq | ⟨m, -, hd⟩
    · exact heq ▸ List.forall_mem_nil _
    · intro f hf
      obtain ⟨d, -, hd⟩ := Decoder.list_eq_ok hd f hf
      exact Filter.writable_of_decode hd
  · rcases Record.optional_read_eq_ok hmetadata with heq | ⟨m, -, hd⟩
    · exact heq ▸ List.forall_mem_nil _
    · intro e he
      obtain ⟨d, -, hd⟩ := Decoder.keyMap_eq_ok hd e he
      exact isPlain_of_decode hd

end PostOp

namespace Plan

def Writable (p : Plan) : Prop := ∀ op ∈ p.postOps, op.Writable

lemma writable_of_optional {ms : Members} {ops : List PostOp}
    (h : (Record.optional "post_ops" [] (.list PostOp.decode)).read ms = .ok ops) :
    ∀ op ∈ ops, op.Writable := by
  rcases Record.optional_read_eq_ok h with rfl | ⟨m, -, hd⟩
  · exact List.forall_mem_nil _
  · intro op hop
    obtain ⟨d, -, hd⟩ := Decoder.list_eq_ok hd op hop
    exact PostOp.writable_of_decode hd

lemma exists_postOps_read_of_decode {d : Doc} {p : Plan} (h : decode d = .ok p) : ∃ ms : Members,
    (∀ m ∈ ms.list, m.2.height < d.height) ∧
    (Record.optional "post_ops" [] (.list PostOp.decode)).read ms = .ok p.postOps := by
  obtain ⟨ms, hms, h⟩ := Record.decode_eq_ok h
  simp only [record, Record.seq_read_eq_ok, Record.map_read_eq_ok] at h
  obtain ⟨_, postOps, ⟨_, groups, ⟨scans, -, rfl⟩, -, rfl⟩, hpostOps, rfl⟩ := h
  exact ⟨ms, hms, hpostOps⟩

lemma writable_of_decode {d : Doc} {p : Plan} (h : decode d = .ok p) : p.Writable := by
  obtain ⟨ms, -, hpostOps⟩ := exists_postOps_read_of_decode h
  exact writable_of_optional hpostOps

lemma writable_postNode {p : Plan} {op : PostOp} (h : op.Writable) : (p.postNode op).Writable := by
  refine ⟨?_, h.metadata⟩
  change op.action.Writable
  rw [PostOp.action]
  split
  next => exact h.filters
  all_goals trivial

lemma writable_of_compile {p : Plan} {d : Dag} (h : p.Writable) (hcompile : p.compile = .ok d) :
    d.Writable := by
  obtain ⟨w, rfl⟩ := compile_eq_ok.mp hcompile
  intro n hn
  have hplain : ∀ e ∈ (∅ : KeyMap Json).entries, e.2.IsPlain := List.forall_mem_nil _
  rcases (mem_dag_nodes_iff (wellFormed_iff.mp w).1).mp hn with
    ⟨s, -, rfl⟩ | ⟨g, -, rfl⟩ | ⟨op, hop, rfl⟩
  · exact ⟨trivial, hplain⟩
  · exact ⟨trivial, hplain⟩
  · exact writable_postNode (h op hop)

end Plan

theorem Dag.contentText_eq_iff {s t : String} {p q : Plan} {c d : Dag}
    (hp : Plan.decode.run s = .ok p) (hq : Plan.decode.run t = .ok q) (hc : p.compile = .ok c)
    (hd : q.compile = .ok d) :
    c.contentText = d.contentText ↔ c.nodes = d.nodes ∧ c.edges = d.edges := by
  have hwritable {s : String} {p : Plan} {d : Dag} (hp : Plan.decode.run s = .ok p)
      (hd : p.compile = .ok d) : d.Writable := by
    obtain ⟨doc, -, hdoc⟩ := Decoder.run_eq_ok hp
    exact Plan.writable_of_compile (Plan.writable_of_decode hdoc) hd
  constructor
  · intro h
    obtain rfl := eq_of_contentText_eq (hwritable hp hc) (hwritable hq hd) h
    exact ⟨rfl, rfl⟩
  · rintro ⟨hnodes, hedges⟩
    rw [contentText, contentText, content, content, hnodes, hedges]

def Plan.scanOfOne : Plan where
  scans := [{ id := "a", source := "x" }]

lemma Plan.scanOfOne_wellFormed : scanOfOne.WellFormed := by decide +kernel

theorem Dag.contentText_unionOfTwo_ne : ∃ s t,
    Plan.decode.run s = .ok Plan.unionOfTwo ∧ Plan.decode.run t = .ok Plan.scanOfOne ∧
    Plan.unionOfTwo.compile = .ok Plan.unionOfTwo.dag ∧
    Plan.scanOfOne.compile = .ok Plan.scanOfOne.dag ∧
    Plan.unionOfTwo.dag.contentText ≠ Plan.scanOfOne.dag.contentText := by
  have hunion : Plan.decode.run (array [
      array [array [string "a", string "x"], array [string "b", string "y"]],
      array [array [string "u", string "union", array [array [string "a"], array [string "b"]]]]
    ]).text = .ok Plan.unionOfTwo :=
    Decoder.run_text (by decide +kernel) rfl
  have hscan : Plan.decode.run (array [array [array [string "a", string "x"]]]).text =
      .ok Plan.scanOfOne :=
    Decoder.run_text (by decide +kernel) rfl
  have hc : Plan.unionOfTwo.compile = .ok Plan.unionOfTwo.dag :=
    Plan.compile_eq_ok.mpr ⟨Plan.unionOfTwo_wellFormed, rfl⟩
  have hd : Plan.scanOfOne.compile = .ok Plan.scanOfOne.dag :=
    Plan.compile_eq_ok.mpr ⟨Plan.scanOfOne_wellFormed, rfl⟩
  have hlength : Plan.unionOfTwo.dag.nodes.length ≠ Plan.scanOfOne.dag.nodes.length := by
    decide
  refine ⟨_, _, hunion, hscan, hc, hd, fun heq => hlength ?_⟩
  rw [((contentText_eq_iff hunion hscan hc hd).mp heq).1]

end Recombine
