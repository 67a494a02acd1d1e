import Recombine.Proofs.Pipeline.Answers
import Recombine.Proofs.Pipeline.Workers
import Recombine.Proofs.Plan.Decoding
import Recombine.Service.Router

namespace Recombine

open Json Attempt

lemma Request.json_eq_ok {α : Type} {r : Request} {f : Decoder α} {a : α} : r.json f = .ok a ↔
    (r.contentType.map MediaType.isJson).getD false = true ∧ r.body.utf8ByteSize ≤ bodyLimit ∧
      f.run r.body = .ok a := by
  rw [json]
  split
  next htype =>
    split
    next hlong => simp [hlong]
    next hlong =>
      rw [and_iff_right htype, and_iff_right (not_lt.mp hlong)]
      cases f.run r.body <;> simp
  next htype => simp [htype]

lemma Request.exists_doc {α : Type} {r : Request} {f : Decoder α} {a : α} (h : r.json f = .ok a) :
    ∃ d, f d = .ok a := by
  obtain ⟨d, -, hd⟩ := Decoder.run_eq_ok (json_eq_ok.mp h).2.2
  exact ⟨d, hd⟩

namespace ExecuteRequest

variable {rq : ExecuteRequest} {d : Doc}

lemma writable_and_isFinite_of_decode (h : decode d = .ok rq) :
    rq.plan.Writable ∧ rq.data.IsFinite := by
  obtain ⟨ms, -, h⟩ := Record.decode_eq_ok h
  simp only [record, Record.seq_read_eq_ok, Record.map_read_eq_ok] at h
  obtain ⟨_, engine, ⟨_, data, ⟨_, postOps, ⟨_, groups, ⟨scans, -, rfl⟩, -, rfl⟩, hpostOps, rfl⟩,
    hdata, rfl⟩, -, rfl⟩ := h
  refine ⟨Plan.writable_of_optional hpostOps, ?_⟩
  rcases Record.optional_read_eq_ok hdata with rfl | ⟨m, -, hd⟩
  · exact List.forall_mem_nil _
  · exact Relations.isFinite_of_decode hd

def job (rq : ExecuteRequest) (engine : Engine) (dag : Dag) : Job :=
  ⟨dag, rq.engine.getD engine, .ofRelations rq.plan.scans rq.data⟩

def Supplied (rq : ExecuteRequest) : Prop := ∀ s ∈ rq.plan.scans, rq.data.contains s.id = true

end ExecuteRequest

lemma Plan.invalid?_eq_none {p : Plan} : p.invalid? = none ↔ p.scans ≠ [] := by
  rw [invalid?]
  split <;> simp_all

namespace Pipeline

variable {p : Pipeline} {r : Request} {rq : ExecuteRequest} {job : Job} {now now' : Nat}

lemma prepare_eq_ok : p.prepare rq.plan rq.engine (Fetch.ofRelations rq.data) = .ok job ↔
    rq.Supplied ∧ ∃ dag, rq.plan.compile = .ok dag ∧ rq.job p.engine dag = job := by
  rw [prepare]
  cases hcompile : rq.plan.compile with
  | error e => simp
  | ok dag =>
    dsimp only
    rw [map_eq_ok]
    constructor
    · rintro ⟨collection, hcollection, rfl⟩
      obtain ⟨hdata, rfl⟩ := (collect_eq_ok (Plan.scanIds_nodup hcompile)).mp hcollection
      exact ⟨hdata, dag, rfl, rfl⟩
    · rintro ⟨hdata, _, heq, rfl⟩
      cases heq
      exact ⟨_, (collect_eq_ok (Plan.scanIds_nodup hcompile)).mpr ⟨hdata, rfl⟩, rfl⟩

lemma accept_eq (hrq : r.json ExecuteRequest.decode = .ok rq) (hscans : rq.plan.scans ≠ []) :
    p.accept r = (p.prepare rq.plan rq.engine (Fetch.ofRelations rq.data)).mapError .ofFailure := by
  rw [accept, hrq]
  dsimp only
  rw [Plan.invalid?_eq_none.mpr hscans]
  dsimp only
  cases p.prepare rq.plan rq.engine (Fetch.ofRelations rq.data) <;> rfl

lemma accept_eq_ok : p.accept r = .ok job ↔ ∃ rq, r.json ExecuteRequest.decode = .ok rq ∧
    rq.plan.scans ≠ [] ∧ rq.Supplied ∧
      ∃ dag, rq.plan.compile = .ok dag ∧ rq.job p.engine dag = job := by
  constructor
  · intro h
    rw [accept] at h
    cases hrq : r.json ExecuteRequest.decode with
    | error reply =>
      rw [hrq] at h
      cases h
    | ok rq =>
      rw [hrq] at h
      dsimp only at h
      split at h
      next => cases h
      next hvalid =>
        split at h
        next => cases h
        next hprepare =>
          cases h
          exact ⟨rq, rfl, Plan.invalid?_eq_none.mp hvalid, prepare_eq_ok.mp hprepare⟩
  · rintro ⟨rq, hrq, hscans, hprepare⟩
    rw [accept_eq hrq hscans, prepare_eq_ok.mpr hprepare]
    rfl

lemma accept_of_compile_error {e : PlanError} (hrq : r.json ExecuteRequest.decode = .ok rq)
    (hscans : rq.plan.scans ≠ []) (hcompile : rq.plan.compile = .error e) :
    p.accept r = .error (.ofFailure (.compile e)) := by
  rw [accept_eq hrq hscans, prepare, hcompile]
  rfl

lemma accept_of_cache (p : Pipeline) (cache : Cache) (r : Request) :
    ({ p with cache } : Pipeline).accept r = p.accept r := rfl

def jobs (p : Pipeline) (rs : List Request) : List Job :=
  rs.filterMap fun r => (p.accept r).toOption

lemma mem_jobs {rs : List Request} {r : Request} (hr : r ∈ rs) (h : p.accept r = .ok job) :
    job ∈ p.jobs rs := by
  refine List.mem_filterMap.mpr ⟨r, hr, ?_⟩
  rw [h]
  rfl

lemma exists_of_mem_jobs {rs : List Request} (h : job ∈ p.jobs rs) :
    ∃ r ∈ rs, p.accept r = .ok job := by
  obtain ⟨r, hr, hjob⟩ := List.mem_filterMap.mp h
  cases haccept : p.accept r with
  | error reply =>
    rw [haccept] at hjob
    cases hjob
  | ok k =>
    rw [haccept] at hjob
    cases hjob
    exact ⟨r, hr, haccept⟩

lemma replyExecute_eq (h : p.accept r = .ok job) (stamp : Stamp) :
    p.replyExecute now stamp r = (.ofResult stamp (p.answer now job).1, (p.answer now job).2) := by
  rw [replyExecute, h]

lemma replyExecute_again {outputs : Relations} (h : p.accept r = .ok job)
    (hcapacity : p.cache.capacity ≠ 0) (hlifetime : now' - now ≤ p.cache.lifetime)
    (hmissed : p.cache.entries.get? job.key = none) (hevaluate : job.evaluate = .ok outputs)
    (stamp stamp' : Stamp) :
    ((p.replyExecute now stamp r).2.replyExecute now' stamp' r).1 =
      .ofResult stamp' (job.fresh true) := by
  obtain ⟨cache, hcache⟩ := p.answer_settings now job
  have haccept : (p.answer now job).2.accept r = .ok job := by
    rw [hcache, accept_of_cache, h]
  rw [replyExecute_eq h, replyExecute_eq haccept,
    answer_again hcapacity hlifetime hmissed hevaluate, Job.fresh_of_evaluate hevaluate]

end Pipeline

def ExecuteRequest.fresh (rq : ExecuteRequest) (engine : Engine) (cacheHit : Bool) :
    Except Failure Outcome :=
  match rq.plan.compile with
  | .error e => .error (.compile e)
  | .ok dag => (rq.job engine dag).fresh cacheHit

def CollisionFree (hash : String → String) (texts : List String) : Prop :=
  ∀ s ∈ texts, ∀ t ∈ texts, hash s = hash t → s = t

namespace Job

def planText (j : Job) : String := j.dag.contentText

def dataText (j : Job) : String := j.collection.relations.content.text

def planHash (text : String) : String := Dag.idOfHash (Sha256.hexOfString text)

structure Same (j k : Job) : Prop where
  dag : j.dag = k.dag
  engine : j.engine = k.engine
  relations : j.collection.relations = k.collection.relations

lemma Same.evaluate {j k : Job} (h : j.Same k) : j.evaluate = k.evaluate := by
  rw [Job.evaluate, Job.evaluate, h.dag, h.engine, h.relations]

structure Writable (j : Job) : Prop where
  dag : j.dag.Writable
  relations : j.collection.relations.IsFinite

lemma same_of_key_eq {jobs : List Job} (hplans : CollisionFree planHash (jobs.map planText))
    (hdata : CollisionFree Sha256.hexOfString (jobs.map dataText)) {j k : Job} (hj : j ∈ jobs)
    (hk : k ∈ jobs) (hj' : j.Writable) (hk' : k.Writable) (h : j.key = k.key) : j.Same k := by
  obtain ⟨hid, hengine, hprint⟩ := cacheKey_inj (Sha256.colon_not_mem_hexOfString _)
    (Sha256.colon_not_mem_hexOfString _) h
  have hplan := hplans _ (List.mem_map_of_mem hj) _ (List.mem_map_of_mem hk) hid
  have htext := hdata _ (List.mem_map_of_mem hj) _ (List.mem_map_of_mem hk) hprint
  have hwritten := text_eq_text_iff.mp htext
  rw [← Relations.content_written, ← Relations.content_written, hj'.relations.written_eq,
    hk'.relations.written_eq] at hwritten
  exact ⟨Dag.eq_of_contentText_eq hj'.dag hk'.dag hplan, hengine, Relations.content_inj hwritten⟩

end Job

lemma Pipeline.writable_of_accept {p : Pipeline} {r : Request} {job : Job}
    (h : p.accept r = .ok job) : job.Writable := by
  obtain ⟨rq, hrq, -, -, dag, hcompile, rfl⟩ := accept_eq_ok.mp h
  obtain ⟨d, hd⟩ := Request.exists_doc hrq
  obtain ⟨hplan, hdata⟩ := ExecuteRequest.writable_and_isFinite_of_decode hd
  refine ⟨Plan.writable_of_compile hplan hcompile, fun e he => ?_⟩
  exact hdata e (List.mem_filter.mp he).1

lemma Pipeline.same_of_collisionFree {p : Pipeline} {rs : List Request}
    (hplans : CollisionFree Job.planHash ((p.jobs rs).map Job.planText))
    (hdata : CollisionFree Sha256.hexOfString ((p.jobs rs).map Job.dataText)) :
    ∀ j ∈ p.jobs rs, ∀ k ∈ p.jobs rs, j.key = k.key → j.Same k := by
  have hwritable : ∀ j ∈ p.jobs rs, j.Writable := by
    intro j hj
    obtain ⟨r, -, hr⟩ := exists_of_mem_jobs hj
    exact writable_of_accept hr
  intro j hj k hk
  exact Job.same_of_key_eq hplans hdata hj hk (hwritable j hj) (hwritable k hk)

end Recombine
