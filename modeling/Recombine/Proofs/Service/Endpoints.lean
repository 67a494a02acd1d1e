import Mathlib.Data.List.Basic
import Recombine.Proofs.Evaluation.Dependence
import Recombine.Proofs.Json.Skipping
import Recombine.Proofs.Pipeline.Runs
import Recombine.Proofs.Service.Traffic

/-! Compiling a request and executing it. The plan is read alike, is refused for the same reasons,
and its outputs are those of the graph that is shown when it is compiled. -/

namespace Recombine

open Json Attempt

lemma Relations.completes_decode : Relations.decode.Completes :=
  (((Decoder.Completes.whole _).entries.map _).list).keyMap

lemma Failure.status_ne_ok (f : Failure) : f.status ≠ 200 := by
  cases f <;> simp [status]

lemma Failure.status_ofRun (e : RunError) : (ofRun e).status ≠ 400 := by
  cases e <;> simp [ofRun, status]

namespace ExecuteRequest

variable {rq : ExecuteRequest} {d : Doc}

lemma decode_plan (h : decode d = .ok rq) (hd : d.HasAtMost 3) :
    Plan.decode d = .ok rq.plan := by
  have hnames : record.names = Plan.record.names ++ ["scan_results", "backend"] := rfl
  refine Record.decode_prefix hnames hd h (fun ms hms => ?_) ?_
  · simp only [record, Plan.record, Record.seq_read_eq_ok, Record.map_read_eq_ok] at hms ⊢
    obtain ⟨_, engine, ⟨_, data, ⟨_, postOps, ⟨_, groups, ⟨scans, hscans, rfl⟩, hgroups, rfl⟩,
      hpostOps, rfl⟩, hdata, rfl⟩, hengine, rfl⟩ := hms
    exact ⟨_, postOps, ⟨_, groups, ⟨scans, hscans, rfl⟩, hgroups, rfl⟩, hpostOps, rfl⟩
  · intro ms hsep hms m hm k hk hkey
    simp only [record, Record.seq_read_eq_ok, Record.map_read_eq_ok] at hms
    obtain ⟨_, engine, ⟨_, data, -, hdata, rfl⟩, hengine, rfl⟩ := hms
    rcases List.mem_cons.mp hk with rfl | hk
    · exact Record.complete_of_field Relations.completes_decode hsep (by decide) hdata hm hkey
    · obtain rfl := List.mem_singleton.mp hk
      exact Record.complete_of_field (Decoder.Completes.choice _).option hsep (by decide) hengine
        hm hkey

end ExecuteRequest

namespace Request

variable {r : Request} {rq : ExecuteRequest}

def doc (r : Request) : Doc := (Doc.ofText r.body).1

lemma json_plan (h : r.json ExecuteRequest.decode = .ok rq) (hshort : r.doc.HasAtMost 3) :
    r.json Plan.decode = .ok rq.plan := by
  obtain ⟨htype, hsize, hrun⟩ := json_eq_ok.mp h
  obtain ⟨hdoc, halone⟩ := Decoder.run_eq_ok_iff.mp hrun
  refine json_eq_ok.mpr ⟨htype, hsize, Decoder.run_eq_ok_iff.mpr ⟨?_, halone⟩⟩
  exact ExecuteRequest.decode_plan hdoc hshort

def sentTo (r : Request) (e : Endpoint) : Request := { r with method := e.method, uri := e.path }

lemma path_sentTo (r : Request) (e : Endpoint) : (r.sentTo e).path = e.path := by
  cases e <;> simp [path, sentTo, Endpoint.path]

end Request

namespace Pipeline

variable {p : Pipeline} {r : Request} {rq : ExecuteRequest} {plan : Plan} {dag : Dag}
  {course : Course} {engine : Option Engine} {data : Relations}

def replyExecuteIn (p : Pipeline) (course : Course) (stamp : Stamp) (r : Request) :
    Reply × Pipeline :=
  match r.json ExecuteRequest.decode with
  | .error reply => (reply, p)
  | .ok request =>
    match request.plan.invalid? with
    | some reason => (.ofFailure (.validation reason), p)
    | none =>
      let (result, p) := p.runIn course request.plan request.engine (Fetch.ofRelations request.data)
      (.ofResult stamp result, p)

lemma replyExecute_eq_replyExecuteIn (p : Pipeline) (now : Nat) (stamp : Stamp) (r : Request) :
    ∃ course, p.replyExecute now stamp r = p.replyExecuteIn course stamp r := by
  cases hrq : r.json ExecuteRequest.decode with
  | error reply =>
    refine ⟨⟨[], now, some now⟩, ?_⟩
    rw [replyExecute, accept, replyExecuteIn, hrq]
  | ok rq =>
    refine ⟨⟨Crew.inTurn (Fetch.ofRelations rq.data) 0 (Collection.placed rq.plan.scans), now,
      some now⟩, ?_⟩
    rw [replyExecute, accept, replyExecuteIn, hrq]
    dsimp only
    cases rq.plan.invalid? with
    | some reason => rfl
    | none =>
      dsimp only
      rw [← p.run_eq_runIn, run]
      cases p.prepare rq.plan rq.engine (Fetch.ofRelations rq.data) <;> rfl

lemma runIn_of_compile_error {e : PlanError} {fetch : Scan → Fetch}
    (hcompile : plan.compile = .error e) :
    p.runIn course plan engine fetch = (.error (.compile e), p) := by
  rw [runIn, prepareIn, hcompile]

lemma status_of_runIn_error (hcompile : plan.compile = .ok dag) {f : Failure}
    (h : (p.runIn course plan engine (Fetch.ofRelations data)).1 = .error f) : f.status ≠ 400 := by
  have haccounted := p.serve_accounted ⟨plan, engine, Fetch.ofRelations data, course⟩
  by_cases hfetches : PlanRun.Fetches p ⟨plan, engine, Fetch.ofRelations data, course⟩
  · obtain ⟨hreason, -⟩ := (haccounted.collected dag hcompile hfetches).failed f h
    rcases hreason with ⟨e, rfl, -⟩ | ⟨rfl, -⟩
    · exact Failure.status_ofRun e
    · simp [Failure.status]
  · obtain ⟨f', hserve, hreason⟩ := haccounted.unfetched dag hcompile hfetches
    have heq : f' = f := Except.error.inj ((congrArg Prod.fst hserve).symm.trans h)
    subst heq
    rcases hreason with ⟨s, -, hended⟩ | ⟨rfl, -⟩
    · have hended : Fetch.ofRelations data s = .ended (.error f') := hended
      rw [Fetch.ofRelations] at hended
      split at hended
      · cases hended
      · cases hended
        simp [Failure.status]
    · simp [Failure.status]

lemma prepareIn_eq_ok {turns : List Turn} {job : Job} (hcompile : rq.plan.compile = .ok dag)
    (h : p.prepareIn turns rq.plan rq.engine (Fetch.ofRelations rq.data) = .ok job) :
    rq.Supplied ∧ rq.job p.engine dag = job := by
  have hids := Plan.scanIds_nodup hcompile
  rw [prepareIn, hcompile] at h
  obtain ⟨collection, hcollection, rfl⟩ := map_eq_ok.mp h
  have hsound := p.sound_crew rq.plan.scans (Fetch.ofRelations rq.data) turns
  obtain ⟨⟨-, hfetch⟩, rfl⟩ := hsound.within_eq_ok.mp hcollection
  have hsupplied : rq.Supplied := fun s hs => Collection.ofRelations_succeeds.mp (hfetch s hs)
  refine ⟨hsupplied, ?_⟩
  simp only [ExecuteRequest.job, Collection.rows_ofRelations]
  rw [Collection.ofScans_rows hids hsupplied]

lemma runIn_eq_ok {fetch : Scan → Fetch} {o : Outcome}
    (h : (p.runIn course plan engine fetch).1 = .ok o) :
    ∃ job, p.prepareIn course.turns plan engine fetch = .ok job ∧ o.summary = job.dag.summary ∧
      (p.cache.Holds job.key o.outputs ∨ job.evaluate = .ok o.outputs) := by
  rw [runIn] at h
  cases hprepared : p.prepareIn course.turns plan engine fetch with
  | error f =>
    rw [hprepared] at h
    cases h
  | ok job =>
    refine ⟨job, rfl, ?_⟩
    rw [hprepared] at h
    dsimp only [lookUp] at h
    cases hfound : (p.cache.get course.lookedUp job.key).1 with
    | some outputs =>
      rw [hfound] at h
      cases h
      exact ⟨rfl, Or.inl (Cache.holds_of_get hfound)⟩
    | none =>
      rw [hfound] at h
      cases hkept : course.kept with
      | none =>
        rw [hkept] at h
        cases h
      | some now =>
        rw [hkept] at h
        dsimp only at h
        rw [finish] at h
        cases hevaluate : job.evaluate with
        | error e =>
          rw [hevaluate] at h
          cases h
        | ok outputs =>
          rw [hevaluate] at h
          cases h
          exact ⟨rfl, Or.inr rfl⟩

lemma replyCompile_eq (hplan : r.json Plan.decode = .ok plan) (hscans : plan.scans ≠ []) :
    replyCompile r = match plan.compile with
      | .ok dag => .ofJson dag.response
      | .error e => .ofFailure (.compile e) := by
  have hvalid := Plan.invalid?_eq_none.mpr hscans
  cases hcompile : plan.compile <;> simp [replyCompile, hplan, hvalid, hcompile]

lemma replyCompile_of_invalid {reason : String} (hplan : r.json Plan.decode = .ok plan)
    (hinvalid : plan.invalid? = some reason) :
    replyCompile r = .ofFailure (.validation reason) := by
  rw [replyCompile, hplan]
  dsimp only
  rw [hinvalid]

lemma replyExecuteIn_of_invalid {reason : String} {stamp : Stamp}
    (hrq : r.json ExecuteRequest.decode = .ok rq) (hinvalid : rq.plan.invalid? = some reason) :
    p.replyExecuteIn course stamp r = (.ofFailure (.validation reason), p) := by
  rw [replyExecuteIn, hrq]
  dsimp only
  rw [hinvalid]

lemma replyExecuteIn_eq (hrq : r.json ExecuteRequest.decode = .ok rq)
    (hscans : rq.plan.scans ≠ []) (course : Course) (stamp : Stamp) :
    p.replyExecuteIn course stamp r =
      (.ofResult stamp (p.runIn course rq.plan rq.engine (Fetch.ofRelations rq.data)).1,
        (p.runIn course rq.plan rq.engine (Fetch.ofRelations rq.data)).2) := by
  rw [replyExecuteIn, hrq]
  dsimp only
  rw [Plan.invalid?_eq_none.mpr hscans]

structure Serves (p : Pipeline) (r : Request) : Prop where
  compile : ∀ now stamp, p.handle now stamp (r.sentTo .compile) = (replyCompile r, p)
  execute : ∀ now stamp, ∃ course,
    p.handle now stamp (r.sentTo .execute) = p.replyExecuteIn course stamp r

lemma handle_sentTo {e : Endpoint} (he : e.method = "POST") (p : Pipeline) (now : Nat)
    (stamp : Stamp) (r : Request) :
    p.handle now stamp (r.sentTo e) = p.replyAt now stamp (r.sentTo e) e := by
  have hpath : Endpoint.ofPath? (r.sentTo e).path = some e := by
    rw [r.path_sentTo]
    cases e <;> rfl
  have hmethod : (r.sentTo e).method = "POST" := he
  rw [handle, route, hpath]
  dsimp only
  rw [hmethod, he, if_neg (by decide), if_pos (Or.inl rfl), if_neg (by decide)]

lemma serves (p : Pipeline) (r : Request) : p.Serves r where
  compile now stamp := handle_sentTo rfl p now stamp r
  execute now stamp := by
    obtain ⟨course, hcourse⟩ := p.replyExecute_eq_replyExecuteIn now stamp r
    exact ⟨course, (handle_sentTo rfl p now stamp r).trans hcourse⟩

end Pipeline

structure Outcome.Shows (o : Outcome) (dag : Dag) : Prop where
  summary : o.summary = dag.summary
  outputs : ∀ id, id ∈ o.outputs.keys ↔ id ∈ dag.nodeIds ∧ ∀ e ∈ dag.edges, e.source ≠ id

/-- A request that cannot be compiled is refused by both endpoints alike, and leaves no trace. Any
other is not refused when it is executed. -/
structure Pipeline.Concurs (p : Pipeline) (r : Request) (rq : ExecuteRequest) : Prop where
  read : r.json Plan.decode = .ok rq.plan
  serves : p.Serves r
  refused : (replyCompile r).status = 400 → ∀ course stamp,
    p.replyExecuteIn course stamp r = (replyCompile r, p)
  compiled : (replyCompile r).status ≠ 400 → ∃ dag, rq.plan.compile = .ok dag ∧
    replyCompile r = .ofJson dag.response ∧ ∀ course stamp,
      (p.replyExecuteIn course stamp r).1.status ≠ 400 ∧
      ((p.replyExecuteIn course stamp r).1.status = 200 → ∃ o : Outcome,
        (p.replyExecuteIn course stamp r).1 = .ofJson (o.toJson stamp) ∧ o.Shows dag)

namespace Pipeline

variable {p : Pipeline} {r : Request} {rq : ExecuteRequest} {dag : Dag}

lemma concurs_of_failure {f : Failure} (hstatus : f.status = 400)
    (hplan : r.json Plan.decode = .ok rq.plan) (hcompile : replyCompile r = .ofFailure f)
    (hexecute : ∀ course stamp, p.replyExecuteIn course stamp r = (.ofFailure f, p)) :
    p.Concurs r rq := by
  refine ⟨hplan, p.serves r, fun _ course stamp => ?_, fun hok => ?_⟩
  · rw [hexecute, hcompile]
  · rw [hcompile] at hok
    exact absurd hstatus hok

lemma concurs_of_compiled (hplan : r.json Plan.decode = .ok rq.plan)
    (hdag : rq.plan.compile = .ok dag) (hcompile : replyCompile r = .ofJson dag.response)
    (hexecute : ∀ course stamp, (p.replyExecuteIn course stamp r).1.status ≠ 400 ∧
      ((p.replyExecuteIn course stamp r).1.status = 200 → ∃ o : Outcome,
        (p.replyExecuteIn course stamp r).1 = .ofJson (o.toJson stamp) ∧ o.Shows dag)) :
    p.Concurs r rq := by
  refine ⟨hplan, p.serves r, fun hrefused => ?_, fun _ => ⟨dag, hdag, hcompile, hexecute⟩⟩
  rw [hcompile] at hrefused
  cases hrefused

end Pipeline

namespace Traffic

variable {p : Pipeline} {rs : List Request} {t : Traffic} {r : Request} {rq : ExecuteRequest}
  {dag : Dag} {course : Course} {o : Outcome}

lemma Sound.shows (h : Sound p rs t) (hr : r ∈ rs)
    (hsame : ∀ j ∈ p.jobs rs, ∀ k ∈ p.jobs rs, j.key = k.key → j.Same k)
    (hrq : r.json ExecuteRequest.decode = .ok rq) (hscans : rq.plan.scans ≠ [])
    (hcompile : rq.plan.compile = .ok dag)
    (ho : (t.pipeline.runIn course rq.plan rq.engine (Fetch.ofRelations rq.data)).1 = .ok o) :
    o.Shows dag := by
  obtain ⟨job, hprepared, hsummary, houtputs⟩ := Pipeline.runIn_eq_ok ho
  obtain ⟨hsupplied, hjob⟩ := Pipeline.prepareIn_eq_ok hcompile hprepared
  obtain ⟨cache, hpipeline⟩ := h.settings
  rw [hpipeline] at hjob
  have haccept : p.accept r = .ok job :=
    Pipeline.accept_eq_ok.mpr ⟨rq, hrq, hscans, hsupplied, dag, hcompile, hjob⟩
  have hevaluate : job.evaluate = .ok o.outputs := by
    rcases houtputs with hholds | hevaluate
    · obtain ⟨a, -, k, hkr, hk, hkey, hevaluate, -⟩ := h.kept _ _ hholds
      have hsame := hsame k (Pipeline.mem_jobs hkr hk) job (Pipeline.mem_jobs hr haccept) hkey
      rw [← hsame.evaluate, hevaluate]
    · exact hevaluate
  obtain ⟨w, rfl⟩ := Plan.compile_eq_ok.mp hcompile
  subst hjob
  have hkeys : o.outputs.keys = rq.plan.dag.terminals :=
    Dag.keys_of_evaluate w.sound ((Plan.nodes_ne_nil_iff w).mpr hscans) hevaluate
  refine ⟨hsummary, fun id => ?_⟩
  rw [hkeys, Dag.mem_terminals_iff]

lemma Sound.concurs (h : Sound p rs t) (hr : r ∈ rs)
    (hsame : ∀ j ∈ p.jobs rs, ∀ k ∈ p.jobs rs, j.key = k.key → j.Same k)
    (hrq : r.json ExecuteRequest.decode = .ok rq) (hshort : r.doc.HasAtMost 3) :
    t.pipeline.Concurs r rq := by
  have hplan := Request.json_plan hrq hshort
  cases hinvalid : rq.plan.invalid? with
  | some reason =>
    apply Pipeline.concurs_of_failure rfl hplan (Pipeline.replyCompile_of_invalid hplan hinvalid)
    exact fun course stamp => Pipeline.replyExecuteIn_of_invalid hrq hinvalid
  | none =>
    have hscans := Plan.invalid?_eq_none.mp hinvalid
    have hreply := Pipeline.replyCompile_eq hplan hscans
    have hexecute := Pipeline.replyExecuteIn_eq (p := t.pipeline) hrq hscans
    cases hcompile : rq.plan.compile with
    | error e =>
      rw [hcompile] at hreply
      apply Pipeline.concurs_of_failure rfl hplan hreply
      intro course stamp
      rw [hexecute, Pipeline.runIn_of_compile_error hcompile]
      rfl
    | ok dag =>
      rw [hcompile] at hreply
      apply Pipeline.concurs_of_compiled hplan hcompile hreply
      intro course stamp
      rw [hexecute]
      dsimp only
      cases hrun : (t.pipeline.runIn course rq.plan rq.engine (Fetch.ofRelations rq.data)).1 with
      | error f =>
        exact ⟨Pipeline.status_of_runIn_error hcompile hrun,
          fun hstatus => absurd hstatus f.status_ne_ok⟩
      | ok o =>
        refine ⟨by simp [Reply.ofResult, Reply.ofJson], fun _ => ⟨o, rfl, ?_⟩⟩
        exact h.shows hr hsame hrq hscans hcompile hrun

theorem endpoints_concur (hempty : p.cache.entries = ∅) {events : List Event}
    (hsame : ∀ j ∈ p.jobs (r :: requests events), ∀ k ∈ p.jobs (r :: requests events),
      j.key = k.key → j.Same k)
    (hrq : r.json ExecuteRequest.decode = .ok rq) (hshort : r.doc.HasAtMost 3) :
    (Traffic.run { pipeline := p } events).pipeline.Concurs r rq :=
  (sound_run hempty (List.subset_cons_self r _) hsame).concurs List.mem_cons_self hsame hrq hshort

def namedRequestOfTwo : Request where
  method := "POST"
  uri := "/api/combine/execute"
  contentType := some "application/json"
  body := "\x7b\"scans\":[[\"a\",\"x\"],[\"b\",\"y\"]]," ++
    "\"combine_groups\":[[\"u\",\"union\",[[\"a\"],[\"b\"]]]]," ++
    "\"scan_results\":\x7b\"a\":[\x7b\"n\":1\x7d],\"b\":[\x7b\"n\":2\x7d]\x7d\x7d"

def namedJsonOfTwo : Json := .object [
  ("scans", .array [.array [.string "a", .string "x"], .array [.string "b", .string "y"]]),
  ("combine_groups", .array [
    .array [.string "u", .string "union", .array [.array [.string "a"], .array [.string "b"]]]]),
  ("scan_results", .object [
    ("a", .array [.object [("n", .int 1)]]), ("b", .array [.object [("n", .int 2)]])])]

lemma json_namedRequestOfTwo :
    namedRequestOfTwo.json ExecuteRequest.decode = .ok unionRequest ∧
      namedRequestOfTwo.doc.HasAtMost 3 := by
  have hbody : namedRequestOfTwo.body = namedJsonOfTwo.text := by decide +kernel
  have hread : Doc.ofText namedRequestOfTwo.body = (namedJsonOfTwo.toDoc, true) := by
    rw [hbody]
    exact ofText_text (by decide +kernel)
  refine ⟨Request.json_eq_ok.mpr ⟨by rfl, by decide +kernel, Decoder.run_of_ofText hread rfl⟩, ?_⟩
  rw [Request.doc, hread]
  trivial

theorem endpoints_concur_twice :
    namedRequestOfTwo.json ExecuteRequest.decode = .ok unionRequest ∧
    namedRequestOfTwo.doc.HasAtMost 3 ∧
    (Traffic.run { pipeline := {} } (twice namedRequestOfTwo)).pipeline.Concurs namedRequestOfTwo
      unionRequest := by
  obtain ⟨hrq, hshort⟩ := json_namedRequestOfTwo
  have hsame : ∀ r ∈ namedRequestOfTwo :: requests (twice namedRequestOfTwo),
      r = namedRequestOfTwo :=
    List.forall_mem_cons.mpr ⟨rfl, requests_twice namedRequestOfTwo⟩
  have hfree := collisionFree_of_eq (p := {}) hsame
  exact ⟨hrq, hshort, endpoints_concur rfl
    (Pipeline.same_of_collisionFree (hfree _ _) (hfree _ _)) hrq hshort⟩

theorem replyCompile_requestOfTwo :
    requestOfTwo.json ExecuteRequest.decode = .ok unionRequest ∧
    Pipeline.replyCompile requestOfTwo = { status := 400 } ∧
    (({} : Pipeline).replyExecute 0 {} requestOfTwo).1.status = 200 := by
  refine ⟨json_requestOfTwo, ?_, ?_⟩
  · have htype : (requestOfTwo.contentType.map MediaType.isJson).getD false = true := by rfl
    have hrun : Plan.decode.run requestOfTwo.body = .error .malformed :=
      (Decoder.run_eq_of_ofText Plan.decode ofText_requestOfTwo).trans rfl
    have hsize : ¬ Request.bodyLimit < requestOfTwo.body.utf8ByteSize := by decide +kernel
    rw [Pipeline.replyCompile, Request.json, if_pos htype, if_neg hsize, hrun]
    rfl
  · have hcompile : unionRequest.plan.compile = .ok Plan.unionOfTwo.dag :=
      Plan.compile_eq_ok.mpr ⟨Plan.unionOfTwo_wellFormed, rfl⟩
    have hsupplied : unionRequest.Supplied := by
      unfold ExecuteRequest.Supplied
      decide
    have hjob : ({} : Pipeline).accept requestOfTwo =
        .ok (unionRequest.job .row Plan.unionOfTwo.dag) :=
      Pipeline.accept_eq_ok.mpr
        ⟨unionRequest, json_requestOfTwo, by decide, hsupplied, _, hcompile, rfl⟩
    rw [Pipeline.replyExecute_eq hjob, Pipeline.answer_of_missed rfl evaluate_unionRequest]
    rfl

end Traffic

end Recombine
