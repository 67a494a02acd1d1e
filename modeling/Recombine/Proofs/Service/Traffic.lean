import Recombine.Proofs.Evaluation.Interpretation
import Recombine.Proofs.Json.Reading
import Recombine.Proofs.Service.Requests
import Recombine.Service.Traffic

/-! Requests that are served side by side are answered like requests that are served alone on an
empty cache. -/

namespace Recombine

namespace Answer

def Justifies (p : Pipeline) (rs : List Request) (key : String) (outputs : Relations)
    (a : Answer) : Prop :=
  ∃ job, a.request ∈ rs ∧ p.accept a.request = .ok job ∧ job.key = key ∧
    job.evaluate = .ok outputs ∧ a.reply.status = 200

/-- An answer is the reply to a request that is served alone; and if it says that it comes from the
cache, then an earlier answer to the same job was a success. -/
structure Explained (p : Pipeline) (earlier : List Answer) (a : Answer) : Prop where
  refused : ∀ reply, p.accept a.request = .error reply → a.reply = reply
  evaluated : ∀ job, p.accept a.request = .ok job →
    ∃ hit, a.reply = .ofResult a.stamp (job.fresh hit) ∧ (hit = true →
      ∃ b ∈ earlier, ∃ k, p.accept b.request = .ok k ∧ k.Same job ∧ b.reply.status = 200)

lemma explained_of_ok {p : Pipeline} {earlier : List Answer} {a : Answer} {job : Job} (hit : Bool)
    (hjob : p.accept a.request = .ok job) (hreply : a.reply = .ofResult a.stamp (job.fresh hit))
    (hhit : hit = true →
      ∃ b ∈ earlier, ∃ k, p.accept b.request = .ok k ∧ k.Same job ∧ b.reply.status = 200) :
    a.Explained p earlier where
  refused := by
    intro reply h
    rw [hjob] at h
    cases h
  evaluated := by
    intro k hk
    rw [hjob] at hk
    cases hk
    exact ⟨hit, hreply, hhit⟩

def Settles (engine : Engine) (rq : ExecuteRequest) (b : Answer) : Prop :=
  ∃ rb, b.request.json ExecuteRequest.decode = .ok rb ∧ rb.plan.compile = rq.plan.compile ∧
    rb.engine.getD engine = rq.engine.getD engine ∧
    (Collection.ofRelations rb.plan.scans rb.data).relations =
      (Collection.ofRelations rq.plan.scans rq.data).relations ∧
    b.reply.status = 200

end Answer

namespace Traffic

variable {p : Pipeline} {rs : List Request} {t : Traffic}

structure Sound (p : Pipeline) (rs : List Request) (t : Traffic) : Prop where
  settings : ∃ cache, t.pipeline = { p with cache }
  waiting : ∀ run ∈ t.collected ++ t.missed,
    run.request ∈ rs ∧ p.accept run.request = .ok run.job
  kept : ∀ key outputs, t.pipeline.cache.Holds key outputs →
    ∃ a ∈ t.answers, a.Justifies p rs key outputs
  explained : ∀ earlier a later, t.answers = earlier ++ a :: later → a.Explained p earlier

lemma sound_empty (hempty : p.cache.entries = ∅) : Sound p rs { pipeline := p } where
  settings := ⟨p.cache, rfl⟩
  waiting := List.forall_mem_nil _
  kept := by
    rintro key outputs ⟨e, hentry, -⟩
    rw [hempty] at hentry
    cases hentry
  explained := by
    intro earlier a later h
    cases earlier <;> cases h

lemma Sound.answer (h : Sound p rs t) {a : Answer} (cache : Cache) {collected missed : List Run}
    (hwaiting : ∀ run ∈ collected ++ missed, run ∈ t.collected ++ t.missed)
    (hkept : ∀ key outputs, cache.Holds key outputs →
      a.Justifies p rs key outputs ∨ t.pipeline.cache.Holds key outputs)
    (ha : a.Explained p t.answers) :
    Sound p rs ⟨{ p with cache }, collected, missed, t.answers ++ [a]⟩ where
  settings := ⟨cache, rfl⟩
  waiting := fun run hrun => h.waiting run (hwaiting run hrun)
  kept := by
    intro key outputs hholds
    rcases hkept key outputs hholds with hnew | hold
    · exact ⟨a, List.mem_append_right _ List.mem_cons_self, hnew⟩
    · obtain ⟨b, hb, hjustifies⟩ := h.kept key outputs hold
      exact ⟨b, List.mem_append_left _ hb, hjustifies⟩
  explained := by
    intro earlier b later heq
    rcases Sequence.concat_eq_append_cons heq with ⟨rfl, rfl, rfl⟩ | ⟨later', rfl, hold⟩
    · exact ha
    · exact h.explained earlier b later' hold

lemma Sound.arrive (h : Sound p rs t) {r : Request} (hr : r ∈ rs) (stamp : Stamp) :
    Sound p rs (t.arrive r stamp) := by
  obtain ⟨pipeline, collected, missed, answers⟩ := t
  obtain ⟨cache, rfl⟩ := h.settings
  rw [Traffic.arrive, Pipeline.accept_of_cache]
  cases hjob : p.accept r with
  | error reply =>
    have ha : (⟨r, stamp, reply⟩ : Answer).Explained p answers := by
      refine ⟨fun reply' hreply => ?_, fun job hok => ?_⟩
      · rw [hjob] at hreply
        exact Except.error.inj hreply
      · rw [hjob] at hok
        cases hok
    exact h.answer cache (fun run hrun => hrun) (fun _ _ => Or.inr) ha
  | ok job =>
    refine ⟨⟨cache, rfl⟩, fun run hrun => ?_, h.kept, h.explained⟩
    rcases List.mem_append.mp hrun with hrun | hrun
    · rcases List.mem_append.mp hrun with hrun | hrun
      · exact h.waiting run (List.mem_append_left _ hrun)
      · obtain rfl := List.mem_singleton.mp hrun
        exact ⟨hr, hjob⟩
    · exact h.waiting run (List.mem_append_right _ hrun)

lemma Sound.lookUp (h : Sound p rs t) (place now : Nat)
    (hsame : ∀ j ∈ p.jobs rs, ∀ k ∈ p.jobs rs, j.key = k.key → j.Same k) :
    Sound p rs (t.lookUp place now) := by
  obtain ⟨pipeline, collected, missed, answers⟩ := t
  obtain ⟨cache, rfl⟩ := h.settings
  rw [Traffic.lookUp]
  cases hrun : collected[place]? with
  | none => exact h
  | some run =>
    have hmem : run ∈ collected := List.mem_of_getElem? hrun
    obtain ⟨hr, hjob⟩ := h.waiting run (List.mem_append_left _ hmem)
    have hwaiting : ∀ other ∈ collected.eraseIdx place ++ missed, other ∈ collected ++ missed := by
      intro other hother
      rw [List.mem_append] at hother ⊢
      exact hother.imp_left List.mem_of_mem_eraseIdx
    dsimp only
    rw [Pipeline.lookUp_of_cache]
    cases hfound : (cache.get now run.job.key).1 with
    | none =>
      refine ⟨⟨(cache.get now run.job.key).2, rfl⟩, fun other hother => ?_,
        fun key outputs hholds => h.kept key outputs hholds.of_get, h.explained⟩
      rw [← List.append_assoc] at hother
      rcases List.mem_append.mp hother with hother | hother
      · exact h.waiting other (hwaiting other hother)
      · obtain rfl := List.mem_singleton.mp hother
        exact ⟨hr, hjob⟩
    | some outputs =>
      obtain ⟨b, hb, k, hkr, hk, hkey, hevaluate, hstatus⟩ :=
        h.kept run.job.key outputs (Cache.holds_of_get hfound)
      have hsame := hsame k (Pipeline.mem_jobs hkr hk) run.job (Pipeline.mem_jobs hr hjob) hkey
      rw [hsame.evaluate] at hevaluate
      refine h.answer (cache.get now run.job.key).2 hwaiting
        (fun _ _ hholds => Or.inr hholds.of_get) (Answer.explained_of_ok true hjob ?_ fun _ => ?_)
      · rw [Job.fresh_of_evaluate hevaluate]
      · exact ⟨b, hb, k, hk, hsame, hstatus⟩

lemma Sound.finish (h : Sound p rs t) (place now : Nat) : Sound p rs (t.finish place now) := by
  obtain ⟨pipeline, collected, missed, answers⟩ := t
  obtain ⟨cache, rfl⟩ := h.settings
  rw [Traffic.finish]
  cases hrun : missed[place]? with
  | none => exact h
  | some run =>
    have hmem : run ∈ missed := List.mem_of_getElem? hrun
    obtain ⟨hr, hjob⟩ := h.waiting run (List.mem_append_right _ hmem)
    have hwaiting : ∀ other ∈ collected ++ missed.eraseIdx place, other ∈ collected ++ missed := by
      intro other hother
      rw [List.mem_append] at hother ⊢
      exact hother.imp_right List.mem_of_mem_eraseIdx
    have hfresh : false = true → ∃ b ∈ answers, ∃ k, p.accept b.request = .ok k ∧
        k.Same run.job ∧ b.reply.status = 200 := fun heq => absurd heq Bool.false_ne_true
    dsimp only
    rw [Pipeline.finish]
    cases hevaluate : run.job.evaluate with
    | error e =>
      refine h.answer cache hwaiting (fun _ _ => Or.inr)
        (Answer.explained_of_ok false hjob ?_ hfresh)
      rw [Job.fresh, hevaluate]
    | ok outputs =>
      refine h.answer (cache.put now run.job.key outputs none) hwaiting ?_
        (Answer.explained_of_ok false hjob ?_ hfresh)
      · intro key stored hholds
        rcases hholds.of_put with ⟨rfl, rfl⟩ | hholds
        · exact Or.inl ⟨run.job, hr, hjob, rfl, hevaluate, rfl⟩
        · exact Or.inr hholds
      · rw [Job.fresh_of_evaluate hevaluate]

lemma Sound.step (h : Sound p rs t) (e : Event) (he : ∀ r stamp, e = .arrival r stamp → r ∈ rs)
    (hsame : ∀ j ∈ p.jobs rs, ∀ k ∈ p.jobs rs, j.key = k.key → j.Same k) :
    Sound p rs (t.step e) := by
  cases e with
  | arrival r stamp => exact h.arrive (he r stamp rfl) stamp
  | lookUp place now => exact h.lookUp place now hsame
  | finish place now => exact h.finish place now

lemma Sound.run (h : Sound p rs t) {events : List Event}
    (hevents : ∀ r stamp, .arrival r stamp ∈ events → r ∈ rs)
    (hsame : ∀ j ∈ p.jobs rs, ∀ k ∈ p.jobs rs, j.key = k.key → j.Same k) :
    Sound p rs (t.run events) := by
  induction events generalizing t with
  | nil => exact h
  | cons e events ih =>
    have hstep := h.step e
      (fun r stamp heq => hevents r stamp (List.mem_cons.mpr (Or.inl heq.symm))) hsame
    exact ih hstep fun r stamp hr => hevents r stamp (List.mem_cons_of_mem e hr)

def requests (events : List Event) : List Request :=
  events.filterMap fun
    | .arrival r _ => some r
    | _ => none

lemma mem_requests {events : List Event} {r : Request} {stamp : Stamp}
    (h : .arrival r stamp ∈ events) : r ∈ requests events :=
  List.mem_filterMap.mpr ⟨.arrival r stamp, h, rfl⟩

lemma run_alone (p : Pipeline) (answers : List Answer) (r : Request) (stamp : Stamp) (now : Nat) :
    Traffic.run { pipeline := p, answers } [.arrival r stamp, .lookUp 0 now, .finish 0 now] =
      { pipeline := (p.replyExecute now stamp r).2
        answers := answers ++ [⟨r, stamp, (p.replyExecute now stamp r).1⟩] } := by
  change (((⟨p, [], [], answers⟩ : Traffic).arrive r stamp).lookUp 0 now).finish 0 now = _
  rw [Pipeline.replyExecute, Traffic.arrive]
  cases p.accept r with
  | error reply => rfl
  | ok job =>
    rcases hfound : p.lookUp now job with ⟨_ | outputs, q⟩
    · simp [Pipeline.answer, Traffic.lookUp, Traffic.finish, hfound]
    · simp [Pipeline.answer, Traffic.lookUp, Traffic.finish, hfound]

lemma sound_run (hempty : p.cache.entries = ∅) {events : List Event}
    (hevents : requests events ⊆ rs)
    (hsame : ∀ j ∈ p.jobs rs, ∀ k ∈ p.jobs rs, j.key = k.key → j.Same k) :
    Sound p rs (Traffic.run { pipeline := p } events) :=
  (sound_empty hempty).run (fun _ _ hr => hevents (mem_requests hr)) hsame

/-- Where the texts that are hashed do not collide, the cache does not show in the answers, but for
the mark on those that come from it; and these have an earlier answer to the same job. -/
theorem reply_eq_fresh (hempty : p.cache.entries = ∅) {events : List Event}
    (hplans : CollisionFree Job.planHash ((p.jobs (requests events)).map Job.planText))
    (hdata : CollisionFree Sha256.hexOfString ((p.jobs (requests events)).map Job.dataText))
    {earlier later : List Answer} {a : Answer}
    (ha : (Traffic.run { pipeline := p } events).answers = earlier ++ a :: later)
    {rq : ExecuteRequest} (hrq : a.request.json ExecuteRequest.decode = .ok rq)
    (hscans : rq.plan.scans ≠ []) (hsupplied : rq.Supplied) :
    ∃ hit, a.reply = .ofResult a.stamp (rq.fresh p.engine hit) ∧
      (hit = true → ∃ b ∈ earlier, b.Settles p.engine rq) := by
  have hsound := sound_run hempty (List.Subset.refl _)
    (Pipeline.same_of_collisionFree hplans hdata)
  have hexplained := hsound.explained earlier a later ha
  cases hcompile : rq.plan.compile with
  | error e =>
    have hreply := hexplained.refused _ (Pipeline.accept_of_compile_error hrq hscans hcompile)
    refine ⟨false, ?_, fun heq => absurd heq Bool.false_ne_true⟩
    rw [hreply, ExecuteRequest.fresh, hcompile]
    rfl
  | ok dag =>
    have hjob : p.accept a.request = .ok (rq.job p.engine dag) :=
      Pipeline.accept_eq_ok.mpr ⟨rq, hrq, hscans, hsupplied, dag, hcompile, rfl⟩
    obtain ⟨hit, hreply, hearlier⟩ := hexplained.evaluated _ hjob
    refine ⟨hit, ?_, fun heq => ?_⟩
    · rw [hreply, ExecuteRequest.fresh, hcompile]
    · obtain ⟨b, hb, k, hk, hsame, hstatus⟩ := hearlier heq
      obtain ⟨rb, hrb, -, -, dag', hcompile', rfl⟩ := Pipeline.accept_eq_ok.mp hk
      have hdag : dag' = dag := hsame.dag
      rw [hdag] at hcompile'
      refine ⟨b, hb, rb, hrb, ?_, hsame.engine, hsame.relations, hstatus⟩
      rw [hcompile', hcompile]

def twice (r : Request) : List Event :=
  [.arrival r {}, .lookUp 0 0, .finish 0 0, .arrival r {}, .lookUp 0 0, .finish 0 0]

lemma answers_twice (p : Pipeline) (r : Request) :
    (Traffic.run { pipeline := p } (twice r)).answers =
      [⟨r, {}, (p.replyExecute 0 {} r).1⟩,
        ⟨r, {}, ((p.replyExecute 0 {} r).2.replyExecute 0 {} r).1⟩] := by
  have hfirst := run_alone p [] r {} 0
  have hsecond := run_alone (p.replyExecute 0 {} r).2 [⟨r, {}, (p.replyExecute 0 {} r).1⟩] r {} 0
  have hsplit : Traffic.run { pipeline := p } (twice r) =
      (Traffic.run { pipeline := p } [.arrival r {}, .lookUp 0 0, .finish 0 0]).run
        [.arrival r {}, .lookUp 0 0, .finish 0 0] := rfl
  rw [hsplit, hfirst]
  exact congrArg Traffic.answers hsecond

lemma collisionFree_of_eq {p : Pipeline} {r : Request} {rs : List Request}
    (hrs : ∀ r' ∈ rs, r' = r) (hash : String → String) (text : Job → String) :
    CollisionFree hash ((p.jobs rs).map text) := by
  have hjob : ∀ j ∈ p.jobs rs, p.accept r = .ok j := by
    intro j hj
    obtain ⟨r', hr', haccept⟩ := Pipeline.exists_of_mem_jobs hj
    rwa [hrs r' hr'] at haccept
  intro s hs t ht _
  obtain ⟨j, hj, rfl⟩ := List.mem_map.mp hs
  obtain ⟨k, hk, rfl⟩ := List.mem_map.mp ht
  have heq := (hjob j hj).symm.trans (hjob k hk)
  rw [Except.ok.inj heq]

lemma requests_twice (r : Request) : ∀ r' ∈ requests (twice r), r' = r := by
  intro r' hr'
  simpa [requests, twice] using hr'

def requestOfTwo : Request where
  method := "POST"
  uri := "/api/combine/execute"
  contentType := some "application/json"
  body := "[[[\"a\",\"x\"],[\"b\",\"y\"]],[[\"u\",\"union\",[[\"a\"],[\"b\"]]]],[]," ++
    "\x7b\"a\":[\x7b\"n\":1\x7d],\"b\":[\x7b\"n\":2\x7d]\x7d]"

def unionRequest : ExecuteRequest where
  plan := Plan.unionOfTwo
  data := Dag.rowsOfTwo

def jsonOfTwo : Json := .array [
  .array [.array [.string "a", .string "x"], .array [.string "b", .string "y"]],
  .array [.array [.string "u", .string "union", .array [.array [.string "a"], .array [.string "b"]]]],
  .array [],
  .object [("a", .array [.object [("n", .int 1)]]), ("b", .array [.object [("n", .int 2)]])]]

lemma ofText_requestOfTwo : Json.Doc.ofText requestOfTwo.body = (jsonOfTwo.toDoc, true) := by
  have hbody : requestOfTwo.body = jsonOfTwo.text := by decide +kernel
  rw [hbody]
  exact Json.ofText_text (by decide +kernel)

lemma json_requestOfTwo : requestOfTwo.json ExecuteRequest.decode = .ok unionRequest := by
  have hrun : ExecuteRequest.decode.run requestOfTwo.body = .ok unionRequest :=
    Json.Decoder.run_of_ofText ofText_requestOfTwo rfl
  exact Request.json_eq_ok.mpr ⟨by rfl, by decide +kernel, hrun⟩

lemma evaluate_unionRequest : (unionRequest.job .row Plan.unionOfTwo.dag).evaluate =
    .ok (KeyMap.ofList [("combine_u", [Row.ofList [("n", .int 1)], Row.ofList [("n", .int 2)]])]) := by
  decide_cbv

theorem reply_to_second_of_two : ∃ first second,
    (Traffic.run { pipeline := {} } (twice requestOfTwo)).answers = [first] ++ second :: [] ∧
    second.request.json ExecuteRequest.decode = .ok unionRequest ∧
    unionRequest.plan.scans ≠ [] ∧ unionRequest.Supplied ∧
    second.reply = .ofResult second.stamp (unionRequest.fresh .row true) ∧
    ∃ hit, second.reply = .ofResult second.stamp (unionRequest.fresh .row hit) ∧
      (hit = true → ∃ b ∈ [first], b.Settles .row unionRequest) := by
  have hanswers : _ = [_] ++ _ :: [] := answers_twice {} requestOfTwo
  have hscans : unionRequest.plan.scans ≠ [] := by decide
  have hsupplied : unionRequest.Supplied := by
    unfold ExecuteRequest.Supplied
    decide
  have hcompile : unionRequest.plan.compile = .ok Plan.unionOfTwo.dag :=
    Plan.compile_eq_ok.mpr ⟨Plan.unionOfTwo_wellFormed, rfl⟩
  have hjob : ({} : Pipeline).accept requestOfTwo = .ok (unionRequest.job .row Plan.unionOfTwo.dag) :=
    Pipeline.accept_eq_ok.mpr
      ⟨unionRequest, json_requestOfTwo, hscans, hsupplied, _, hcompile, rfl⟩
  have hfree := collisionFree_of_eq (p := {}) (requests_twice requestOfTwo)
  have hreply := reply_eq_fresh rfl (hfree _ _) (hfree _ _) hanswers json_requestOfTwo hscans
    hsupplied
  refine ⟨_, _, hanswers, json_requestOfTwo, hscans, hsupplied, ?_, hreply⟩
  rw [ExecuteRequest.fresh, hcompile]
  exact Pipeline.replyExecute_again hjob (by decide) (by decide) rfl evaluate_unionRequest {} {}

end Traffic

end Recombine
