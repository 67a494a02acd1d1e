import Recombine.Proofs.Pipeline.Answers
import Recombine.Proofs.Pipeline.Workers

namespace Recombine

open Attempt

namespace Cache

variable {c : Cache}

def Expires (c : Cache) (now : Nat) (key : String) : Prop :=
  ∃ e, c.entries.get? key = some e ∧ e.isExpired now = true

structure Missed (before after : Cache) (now : Nat) (key : String) : Prop where
  kept : ¬ before.Expires now key → after = { before with
    uses := before.uses + 1
    stats := { before.stats with misses := before.stats.misses + 1 } }
  dropped : before.Expires now key → after = { before with
    uses := before.uses + 1
    entries := before.entries.erase key
    stats := { before.stats with
      misses := before.stats.misses + 1, expirations := before.stats.expirations + 1 } }

lemma missed_of_get {now : Nat} {key : String} (h : (c.get now key).1 = none) :
    c.Missed (c.get now key).2 now key := by
  constructor
  case kept =>
    intro hexpires
    rw [get] at h ⊢
    cases hentry : c.entries.get? key with
    | none => rfl
    | some e =>
      rw [hentry] at h
      dsimp only at h
      split at h
      next hexpired => exact absurd ⟨e, hentry, hexpired⟩ hexpires
      next => cases h
  case dropped =>
    rintro ⟨e, hentry, hexpired⟩
    rw [get, hentry]
    dsimp only
    rw [if_pos hexpired]

lemma stats_of_get {now : Nat} {key : String} {outputs : Relations}
    (h : (c.get now key).1 = some outputs) :
    (c.get now key).2.stats = { c.stats with hits := c.stats.hits + 1 } := by
  rw [get] at h ⊢
  split at h
  next => cases h
  next e _ =>
    dsimp only at h ⊢
    split at h
    next => cases h
    next hexpired => rw [if_neg hexpired]

lemma Missed.stats {after : Cache} {now : Nat} {key : String} (h : c.Missed after now key) :
    after.stats.hits = c.stats.hits ∧ after.stats.misses = c.stats.misses + 1 := by
  by_cases hexpires : c.Expires now key
  · rw [h.dropped hexpires]
    exact ⟨rfl, rfl⟩
  · rw [h.kept hexpires]
    exact ⟨rfl, rfl⟩

lemma stats_put (c : Cache) (now : Nat) (key : String) (outputs : Relations)
    (lifetime : Option Nat) : (c.put now key outputs lifetime).stats.hits = c.stats.hits ∧
      (c.put now key outputs lifetime).stats.misses = c.stats.misses := by
  rw [put]
  split
  next => exact ⟨rfl, rfl⟩
  next =>
    dsimp only
    rw [makeRoom, evict]
    split
    next => split <;> exact ⟨rfl, rfl⟩
    next => exact ⟨rfl, rfl⟩

end Cache

structure PlanRun where
  plan : Plan
  engine : Option Engine
  fetch : Scan → Fetch
  course : Course

namespace PlanRun

def Fetches (p : Pipeline) (r : PlanRun) : Prop :=
  ((p.crew r.plan.scans).run r.fetch r.course.turns).isDone = true ∧
    ∀ s ∈ r.plan.scans, (r.fetch s).Succeeds

def Collects (p : Pipeline) (r : PlanRun) : Prop := (∃ dag, r.plan.compile = .ok dag) ∧ r.Fetches p

instance (p : Pipeline) : DecidablePred (Fetches p) := fun _ => inferInstanceAs (Decidable (_ ∧ _))

instance (p : Pipeline) : DecidablePred (Collects p) := fun r =>
  match hcompile : r.plan.compile with
  | .error _ => .isFalse fun h => nomatch hcompile.symm.trans h.1.choose_spec
  | .ok dag => decidable_of_iff (r.Fetches p) (and_iff_right ⟨dag, hcompile⟩).symm

end PlanRun

namespace Pipeline

variable {p : Pipeline} {r : PlanRun} {job : Job} {course : Course}

def serve (p : Pipeline) (r : PlanRun) : Except Failure Outcome × Pipeline :=
  p.runIn r.course r.plan r.engine r.fetch

def serveAll (p : Pipeline) (rs : List PlanRun) : Pipeline :=
  rs.foldl (fun p r => (p.serve r).2) p

/-- What the cache shows of a job, by what has come of it. -/
structure Settled (p : Pipeline) (course : Course) (job : Job) (result : Except Failure Outcome)
    (after : Pipeline) : Prop where
  failed : ∀ f, result = .error f →
    ((∃ e, f = .ofRun e ∧ job.evaluate = .error e) ∨
      (f = .timeout (timeoutReason p.limit) ∧ course.kept = none)) ∧
    p.cache.Missed after.cache course.lookedUp job.key
  hit : ∀ o, result = .ok o → o.cacheHit = true →
    after.cache.stats.hits = p.cache.stats.hits + 1 ∧
      after.cache.stats.misses = p.cache.stats.misses
  miss : ∀ o, result = .ok o → o.cacheHit = false →
    after.cache.stats.hits = p.cache.stats.hits ∧
      after.cache.stats.misses = p.cache.stats.misses + 1
  stored : ∀ o, result = .ok o → o.cacheHit = false → p.cache.capacity ≠ 0 →
    ∃ now lastUsed, course.kept = some now ∧
      after.cache.entries.get? job.key = some ⟨o.outputs, now, p.cache.lifetime, lastUsed⟩
  settings : ∃ cache, after = { p with cache }

lemma settled_of_found {outputs : Relations}
    (hfound : (p.cache.get course.lookedUp job.key).1 = some outputs) :
    p.Settled course job (.ok (job.outcome outputs true))
      { p with cache := (p.cache.get course.lookedUp job.key).2 } := by
  have hstats := Cache.stats_of_get hfound
  constructor
  case failed =>
    intro f hf
    cases hf
  case hit =>
    intro o _ _
    dsimp only
    rw [hstats]
    exact ⟨rfl, rfl⟩
  case miss =>
    intro o ho hmiss
    cases ho
    cases hmiss
  case stored =>
    intro o ho hmiss
    cases ho
    cases hmiss
  case settings => exact ⟨_, rfl⟩

lemma settled_of_failed {f : Failure} {after : Pipeline}
    (hf : (∃ e, f = .ofRun e ∧ job.evaluate = .error e) ∨
      (f = .timeout (timeoutReason p.limit) ∧ course.kept = none))
    (hmissed : p.cache.Missed after.cache course.lookedUp job.key)
    (hsettings : ∃ cache, after = { p with cache }) :
    p.Settled course job (.error f) after := by
  constructor
  case failed =>
    intro f' hf'
    cases hf'
    exact ⟨hf, hmissed⟩
  case settings => exact hsettings
  all_goals
    intro o ho
    cases ho

lemma settled_of_stored {outputs : Relations} {now : Nat}
    (hmissed : (p.cache.get course.lookedUp job.key).1 = none) (hkept : course.kept = some now) :
    p.Settled course job (.ok (job.outcome outputs false)) { p with
      cache := (p.cache.get course.lookedUp job.key).2.put now job.key outputs none } := by
  obtain ⟨hhits, hmisses⟩ := (Cache.missed_of_get hmissed).stats
  obtain ⟨hcapacity, hlifetime⟩ := p.cache.get_settings course.lookedUp job.key
  obtain ⟨hhits', hmisses'⟩ :=
    (p.cache.get course.lookedUp job.key).2.stats_put now job.key outputs none
  constructor
  case failed =>
    intro f hf
    cases hf
  case hit =>
    intro o ho hhit
    cases ho
    cases hhit
  case miss =>
    intro o _ _
    exact ⟨hhits'.trans hhits, hmisses'.trans hmisses⟩
  case stored =>
    intro o ho _ hne
    cases ho
    rw [← hlifetime]
    exact ⟨now, _, hkept, Cache.get?_put (hcapacity.trans_ne hne)⟩
  case settings => exact ⟨_, rfl⟩

lemma settled_of_prepared {plan : Plan} {engine : Option Engine} {fetch : Scan → Fetch}
    (hprepared : p.prepareIn course.turns plan engine fetch = .ok job) :
    p.Settled course job (p.runIn course plan engine fetch).1
      (p.runIn course plan engine fetch).2 := by
  rw [runIn, hprepared]
  dsimp only [lookUp]
  cases hfound : (p.cache.get course.lookedUp job.key).1 with
  | some outputs => exact settled_of_found hfound
  | none =>
    have hmissed := Cache.missed_of_get hfound
    cases hkept : course.kept with
    | none => exact settled_of_failed (Or.inr ⟨rfl, hkept⟩) hmissed ⟨_, rfl⟩
    | some now =>
      dsimp only
      rw [finish]
      cases hevaluate : job.evaluate with
      | error e => exact settled_of_failed (Or.inl ⟨e, rfl, hevaluate⟩) hmissed ⟨_, rfl⟩
      | ok outputs => exact settled_of_stored hfound hkept

/-- What a run does to a pipeline, by the stage at which it ends. -/
structure Accounted (p : Pipeline) (r : PlanRun) : Prop where
  uncompiled : ∀ e, r.plan.compile = .error e → p.serve r = (.error (.compile e), p)
  unfetched : ∀ dag, r.plan.compile = .ok dag → ¬ r.Fetches p → ∃ f, p.serve r = (.error f, p) ∧
    ((∃ s ∈ r.plan.scans, r.fetch s = .ended (.error f)) ∨
      (f = .timeout (timeoutReason p.limit) ∧
        ((p.crew r.plan.scans).run r.fetch r.course.turns).isDone = false))
  collected : ∀ dag, r.plan.compile = .ok dag → r.Fetches p →
    p.Settled r.course (p.gather r.plan dag r.engine r.fetch) (p.serve r).1 (p.serve r).2

lemma serve_accounted (p : Pipeline) (r : PlanRun) : p.Accounted r := by
  have hsound := p.sound_crew r.plan.scans r.fetch r.course.turns
  constructor
  case uncompiled =>
    intro e hcompile
    rw [serve, runIn, prepareIn, hcompile]
  case unfetched =>
    intro dag hcompile hfetches
    rw [serve, runIn, prepareIn, hcompile]
    dsimp only
    cases hwithin : Collection.within p.limit r.plan.scans.length
        ((p.crew r.plan.scans).run r.fetch r.course.turns).ended with
    | ok collection => exact absurd (hsound.within_eq_ok.mp hwithin).1 hfetches
    | error f => exact ⟨f, rfl, hsound.within_eq_error hwithin⟩
  case collected =>
    intro dag hcompile hfetches
    refine settled_of_prepared ?_
    rw [prepareIn_of_succeeds hcompile hfetches.2, if_pos hfetches.1]

lemma Accounted.settings (h : p.Accounted r) : ∃ cache, (p.serve r).2 = { p with cache } := by
  cases hcompile : r.plan.compile with
  | error e =>
    rw [h.uncompiled e hcompile]
    exact ⟨p.cache, rfl⟩
  | ok dag =>
    by_cases hfetches : r.Fetches p
    · exact (h.collected dag hcompile hfetches).settings
    · obtain ⟨f, hserve, -⟩ := h.unfetched dag hcompile hfetches
      rw [hserve]
      exact ⟨p.cache, rfl⟩

lemma Settled.counts {result : Except Failure Outcome} {after : Pipeline}
    (h : p.Settled course job result after) : after.cache.stats.hits + after.cache.stats.misses =
      p.cache.stats.hits + p.cache.stats.misses + 1 := by
  cases result with
  | error f =>
    obtain ⟨hhits, hmisses⟩ := (h.failed f rfl).2.stats
    omega
  | ok o =>
    cases hhit : o.cacheHit with
    | true =>
      obtain ⟨hhits, hmisses⟩ := h.hit o rfl hhit
      omega
    | false =>
      obtain ⟨hhits, hmisses⟩ := h.miss o rfl hhit
      omega

lemma Accounted.counts (h : p.Accounted r) :
    (p.serve r).2.cache.stats.hits + (p.serve r).2.cache.stats.misses =
      p.cache.stats.hits + p.cache.stats.misses + if r.Collects p then 1 else 0 := by
  split
  next hcollects =>
    obtain ⟨⟨dag, hcompile⟩, hfetches⟩ := hcollects
    exact (h.collected dag hcompile hfetches).counts
  next hcollects =>
    cases hcompile : r.plan.compile with
    | error e => rw [h.uncompiled e hcompile, Nat.add_zero]
    | ok dag =>
      have hfetches : ¬ r.Fetches p := fun hfetches => hcollects ⟨⟨dag, hcompile⟩, hfetches⟩
      obtain ⟨f, hserve, -⟩ := h.unfetched dag hcompile hfetches
      rw [hserve, Nat.add_zero]

lemma collects_congr (p : Pipeline) (cache : Cache) (r : PlanRun) :
    r.Collects { p with cache } ↔ r.Collects p := Iff.rfl

lemma serveAll_counts (p : Pipeline) (rs : List PlanRun) :
    (p.serveAll rs).cache.stats.hits + (p.serveAll rs).cache.stats.misses =
      p.cache.stats.hits + p.cache.stats.misses + rs.countP fun r => r.Collects p := by
  induction rs generalizing p with
  | nil => rfl
  | cons r rs ih =>
    have haccounted := p.serve_accounted r
    have hstep := haccounted.counts
    obtain ⟨cache, hafter⟩ := haccounted.settings
    have hrest := ih (p.serve r).2
    rw [hafter] at hrest hstep
    rw [List.countP_cons, serveAll, List.foldl_cons, hafter]
    refine hrest.trans ?_
    rw [hstep]
    simp only [collects_congr, decide_eq_true_eq]
    omega

theorem runs_accounted (p : Pipeline) (rs : List PlanRun) : (∀ r, p.Accounted r) ∧
    (p.serveAll rs).cache.stats.hits + (p.serveAll rs).cache.stats.misses =
      p.cache.stats.hits + p.cache.stats.misses + (rs.countP fun r => r.Collects p) ∧
    ∀ now plan engine fetch, ∃ turns,
      p.run now plan engine fetch = p.serve ⟨plan, engine, fetch, ⟨turns, now, some now⟩⟩ :=
  ⟨p.serve_accounted, p.serveAll_counts rs,
    fun now plan engine fetch => ⟨_, p.run_eq_runIn now plan engine fetch⟩⟩

end Pipeline

end Recombine
