import Recombine.Pipeline.Workers
import Recombine.Proofs.Dag.WellFormed
import Recombine.Proofs.Evaluation.Interpretation
import Recombine.Proofs.Pipeline.Collection

/-! What workers collect side by side does not show how many they are and in which order the fetches
have ended. -/

namespace Recombine

open Attempt

namespace Crew

variable {fetch : Scan → Fetch} {items : List (Nat × Scan)} {c : Crew}

def item (e : Completion) : Nat × Scan := (e.place, e.scan)

structure Sound (fetch : Scan → Fetch) (items : List (Nat × Scan)) (c : Crew) : Prop where
  items : (c.waiting ++ c.running ++ c.ended.map item).Perm items
  results : ∀ e ∈ c.ended, fetch e.scan = .ended e.result

lemma sound_ofScans (fetch : Scan → Fetch) (workers : Nat) (scans : List Scan) :
    (ofScans workers scans).Sound fetch (Collection.placed scans) := by
  refine ⟨?_, List.forall_mem_nil _⟩
  rw [ofScans, List.append_nil, List.map_nil, List.append_nil]

lemma append_perm_of_getElem? {α : Type} {as : List α} {place : Nat} {a : α}
    (h : as[place]? = some a) (bs cs : List α) :
    (as.eraseIdx place ++ (bs ++ [a]) ++ cs).Perm (as ++ bs ++ cs) := by
  obtain ⟨hlt, rfl⟩ := List.getElem?_eq_some_iff.mp h
  refine List.Perm.append_right cs ?_
  rw [← List.append_assoc]
  refine (List.perm_append_singleton _ _).trans ?_
  exact (List.getElem_cons_eraseIdx_perm hlt).append_right bs

lemma Sound.start (h : c.Sound fetch items) (place : Nat) : (c.start place).Sound fetch items := by
  rw [Crew.start]
  split
  next => exact h
  next hitem =>
    split
    next => exact ⟨(append_perm_of_getElem? hitem _ _).trans h.items, h.results⟩
    next => exact h

lemma Sound.finish (h : c.Sound fetch items) (place : Nat) :
    (c.finish fetch place).Sound fetch items := by
  rw [Crew.finish]
  split
  next => exact h
  next hitem =>
    split
    next => exact h
    next result hresult =>
      constructor
      · refine List.Perm.trans ?_ h.items
        rw [List.append_assoc, List.append_assoc, List.map_append]
        refine List.Perm.append_left _ ?_
        have hmoved := append_perm_of_getElem? hitem (c.ended.map item) []
        rw [List.append_nil, List.append_nil] at hmoved
        exact hmoved
      · intro e he
        rcases List.mem_append.mp he with he | he
        · exact h.results e he
        · rw [List.mem_singleton.mp he]
          exact hresult

lemma Sound.step (h : c.Sound fetch items) (turn : Turn) :
    (c.step fetch turn).Sound fetch items := by
  cases turn with
  | start place => exact h.start place
  | finish place => exact h.finish place

lemma Sound.run (h : c.Sound fetch items) (turns : List Turn) :
    (c.run fetch turns).Sound fetch items := by
  induction turns generalizing c with
  | nil => exact h
  | cons turn turns ih => exact ih (h.step turn)

lemma workers_run (turns : List Turn) : (c.run fetch turns).workers = c.workers := by
  induction turns generalizing c with
  | nil => rfl
  | cons turn turns ih =>
    refine ih.trans ?_
    cases turn with
    | start place =>
      rw [Crew.step, Crew.start]
      split
      next => rfl
      next => split <;> rfl
    | finish place =>
      rw [Crew.step, Crew.finish]
      split
      next => rfl
      next => split <;> rfl

lemma Sound.isDone_iff (h : c.Sound fetch items) :
    c.isDone = true ↔ c.ended.length = items.length := by
  have hlength := h.items.length_eq
  rw [List.length_append, List.length_append, List.length_map] at hlength
  rw [isDone, Bool.and_eq_true, List.isEmpty_iff_length_eq_zero, List.isEmpty_iff_length_eq_zero]
  omega

lemma Sound.ended_perm (h : c.Sound fetch items) (hdone : c.isDone = true) :
    (c.ended.map item).Perm items := by
  have hperm := h.items
  rw [isDone, Bool.and_eq_true, List.isEmpty_iff, List.isEmpty_iff] at hdone
  rwa [hdone.1, hdone.2] at hperm

section Progress

lemma Sound.exists_turn (h : c.Sound fetch items)
    (hfetch : ∀ item ∈ items, (fetch item.2).Succeeds) (hworkers : 0 < c.workers)
    (hdone : c.isDone = false) : ∃ turn, 2 * (c.step fetch turn).waiting.length +
      (c.step fetch turn).running.length < 2 * c.waiting.length + c.running.length := by
  obtain ⟨workers, waiting, running, ended⟩ := c
  cases running with
  | cons item rest =>
    have hmem : item ∈ items := by
      refine h.items.mem_iff.mp (List.mem_append_left _ (List.mem_append_right _ ?_))
      exact List.mem_cons_self
    refine ⟨.finish 0, ?_⟩
    have hends := (hfetch item hmem).eq
    generalize (fetch item.2).rows = rel at hends
    simp only [Crew.step, Crew.finish, List.getElem?_cons_zero, hends, List.eraseIdx_cons_zero,
      List.length_cons]
    omega
  | nil =>
    cases waiting with
    | nil => cases hdone
    | cons item rest =>
      refine ⟨.start 0, ?_⟩
      replace hworkers : 0 < workers := hworkers
      simp only [Crew.step, Crew.start, List.getElem?_cons_zero, List.length_nil, if_pos hworkers,
        List.eraseIdx_cons_zero, List.length_cons, List.length_append]
      omega

lemma Sound.exists_run (h : c.Sound fetch items)
    (hfetch : ∀ item ∈ items, (fetch item.2).Succeeds) (hworkers : 0 < c.workers) :
    ∃ turns, (c.run fetch turns).isDone = true := by
  generalize hleft : 2 * c.waiting.length + c.running.length = left
  induction left using Nat.strongRecOn generalizing c with
  | _ left ih =>
    cases hdone : c.isDone with
    | true => exact ⟨[], hdone⟩
    | false =>
      obtain ⟨turn, hturn⟩ := h.exists_turn hfetch hworkers hdone
      have hworkers' : 0 < (c.step fetch turn).workers :=
        (workers_run (c := c) [turn]).symm ▸ hworkers
      obtain ⟨turns, hturns⟩ := ih _ (hleft ▸ hturn) (h.step turn) hworkers' rfl
      exact ⟨turn :: turns, hturns⟩

end Progress

section Results

variable {scans : List Scan} {limit : Nat}

lemma fetched_eq_ok {es : List Completion} {fs : List Fetched}
    (h : ∀ e ∈ es, fetch e.scan = .ended e.result) : fetched es = .ok fs ↔
      (∀ e ∈ es, (fetch e.scan).Succeeds) ∧
        es.map (fun e => Collection.found (fun s => (fetch s).rows) (item e)) = fs := by
  induction es generalizing fs with
  | nil =>
    constructor
    · intro hfs
      exact ⟨List.forall_mem_nil _, Except.ok.inj hfs⟩
    · rintro ⟨-, rfl⟩
      rfl
  | cons e es ih =>
    obtain ⟨he, hes⟩ := List.forall_mem_cons.mp h
    rw [Collection.fetched_cons, List.forall_mem_cons, List.map_cons]
    constructor
    · rintro ⟨rel, gs, hrel, hgs, rfl⟩
      obtain ⟨hall, rfl⟩ := (ih hes).mp hgs
      rw [hrel] at he
      refine ⟨⟨⟨rel, he⟩, hall⟩, ?_⟩
      rw [Collection.found, item, he]
      rfl
    · rintro ⟨⟨hsucceeds, hall⟩, rfl⟩
      exact ⟨_, _, Fetch.ended.inj (he.symm.trans hsucceeds.eq), (ih hes).mpr ⟨hall, rfl⟩, rfl⟩

lemma Sound.within_eq_ok (h : c.Sound fetch (Collection.placed scans)) {collection : Collection} :
    Collection.within limit scans.length c.ended = .ok collection ↔
      (c.isDone = true ∧ ∀ s ∈ scans, (fetch s).Succeeds) ∧
        .ofScans scans (fun s => (fetch s).rows) = collection := by
  have hdone := h.isDone_iff
  rw [Collection.length_placed] at hdone
  have hscans (hdone : c.isDone = true) :
      (∀ e ∈ c.ended, (fetch e.scan).Succeeds) ↔ ∀ s ∈ scans, (fetch s).Succeeds := by
    rw [← Collection.forall_placed (P := fun s => (fetch s).Succeeds)]
    simp only [← (h.ended_perm hdone).mem_iff]
    rw [List.forall_mem_map]
    rfl
  have hfound (hdone : c.isDone = true) : Collection.ofFetched
      (c.ended.map fun e => Collection.found (fun s => (fetch s).rows) (item e)) =
        .ofScans scans fun s => (fetch s).rows := by
    refine Collection.ofFetched_of_perm ?_
    have hperm := (h.ended_perm hdone).map (Collection.found fun s => (fetch s).rows)
    rwa [List.map_map] at hperm
  rw [Collection.within_eq_ok, Collection.ofCompletions_eq_ok]
  simp only [fetched_eq_ok h.results]
  constructor
  · rintro ⟨fs, ⟨⟨hall, rfl⟩, hlength⟩, rfl⟩
    rw [List.length_map] at hlength
    have hdone' := hdone.mpr hlength
    exact ⟨⟨hdone', (hscans hdone').mp hall⟩, (hfound hdone').symm⟩
  · rintro ⟨⟨hdone', hall⟩, rfl⟩
    refine ⟨_, ⟨⟨(hscans hdone').mpr hall, rfl⟩, ?_⟩, hfound hdone'⟩
    rw [List.length_map]
    exact hdone.mp hdone'

lemma Sound.within_eq_error (h : c.Sound fetch (Collection.placed scans)) {f : Failure}
    (herror : Collection.within limit scans.length c.ended = .error f) :
    (∃ s ∈ scans, fetch s = .ended (.error f)) ∨
      (f = .timeout (Pipeline.timeoutReason limit) ∧ c.isDone = false) := by
  rcases bind_eq_error.mp herror with herror | ⟨found, hfound, herror⟩
  · rcases bind_eq_error.mp herror with herror | ⟨fs, -, herror⟩
    · obtain ⟨e, he, hresult⟩ := mapM_eq_error herror
      have hmem := h.items.mem_iff.mp (List.mem_append_right _ (List.mem_map_of_mem he))
      have hended := h.results e he
      rw [map_eq_error.mp hresult] at hended
      exact Or.inl ⟨e.scan, (List.of_mem_zip hmem).2, hended⟩
    · cases herror
  · cases found with
    | some collection => cases herror
    | none =>
      refine Or.inr ⟨(Except.error.inj herror).symm, Bool.eq_false_iff.mpr fun hdone => ?_⟩
      obtain ⟨fs, hfs, hlength⟩ := bind_eq_ok.mp hfound
      have hall := h.isDone_iff.mp hdone
      rw [Collection.length_placed, ← Collection.length_fetched hfs] at hall
      rw [if_pos hall] at hlength
      cases hlength

end Results

section InTurn

lemma run_inTurn_of_full (hfull : c.workers ≤ c.running.length) (stalled : Nat)
    (hstalled : c.running.length ≤ stalled) : c.run fetch (inTurn fetch stalled items) = c := by
  have hstart : c.step fetch (.start 0) = c := by
    rw [Crew.step, Crew.start]
    split
    next => rfl
    next => exact if_neg (Nat.not_lt.mpr hfull)
  induction items generalizing stalled with
  | nil => rfl
  | cons item items ih =>
    have hfinish : c.step fetch (.finish stalled) = c := by
      rw [Crew.step, Crew.finish, List.getElem?_eq_none hstalled]
    rw [inTurn]
    split
    next =>
      rw [Crew.run, List.foldl_cons, List.foldl_cons, hstart, hfinish]
      exact ih stalled hstalled
    next =>
      rw [Crew.run, List.foldl_cons, hstart]
      exact ih (stalled + 1) (Nat.le_succ_of_le hstalled)

lemma step_start {waits : Nat × Scan} (hwaiting : c.waiting = waits :: items)
    (hfree : c.running.length < c.workers) : c.step fetch (.start 0) =
      { c with waiting := items, running := c.running ++ [waits] } := by
  rw [Crew.step, Crew.start, hwaiting]
  exact if_pos hfree

lemma step_finish {last : Nat × Scan} {result : Except Failure Relation}
    (hrunning : c.running = items ++ [last]) (hended : fetch last.2 = .ended result) :
    c.step fetch (.finish items.length) =
      { c with running := items, ended := c.ended ++ [⟨last.1, last.2, result⟩] } := by
  have hrest : (items ++ [last]).eraseIdx items.length = items := by
    rw [List.eraseIdx_append_of_length_le le_rfl, Nat.sub_self, List.eraseIdx_cons_zero,
      List.append_nil]
  rw [Crew.step, Crew.finish, hrunning, List.getElem?_concat_length]
  dsimp only
  rw [hended, hrest]

lemma ended_run_inTurn (hwaiting : c.waiting = items) :
    (c.run fetch (inTurn fetch c.running.length items)).ended =
      c.ended ++ completions fetch (c.workers - c.running.length) items := by
  -- By induction on the fetches that wait; those under way are the ones that have stalled.
  induction items generalizing c with
  | nil =>
    rw [completions, List.append_nil]
    rfl
  | cons item items ih =>
    rcases Nat.lt_or_ge c.running.length c.workers with hlt | hfull
    · obtain ⟨workers, hworkers⟩ := Nat.exists_eq_add_of_lt hlt
      have hfree : c.workers - c.running.length = workers + 1 := by omega
      rw [inTurn, hfree, completions]
      cases hfetch : fetch item.2 with
      | ended result =>
        dsimp only
        rw [Crew.run, List.foldl_cons, List.foldl_cons, step_start hwaiting hlt,
          step_finish rfl hfetch]
        refine (ih rfl).trans ?_
        dsimp only
        rw [hfree, List.append_assoc]
        rfl
      | stalled =>
        dsimp only
        rw [Crew.run, List.foldl_cons, step_start hwaiting hlt]
        have hrest := ih (c := { c with waiting := items, running := c.running ++ [item] }) rfl
        dsimp only at hrest
        rw [List.length_append, List.length_singleton] at hrest
        refine hrest.trans ?_
        rw [Nat.sub_add_eq, hfree, Nat.add_sub_cancel]
    · have hnone : completions fetch 0 (item :: items) = [] := rfl
      rw [run_inTurn_of_full hfull _ le_rfl, Nat.sub_eq_zero_of_le hfull, hnone, List.append_nil]

end InTurn

end Crew

namespace Pipeline

variable {p : Pipeline} {plan : Plan} {fetch : Scan → Fetch}

lemma sound_crew (p : Pipeline) (scans : List Scan) (fetch : Scan → Fetch) (turns : List Turn) :
    ((p.crew scans).run fetch turns).Sound fetch (Collection.placed scans) :=
  (Crew.sound_ofScans fetch _ scans).run turns

lemma ended_crew_inTurn (p : Pipeline) (scans : List Scan) (fetch : Scan → Fetch) :
    ((p.crew scans).run fetch (Crew.inTurn fetch 0 (Collection.placed scans))).ended =
      completions fetch (p.crew scans).workers (Collection.placed scans) :=
  Crew.ended_run_inTurn rfl

lemma collect_eq (p : Pipeline) (scans : List Scan) (fetch : Scan → Fetch) :
    p.collect scans fetch = Collection.within p.limit scans.length
      ((p.crew scans).run fetch (Crew.inTurn fetch 0 (Collection.placed scans))).ended := by
  rw [ended_crew_inTurn]
  rfl

lemma collect_eq_ok_iff {scans : List Scan} {collection : Collection} :
    p.collect scans fetch = .ok collection ↔ (∀ s ∈ scans, (fetch s).Succeeds) ∧
      .ofScans scans (fun s => (fetch s).rows) = collection := by
  have hsound := p.sound_crew scans fetch (Crew.inTurn fetch 0 (Collection.placed scans))
  have hdone (hall : ∀ s ∈ scans, (fetch s).Succeeds) : ((p.crew scans).run fetch
      (Crew.inTurn fetch 0 (Collection.placed scans))).isDone = true := by
    rw [hsound.isDone_iff, ended_crew_inTurn]
    exact Collection.length_completions (Nat.le_max_left 1 _) (Collection.forall_placed.mpr hall)
  rw [collect_eq, hsound.within_eq_ok]
  constructor
  · rintro ⟨⟨-, hall⟩, heq⟩
    exact ⟨hall, heq⟩
  · rintro ⟨hall, heq⟩
    exact ⟨⟨hdone hall, hall⟩, heq⟩

lemma collect_eq_ok {data : Relations} {scans : List Scan} {collection : Collection}
    (hids : (scans.map Scan.id).Nodup) :
    p.collect scans (Fetch.ofRelations data) = .ok collection ↔
      (∀ s ∈ scans, data.contains s.id = true) ∧ .ofRelations scans data = collection := by
  simp only [collect_eq_ok_iff, Collection.ofRelations_succeeds, Collection.rows_ofRelations]
  constructor
  · rintro ⟨hdata, rfl⟩
    exact ⟨hdata, (Collection.ofScans_rows hids hdata).symm⟩
  · rintro ⟨hdata, rfl⟩
    exact ⟨hdata, Collection.ofScans_rows hids hdata⟩

lemma prepare_eq_prepareIn (p : Pipeline) (plan : Plan) (engine : Option Engine)
    (fetch : Scan → Fetch) : p.prepare plan engine fetch =
      p.prepareIn (Crew.inTurn fetch 0 (Collection.placed plan.scans)) plan engine fetch := by
  rw [prepare, prepareIn]
  cases plan.compile with
  | error e => rfl
  | ok dag =>
    dsimp only
    rw [collect_eq]

lemma runIn_of_prepared {turns : List Turn} {engine : Option Engine} {job : Job}
    (hprepared : p.prepareIn turns plan engine fetch = .ok job) (now : Nat) :
    p.runIn ⟨turns, now, some now⟩ plan engine fetch = p.answer now job := by
  rw [runIn, answer]
  dsimp only
  rw [hprepared]
  dsimp only
  generalize p.lookUp now job = found
  obtain ⟨_ | outputs, q⟩ := found <;> rfl

lemma run_eq_runIn (p : Pipeline) (now : Nat) (plan : Plan) (engine : Option Engine)
    (fetch : Scan → Fetch) : p.run now plan engine fetch =
      p.runIn ⟨Crew.inTurn fetch 0 (Collection.placed plan.scans), now, some now⟩ plan engine
        fetch := by
  rw [run, prepare_eq_prepareIn]
  cases hprepared :
    p.prepareIn (Crew.inTurn fetch 0 (Collection.placed plan.scans)) plan engine fetch with
  | error f =>
    rw [runIn]
    dsimp only
    rw [hprepared]
  | ok job => rw [runIn_of_prepared hprepared]

lemma answer_of_workers (p : Pipeline) (workers : Option Nat) (now : Nat) (job : Job) :
    (({ p with workers } : Pipeline).answer now job).1 = (p.answer now job).1 := by
  rw [answer, answer, lookUp, lookUp]
  dsimp only
  cases (p.cache.get now job.key).1 with
  | some outputs => rfl
  | none =>
    dsimp only
    rw [finish, finish]
    cases job.evaluate <;> rfl

def gather (p : Pipeline) (plan : Plan) (dag : Dag) (engine : Option Engine)
    (fetch : Scan → Fetch) : Job :=
  ⟨dag, engine.getD p.engine, .ofScans plan.scans fun s => (fetch s).rows⟩

section Successes

variable {dag : Dag} (hcompile : plan.compile = .ok dag)
  (hfetch : ∀ s ∈ plan.scans, (fetch s).Succeeds)

include hcompile hfetch

lemma prepareIn_of_succeeds (p : Pipeline) (turns : List Turn) (engine : Option Engine) :
    p.prepareIn turns plan engine fetch =
      if ((p.crew plan.scans).run fetch turns).isDone then .ok (p.gather plan dag engine fetch)
      else .error (.timeout (timeoutReason p.limit)) := by
  have hsound := p.sound_crew plan.scans fetch turns
  rw [prepareIn, hcompile]
  dsimp only
  split
  next hdone => rw [hsound.within_eq_ok.mpr ⟨⟨hdone, hfetch⟩, rfl⟩]; rfl
  next hdone =>
    cases hwithin : Collection.within p.limit plan.scans.length
        ((p.crew plan.scans).run fetch turns).ended with
    | ok collection => exact absurd (hsound.within_eq_ok.mp hwithin).1.1 hdone
    | error f =>
      rcases hsound.within_eq_error hwithin with ⟨s, hs, hended⟩ | ⟨rfl, -⟩
      · obtain ⟨rel, hrel⟩ := hfetch s hs
        cases hended.symm.trans hrel
      · rfl

lemma run_of_succeeds (p : Pipeline) (now : Nat) (engine : Option Engine) :
    p.run now plan engine fetch = p.answer now (p.gather plan dag engine fetch) := by
  rw [run, prepare, hcompile]
  dsimp only
  rw [collect_eq_ok_iff.mpr ⟨hfetch, rfl⟩]
  rfl

end Successes

end Pipeline

lemma Plan.scanIds_nodup {p : Plan} {dag : Dag} (h : p.compile = .ok dag) :
    (p.scans.map Scan.id).Nodup := by
  obtain ⟨w, -⟩ := compile_eq_ok.mp h
  exact (List.nodup_append'.mp (List.nodup_append'.mp w.ids).1).1

/-- The job that a run makes of a compiled plan whose fetches succeed. It is the same however many
workers there are and in whichever order they end the fetches, and they always can end them. -/
structure Gathered (p : Pipeline) (plan : Plan) (dag : Dag) (engine : Option Engine)
    (fetch : Scan → Fetch) (job : Job) : Prop where
  graph : job.dag = dag
  relations : ∀ s ∈ plan.scans, job.collection.relations.get? s.id = some (fetch s).rows
  ids : job.collection.relations.keys.Perm (plan.scans.map Scan.id)
  reports : job.collection.reports =
    plan.scans.map fun s => ⟨s.id, s.source, (fetch s).rows.length⟩
  ends : ∀ workers turns, ∃ more,
    ((({ p with workers } : Pipeline).crew plan.scans).run fetch (turns ++ more)).isDone = true
  prepared : ∀ workers turns, ({ p with workers } : Pipeline).prepareIn turns plan engine fetch =
    if ((({ p with workers } : Pipeline).crew plan.scans).run fetch turns).isDone then .ok job
    else .error (.timeout (Pipeline.timeoutReason p.limit))
  answered : ∀ workers turns now,
    ((({ p with workers } : Pipeline).crew plan.scans).run fetch turns).isDone = true →
      (({ p with workers } : Pipeline).runIn ⟨turns, now, some now⟩ plan engine fetch).1 =
        (p.run now plan engine fetch).1

theorem gathered_of_compile {plan : Plan} {dag : Dag} {fetch : Scan → Fetch}
    (hcompile : plan.compile = .ok dag) (hfetch : ∀ s ∈ plan.scans, (fetch s).Succeeds)
    (p : Pipeline) (engine : Option Engine) :
    Gathered p plan dag engine fetch (p.gather plan dag engine fetch) := by
  have hids := Plan.scanIds_nodup hcompile
  have hprepared (workers : Option Nat) (turns : List Turn) :=
    Pipeline.prepareIn_of_succeeds hcompile hfetch { p with workers } turns engine
  constructor
  case graph => rfl
  case relations => exact fun s hs => (Collection.get?_ofScans hids).mpr ⟨s, hs, rfl⟩
  case ids => exact Collection.keys_ofScans_perm hids _
  case reports => rfl
  case ends =>
    intro workers turns
    have hsound := Pipeline.sound_crew { p with workers } plan.scans fetch turns
    have hworkers : 0 < ((Pipeline.crew { p with workers } plan.scans).run fetch turns).workers :=
      (Crew.workers_run turns).symm ▸ Nat.le_max_left 1 _
    obtain ⟨more, hmore⟩ := hsound.exists_run (Collection.forall_placed.mpr hfetch) hworkers
    refine ⟨more, ?_⟩
    rw [Crew.run, List.foldl_append]
    exact hmore
  case prepared => exact hprepared
  case answered =>
    intro workers turns now hdone
    have hrun := (hprepared workers turns).trans (if_pos hdone)
    rw [Pipeline.runIn_of_prepared hrun, Pipeline.run_of_succeeds hcompile hfetch]
    exact p.answer_of_workers workers now _

theorem gathered_unionOfTwo :
    Plan.unionOfTwo.compile = .ok Plan.unionOfTwo.dag ∧
    (∀ s ∈ Plan.unionOfTwo.scans, (Fetch.ofRelations Dag.rowsOfTwo s).Succeeds) ∧
    Gathered {} Plan.unionOfTwo Plan.unionOfTwo.dag (some .columnar)
      (Fetch.ofRelations Dag.rowsOfTwo) (Pipeline.gather {} Plan.unionOfTwo Plan.unionOfTwo.dag
        (some .columnar) (Fetch.ofRelations Dag.rowsOfTwo)) := by
  have hcompile : Plan.unionOfTwo.compile = .ok Plan.unionOfTwo.dag :=
    Plan.compile_eq_ok.mpr ⟨Plan.unionOfTwo_wellFormed, rfl⟩
  have hfetch : ∀ s ∈ Plan.unionOfTwo.scans, (Fetch.ofRelations Dag.rowsOfTwo s).Succeeds := by
    simp only [Collection.ofRelations_succeeds]
    decide
  exact ⟨hcompile, hfetch, gathered_of_compile hcompile hfetch {} (some .columnar)⟩

end Recombine
