import Recombine.Proofs.Evaluation.Cancellation

namespace Recombine

/-- Where an execution stands: about to look at the flag for the next node, past that look, or at
its end. -/
inductive Execution.Stage
  | checking (computed : Relations) (ids : List String)
  | computing (computed : Relations) (id : String) (ids : List String)
  | ended (result : Except RunError Relations)

structure Execution where
  cancelled : Bool
  stage : Execution.Stage

inductive Execution.Event
  | cancel
  | advance
  deriving DecidableEq

namespace Execution

section

variable (ops : Operators) (d : Dag) (data : Relations)

def start : Execution where
  cancelled := false
  stage := match d.missingScan? data with
    | some id => .ended (.error (.missingScanData id))
    | none => .checking ∅ d.layers.flatten

def compute (computed : Relations) (id : String) (ids : List String) : Stage :=
  match d.node? id with
  | none => .checking computed ids
  | some n =>
    match Dag.nodeValue ops d data computed n with
    | .ok rel => .checking (computed.insert id rel) ids
    | .error e => .ended (.error e)

def advance (x : Execution) : Stage :=
  match x.stage with
  | .checking computed [] => .ended (d.conclude computed)
  | .checking computed (id :: ids) =>
    if x.cancelled then .ended (.error (.cancelled id)) else .computing computed id ids
  | .computing computed id ids => compute ops d data computed id ids
  | .ended result => .ended result

def step (x : Execution) : Event → Execution
  | .cancel => { x with cancelled := true }
  | .advance => { x with stage := advance ops d data x }

def run (events : List Event) : Execution := events.foldl (step ops d data) (start d data)

end

/-- How many looks at the flag come before it is set, if it is. The execution looks at it before
every other step, the first one unless it is past the look. -/
def checksBefore (past : Bool) : List Event → Option Nat
  | [] => none
  | .cancel :: _ => some 0
  | .advance :: events =>
    if past then checksBefore false events else (checksBefore true events).map (· + 1)

def Stage.isPast : Stage → Bool
  | .computing .. => true
  | _ => false

def checksLeft (x : Execution) (events : List Event) : Option Nat :=
  if x.cancelled then some 0 else checksBefore x.stage.isPast events

def outcome (ops : Operators) (d : Dag) (data : Relations) (left : Option Nat) :
    Stage → Except RunError Relations
  | .checking computed ids => Dag.evaluateNodes ops d data left computed ids >>= d.conclude
  | .computing computed id ids =>
    (match d.node? id with
      | none => Dag.evaluateNodes ops d data left computed ids
      | some n => Dag.nodeValue ops d data computed n >>= fun rel =>
        Dag.evaluateNodes ops d data left (computed.insert id rel) ids) >>= d.conclude
  | .ended result => result

variable {ops : Operators} {d : Dag} {data : Relations}

lemma evaluate_eq_outcome (cancelledAt : Option Nat) : d.evaluate ops data cancelledAt =
    outcome ops d data cancelledAt (start d data).stage := by
  rw [Dag.evaluate, start]
  cases d.missingScan? data with
  | some id => rfl
  | none => rfl

lemma outcome_compute (left : Option Nat) (computed : Relations) (id : String)
    (ids : List String) : outcome ops d data left (compute ops d data computed id ids) =
      outcome ops d data left (.computing computed id ids) := by
  rw [compute, outcome]
  cases d.node? id with
  | none => rfl
  | some n =>
    cases hvalue : Dag.nodeValue ops d data computed n with
    | ok rel => simp [hvalue, outcome, bind, Except.bind]
    | error e => simp [hvalue, outcome, bind, Except.bind]

lemma compute_cases (ops : Operators) (d : Dag) (data computed : Relations) (id : String)
    (ids : List String) :
    (∃ computed', compute ops d data computed id ids = .checking computed' ids) ∨
      ∃ result, compute ops d data computed id ids = .ended result := by
  rw [compute]
  split
  · exact Or.inl ⟨_, rfl⟩
  · split
    · exact Or.inl ⟨_, rfl⟩
    · exact Or.inr ⟨_, rfl⟩

lemma isPast_compute (computed : Relations) (id : String) (ids : List String) :
    (compute ops d data computed id ids).isPast = false := by
  rcases compute_cases ops d data computed id ids with
    ⟨_, hstage⟩ | ⟨_, hstage⟩ <;> rw [hstage] <;> rfl

lemma outcome_checking (left : Option Nat) (computed : Relations) (id : String)
    (ids : List String) : outcome ops d data (left.map (· + 1)) (.checking computed (id :: ids)) =
      outcome ops d data left (.computing computed id ids) := by
  have hne : left.map (· + 1) ≠ some 0 := by simp
  have hleft : (left.map (· + 1)).map (· - 1) = left := by simp [Function.comp_def]
  rw [outcome, Dag.evaluateNodes, if_neg hne, hleft]
  rfl

lemma outcome_step (x : Execution) (event : Event) (events : List Event) :
    outcome ops d data ((step ops d data x event).checksLeft events)
      (step ops d data x event).stage =
        outcome ops d data (x.checksLeft (event :: events)) x.stage := by
  -- A step leaves what the execution will come to as it is.
  obtain ⟨cancelled, stage⟩ := x
  cases event with
  | cancel => cases cancelled <;> rfl
  | advance =>
    match stage, cancelled with
    | .checking computed [], _ => rfl
    | .checking computed (id :: ids), true => rfl
    | .checking computed (id :: ids), false => exact (outcome_checking _ computed id ids).symm
    | .computing computed id ids, cancelled =>
      have hleft : checksLeft ⟨cancelled, compute ops d data computed id ids⟩ events =
          checksLeft ⟨cancelled, .computing computed id ids⟩ (.advance :: events) := by
        rw [checksLeft, checksLeft, isPast_compute]
        rfl
      rw [← hleft]
      exact outcome_compute _ computed id ids
    | .ended result, _ => rfl

lemma outcome_run (x : Execution) (events : List Event) {result : Except RunError Relations}
    (h : (events.foldl (step ops d data) x).stage = .ended result) :
    outcome ops d data (x.checksLeft events) x.stage = result := by
  induction events generalizing x with
  | nil =>
    rw [show x.stage = .ended result from h]
    rfl
  | cons event events ih =>
    rw [← outcome_step]
    exact ih _ h

def Stage.remaining : Stage → Nat
  | .checking _ ids => 2 * ids.length + 1
  | .computing _ _ ids => 2 * ids.length + 2
  | .ended _ => 0

lemma remaining_compute (computed : Relations) (id : String) (ids : List String) :
    (compute ops d data computed id ids).remaining ≤ 2 * ids.length + 1 := by
  rcases compute_cases ops d data computed id ids with
    ⟨_, hstage⟩ | ⟨_, hstage⟩ <;> rw [hstage]
  · exact le_rfl
  · exact Nat.zero_le _

lemma remaining_advance (ops : Operators) (d : Dag) (data : Relations) (x : Execution) :
    (advance ops d data x).remaining ≤ x.stage.remaining - 1 := by
  obtain ⟨cancelled, stage⟩ := x
  match stage, cancelled with
  | .checking computed [], _ => exact Nat.zero_le _
  | .checking computed (id :: ids), true => exact Nat.zero_le _
  | .checking computed (id :: ids), false => exact le_rfl
  | .computing computed id ids, _ => exact remaining_compute computed id ids
  | .ended result, _ => exact Nat.zero_le _

lemma remaining_run (ops : Operators) (d : Dag) (data : Relations) (x : Execution)
    (events : List Event) : (events.foldl (step ops d data) x).stage.remaining ≤
      x.stage.remaining - events.count .advance := by
  induction events generalizing x with
  | nil => simp
  | cons event events ih =>
    have hrest := ih (step ops d data x event)
    cases event with
    | cancel => simpa [step] using hrest
    | advance =>
      have hstep := remaining_advance ops d data x
      simp only [step] at hrest
      simp only [List.foldl_cons, List.count_cons_self, step]
      omega

lemma exists_ended {stage : Stage} (h : stage.remaining = 0) : ∃ result, stage = .ended result := by
  cases stage with
  | ended result => exact ⟨result, rfl⟩
  | _ => simp [Stage.remaining] at h

lemma stage_of_ended {x : Execution} {result : Except RunError Relations}
    (h : x.stage = .ended result) (events : List Event) :
    (events.foldl (step ops d data) x).stage = .ended result := by
  induction events generalizing x with
  | nil => exact h
  | cons event events ih =>
    apply ih
    cases event with
    | cancel => exact h
    | advance => rw [step, advance, h]

def Stage.unchecked : Stage → List String
  | .checking _ ids | .computing _ _ ids => ids
  | .ended _ => []

lemma cancelled_iff {x : Execution} {events : List Event} {computed : Relations} {n : String}
    {ids : List String}
    (h : (events.foldl (step ops d data) x).stage = .checking computed (n :: ids)) :
    ∃ done, x.stage.unchecked = done ++ n :: ids ∧
      ((events.foldl (step ops d data) x).cancelled = true ↔
        ∃ k, x.checksLeft events = some k ∧ k ≤ done.length) := by
  induction events generalizing x with
  | nil =>
    rw [List.foldl_nil] at h ⊢
    refine ⟨[], by rw [h]; rfl, ?_⟩
    cases hc : x.cancelled <;> simp [checksLeft, checksBefore, hc]
  | cons event events ih =>
    obtain ⟨done, hdone, hiff⟩ := ih h
    rw [List.foldl_cons]
    obtain ⟨cancelled, stage⟩ := x
    cases event with
    | cancel =>
      refine ⟨done, hdone, hiff.trans ?_⟩
      cases cancelled <;> simp [step, checksLeft, checksBefore]
    | advance =>
      match stage, cancelled with
      | .checking computed [], _ => cases (stage_of_ended rfl events).symm.trans h
      | .checking computed (id :: ids), true => cases (stage_of_ended rfl events).symm.trans h
      | .checking computed (id :: ids), false =>
        refine ⟨id :: done, congrArg (id :: ·) hdone, hiff.trans ?_⟩
        simp [step, advance, checksLeft, checksBefore, Stage.isPast]
      | .computing computed id ids, cancelled =>
        rcases compute_cases ops d data computed id ids with
          ⟨computed', hstage⟩ | ⟨result, hstage⟩
        · simp only [step, advance, hstage] at hdone hiff ⊢
          refine ⟨done, hdone, hiff.trans ?_⟩
          simp [checksLeft, checksBefore, Stage.isPast]
        · cases (stage_of_ended hstage events).symm.trans h
      | .ended result, _ => cases (stage_of_ended rfl events).symm.trans h

lemma isPast_start : (start d data).stage.isPast = false := by
  rw [start]
  cases d.missingScan? data <;> rfl

lemma checksLeft_start (events : List Event) :
    (start d data).checksLeft events = checksBefore false events := by
  rw [checksLeft, isPast_start]
  rfl

lemma remaining_start (h : d.Sound) (data : Relations) :
    (start d data).stage.remaining ≤ 2 * d.nodes.length + 1 := by
  have hlength : d.layers.flatten.length = d.nodes.length := by
    simpa [Dag.nodeIds] using h.layers_isOrder.perm.length_eq
  rw [start]
  cases d.missingScan? data with
  | some id => exact Nat.zero_le _
  | none => simp [Stage.remaining, hlength]

lemma exists_ended_run (h : d.Sound) {events : List Event}
    (hcount : 2 * d.nodes.length < events.count .advance) :
    ∃ result, (run ops d data events).stage = .ended result := by
  have hrun := remaining_run ops d data (start d data) events
  have hstart := remaining_start h data
  apply exists_ended
  rw [run]
  omega

lemma cancelled_run_iff (h : d.Sound) {events : List Event} {computed : Relations} {n : String}
    {ids : List String} (hrun : (run ops d data events).stage = .checking computed (n :: ids)) :
    (run ops d data events).cancelled = true ↔ d.Sees (checksBefore false events) n := by
  obtain ⟨done, hdone, hiff⟩ := cancelled_iff hrun
  have hflatten : d.layers.flatten = done ++ n :: ids := by
    rw [← hdone, start]
    cases hmissing : d.missingScan? data with
    | some id => simp [start, hmissing, Stage.unchecked] at hdone
    | none => rfl
  rw [run, hiff, checksLeft_start]
  constructor
  · rintro ⟨k, hk, hle⟩
    exact ⟨k, done.length, hk, by simp [hflatten], hle⟩
  · rintro ⟨k, i, hk, hi, hle⟩
    refine ⟨k, hk, ?_⟩
    by_contra hlt
    have hnodup := h.flatten_nodup
    rw [hflatten] at hi
    rw [hflatten, List.nodup_append', List.nodup_cons] at hnodup
    obtain ⟨j, rfl⟩ : ∃ j, i = done.length + (j + 1) := ⟨i - done.length - 1, by omega⟩
    rw [List.getElem?_append_right (by omega), Nat.add_sub_cancel_left,
      List.getElem?_cons_succ] at hi
    exact hnodup.2.1.1 (List.mem_of_getElem? hi)

end Execution

theorem Dag.evaluate_cancels {p : Plan} {d : Dag} (hcompile : p.compile = .ok d)
    (ops : Operators) (data : Relations) :
    (∀ cancelledAt, Cancels ops d data cancelledAt (d.evaluate ops data cancelledAt)) ∧
    ∀ events : List Execution.Event,
      (2 * d.nodes.length < events.count .advance →
        ∃ result, (Execution.run ops d data events).stage = .ended result) ∧
      (∀ result, (Execution.run ops d data events).stage = .ended result →
        result = d.evaluate ops data (Execution.checksBefore false events)) ∧
      ∀ computed n ids, (Execution.run ops d data events).stage = .checking computed (n :: ids) →
        ((Execution.run ops d data events).cancelled = true ↔
          d.Sees (Execution.checksBefore false events) n) := by
  obtain ⟨w, rfl⟩ := Plan.compile_eq_ok.mp hcompile
  refine ⟨w.sound.cancels ops data, fun events => ⟨?_, fun result hresult => ?_, ?_⟩⟩
  · exact Execution.exists_ended_run w.sound
  · rw [Execution.evaluate_eq_outcome, ← Execution.checksLeft_start]
    exact (Execution.outcome_run _ events hresult).symm
  · exact fun computed n ids => Execution.cancelled_run_iff w.sound

theorem Dag.evaluate_cancels_unionOfTwo : Plan.unionOfTwo.compile = .ok Plan.unionOfTwo.dag ∧
    (∀ cancelledAt, Cancels RowWise.operators Plan.unionOfTwo.dag rowsOfTwo cancelledAt
      (Plan.unionOfTwo.dag.evaluate RowWise.operators rowsOfTwo cancelledAt)) ∧
    (Execution.run RowWise.operators Plan.unionOfTwo.dag rowsOfTwo
      (.advance :: .cancel :: List.replicate 6 .advance)).stage =
        .ended (.error (.cancelled "b")) := by
  have hcompile : Plan.unionOfTwo.compile = .ok Plan.unionOfTwo.dag :=
    Plan.compile_eq_ok.mpr ⟨Plan.unionOfTwo_wellFormed, rfl⟩
  obtain ⟨hcancels, hruns⟩ := evaluate_cancels hcompile RowWise.operators rowsOfTwo
  obtain ⟨hends, hresult, -⟩ := hruns (.advance :: .cancel :: List.replicate 6 .advance)
  have hlength : Plan.unionOfTwo.dag.nodes.length = 3 :=
    (Plan.dag_nodes_perm (Plan.wellFormed_iff.mp Plan.unionOfTwo_wellFormed).1).length_eq
  have hcancelled : Plan.unionOfTwo.dag.evaluate RowWise.operators rowsOfTwo (some 1) =
      .error (.cancelled "b") := by
    decide_cbv
  obtain ⟨result, hended⟩ := hends (by rw [hlength]; decide)
  refine ⟨hcompile, hcancels, ?_⟩
  rw [hended, hresult result hended]
  exact congrArg _ hcancelled

end Recombine
