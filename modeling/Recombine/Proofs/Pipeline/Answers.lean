import Recombine.Pipeline.Basic
import Recombine.Proofs.Cache.Entries

namespace Recombine

namespace Job

def fresh (j : Job) (cacheHit : Bool) : Except Failure Outcome :=
  match j.evaluate with
  | .error e => .error (.ofRun e)
  | .ok outputs => .ok (j.outcome outputs cacheHit)

lemma fresh_of_evaluate {j : Job} {outputs : Relations} (h : j.evaluate = .ok outputs)
    (cacheHit : Bool) : j.fresh cacheHit = .ok (j.outcome outputs cacheHit) := by
  rw [fresh, h]

end Job

namespace Pipeline

variable {p : Pipeline} {now now' : Nat} {job : Job} {outputs : Relations}

lemma lookUp_of_cache (p : Pipeline) (cache : Cache) (now : Nat) (job : Job) :
    ({ p with cache } : Pipeline).lookUp now job =
      ((cache.get now job.key).1, { p with cache := (cache.get now job.key).2 }) := rfl

lemma answer_settings (p : Pipeline) (now : Nat) (job : Job) :
    ∃ cache, (p.answer now job).2 = { p with cache } := by
  rw [answer, lookUp]
  dsimp only
  cases (p.cache.get now job.key).1 with
  | some outputs => exact ⟨_, rfl⟩
  | none =>
    dsimp only
    rw [finish]
    cases job.evaluate <;> exact ⟨_, rfl⟩

lemma answer_of_missed (hmissed : p.cache.entries.get? job.key = none)
    (hevaluate : job.evaluate = .ok outputs) :
    p.answer now job = (.ok (job.outcome outputs false), { p with
      cache := (p.cache.get now job.key).2.put now job.key outputs none }) := by
  have hget : (p.cache.get now job.key).1 = none := by
    rw [Cache.get, hmissed]
  rw [answer, lookUp]
  dsimp only
  rw [hget]
  dsimp only
  rw [finish, hevaluate]

lemma answer_again (hcapacity : p.cache.capacity ≠ 0) (hlifetime : now' - now ≤ p.cache.lifetime)
    (hmissed : p.cache.entries.get? job.key = none) (hevaluate : job.evaluate = .ok outputs) :
    ((p.answer now job).2.answer now' job).1 = .ok (job.outcome outputs true) := by
  obtain ⟨hcapacity', hlifetime'⟩ := p.cache.get_settings now job.key
  have hfound : (((p.cache.get now job.key).2.put now job.key outputs none).get now' job.key).1 =
      some outputs := by
    apply Cache.get_put (hcapacity'.trans_ne hcapacity)
    rw [Option.getD_none, hlifetime']
    exact hlifetime
  rw [answer_of_missed hmissed hevaluate, answer, lookUp_of_cache, hfound]

end Pipeline

end Recombine
