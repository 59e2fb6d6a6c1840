import HealthMonitor.Health.State
import HealthMonitor.Proofs.Metrics.Changes

/-!
# What checks leave behind

The reference for everything that is kept of an endpoint is the list of the outcomes of its checks.
`Tracker.ofOutcomes` folds it to a health, `Verdict.last` is the verdict on the last of it, and
`EndpointState.Reflects` says that a state is what it leads to. `Published` is what the exporter has
been told of an endpoint, and `Published.ofOutcomes` what it should have been told.
-/

namespace HealthMonitor

/-- The health of an endpoint after some outcomes. -/
def Tracker.ofOutcomes (plan : CheckPlan) (outcomes : List Outcome) : Tracker :=
  (Tracker.fresh plan.failureThreshold plan.successThreshold).recordAll
    (outcomes.map fun o => (Verdict.ofOutcome o).isOk)

/-- The verdict on the last of some outcomes. -/
def Verdict.last (outcomes : List Outcome) : Verdict :=
  (outcomes.getLast?.map Verdict.ofOutcome).getD Verdict.unknown

namespace Tracker

theorem record_healthy_isSome (t : Tracker) (success : Bool) :
    (t.record success).2.healthy.isSome = true := by
  unfold record
  cases h : t.healthy with
  | none => rfl
  | some healthy =>
    simp only [judge]
    split
    · rfl
    · split <;> rfl

theorem ofOutcomes_concat (plan : CheckPlan) (outcomes : List Outcome) (o : Outcome) :
    ofOutcomes plan (outcomes ++ [o]) =
      ((ofOutcomes plan outcomes).record (Verdict.ofOutcome o).isOk).2 := by
  simp [ofOutcomes, recordAll, List.foldl_append]

/-- After an outcome there is a health. -/
theorem ofOutcomes_healthy_isSome (plan : CheckPlan) (outcomes : List Outcome) (o : Outcome) :
    (ofOutcomes plan (outcomes ++ [o])).healthy.isSome = true := by
  rw [ofOutcomes_concat]
  exact record_healthy_isSome _ _

end Tracker

@[simp] theorem Verdict.last_concat (outcomes : List Outcome) (o : Outcome) :
    Verdict.last (outcomes ++ [o]) = Verdict.ofOutcome o := by
  simp [Verdict.last]

namespace EndpointState

/-- A state is what some outcomes lead to. -/
structure Reflects (s : EndpointState) (plan : CheckPlan) (outcomes : List Outcome) : Prop where
  tracker : s.tracker = Tracker.ofOutcomes plan outcomes
  verdict : s.verdict = Verdict.last outcomes
  unchecked : outcomes = [] → s.latency = Span.zero ∧ s.checkedAt = none
  checked : outcomes ≠ [] → 0 < s.latency.nanos ∧ s.checkedAt.isSome = true

theorem reflects_fresh (plan : CheckPlan) : (fresh plan).Reflects plan [] where
  tracker := rfl
  verdict := rfl
  unchecked _ := ⟨rfl, rfl⟩
  checked h := absurd rfl h

/-- **To record the verdict on an outcome is to take the outcome in.** -/
theorem Reflects.record {s : EndpointState} {plan : CheckPlan} {outcomes : List Outcome}
    (h : s.Reflects plan outcomes) (o : Outcome) {latency : Span} (positive : 0 < latency.nanos)
    (stamp : Stamp) :
    (s.record (Verdict.ofOutcome o) latency stamp).2.Reflects plan (outcomes ++ [o]) where
  tracker := by rw [Tracker.ofOutcomes_concat, ← h.tracker]; rfl
  verdict := (Verdict.last_concat outcomes o).symm
  unchecked hnil := by simp at hnil
  checked _ := ⟨positive, rfl⟩

end EndpointState

/-- What the exporter has been told of an endpoint, as far as it has been told anything. -/
structure Published where
  latencies : Nat
  category : Option Category
  detail : Option String
  health : Option Bool
  deriving DecidableEq, Repr

namespace Published

def nothing : Published := ⟨0, none, none, none⟩

/-- What has been published after one more change at the label values of the endpoint. -/
def after (p : Published) : Exporter.Change → Published
  | .latency _ => { p with latencies := p.latencies + 1 }
  | .status category => { p with category := some category }
  | .detail text => { p with detail := some text }
  | .health healthy => { p with health := some healthy }
  | .cleared _ => p

/-- What is to be published of some outcomes: a latency of each, the verdict on the last and the
health after all of them. -/
def ofOutcomes (plan : CheckPlan) (outcomes : List Outcome) : Published where
  latencies := outcomes.length
  category := outcomes.getLast?.map fun o => (Verdict.ofOutcome o).category
  detail := outcomes.getLast?.map fun o => (Verdict.ofOutcome o).detail
  health := (Tracker.ofOutcomes plan outcomes).healthy

@[simp] theorem ofOutcomes_nil (plan : CheckPlan) : ofOutcomes plan [] = nothing := rfl

end Published

end HealthMonitor
