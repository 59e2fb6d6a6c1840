import HealthMonitor.Proofs.Probe.Tags

/-!
# Candid outcomes

Plain symptoms, typed causes and texts never make a success of a failure, nor do they leave it
undecided. A tag can do both, for it is taken as it stands, whatever category it names. An outcome
is `Candid` when no failure shows such a tag, and just then its verdict is what a reader takes it
for: `ok` exactly for a success, and never `unknown` (`candid_iff`).
-/

namespace HealthMonitor

/-- A verdict that only a failed check gets. -/
def Verdict.SaysFailed (v : Verdict) : Prop :=
  v.category ≠ .ok ∧ v.category ≠ .unknown

instance (v : Verdict) : Decidable v.SaysFailed :=
  inferInstanceAs (Decidable (_ ∧ _))

/-- Every tag that a failure shows is one of a failed check. -/
def Failure.Candid (f : Failure) : Prop :=
  ∀ category detail message, f.Shows (.classified category detail message) →
    Verdict.SaysFailed ⟨category, detail⟩

/-- An outcome is a success, or a failure without a misleading tag. -/
def Candid (o : Outcome) : Prop :=
  ∀ f, o = .error f → f.Candid

/-- Each of the three plain symptoms says that the check has failed. -/
theorem Verdict.saysFailed_of_ofSymptom? {f : Failure} {v : Verdict} (h : ofSymptom? f = some v) :
    v.SaysFailed := by
  unfold ofSymptom? at h
  split at h
  next => exact Option.some.inj h ▸ (by decide : timeout.SaysFailed)
  next => exact Option.some.inj h ▸ (by decide : refused.SaysFailed)
  next => exact Option.some.inj h ▸ (by decide : unhealthy.SaysFailed)
  next => cases h

/-- The rules for causes are gone through in their order; each of them says that the check has
failed, and so does the verdict that is left when none applies. -/
theorem Verdict.saysFailed_ofTypedCauses (causes : List Cause) :
    (ofTypedCauses causes).SaysFailed := by
  unfold ofTypedCauses
  split_ifs with deadline unresolved connection late handshake words
  · exact (by decide : timeout.SaysFailed)
  · exact (by decide : dns.SaysFailed)
  · exact (by decide : refused.SaysFailed)
  · exact (by decide : timeout.SaysFailed)
  · exact (by decide : tls.SaysFailed)
  · exact (by decide : tls.SaysFailed)
  · exact (by decide : error.SaysFailed)

/-- A verdict that no tag has given says that the check has failed. -/
theorem Verdict.saysFailed_of_no_tag {f : Failure} (untagged : ¬ f.ShowsTag) :
    (ofFailure f).SaysFailed := by
  have hseen : (f.causes.filterMap Cause.failure?).findSome? ofTag? = none :=
    List.findSome?_eq_none_iff.2 fun t ht => Failure.ofTag?_of_hidden untagged ht
  simp only [ofFailure, hseen]
  split
  next v hv =>
    obtain ⟨t, -, symptom⟩ := List.exists_of_findSome?_eq_some hv
    exact saysFailed_of_ofSymptom? symptom
  next => exact saysFailed_ofTypedCauses f.causes

theorem Failure.candid_iff {f : Failure} : f.Candid ↔ (Verdict.ofFailure f).SaysFailed := by
  constructor
  · intro candid
    by_cases tagged : f.ShowsTag
    · obtain ⟨category, detail, message, shows⟩ := tagged
      rw [shows.verdict]
      exact candid category detail message shows
    · exact Verdict.saysFailed_of_no_tag tagged
  · intro failed category detail message shows
    rwa [shows.verdict] at failed

/-- **A verdict says what has become of a check just if its outcome is candid.** -/
theorem candid_iff (o : Outcome) :
    Candid o ↔
      ((Verdict.ofOutcome o).category = .ok ↔ o = .ok ()) ∧
        (Verdict.ofOutcome o).category ≠ .unknown := by
  cases o with
  | ok => simp [Candid, Verdict.ofOutcome, Verdict.ok]
  | error f => simp [Candid, Verdict.ofOutcome, Failure.candid_iff, Verdict.SaysFailed]

end HealthMonitor
