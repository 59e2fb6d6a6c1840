import HealthMonitor.Proofs.Probe.Tags

/-!
# Context lines

A report can be put under more context lines, and they stand in front of all the causes that it had
before. A line is a text: it carries no failure, no operation and no timer, so only the last of the
rules, the one that listens to texts, can hear it. That rule is asked when all others have passed,
and without it `Verdict.error` is what is left. So a line that speaks of a handshake turns just this
verdict into a failed handshake, and any other line changes nothing (`verdict_under_lines`). A tag
may name `Verdict.error` as well; that one was told, it is not what is left, and it stays.
-/

namespace HealthMonitor

/-! ### What a line is not -/

/-- A test that no text passes is decided by the causes behind the lines. -/
theorem any_contextCauses_append {p : Cause → Bool} (deaf : ∀ s, p (.text s) = false)
    (lines : List String) (causes : List Cause) :
    (contextCauses lines ++ causes).any p = causes.any p := by
  have hlines : (contextCauses lines).any p = false := by simp [contextCauses, deaf]
  rw [List.any_append, hlines, Bool.false_or]

theorem any_speaksOfTls_contextCauses (lines : List String) :
    ((contextCauses lines).any fun c => Cause.speaksOfTls c.message) =
      lines.any Cause.speaksOfTls := by
  simp [contextCauses, Cause.message, Function.comp_def]

/-- More lines stand in front of those that were there. -/
theorem contextCauses_append (contexts lines : List String) :
    contextCauses (contexts ++ lines) = contextCauses lines ++ contextCauses contexts := by
  simp [contextCauses]

/-- Lines have no part in what is seen of a report. -/
theorem Failure.seen_wrapped (root : RootCause) (contexts : List String) :
    (wrapped root contexts).seen = root.causes.filterMap Cause.failure? := by
  rw [seen, causes, List.filterMap_append, filterMap_contextCauses, List.nil_append]

/-! ### What is left -/

/-- A failure shows a tag just if one is found among its causes. -/
theorem Failure.showsTag_iff {f : Failure} :
    f.ShowsTag ↔ (f.seen.findSome? Verdict.ofTag?).isSome := by
  constructor
  · rintro ⟨category, detail, message, shows⟩
    exact List.findSome?_isSome_iff.2 ⟨_, mem_seen_iff.2 shows, rfl⟩
  · intro found
    by_contra hidden
    have hnone : f.seen.findSome? Verdict.ofTag? = none :=
      List.findSome?_eq_none_iff.2 fun t ht => ofTag?_of_hidden hidden ht
    simp [hnone] at found

instance (f : Failure) : Decidable f.ShowsTag :=
  decidable_of_iff _ Failure.showsTag_iff.symm

/-- A failure of which nothing is known: no tag is shown, and no rule applies. -/
def Failure.Untold (f : Failure) : Prop :=
  ¬ f.ShowsTag ∧ Verdict.ofFailure f = .error

instance (f : Failure) : Decidable f.Untold :=
  inferInstanceAs (Decidable (_ ∧ _))

theorem Verdict.ne_error_of_ofSymptom? {f : Failure} {v : Verdict} (h : ofSymptom? f = some v) :
    v ≠ .error := by
  unfold ofSymptom? at h
  split at h <;> cases h <;> decide

/-- Of the rules for causes, the last one alone hears lines. -/
theorem Verdict.ofTypedCauses_under_lines (lines : List String) (causes : List Cause) :
    ofTypedCauses (contextCauses lines ++ causes) =
      if lines.any Cause.speaksOfTls ∧ ofTypedCauses causes = .error then .tls
      else ofTypedCauses causes := by
  have hkind (k : IoKind) :
      ((contextCauses lines ++ causes).any fun c => c.ioKind? = some k) =
        causes.any fun c => c.ioKind? = some k :=
    any_contextCauses_append (fun _ => rfl) lines causes
  have hearing : ((contextCauses lines ++ causes).any fun c => Cause.speaksOfTls c.message) =
      (lines.any Cause.speaksOfTls || causes.any fun c => Cause.speaksOfTls c.message) := by
    rw [List.any_append, any_speaksOfTls_contextCauses]
  unfold ofTypedCauses
  rw [any_contextCauses_append (p := Cause.isDeadline) fun _ => rfl,
    any_contextCauses_append (p := Cause.isDns) fun _ => rfl, hkind, hkind,
    any_contextCauses_append (p := Cause.isTls) fun _ => rfl, hearing]
  -- a rule that comes earlier gives the same verdict with and without lines
  split_ifs <;> simp_all [timeout, dns, refused, tls, error]

/-- **Lines around a report.** They change its verdict only where it is unknown what has become of
the check, and only if one of them speaks of a handshake. -/
theorem verdict_under_lines (root : RootCause) (contexts lines : List String) :
    Verdict.ofOutcome (.error (.wrapped root (contexts ++ lines))) =
      if lines.any Cause.speaksOfTls ∧ (Failure.wrapped root contexts).Untold then .tls
      else Verdict.ofOutcome (.error (.wrapped root contexts)) := by
  have hseen (contexts : List String) :
      (Failure.wrapped root contexts).causes.filterMap Cause.failure? =
        root.causes.filterMap Cause.failure? := Failure.seen_wrapped root contexts
  simp only [Failure.Untold, Failure.showsTag_iff, Failure.seen_wrapped, Verdict.ofOutcome,
    Verdict.ofFailure, hseen]
  cases htag : (root.causes.filterMap Cause.failure?).findSome? Verdict.ofTag? with
  | some v => simp
  | none =>
    cases hsymptom : (root.causes.filterMap Cause.failure?).findSome? Verdict.ofSymptom? with
    | some v =>
      obtain ⟨f, -, symptom⟩ := List.exists_of_findSome?_eq_some hsymptom
      simp [Verdict.ne_error_of_ofSymptom? symptom]
    | none =>
      have hcauses : (Failure.wrapped root (contexts ++ lines)).causes =
          contextCauses lines ++ (Failure.wrapped root contexts).causes := by
        simp [Failure.causes, contextCauses_append]
      simp [hcauses, Verdict.ofTypedCauses_under_lines]

/-- A tag can name the verdict that is left when no rule applies, and it stays under any line. -/
theorem told_error_stays :
    ¬ ∀ root contexts lines, lines.any Cause.speaksOfTls →
      Verdict.ofOutcome (.error (.wrapped root contexts)) = .error →
      Verdict.ofOutcome (.error (.wrapped root (contexts ++ lines))) = .tls := by
  intro turned
  have hturned := turned (.failure (.classified .error "error" "out of memory")) []
    ["tls handshake"] (by decide +kernel) (by decide +kernel)
  have hstays : Verdict.ofOutcome (.error (.wrapped
      (.failure (.classified .error "error" "out of memory")) ["tls handshake"])) = .error := by
    decide +kernel
  rw [List.nil_append, hstays] at hturned
  cases hturned

end HealthMonitor
