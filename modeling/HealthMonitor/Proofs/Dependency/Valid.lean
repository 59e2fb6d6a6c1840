import HealthMonitor.Dependency.Basic
import HealthMonitor.Proofs.Checks

/-!
# What the validation accepts

`Dependency.Valid` says what a dependency has to be to be monitored: its name, its criticality, the
places and the labels of its endpoints, its plan. `Dependency.validate_eq_ok_iff` shows that the
validation, which stops at the first fault, lets exactly these through, from one such equivalence
for each of its parts.
-/

namespace HealthMonitor

open Checks

/-! ### Names -/

/-- A name of an instance or a dependency: a lower-case letter, then letters, digits and hyphens. -/
structure IsName (name : String) : Prop where
  short : name.utf8ByteSize ≤ maxNameLength
  spelling : ∃ c rest, name.toList = c :: rest ∧ c.isLower = true ∧
    ∀ d ∈ rest, isNameLetter d = true

/-- A name of a custom label: a word that the metrics do not use themselves. -/
structure IsLabelName (name : String) : Prop where
  spelling : ∃ c rest, name.toList = c :: rest ∧ (c.isAlpha = true ∨ c = '_') ∧
    ∀ d ∈ rest, d.isAlphanum = true ∨ d = '_'
  unreserved : name ∉ reservedLabels

/-- Labels under names of custom labels. -/
def LabelsNamed (labels : Labels) : Prop :=
  ∀ name ∈ labels.keys, IsLabelName name

/-- The check of a name finds no fault in just the names. -/
theorem nameFault?_eq_none_iff (name : String) : nameFault? name = none ↔ IsName name := by
  unfold nameFault?
  constructor
  · intro h
    split at h
    next => cases h
    next length =>
      simp only [Bool.or_eq_true, decide_eq_true_eq, not_or, Nat.not_lt] at length
      split at h
      next => cases h
      next c rest spelled =>
        split at h
        next => cases h
        next lower =>
          split at h
          next => cases h
          next letters => exact ⟨length.2, c, rest, spelled, by simpa using lower,
              by simpa using letters⟩
  · rintro ⟨short, c, rest, spelled, lower, letters⟩
    -- the length is checked first, and a name with a first letter is not empty
    have nonempty : name.isEmpty = false := by
      rw [Bool.eq_false_iff, Ne, String.isEmpty_iff]
      rintro rfl
      cases spelled
    rw [if_neg (by simp [nonempty, short]), spelled]
    simpa [lower] using letters

/-- A word for a label starts with a letter or an underscore, and goes on with these and digits. -/
theorem isLabelWord_iff (name : String) :
    isLabelWord name = true ↔
      ∃ c rest, name.toList = c :: rest ∧ (c.isAlpha = true ∨ c = '_') ∧
        ∀ d ∈ rest, d.isAlphanum = true ∨ d = '_' := by
  unfold isLabelWord
  split
  next empty => simp [empty]
  next c rest spelled =>
    simp only [spelled, List.cons.injEq, Bool.and_eq_true, Bool.or_eq_true, beq_iff_eq,
      List.all_eq_true]
    constructor
    · intro h
      exact ⟨c, rest, ⟨rfl, rfl⟩, h⟩
    · rintro ⟨_, _, ⟨rfl, rfl⟩, h⟩
      exact h

/-- The check of a label finds no fault in just the names of custom labels. -/
theorem labelFault?_eq_none_iff (name : String) :
    labelFault? name = none ↔ IsLabelName name := by
  unfold labelFault?
  constructor
  · intro h
    split at h
    next => cases h
    next word =>
      split at h
      next => cases h
      next free => exact ⟨(isLabelWord_iff name).mp (by simpa using word), by simpa using free⟩
  · rintro ⟨spelling, unreserved⟩
    have word := (isLabelWord_iff name).mpr spelling
    simp [word, unreserved]

/-! ### Plans -/

namespace CheckPlan

/-- Every setting is in its range, and a check ends before the next is due. -/
structure InRange (p : CheckPlan) : Prop where
  interval : leastInterval ≤ p.interval ∧ p.interval ≤ greatestInterval
  timeout : leastTimeout ≤ p.timeout ∧ p.timeout ≤ greatestTimeout
  ends : p.timeout < p.interval
  initialDelay : p.initialDelay ≤ greatestInitialDelay
  failureThreshold : leastThreshold ≤ p.failureThreshold ∧ p.failureThreshold ≤ greatestThreshold
  successThreshold : leastThreshold ≤ p.successThreshold ∧ p.successThreshold ≤ greatestThreshold

/-- A span of time passes its check when it is within its bounds. -/
theorem checkSpan_eq_ok_iff {setting : CheckSetting} {value least greatest : Span} :
    checkSpan setting value least greatest = .ok () ↔ least ≤ value ∧ value ≤ greatest := by
  have outside : ¬ (value < least ∨ greatest < value) ↔ least ≤ value ∧ value ≤ greatest := by
    rw [not_or]
    exact and_congr Nat.not_lt Nat.not_lt
  unfold checkSpan
  rw [← outside]
  split
  next h => exact ⟨nofun, fun hn => absurd (by simpa using h) hn⟩
  next h => exact ⟨fun _ => by simpa using h, fun _ => rfl⟩

/-- A threshold passes its check when it is within the bounds of thresholds. -/
theorem checkThreshold_eq_ok_iff {setting : CheckSetting} {value : Nat} :
    checkThreshold setting value = .ok () ↔
      leastThreshold ≤ value ∧ value ≤ greatestThreshold := by
  unfold checkThreshold
  split
  next h =>
    refine ⟨nofun, fun hn => ?_⟩
    simp only [Bool.or_eq_true, decide_eq_true_eq] at h
    omega
  next h =>
    refine ⟨fun _ => ?_, fun _ => rfl⟩
    simp only [Bool.or_eq_true, decide_eq_true_eq] at h
    omega

/-- The checks of a plan let exactly those through whose settings are in range. -/
theorem validate_eq_ok_iff (p : CheckPlan) : p.validate = .ok () ↔ p.InRange := by
  have ends : ¬ p.interval ≤ p.timeout ↔ p.timeout < p.interval := Nat.not_le
  -- no span is below zero, so the lower bound of the delay asks for nothing
  have delay : Span.zero ≤ p.initialDelay ∧ p.initialDelay ≤ greatestInitialDelay ↔
      p.initialDelay ≤ greatestInitialDelay := and_iff_right (Nat.zero_le _)
  unfold validate
  dsimp only
  rw [andThen_eq_ok_iff, andThen_eq_ok_iff, guard_eq_ok_iff, andThen_eq_ok_iff,
    andThen_eq_ok_iff, checkSpan_eq_ok_iff, checkSpan_eq_ok_iff, checkSpan_eq_ok_iff,
    checkThreshold_eq_ok_iff, checkThreshold_eq_ok_iff, ends, delay]
  exact ⟨fun ⟨interval, timeout, ends, delay, failures, successes⟩ =>
      ⟨interval, timeout, ends, delay, failures, successes⟩,
    fun ⟨interval, timeout, ends, delay, failures, successes⟩ =>
      ⟨interval, timeout, ends, delay, failures, successes⟩⟩

end CheckPlan

/-! ### Dependencies -/

/-- Whether an endpoint says where it is: by a host and a port that is not 0. -/
def Endpoint.HasPlace (e : Endpoint) : Prop :=
  e.host ≠ "" ∧ e.port ≠ 0

instance (e : Endpoint) : Decidable e.HasPlace := inferInstanceAs (Decidable (_ ∧ _))

namespace Dependency

/-- What a dependency has to be to be monitored. -/
structure Valid (d : Dependency) : Prop where
  name : IsName d.name
  critical : d.critical.isSome = true
  endpoints : d.endpoints ≠ []
  places : ∀ e ∈ d.endpoints, e.HasPlace
  labels : ∀ e ∈ d.endpoints, LabelsNamed e.labels
  plan : d.plan.InRange

theorem checkName_eq_ok_iff (name : String) : checkName name = .ok () ↔ IsName name := by
  rw [← nameFault?_eq_none_iff, checkName]
  cases nameFault? name with
  | none => exact ⟨fun _ => rfl, fun _ => rfl⟩
  | some fault => exact ⟨nofun, nofun⟩

theorem checkLabelName_eq_ok_iff (name : String) :
    checkLabelName name = .ok () ↔ IsLabelName name := by
  rw [← labelFault?_eq_none_iff, checkLabelName]
  cases labelFault? name with
  | none => exact ⟨fun _ => rfl, fun _ => rfl⟩
  | some fault => cases fault <;> exact ⟨nofun, nofun⟩

theorem checkLabels_eq_ok_iff (labels : Labels) :
    checkLabels labels = .ok () ↔ LabelsNamed labels := by
  simp only [checkLabels, forM_eq_ok_iff, checkLabelName_eq_ok_iff, LabelsNamed]

/-- An endpoint passes when it has a place and all its labels are named. -/
theorem checkEndpoint_eq_ok_iff (dependency : String) (index : Nat) (e : Endpoint) :
    checkEndpoint dependency index e = .ok () ↔ e.HasPlace ∧ LabelsNamed e.labels := by
  unfold checkEndpoint Endpoint.HasPlace
  split
  next empty => simp_all
  next host =>
    split
    next zero => simp_all
    next port =>
      have named : e.host ≠ "" := by simpa using host
      rw [mapError_eq_ok_iff, checkLabels_eq_ok_iff]
      exact ⟨fun labels => ⟨⟨named, port⟩, labels⟩, fun h => h.2⟩

/-- Endpoints pass when each of them does, whatever its index. -/
theorem checkEndpoints_eq_ok_iff (dependency : String) (index : Nat) (es : List Endpoint) :
    checkEndpoints dependency index es = .ok () ↔
      ∀ e ∈ es, e.HasPlace ∧ LabelsNamed e.labels := by
  induction es generalizing index with
  | nil => exact ⟨fun _ => nofun, fun _ => rfl⟩
  | cons e es ih =>
    rw [List.forall_mem_cons, ← ih (index + 1), ← checkEndpoint_eq_ok_iff dependency index e,
      checkEndpoints]
    cases checkEndpoint dependency index e with
    | ok => simp
    | error cause => simp

/-- **The validation lets exactly the valid dependencies through.** -/
theorem validate_eq_ok_iff (d : Dependency) : d.validate = .ok () ↔ d.Valid := by
  unfold validate
  dsimp only
  rw [andThen_eq_ok_iff, guard_eq_ok_iff, guard_eq_ok_iff, andThen_eq_ok_iff,
    mapError_eq_ok_iff, checkName_eq_ok_iff, checkEndpoints_eq_ok_iff,
    CheckPlan.validate_eq_ok_iff]
  constructor
  · rintro ⟨name, critical, endpoints, each, plan⟩
    exact ⟨name, by simpa [Option.isSome_iff_ne_none] using critical, by simpa using endpoints,
      fun e he => (each e he).1, fun e he => (each e he).2, plan⟩
  · rintro ⟨name, critical, endpoints, places, labels, plan⟩
    exact ⟨name, by simpa [Option.isSome_iff_ne_none] using critical, by simpa using endpoints,
      fun e he => ⟨places e he, labels e he⟩, plan⟩

/-- A plan that sets nothing can be used. -/
example : CheckPlan.standard.validate = .ok () := rfl

end Dependency

end HealthMonitor
