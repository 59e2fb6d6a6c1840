import HealthMonitor.Monitor.Build
import HealthMonitor.Proofs.Checks
import HealthMonitor.Proofs.Scheduler.Uses

/-!
# What a blueprint is built into

A build that succeeds has resolved every spec: it has prepared a dependency, found a probe for it,
and let the dependency pass the validation (`Blueprint.Resolves`). The monitor has the registry of
the blueprint, remembers the probe of each dependency, and its scheduler is one with which the
dependencies have been registered (`Blueprint.build_ok`).
-/

namespace HealthMonitor

open Checks

variable {P : Type}

/-- What a spec is prepared into: whatever it leaves open the environment supplies, and its
endpoints are those of its source with more labels. -/
theorem DependencySpec.prepare_ok {s : DependencySpec P} {env : Environment}
    {fallback : CheckOverrides} {d : Dependency} {settings : ProbeSettings}
    (h : s.prepare env fallback = .ok (d, settings)) :
    ∃ source es critical, s.source = some source ∧ source.endpoints s.kind = .ok es ∧
      (s.critical <|> env.critical? s.name) = some critical ∧ settings = s.probeSettings source ∧
      d = ⟨s.name, s.kind, some critical, es.map (relabel (s.allLabels env)),
        (s.check.or fallback).plan Span.zero⟩ := by
  unfold prepare at h
  obtain ⟨-, h⟩ := andThen_eq_ok_iff.mp h
  split at h
  next source hsource =>
    obtain ⟨es, hes, h⟩ := bind_eq_ok_iff.mp h
    split at h
    next critical hcritical =>
      obtain ⟨-, h⟩ := andThen_eq_ok_iff.mp h
      obtain ⟨-, h⟩ := andThen_eq_ok_iff.mp h
      cases h
      exact ⟨source, es, critical, hsource, hes, hcritical, rfl, rfl⟩
    next => cases h
  next => cases h

namespace Blueprint

/-- A spec has been resolved: into a valid dependency, and a probe of its own or of the registry. -/
structure Resolves (b : Blueprint P) (s : DependencySpec P) (r : Resolved P) : Prop where
  prepared : ∃ settings, s.prepare b.environment b.check = .ok (r.dependency, settings) ∧
    (s.probe = some r.handle.probe ∨
      s.probe = none ∧ b.registry.create s.kind settings = .ok r.handle.probe)
  valid : r.dependency.validate = .ok ()

private theorem accept_ok {d : Dependency} {handle : Handle P} {r : Resolved P}
    (h : accept d handle = .ok r) : d.validate = .ok () ∧ r = ⟨d, handle⟩ := by
  obtain ⟨⟨⟩, valid, rfl⟩ := map_eq_ok_iff.mp h
  exact ⟨valid, rfl⟩

theorem resolveSpec_ok {b : Blueprint P} {serial : Nat} {s : DependencySpec P} {r : Resolved P}
    (h : (b.resolveSpec serial s).result = .ok r) : b.Resolves s r := by
  unfold resolveSpec at h
  split at h
  next => cases h
  next d settings prepared =>
    split at h
    next probe own =>
      obtain ⟨valid, rfl⟩ := accept_ok h
      exact ⟨⟨settings, prepared, Or.inl own⟩, valid⟩
    next none =>
      split at h
      next => cases h
      next probe created =>
        obtain ⟨valid, rfl⟩ := accept_ok h
        exact ⟨⟨settings, prepared, Or.inr ⟨none, created⟩⟩, valid⟩

theorem resolveFrom_ok {b : Blueprint P} {serial : Nat} {specs : List (DependencySpec P)}
    {rs : List (Resolved P)} (h : (b.resolveFrom serial specs).1 = .ok rs) :
    List.Forall₂ b.Resolves specs rs := by
  induction specs generalizing serial rs with
  | nil =>
    cases h
    exact .nil
  | cons s specs ih =>
    unfold resolveFrom at h
    dsimp only at h
    split at h
    next => cases h
    next r first =>
      obtain ⟨others, rest, rfl⟩ := map_eq_ok_iff.mp h
      exact .cons (resolveSpec_ok first) (ih rest)

/-- What has been resolved comes from a spec. -/
theorem exists_spec_of_mem {b : Blueprint P} {specs : List (DependencySpec P)}
    {rs : List (Resolved P)} (h : List.Forall₂ b.Resolves specs rs) {r : Resolved P}
    (hr : r ∈ rs) : ∃ s ∈ specs, b.Resolves s r := by
  induction h with
  | nil => cases hr
  | cons hs _ ih =>
    rcases List.mem_cons.mp hr with rfl | hr
    · exact ⟨_, List.mem_cons_self, hs⟩
    · obtain ⟨s, hmem, hs⟩ := ih hr
      exact ⟨s, List.mem_cons_of_mem _ hmem, hs⟩

/-- What has been resolved is valid. -/
theorem validate_of_resolved {b : Blueprint P} {rs : List (Resolved P)}
    (resolved : b.resolve.1 = .ok rs) {r : Resolved P} (hr : r ∈ rs) :
    r.dependency.validate = .ok () := by
  obtain ⟨s, -, hs⟩ := exists_spec_of_mem (resolveFrom_ok resolved) hr
  exact hs.valid

theorem Resolves.name_kind {b : Blueprint P} {s : DependencySpec P} {r : Resolved P}
    (h : b.Resolves s r) : r.dependency.name = s.name ∧ r.dependency.kind = s.kind := by
  obtain ⟨settings, prepared, -⟩ := h.prepared
  obtain ⟨source, es, critical, -, -, -, -, hd⟩ := DependencySpec.prepare_ok prepared
  exact hd ▸ ⟨rfl, rfl⟩

/-- The moves by which resolved dependencies are registered. -/
def registrations (rs : List (Resolved P)) : List (Move (Handle P)) :=
  rs.map fun r => .register r.dependency r.handle

theorem registerAll_ok {s s' : Scheduler (Handle P)} {rs : List (Resolved P)}
    (h : registerAll s rs = .ok s') : s' = s.run (registrations rs) := by
  induction rs generalizing s with
  | nil => exact (Except.ok.inj h).symm
  | cons r rs ih =>
    obtain ⟨s₁, first, rest⟩ := bind_eq_ok_iff.mp h
    have registered : s.move (.register r.dependency r.handle) = s₁ :=
      congrArg s.taking first
    rw [ih rest, registrations, registrations, List.map_cons, Scheduler.run_cons, registered]

/-- The plan of endpoints that are added to a monitor. -/
def addedPlan (b : Blueprint P) : CheckPlan :=
  b.check.plan CheckPlan.standard.initialDelay

/-- Parts that can be put together make a monitor with which the dependencies have been
registered. -/
theorem assemble_ok {b : Blueprint P} {name : String} {x : Exporter} {rs : List (Resolved P)}
    {m : Monitor P} (h : b.assemble name x rs = .ok m) :
    m = ⟨name, b.registry, probesOf rs, b.specs.length,
      ((Scheduler.fresh x b.addedPlan).run (registrations rs)).log
        (.built name (probesOf rs).size)⟩ := by
  obtain ⟨-, h⟩ := andThen_eq_ok_iff.mp h
  obtain ⟨s, hs, h⟩ := bind_eq_ok_iff.mp h
  rw [← Except.ok.inj h, registerAll_ok (mapError_eq_ok_iff.mp hs)]
  rfl

/-- A build that succeeds has found a name, resolved the specs, made an exporter for the labels of
their endpoints, and put the parts together. -/
theorem build_stages {b : Blueprint P} {m : Monitor P} (h : b.build.result = .ok m) :
    ∃ name rs x, b.instanceName = .ok name ∧ b.resolve.1 = .ok rs ∧
      (Exporter.create name (labelNames rs)
        (b.familyRegistry.getD FamilyRegistry.empty)).1 = .ok x ∧
      b.assemble name x rs = .ok m := by
  unfold build at h
  split at h
  next => cases h
  next name named =>
    split at h
    next => cases h
    next rs requests resolved =>
      dsimp only at h
      split at h
      next => cases h
      next x made => exact ⟨name, rs, x, named, congrArg Prod.fst resolved, made, h⟩

/-- **What a monitor is built from.** -/
theorem build_ok {b : Blueprint P} {m : Monitor P} (h : b.build.result = .ok m) :
    ∃ name x rs, List.Forall₂ b.Resolves b.specs rs ∧
      m = ⟨name, b.registry, probesOf rs, b.specs.length,
        ((Scheduler.fresh x b.addedPlan).run (registrations rs)).log
          (.built name (probesOf rs).size)⟩ := by
  obtain ⟨name, rs, x, -, resolved, -, assembled⟩ := build_stages h
  exact ⟨name, x, rs, resolveFrom_ok resolved, assemble_ok assembled⟩

/-- The uses of a monitor that has been built are those of its specs. -/
theorem allUses_of_built {b : Blueprint P} {m : Monitor P} (built : b.build.result = .ok m)
    {Q : Dependency → Handle P → Prop}
    (hQ : ∀ s ∈ b.specs, ∀ r : Resolved P, b.Resolves s r → Q r.dependency r.handle) :
    m.scheduler.AllUses Q := by
  obtain ⟨name, x, rs, resolved, rfl⟩ := build_ok built
  have registered : ((Scheduler.fresh x b.addedPlan).run (registrations rs)).AllUses Q := by
    refine (Scheduler.allUses_fresh x _ Q).run fun w hw s d handle hbrings => ?_
    obtain ⟨r, hr, rfl⟩ := List.mem_map.mp hw
    obtain ⟨spec, hspec, hresolves⟩ := exists_spec_of_mem resolved hr
    cases hbrings with
    | registered => exact hQ spec hspec r hresolves
  exact ⟨registered.pending, registered.loops⟩

end Blueprint

end HealthMonitor
