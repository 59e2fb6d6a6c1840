import HealthMonitor.Proofs.Dependency.Valid
import HealthMonitor.Proofs.Scheduler.Uses

/-!
# The validity of what is monitored

Registrations and additions pass the validation, so their loops check valid dependencies. An update
looks at the labels of its endpoint and takes the rest of the dependency over, but does not ask
where the endpoint is. What is left of the validity through any run is `CheckLoop.KeepsRules`: all
but the place of the endpoint itself.

So everything in service is valid at every moment of a run just if no update that was carried out
has brought an endpoint without a host or a port (`monitored_valid`), and one such update is enough
(`placeless_monitored`).
-/

namespace HealthMonitor

namespace CheckLoop

variable {P : Type}

/-- All that the validation asks for, but for the place of the endpoint that the loop checks. -/
structure KeepsRules (l : CheckLoop P) : Prop where
  name : IsName l.dependency.name
  critical : l.dependency.critical.isSome = true
  listed : l.endpoint ∈ l.dependency.endpoints
  labels : ∀ e ∈ l.dependency.endpoints, LabelsNamed e.labels
  plan : l.dependency.plan.InRange
  others : ∀ e ∈ l.dependency.endpoints, e ≠ l.endpoint → e.HasPlace

theorem keepsRules_spawn {d : Dependency} {e : Endpoint} (valid : d.Valid)
    (listed : e ∈ d.endpoints) (probe : P) (outer : Option Instant) :
    (spawn d e probe outer).KeepsRules where
  name := valid.name
  critical := valid.critical
  listed := listed
  labels := valid.labels
  plan := valid.plan
  others e he _ := valid.places e he

/-- A loop in the place of another keeps its rules if its endpoint has labels under good names. -/
theorem KeepsRules.replaced {l : CheckLoop P} (h : l.KeepsRules) {e : Endpoint}
    (labels : LabelsNamed e.labels) (probe : P) :
    (spawn { l.dependency with endpoints := [e] } e probe none).KeepsRules where
  name := h.name
  critical := h.critical
  listed := List.mem_singleton_self e
  labels _ he' := List.mem_singleton.mp he' ▸ labels
  plan := h.plan
  others _ he' hne := absurd (List.mem_singleton.mp he') hne

theorem KeepsRules.goesOn {l l' : CheckLoop P} (h : l.KeepsRules) (hgo : l.GoesOn l') :
    l'.KeepsRules := by
  obtain ⟨name, critical, listed, labels, plan, others⟩ := h
  rw [← hgo.dependency] at name critical listed labels plan others
  rw [← hgo.endpoint] at listed others
  exact ⟨name, critical, listed, labels, plan, others⟩

/-- **The place of the endpoint decides.** -/
theorem KeepsRules.valid_iff {l : CheckLoop P} (h : l.KeepsRules) :
    l.dependency.validate = .ok () ↔ l.endpoint.HasPlace := by
  rw [Dependency.validate_eq_ok_iff]
  constructor
  · intro valid
    exact valid.places _ h.listed
  · intro placed
    refine ⟨h.name, h.critical, List.ne_nil_of_mem h.listed, fun e he => ?_, h.labels, h.plan⟩
    by_cases same : e = l.endpoint
    · exact same ▸ placed
    · exact h.others e he same

end CheckLoop

namespace Scheduler

variable {P : Type}

/-- Among moves there is an update that was carried out and has brought an endpoint. -/
def Brought (past : List (Scheduler P × Move P)) (e : Endpoint) : Prop :=
  ∃ s name host port probe, (s, .update name host port e probe) ∈ past ∧
    ∃ s', s.updateEndpoint name host port e probe = .ok s'

theorem Brought.mono {past past' : List (Scheduler P × Move P)} (h : past ⊆ past') {e : Endpoint}
    (brought : Brought past e) : Brought past' e := by
  obtain ⟨s, name, host, port, probe, hmem, hok⟩ := brought
  exact ⟨s, name, host, port, probe, h hmem, hok⟩

/-- An update is carried out if there is what it asks for. -/
theorem updateEndpoint_eq_ok {s : Scheduler P} {key name host : String} {port : UInt16} {i : Nat}
    {old : CheckLoop P} {e : Endpoint} (probe : P) (named : key = Endpoint.keyOf name host port)
    (running : s.lifecycle = .running) (labels : Dependency.checkLabels e.labels = .ok ())
    (served : s.slots.get? key = some i) (loop : s.loops[i]? = some old) :
    s.updateEndpoint name host port e probe = .ok (s.replaced key i old e probe) := by
  subst named
  simp only [updateEndpoint, labels, running, served, loop]
  rfl

/-! ### Through a run -/

/-- What the checks of the calls leave: valid registrations, and loops that keep the rules and have
a place, unless an update has brought their endpoint. -/
structure Vetted (past : List (Scheduler P × Move P)) (s : Scheduler P) : Prop where
  pending : ∀ r ∈ s.pending, r.dependency.Valid
  rules : ∀ (i : Nat) (l : CheckLoop P), s.loops[i]? = some l → l.KeepsRules
  placed : ∀ (i : Nat) (l : CheckLoop P), s.loops[i]? = some l →
    l.endpoint.HasPlace ∨ Brought past l.endpoint

/-- A loop that a move spawns keeps the rules. -/
private theorem Vetted.spawned {past : List (Scheduler P × Move P)} {s : Scheduler P}
    (h : Vetted past s) {m : Move P} {l : CheckLoop P} (hl : Spawned s m l) :
    l.KeepsRules ∧ (l.endpoint.HasPlace ∨ Brought [(s, m)] l.endpoint) := by
  cases hl with
  | started outer _ registered listed =>
    have valid := h.pending _ registered
    exact ⟨CheckLoop.keepsRules_spawn valid listed _ _, Or.inl (valid.places _ listed)⟩
  | @added d name kind critical e probe dependency _ valid =>
    have valid := (Dependency.validate_eq_ok_iff _).mp valid
    have listed : e ∈ d.endpoints := dependency ▸ List.mem_singleton_self e
    exact ⟨CheckLoop.keepsRules_spawn valid listed _ _, Or.inl (valid.places _ listed)⟩
  | @replaced key name host port i old e probe named running labels served loop =>
    -- the rules come from the old loop, and only the labels have been checked
    have named' := (Dependency.checkLabels_eq_ok_iff _).mp labels
    refine ⟨(h.rules i old loop).replaced named' probe, Or.inr ?_⟩
    exact ⟨s, name, host, port, probe, List.mem_singleton_self _, _,
      updateEndpoint_eq_ok probe named running labels served loop⟩

private theorem Vetted.move {past : List (Scheduler P × Move P)} {s : Scheduler P}
    (h : Vetted past s) (m : Move P) : Vetted (past ++ [(s, m)]) (s.move m) := by
  have heffect := effect_move s m
  have before : past ⊆ past ++ [(s, m)] := List.subset_append_left ..
  have now : [(s, m)] ⊆ past ++ [(s, m)] := List.subset_append_right ..
  refine ⟨fun r hr => ?_, ?_, ?_⟩
  · rcases heffect.pending hr with hr | ⟨-, valid⟩
    · exact h.pending r hr
    · exact (Dependency.validate_eq_ok_iff _).mp valid
  · exact heffect.forall_loops (fun _ _ hgo rules => rules.goesOn hgo) h.rules
      fun l hl => (h.spawned hl).1
  · refine heffect.forall_loops (fun l l' hgo hl => ?_)
      (fun i l hl => (h.placed i l hl).imp_right (.mono before))
      fun l hl => (h.spawned hl).2.imp_right (.mono now)
    rwa [hgo.endpoint]

theorem vetted_run (x : Exporter) (defaults : CheckPlan) (ms : List (Move P)) :
    Vetted ((fresh x defaults).trace ms) ((fresh x defaults).run ms) :=
  run_invariant (motive := Vetted) ⟨by simp [fresh], by simp [fresh], by simp [fresh]⟩
    (fun _ _ m h => h.move m) ms

/-! ### At every moment of a run -/

/-- At every moment of a run the dependency of everything in service passes the validation. -/
def AlwaysValid (s₀ : Scheduler P) (ms : List (Move P)) : Prop :=
  ∀ ns, ns <+: ms → ∀ key l, (key, l) ∈ (s₀.run ns).inService → l.dependency.validate = .ok ()

/-- **Of the validation only the place of an endpoint can be missing from what is in service**, and
only if an update has brought it:

* whatever happens, what is in service keeps all the other rules, so that it is valid just if its
  endpoint has a host and a port;
* everything in service is valid at every moment just if all endpoints that updates have brought
  have both. -/
theorem monitored_valid (x : Exporter) (defaults : CheckPlan) (ms : List (Move P)) :
    (∀ key l, (key, l) ∈ ((fresh x defaults).run ms).inService →
      l.KeepsRules ∧ (l.dependency.validate = .ok () ↔ l.endpoint.HasPlace)) ∧
    (AlwaysValid (fresh x defaults) ms ↔
      ∀ e, Brought ((fresh x defaults).trace ms) e → e.HasPlace) := by
  refine ⟨fun key l served => ?_, fun valid e brought => ?_, fun placed ns hns key l served => ?_⟩
  · obtain ⟨i, -, hl⟩ := mem_inService.mp served
    have rules := (vetted_run x defaults ms).rules i l hl
    exact ⟨rules, rules.valid_iff⟩
  · obtain ⟨s, name, host, port, probe, hmem, s', hok⟩ := brought
    obtain ⟨ns, hns, rfl⟩ := exists_of_mem_trace hmem
    obtain ⟨old, -, key, served⟩ := inService_of_updated hok
    -- right after the update its endpoint is in service, and claimed to be valid
    have hrun : (fresh x defaults).run (ns ++ [.update name host port e probe]) = s' := by
      rw [run_concat, move, hok, taking]
    have hvalid := (Dependency.validate_eq_ok_iff _).mp (valid _ hns key _ (hrun ▸ served))
    exact hvalid.places e (List.mem_singleton_self e)
  · obtain ⟨i, -, hl⟩ := mem_inService.mp served
    have vetted := vetted_run x defaults ns
    refine (vetted.rules i l hl).valid_iff.mpr ?_
    rcases vetted.placed i l hl with hplace | brought
    · exact hplace
    · exact placed _ (brought.mono (trace_subset hns _))

/-- A database moves to an endpoint without a host and a port, and is monitored there. -/
theorem placeless_monitored :
    let s := newApp.run [.start none, .add "db" .tcp true (Endpoint.plain "a" 1) (),
      .update "db" "a" 1 (Endpoint.plain "" 0) ()]
    s.inService.map (fun e => (e.1, e.2.endpoint, e.2.dependency.validate)) =
      [("db::0", Endpoint.plain "" 0, .error (.missingHost "db" 0))] := by
  rfl

end Scheduler

end HealthMonitor
