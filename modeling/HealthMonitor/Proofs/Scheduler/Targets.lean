import HealthMonitor.Proofs.Scheduler.Listing
import HealthMonitor.Proofs.Scheduler.Validity

/-!
# Targets in service

Endpoints in service are found by their keys, while their series are found by their label values.
Both tell the name of the dependency, the host and the port of what is checked. So no two endpoints
in service have the same key or the same label values, whatever their labels are, and what is in
service under the key of a name, a host and a port is a check of just these (`targets_apart`).
-/

namespace HealthMonitor

namespace Scheduler

variable {P : Type}

section Served

variable {x : Exporter} {defaults : CheckPlan} {ms : List (Move P)} {key key' : String}
  {l l' : CheckLoop P}

/-- What is in service has the key of its own target, under a name that has passed the check. -/
theorem named_of_mem_inService (served : (key, l) ∈ ((fresh x defaults).run ms).inService) :
    IsName l.dependency.name ∧
      key = Endpoint.keyOf l.dependency.name l.endpoint.host l.endpoint.port := by
  obtain ⟨i, hkey, hl⟩ := mem_inService.mp served
  obtain ⟨l', hl', rfl⟩ := keyed_run x defaults ms key i hkey
  obtain rfl := Option.some.inj (hl.symm.trans hl')
  exact ⟨((vetted_run x defaults ms).rules i l hl).name, rfl⟩

/-- **A key leads to the target that it is made of.** -/
theorem target_of_mem_inService {name host : String} {port : UInt16} (named : IsName name)
    (served : (Endpoint.keyOf name host port, l) ∈ ((fresh x defaults).run ms).inService) :
    l.dependency.name = name ∧ l.endpoint.host = host ∧ l.endpoint.port = port := by
  obtain ⟨named', hkey⟩ := named_of_mem_inService served
  obtain ⟨rfl, rfl, rfl⟩ := (Endpoint.keyOf_eq_iff named named').mp hkey
  exact ⟨rfl, rfl, rfl⟩

/-- **Label values lead to one endpoint in service.** -/
theorem eq_of_labelsOf {y : Exporter}
    (served : (key, l) ∈ ((fresh x defaults).run ms).inService)
    (served' : (key', l') ∈ ((fresh x defaults).run ms).inService)
    (same : y.labelValues l.dependency l.endpoint = y.labelValues l'.dependency l'.endpoint) :
    key = key' ∧ l = l' := by
  obtain ⟨-, hkey⟩ := named_of_mem_inService served
  obtain ⟨-, hkey'⟩ := named_of_mem_inService served'
  obtain rfl : key = key' := hkey.trans ((key_of_labelValues same).trans hkey'.symm)
  exact ⟨rfl, eq_of_mem_inService served served'⟩

end Served

/-- **Keys tell endpoints apart.** Under names that pass the check, whatever the hosts are, two keys
are equal just if they are made of the same name, host and port. So at every moment of a run a key
leads to a check of the target that it is made of, if to any, and no two endpoints in service have
the same label values. -/
theorem targets_apart (x : Exporter) (defaults : CheckPlan) (ms : List (Move P)) :
    (∀ name name' host host' port port', Dependency.checkName name = .ok () →
      Dependency.checkName name' = .ok () →
      (Endpoint.keyOf name host port = Endpoint.keyOf name' host' port' ↔
        name = name' ∧ host = host' ∧ port = port')) ∧
    (∀ name host port l, Dependency.checkName name = .ok () →
      (Endpoint.keyOf name host port, l) ∈ ((fresh x defaults).run ms).inService →
      l.dependency.name = name ∧ l.endpoint.host = host ∧ l.endpoint.port = port) ∧
    ∀ key key' l l', (key, l) ∈ ((fresh x defaults).run ms).inService →
      (key', l') ∈ ((fresh x defaults).run ms).inService →
      ((fresh x defaults).run ms).labelsOf l = ((fresh x defaults).run ms).labelsOf l' →
      key = key' ∧ l = l' := by
  refine ⟨fun name name' host host' port port' named named' => ?_,
    fun name host port l named served => ?_, fun _ _ _ _ => eq_of_labelsOf⟩
  · rw [Dependency.checkName_eq_ok_iff] at named named'
    exact Endpoint.keyOf_eq_iff named named'
  · rw [Dependency.checkName_eq_ok_iff] at named
    exact target_of_mem_inService named served

/-- A database under two hosts with colons, of which one goes on like the key of the other. -/
def colonHosts : List (Move Unit) :=
  [.start none, .add "db" .tcp true (Endpoint.plain "::1" 5432) (),
    .add "db" .tcp true (Endpoint.plain "::1:5432" 1) ()]

theorem colonHosts_apart :
    Dependency.checkName "db" = .ok () ∧
      Endpoint.keyOf "db" "::1" 5432 ≠ Endpoint.keyOf "db" "::1:5432" 1 ∧
      ∃ l l', (Endpoint.keyOf "db" "::1" 5432, l) ∈ (newApp.run colonHosts).inService ∧
        (Endpoint.keyOf "db" "::1:5432" 1, l') ∈ (newApp.run colonHosts).inService ∧
        l.endpoint.host = "::1" ∧ l'.endpoint.host = "::1:5432" ∧
        (newApp.run colonHosts).labelsOf l ≠ (newApp.run colonHosts).labelsOf l' := by
  obtain ⟨hkeys, htargets, hlabels⟩ := targets_apart newApp.metrics CheckPlan.prompt colonHosts
  have named : Dependency.checkName "db" = .ok () := rfl
  have hne : Endpoint.keyOf "db" "::1" 5432 ≠ Endpoint.keyOf "db" "::1:5432" 1 := fun same =>
    absurd ((hkeys _ _ _ _ _ _ named named).mp same).2.1 (by decide)
  obtain ⟨l, served⟩ : ∃ l,
      (Endpoint.keyOf "db" "::1" 5432, l) ∈ (newApp.run colonHosts).inService :=
    ⟨_, mem_inService.mpr ⟨0, rfl, rfl⟩⟩
  obtain ⟨l', served'⟩ : ∃ l,
      (Endpoint.keyOf "db" "::1:5432" 1, l) ∈ (newApp.run colonHosts).inService :=
    ⟨_, mem_inService.mpr ⟨1, rfl, rfl⟩⟩
  exact ⟨named, hne, l, l', served, served', (htargets _ _ _ l named served).2.1,
    (htargets _ _ _ l' named served').2.1, fun same =>
      hne (hlabels _ _ _ _ served served' same).1⟩

end Scheduler

end HealthMonitor
