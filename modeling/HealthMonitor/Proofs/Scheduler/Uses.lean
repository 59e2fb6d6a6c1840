import HealthMonitor.Proofs.Scheduler.Ownership

/-!
# What probes are used for

A probe comes into use for a dependency by a registration, an addition or an update
(`Scheduler.Brings`); a start and all work of the scheduler only go on with what is there. So
whatever holds of each dependency and the probe that is brought for it holds of all registrations
and of all loops (`Scheduler.AllUses.move`).
-/

namespace HealthMonitor

namespace Scheduler

variable {P : Type}

/-- Something holds of every dependency and the probe that is used for it. -/
structure AllUses (s : Scheduler P) (Q : Dependency → P → Prop) : Prop where
  pending : ∀ r ∈ s.pending, Q r.dependency r.probe
  loops : ∀ (i : Nat) (l : CheckLoop P), s.loops[i]? = some l → Q l.dependency l.probe

/-- A move brings a probe into use for a dependency. -/
inductive Brings (s : Scheduler P) : Move P → Dependency → P → Prop where
  | registered {d : Dependency} {probe : P} (valid : d.validate = .ok ()) :
      Brings s (.register d probe) d probe
  | added {name : String} {kind : Kind} {critical : Bool} {e : Endpoint} {probe : P}
      (valid : (s.dynamicDependency name kind critical e).validate = .ok ()) :
      Brings s (.add name kind critical e probe) (s.dynamicDependency name kind critical e) probe
  /-- The probe takes over from that of the loop in service. -/
  | replaced {name host : String} {port : UInt16} {old : CheckLoop P} {e : Endpoint} {probe : P}
      (served : (Endpoint.keyOf name host port, old) ∈ s.inService) :
      Brings s (.update name host port e probe) { old.dependency with endpoints := [e] } probe

theorem Brings.isCall {s : Scheduler P} {m : Move P} {d : Dependency} {probe : P}
    (h : Brings s m d probe) : m.isCall = true := by
  cases h <;> rfl

theorem allUses_fresh (x : Exporter) (defaults : CheckPlan) (Q : Dependency → P → Prop) :
    (fresh x defaults).AllUses Q where
  pending r hr := by simp [fresh] at hr
  loops i l hl := by simp [fresh] at hl

/-- **A move keeps what holds of all uses if it holds of the use that it brings.** -/
theorem AllUses.move {Q : Dependency → P → Prop} {s : Scheduler P} (h : s.AllUses Q) {m : Move P}
    (brings : ∀ d probe, Brings s m d probe → Q d probe) : (s.move m).AllUses Q := by
  have heffect := effect_move s m
  refine ⟨fun r hr => ?_, heffect.forall_loops (fun l l' hgo hl => ?_) h.loops fun l hl => ?_⟩
  · rcases heffect.pending hr with hr | ⟨rfl, valid⟩
    · exact h.pending r hr
    · exact brings _ _ (.registered valid)
  · rwa [hgo.dependency, hgo.probe]
  · cases hl with
    -- the loops of a start are for what has been registered before
    | started _ _ registered _ => exact h.pending _ registered
    | added dependency _ valid =>
      subst dependency
      exact brings _ _ (.added valid)
    | replaced named _ _ served loop =>
      subst named
      exact brings _ _ (.replaced (mem_inService.mpr ⟨_, served, loop⟩))

/-- What holds of all uses of probes that a run brings in holds of all its loops. -/
theorem AllUses.run {Q : Dependency → P → Prop} {s : Scheduler P} (h : s.AllUses Q)
    {ms : List (Move P)} (brings : ∀ m ∈ ms, ∀ s d probe, Brings s m d probe → Q d probe) :
    (s.run ms).AllUses Q := by
  induction ms generalizing s with
  | nil => exact h
  | cons m ms ih =>
    obtain ⟨first, rest⟩ := List.forall_mem_cons.mp brings
    exact ih (h.move (first s)) rest

/-! ### Calls that are not refused -/

/-- What holds of all uses holds after an addition, if it holds of the probe with any valid
dependency of the name and the kind. -/
theorem AllUses.added {Q : Dependency → P → Prop} {s s' : Scheduler P} (h : s.AllUses Q)
    {name : String} {kind : Kind} {critical : Bool} {e : Endpoint} {probe : P}
    (accepted : s.addEndpoint name kind critical e probe = .ok s')
    (brings : ∀ d : Dependency, d.validate = .ok () → d.name = name → d.kind = kind → Q d probe) :
    s'.AllUses Q := by
  have hmove : s.move (.add name kind critical e probe) = s' := congrArg s.taking accepted
  rw [← hmove]
  refine h.move fun d probe' hbrings => ?_
  cases hbrings with
  | added valid => exact brings _ valid rfl rfl

/-- What holds of all uses holds after an update, if it holds of the use that the update brings. -/
theorem AllUses.updated {Q : Dependency → P → Prop} {s s' : Scheduler P} (h : s.AllUses Q)
    {name host : String} {port : UInt16} {e : Endpoint} {probe : P}
    (accepted : s.updateEndpoint name host port e probe = .ok s')
    (brings : ∀ old, (Endpoint.keyOf name host port, old) ∈ s.inService →
      Q { old.dependency with endpoints := [e] } probe) : s'.AllUses Q := by
  have hmove : s.move (.update name host port e probe) = s' := congrArg s.taking accepted
  rw [← hmove]
  refine h.move fun d probe' hbrings => ?_
  cases hbrings with
  | replaced served => exact brings _ served

/-- A key is served by one loop. -/
theorem eq_of_mem_inService {s : Scheduler P} {key : String} {l l' : CheckLoop P}
    (h : (key, l) ∈ s.inService) (h' : (key, l') ∈ s.inService) : l = l' := by
  obtain ⟨i, served, hl⟩ := mem_inService.mp h
  obtain ⟨j, served', hl'⟩ := mem_inService.mp h'
  obtain rfl := Option.some.inj (served.symm.trans served')
  exact Option.some.inj (hl.symm.trans hl')

/-- An update that is carried out has found a loop in service, and brings one for its endpoint. -/
theorem inService_of_updated {s s' : Scheduler P} {name host : String} {port : UInt16}
    {e : Endpoint} {probe : P} (h : s.updateEndpoint name host port e probe = .ok s') :
    ∃ old, (Endpoint.keyOf name host port, old) ∈ s.inService ∧ ∃ key,
      (key, CheckLoop.spawn { old.dependency with endpoints := [e] } e probe none) ∈
        s'.inService := by
  obtain ⟨-, -, i, old, served, loop, rfl⟩ := updateEndpoint_ok h
  refine ⟨old, mem_inService.mpr ⟨i, served, loop⟩,
    { old.dependency with endpoints := [e] }.key e, mem_inService.mpr ⟨s.loops.length, ?_⟩⟩
  rw [replaced_eq s _ i old e probe rfl]
  exact ⟨(Dictionary.get?_insert ..).trans (if_pos rfl), List.getElem?_concat_length ..⟩

end Scheduler

end HealthMonitor
