import HealthMonitor.Probe.BuiltIn
import HealthMonitor.Proofs.Monitor.Build
import HealthMonitor.Proofs.Monitor.Run
import HealthMonitor.Proofs.Scheduler.Keys
import HealthMonitor.Proofs.Scheduler.Uses

/-!
# Probes and the kinds that they check

A monitor publishes the results of a loop under the kind of its dependency, so the probe of the loop
should be of that kind. What is built or added has such a probe, if the probes and the makers that
clients supply are what they are said to be (`Blueprint.Faithful`). An endpoint that moves keeps its
kind and gets the probe that is remembered for its name. So all running loops have probes of their
kinds, at every moment, just if no endpoint moves to a remembered probe of another kind, which
cannot happen while every name is used for one kind only (`probes_match`). A name that is used for
two kinds may bring it about (`update_misplaces`).
-/

namespace HealthMonitor

/-! ### What clients supply -/

/-- A probe that a registry creates is made by what it has for the kind. -/
theorem ProbeRegistry.create_ok {P : Type} {r : ProbeRegistry P} {kind : Kind}
    {settings : ProbeSettings} {probe : P} (h : r.create kind settings = .ok probe) :
    ∃ make, r.maker? kind = some make ∧ probe = make settings := by
  unfold create at h
  split at h
  next make hmake => exact ⟨make, hmake, (Except.ok.inj h).symm⟩
  next => cases h

variable {P : Type} [HasKind P]

/-- Every maker of a registry makes probes of the kind that it is registered for. -/
def ProbeRegistry.Faithful (r : ProbeRegistry P) : Prop :=
  ∀ kind make, r.maker? kind = some make → ∀ settings, kindOf (make settings) = kind

/-- The probes of the specs and those that the registry makes are of the kind that they are for. -/
structure Blueprint.Faithful (b : Blueprint P) : Prop where
  specs : ∀ s ∈ b.specs, ∀ probe, s.probe = some probe → kindOf probe = s.kind
  registry : b.registry.Faithful

instance : HasKind BuiltIn := ⟨BuiltIn.kind⟩

/-- The built-in probes are of the kinds under which they are registered. -/
theorem BuiltIn.faithful_registry : BuiltIn.registry.Faithful := by
  intro kind make h settings
  cases kind with
  | http | tcp | redis =>
    cases h
    rfl
  | grpc | postgres | mysql | amqp | kafka | ldap => cases h

/-! ### Names and kinds -/

/-- The name and the kind that an addition uses. -/
def MonitorMove.use? : MonitorMove P → Option (String × Kind)
  | .add name kind .. => some (name, kind)
  | .addWith name _ _ probe => some (name, kindOf probe)
  | _ => none

/-- All names that a blueprint and some moves use, with the kinds that they use them for. -/
def usesOf (b : Blueprint P) (ms : List (MonitorMove P)) : List (String × Kind) :=
  b.specs.map (fun s => (s.name, s.kind)) ++ ms.filterMap MonitorMove.use?

/-- No name is used for two kinds. -/
def OneKindEach (uses : List (String × Kind)) : Prop :=
  ∀ u ∈ uses, ∀ v ∈ uses, u.1 = v.1 → u.2 = v.2

instance (uses : List (String × Kind)) : Decidable (OneKindEach uses) :=
  inferInstanceAs (Decidable (∀ u ∈ uses, ∀ v ∈ uses, u.1 = v.1 → u.2 = v.2))

/-- The kind that a name is first used for. -/
def kindFor (uses : List (String × Kind)) (name : String) : Kind :=
  ((uses.find? fun u => u.1 = name).map Prod.snd).getD default

theorem kindFor_of_mem {uses : List (String × Kind)} (h : OneKindEach uses) {u : String × Kind}
    (hu : u ∈ uses) : u.2 = kindFor uses u.1 := by
  obtain ⟨v, hv⟩ : ∃ v, uses.find? (fun v => v.1 = u.1) = some v := by
    rw [← Option.isSome_iff_exists, List.find?_isSome]
    exact ⟨u, hu, by simp⟩
  have hname : v.1 = u.1 := by simpa using List.find?_some hv
  rw [kindFor, hv]
  exact (h v (List.mem_of_find?_eq_some hv) u hu hname).symm

/-- A probe is of the kind of a dependency. -/
def Fits (d : Dependency) (probe : P) : Prop :=
  kindOf probe = d.kind

omit [HasKind P] in
/-- A move that is passed on brings nothing into use. -/
theorem Scheduler.AllUses.passed {Q : Dependency → Handle P → Prop} {s : Scheduler (Handle P)}
    (h : s.AllUses Q) {a : MonitorMove P} {w : Move (Handle P)} (call : a.passed? = some w) :
    (s.move w).AllUses Q := by
  refine h.move fun d handle hbrings => ?_
  have hcall := hbrings.isCall
  cases a with
  | work w own => exact absurd hcall (by simp [← Option.some.inj call, own])
  | start | stop | remove =>
    obtain rfl := Option.some.inj call
    cases hbrings
  | add | addWith | update => cases call

namespace Monitor

/-- Every running loop has a probe of the kind that it publishes under. -/
def Matched (m : Monitor P) : Prop :=
  ∀ (i : Nat) (l : CheckLoop (Handle P)), m.scheduler.loops[i]? = some l → l.isDone = false →
    kindOf l.probe = l.dependency.kind

/-- Every running loop has such a probe at every moment of a run. -/
def AlwaysMatched (m : Monitor P) (ms : List (MonitorMove P)) : Prop :=
  ∀ ns, ns <+: ms → (m.run ns).Matched

/-- A move is carried out and moves an endpoint to a remembered probe of another kind. -/
def Misplaces (m : Monitor P) : MonitorMove P → Prop
  | .update name host port e => ∃ handle l, m.probes.get? name = some handle ∧
      (Endpoint.keyOf name host port, l) ∈ m.scheduler.inService ∧
      kindOf handle ≠ l.dependency.kind ∧ ∃ m', m.updateEndpoint name host port e = .ok m'
  | _ => False

/-! ### Moves to probes of another kind -/

/-- A move keeps probes at their kinds unless it misplaces one. -/
theorem allFit_move {m m' : Monitor P} {a : MonitorMove P} (h : m.scheduler.AllUses Fits)
    (hm : Effect m a m') (placed : ¬ m.Misplaces a) :
    m'.scheduler.AllUses Fits := by
  cases hm with
  | none => exact h
  | passed call => exact h.passed call
  -- the probe of an addition says the kind itself
  | added created accepted => exact h.added accepted fun d _ _ hkind => hkind.symm
  | addedWith accepted => exact h.added accepted fun d _ _ hkind => hkind.symm
  | @updated name host port e handle s remembered accepted =>
    refine h.updated accepted fun old served => ?_
    -- a remembered probe of another kind would be misplaced by this very update
    by_contra foreign
    refine placed ⟨handle, old, remembered, served, foreign, { m with scheduler := s }, ?_⟩
    rw [updateEndpoint, remembered]
    exact congrArg (Except.map _) accepted

/-- A run in which no move misplaces a probe keeps them at their kinds. -/
theorem allFit_run {m : Monitor P} (h : m.scheduler.AllUses Fits) {ms : List (MonitorMove P)}
    (placed : ∀ ns a, ns ++ [a] <+: ms → ¬ (m.run ns).Misplaces a) :
    (m.run ms).scheduler.AllUses Fits := by
  induction ms using List.reverseRecOn with
  | nil => exact h
  | append_singleton ms a ih =>
    rw [run_concat]
    refine allFit_move (ih fun ns b hns => placed ns b ?_) (effect_move _ a) ?_
    · exact hns.trans (List.prefix_append ms [a])
    · exact placed ms a (List.prefix_refl _)

/-- Such a move leaves a running loop with the wrong probe. -/
theorem not_matched_of_misplaces {m : Monitor P} {a : MonitorMove P} (h : m.Misplaces a) :
    ¬ (m.move a).Matched := by
  cases a with
  | update name host port e =>
    obtain ⟨handle, l, remembered, served, foreign, m', hm'⟩ := h
    have hmove : m.move (.update name host port e) = m' := congrArg m.taking hm'
    obtain ⟨handle', s, remembered', accepted, rfl⟩ := updateEndpoint_ok hm'
    obtain rfl := Option.some.inj (remembered.symm.trans remembered')
    obtain ⟨old, served', key, new⟩ := Scheduler.inService_of_updated accepted
    obtain rfl := Scheduler.eq_of_mem_inService served served'
    obtain ⟨i, -, hnew⟩ := Scheduler.mem_inService.mp new
    intro matched
    rw [hmove] at matched
    exact foreign (matched i _ hnew rfl)
  | start | stop | add | addWith | remove | work => exact h.elim

/-! ### Names that are used for one kind -/

/-- Every name is used for the kind that some function gives it. -/
structure OfKinds (k : String → Kind) (m : Monitor P) : Prop where
  uses : m.scheduler.AllUses fun d _ => IsName d.name ∧ d.kind = k d.name
  keyed : m.scheduler.Keyed
  registry : m.registry.Faithful
  probes : ∀ name handle, m.probes.get? name = some handle → IsName name ∧ kindOf handle = k name

/-- Then the remembered probe is of the kind of every endpoint in service. -/
theorem OfKinds.placed {k : String → Kind} {m : Monitor P} (h : m.OfKinds k) (a : MonitorMove P) :
    ¬ m.Misplaces a := by
  cases a with
  | update name host port e =>
    rintro ⟨handle, l, remembered, served, foreign, -⟩
    obtain ⟨named, hkind⟩ := h.probes name handle remembered
    obtain ⟨i, hslot, hl⟩ := Scheduler.mem_inService.mp served
    obtain ⟨named', hkind'⟩ := h.uses.loops i l hl
    obtain ⟨l', hl', hkey⟩ := h.keyed _ i hslot
    obtain rfl := Option.some.inj (hl.symm.trans hl')
    -- both names are valid, so the key tells them apart
    have hname : l.dependency.name = name := Endpoint.name_of_keyOf named' named hkey
    exact foreign (by rw [hkind, hkind', hname])
  | start | stop | add | addWith | remove | work => exact id

/-- A probe that an addition has put to use is remembered, unless one is already. -/
theorem OfKinds.puttingToUse {k : String → Kind} {m : Monitor P} (h : m.OfKinds k) {name : String}
    {critical : Bool} {e : Endpoint} {probe : P} {s : Scheduler (Handle P)}
    (accepted : m.scheduler.addEndpoint name (kindOf probe) critical e (m.handleOf probe) = .ok s)
    (hkind : kindOf probe = k name) : (m.puttingToUse name (m.handleOf probe) s).OfKinds k := by
  have hmove : m.scheduler.move
      (.add name (kindOf probe) critical e (m.handleOf probe)) = s :=
    congrArg m.scheduler.taking accepted
  have valid := (Scheduler.addEndpoint_ok accepted).2.1
  have named : IsName name := ((Dependency.validate_eq_ok_iff _).mp valid).name
  refine ⟨h.uses.added accepted fun d _ hdname hdkind => ?_, ?_, h.registry, fun n handle hn => ?_⟩
  · rw [hdname, hdkind]
    exact ⟨named, hkind⟩
  · change s.Keyed
    rw [← hmove]
    exact h.keyed.move (Scheduler.effect_move ..)
  · have hn : ((m.probes.get? n).or (if n = name then some (m.handleOf probe) else none)) =
        some handle := (Dictionary.get?_insertNew ..).symm.trans hn
    rcases Option.or_eq_some_iff.mp hn with hn | ⟨-, hn⟩
    · exact h.probes n handle hn
    · obtain ⟨rfl, rfl⟩ : n = name ∧ m.handleOf probe = handle := by simpa using hn
      exact ⟨named, hkind⟩

theorem OfKinds.move {k : String → Kind} {m m' : Monitor P} {a : MonitorMove P} (h : m.OfKinds k)
    (hm : Effect m a m') (use : ∀ u ∈ a.use?, u.2 = k u.1) : m'.OfKinds k := by
  have hkeyed : m'.scheduler.Keyed := by
    rcases hm.scheduler with hsame | ⟨w, hmoved⟩
    · exact hsame ▸ h.keyed
    · exact hmoved ▸ h.keyed.move (Scheduler.effect_move _ w)
  cases hm with
  | none => exact h
  | passed call => exact ⟨h.uses.passed call, hkeyed, h.registry, h.probes⟩
  | @added name kind critical e settings probe s created accepted =>
    obtain ⟨make, hmake, rfl⟩ := ProbeRegistry.create_ok created
    have hkind : kind = k name := use (name, kind) rfl
    exact h.puttingToUse accepted ((h.registry kind make hmake settings).trans hkind)
  | @addedWith name critical e probe s accepted =>
    exact h.puttingToUse accepted (use (name, kindOf probe) rfl)
  | updated _ accepted =>
    refine ⟨h.uses.updated accepted fun old served => ?_, hkeyed, h.registry, h.probes⟩
    obtain ⟨i, -, hl⟩ := Scheduler.mem_inService.mp served
    exact h.uses.loops i old hl

/-- A run that uses every name for its kind keeps the probes of the names of these kinds. -/
theorem OfKinds.run {k : String → Kind} {m : Monitor P} (h : m.OfKinds k)
    {ms : List (MonitorMove P)} (use : ∀ a ∈ ms, ∀ u ∈ a.use?, u.2 = k u.1) :
    (m.run ms).OfKinds k := by
  induction ms using List.reverseRecOn with
  | nil => exact h
  | append_singleton ms a ih =>
    rw [run_concat]
    refine (ih fun b hb => use b ?_).move (effect_move _ a) (use a ?_)
    · exact List.mem_append_left [a] hb
    · exact List.mem_append_right ms (List.mem_singleton_self a)

/-! ### What has been built -/

/-- The probe of a resolved spec is of the kind of the spec. -/
theorem kindOf_of_resolves {b : Blueprint P} (faithful : b.Faithful) {s : DependencySpec P}
    (hs : s ∈ b.specs) {r : Resolved P} (h : b.Resolves s r) : kindOf r.handle = s.kind := by
  obtain ⟨settings, -, own | ⟨-, created⟩⟩ := h.prepared
  · exact faithful.specs s hs r.handle.probe own
  · obtain ⟨make, hmake, hprobe⟩ := ProbeRegistry.create_ok created
    exact (congrArg kindOf hprobe).trans (faithful.registry s.kind make hmake settings)

theorem ofKinds_of_built {b : Blueprint P} {m : Monitor P} (faithful : b.Faithful)
    (built : b.build.result = .ok m) {k : String → Kind} (use : ∀ s ∈ b.specs, s.kind = k s.name) :
    m.OfKinds k := by
  have huse (s : DependencySpec P) (hs : s ∈ b.specs) (r : Resolved P) (hr : b.Resolves s r) :
      IsName r.dependency.name ∧ r.dependency.kind = k r.dependency.name := by
    obtain ⟨hname, hkind⟩ := hr.name_kind
    exact ⟨((Dependency.validate_eq_ok_iff _).mp hr.valid).name,
      by rw [hname, hkind, use s hs]⟩
  have uses := Blueprint.allUses_of_built built
    (Q := fun d _ => IsName d.name ∧ d.kind = k d.name) huse
  obtain ⟨name, x, rs, resolved, rfl⟩ := Blueprint.build_ok built
  refine ⟨uses, Scheduler.keyed_run x b.addedPlan (Blueprint.registrations rs), faithful.registry,
    fun n handle hn => ?_⟩
  obtain ⟨r, hr, heq⟩ := List.mem_map.mp (Dictionary.mem_of_mem_ofList (Dictionary.mem_of_get? hn))
  obtain ⟨rfl, rfl⟩ := Prod.mk.inj heq
  obtain ⟨s, hs, hresolves⟩ := Blueprint.exists_spec_of_mem resolved hr
  obtain ⟨named, hkind⟩ := huse s hs r hresolves
  refine ⟨named, ?_⟩
  rw [kindOf_of_resolves faithful hs hresolves, ← hkind, hresolves.name_kind.2]

/-- **Probes stay with the kinds that they check**, whatever clients build and add, but for
endpoints that move:

* all running loops have probes of their kinds at every moment just if no endpoint moves to a
  remembered probe of another kind;
* this is so if every name is used for one kind only. -/
theorem probes_match {b : Blueprint P} {m : Monitor P} (faithful : b.Faithful)
    (built : b.build.result = .ok m) (ms : List (MonitorMove P)) :
    (AlwaysMatched m ms ↔ ∀ ns a, ns ++ [a] <+: ms → ¬ (m.run ns).Misplaces a) ∧
      (OneKindEach (usesOf b ms) → AlwaysMatched m ms) := by
  have hfits : m.scheduler.AllUses Fits := Blueprint.allUses_of_built built fun s hs r hr =>
    (kindOf_of_resolves faithful hs hr).trans hr.name_kind.2.symm
  have hiff : AlwaysMatched m ms ↔ ∀ ns a, ns ++ [a] <+: ms → ¬ (m.run ns).Misplaces a := by
    constructor
    · intro matched ns a hns misplaces
      refine not_matched_of_misplaces misplaces ?_
      rw [← run_concat]
      exact matched _ hns
    · intro placed ns hns i l hl _
      exact (allFit_run hfits fun ns' a hns' => placed ns' a (hns'.trans hns)).loops i l hl
  refine ⟨hiff, fun single => hiff.mpr fun ns a hns => ?_⟩
  have hkinds : m.OfKinds (kindFor (usesOf b ms)) := by
    refine ofKinds_of_built faithful built fun s hs =>
      kindFor_of_mem single (u := (s.name, s.kind)) ?_
    exact List.mem_append_left _ (List.mem_map_of_mem hs)
  refine (hkinds.run fun c hc u hu => kindFor_of_mem single ?_).placed a
  refine List.mem_append_right _ (List.mem_filterMap.mpr ⟨c, ?_, hu⟩)
  exact hns.subset (List.mem_append_left [a] hc)

/-! ### A cache and a queue -/

/-- A cache that is checked by bare connections. -/
def cacheSpec : DependencySpec BuiltIn where
  name := "cache"
  kind := .tcp
  source := some (.listed [Endpoint.plain "a" 1])
  critical := some true
  labels := Dictionary.empty
  check := CheckOverrides.none
  settings := ProbeSettings.none
  probe := none

/-- An instance with the cache and the built-in probes. -/
def cacheApp : Blueprint BuiltIn :=
  { Blueprint.plain (some "app") BuiltIn.registry Environment.empty with specs := [cacheSpec] }

theorem cacheApp_faithful : cacheApp.Faithful where
  specs s hs probe hprobe := by
    obtain rfl := List.mem_singleton.mp hs
    cases hprobe
  registry := BuiltIn.faithful_registry

/-- After the start a Redis server is added under a name, and moves. -/
def redisMoves (name : String) : List (MonitorMove BuiltIn) :=
  [.start none, .add name .redis true (Endpoint.plain "b" 6379) ProbeSettings.none,
    .update name "b" 6379 (Endpoint.plain "c" 6379)]

/-- Under a name of its own it keeps a probe of its kind. -/
theorem queue_matched : ∃ m, cacheApp.Faithful ∧ cacheApp.build.result = .ok m ∧
    OneKindEach (usesOf cacheApp (redisMoves "queue")) ∧
    AlwaysMatched m (redisMoves "queue") ∧
    (m.run (redisMoves "queue")).scheduler.inService.map
        (fun e => (e.1, e.2.dependency.kind, kindOf e.2.probe)) =
      [("cache:a:1", .tcp, .tcp), ("queue:c:6379", .redis, .redis)] :=
  ⟨_, cacheApp_faithful, rfl, by decide,
    (probes_match cacheApp_faithful rfl (redisMoves "queue")).2 (by decide), rfl⟩

/-- Under the name of the cache it moves to the probe of the cache, which knows nothing of Redis. -/
theorem update_misplaces : ∃ m, cacheApp.Faithful ∧ cacheApp.build.result = .ok m ∧
    ¬ AlwaysMatched m (redisMoves "cache") ∧
    (m.run (redisMoves "cache")).scheduler.inService.map
        (fun e => (e.1, e.2.dependency.kind, kindOf e.2.probe)) =
      [("cache:a:1", .tcp, .tcp), ("cache:c:6379", .redis, .tcp)] := by
  refine ⟨_, cacheApp_faithful, rfl, fun matched => ?_, rfl⟩
  have moved : Kind.tcp = Kind.redis := matched _ (List.prefix_refl _) 2 _ rfl rfl
  cases moved

end Monitor

end HealthMonitor
