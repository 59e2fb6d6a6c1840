import HealthMonitor.Proofs.Scheduler.Erasure
import HealthMonitor.Proofs.Scheduler.InFlight
import HealthMonitor.Proofs.Scheduler.Keys

/-!
# An update is a swap

An update takes effect in one move, however long the call has waited before and however long it goes
on to retire loops. Readers of snapshots come at any moment in between. What they find under the two
keys is what the loops that serve them know (`Scheduler.pictures`), so it changes hands in that one
move (`update_swaps`): before, the old endpoint is there and the new key is as it was, and from then
on the new endpoint is there instead of either.

The two keys may be one, and the new key may be served already. Then up to three loops are alive at
once, of which one serves.
-/

namespace HealthMonitor

namespace Scheduler

variable {P : Type}

/-! ### Snapshots -/

/-- What the snapshots have under a key is what the loop with a number knows; nothing, if no loop is
to serve it. -/
structure Pictures (s : Scheduler P) (key : String) (serving : Option Nat) : Prop where
  loop : ∀ i ∈ serving, ∃ l, s.loops[i]? = some l
  details : ∀ status, (key, status) ∈ s.details ↔ ∃ i ∈ serving, ∃ l ∈ s.loops[i]?,
    status = EndpointStatus.ofState l.dependency l.endpoint l.state
  health : ∀ healthy, (key, healthy) ∈ s.health ↔ ∃ i ∈ serving, ∃ l ∈ s.loops[i]?,
    l.state.tracker.healthy = some healthy

theorem pictures {s : Scheduler P} (hs : Owned s) {key : String} {serving : Option Nat}
    (h : s.slots.get? key = serving) : s.Pictures key serving := by
  subst h
  exact ⟨fun i hi => ⟨_, List.getElem?_eq_getElem (hs.slot i ⟨key, hi⟩)⟩, fun _ => mem_details,
    fun _ => mem_health⟩

/-! ### Keys that are left alone -/

/-- No call concerns any of some keys. -/
def Spared (keys : List String) (past : List (Scheduler P × Move P)) : Prop :=
  ∀ p ∈ past, ∀ key ∈ p.2.concerns p.1, key ∉ keys

instance (keys : List String) (past : List (Scheduler P × Move P)) :
    Decidable (Spared keys past) :=
  inferInstanceAs (Decidable (∀ p ∈ past, ∀ key ∈ p.2.concerns p.1, key ∉ keys))

/-- While running only a call that concerns a key changes who serves it. -/
theorem get?_of_effect {s s' : Scheduler P} {m : Move P} (h : Effect s m s')
    (started : s.lifecycle ≠ .idle) {key : String} (spared : key ∉ m.concerns s) :
    s'.slots.get? key = s.slots.get? key := by
  cases h with
  | none | registered | stepped | ended | passed => rfl
  | started _ idle => exact absurd idle started
  | told => rw [tell_frame]
  | @added d name kind critical e probe dependency =>
    have hkey : d.key e = Endpoint.keyOf name e.host e.port := by rw [dependency]; rfl
    exact (Dictionary.get?_insert ..).trans (if_neg (by simpa [Move.concerns, hkey] using spared))
  | removed named =>
    subst named
    exact (Dictionary.get?_erase ..).trans (if_neg (by simpa [Move.concerns] using spared))
  | replaced named _ _ served loop =>
    subst named
    simp only [Move.concerns, served, Option.bind_some, loop, Option.toList_some, List.map_cons,
      List.map_nil, List.mem_cons, List.not_mem_nil, or_false, not_or] at spared
    refine (Dictionary.get?_insert ..).trans ((if_neg spared.2).trans ?_)
    exact (Dictionary.get?_erase ..).trans (if_neg spared.1)
  | called _ advance => rw [show _ = s.slots from (advance_frame advance).2.1]

/-- A key that no move of a run concerns is served by the same loop throughout. -/
theorem get?_run {s : Scheduler P} (started : s.lifecycle ≠ .idle) {keys : List String}
    {key : String} (hkey : key ∈ keys) {ms : List (Move P)} (spared : Spared keys (s.trace ms)) :
    (s.run ms).slots.get? key = s.slots.get? key := by
  induction ms generalizing s with
  | nil => rfl
  | cons m ms ih =>
    have hm := effect_move s m
    obtain ⟨first, rest⟩ := List.forall_mem_cons.mp spared
    rw [run_cons, ih (not_idle_of_effect hm started) rest]
    exact get?_of_effect hm started fun hconcerns => first key hconcerns hkey

/-! ### A step of a call -/

/-- A step of a call changes no loop but one that it waits for. -/
theorem advance_loops_of_not_awaited {s s' : Scheduler P} {c : Call} {after : Option Call}
    (h : Advance s c s' after) {k : Nat} (hk : k ∉ c.awaited) : s'.loops[k]? = s.loops[k]? := by
  cases h with
  | joinedByStop | joined =>
    obtain ⟨journal, h⟩ := noticeEnd_eq s _
    rw [h]
  | cleared => rw [clearPlace_eq]
  | @signalled r rest =>
    have hne : r.loop ≠ k := fun h => hk (by simp [Call.awaited, h])
    exact List.getElem?_modify_ne _ _ hne
  | stopReturned | retired | returned => rfl

/-- The step of a call changes no keys, and no loop but those that it waits for. -/
theorem move_call_frame {s : Scheduler P} {j : Nat} {c : Call} (hc : s.calls[j]? = some c) :
    (s.move (.call j)).slots = s.slots ∧
      ∀ k, k ∉ c.awaited → (s.move (.call j)).loops[k]? = s.loops[k]? := by
  cases ha : s.advance c with
  | none =>
    have hwait : s.move (.call j) = s := move_call_of_waiting fun d hd => by
      rwa [← Option.some.inj (hc.symm.trans hd)]
    rw [hwait]
    exact ⟨rfl, fun _ _ => rfl⟩
  | some result =>
    obtain ⟨s', after⟩ := result
    rw [move_call hc ha]
    exact ⟨(advance_frame (advance_some ha)).2.1,
      fun k hk => advance_loops_of_not_awaited (advance_some ha) hk⟩

/-! ### The swap -/

/-- Who serves the keys after an update. -/
theorem replaced_get? (s : Scheduler P) (key : String) (i : Nat) (old : CheckLoop P) (e : Endpoint)
    (probe : P) (k : String) :
    (s.replaced key i old e probe).slots.get? k =
      if k = old.dependency.key e then some s.loops.length
      else if k = key then none else s.slots.get? k :=
  (Dictionary.get?_insert ..).trans (by rw [Dictionary.get?_erase]; rfl)

/-- Whoever makes way for an update serves the old key or the new one. -/
theorem serves_of_makingWay {s : Scheduler P} {key newKey : String} {i j : Nat}
    (served : s.slots.get? key = some i) (hj : j ∈ s.makingWay key newKey i) :
    ∃ k, s.slots.get? k = some j ∧ (k = key ∨ k = newKey) := by
  rcases List.mem_cons.mp hj with rfl | hj
  · exact ⟨key, served, Or.inl rfl⟩
  · rw [Option.mem_toList, Dictionary.get?_erase] at hj
    split at hj
    · cases hj
    · exact ⟨newKey, hj, Or.inr rfl⟩

/-- Nobody who makes way for an update serves a key after it. -/
theorem not_serves_replaced {s : Scheduler P} (hs : Owned s) (keyed : s.Keyed) {key : String}
    {i j : Nat} {old : CheckLoop P} {e : Endpoint} (probe : P)
    (served : s.slots.get? key = some i)
    (hj : j ∈ s.makingWay key (old.dependency.key e) i) :
    ¬ (s.replaced key i old e probe).Serves j := by
  obtain ⟨k, hk, hkeys⟩ := serves_of_makingWay served hj
  rintro ⟨k', hk'⟩
  rw [replaced_get?] at hk'
  split at hk'
  next =>
    have hlt : j < s.loops.length := hs.slot j ⟨k, hk⟩
    exact absurd (Option.some.inj hk') (Nat.ne_of_gt hlt)
  next hnew =>
    split at hk'
    next => cases hk'
    next hold =>
      -- any other key it would have served before as well
      obtain rfl := keyed.injective hk hk'
      exact hkeys.elim hold hnew

/-- What an update does in the move in which it takes effect. -/
structure Swapped (s s' : Scheduler P) (oldKey newKey : String) (old : CheckLoop P) (e : Endpoint)
    (probe : P) : Prop where
  /-- All loops stay as they are, and there is one more, for the dependency of the old endpoint. -/
  loops : s'.loops =
    s.loops ++ [CheckLoop.spawn { old.dependency with endpoints := [e] } e probe none]
  /-- Nothing is known of the new endpoint, and nothing has been counted. -/
  status : ∀ status, (newKey, status) ∈ s'.details ↔ status =
    { healthy := none, verdict := Verdict.unknown, latency := Span.zero, checkedAt := none,
      name := old.dependency.name, kind := old.dependency.kind,
      critical := old.dependency.isCritical, host := e.host, port := e.port, labels := e.labels }
  tracker : ∀ l ∈ s'.loops[s.loops.length]?, l.plan = old.plan ∧
    l.state.tracker = Tracker.fresh old.plan.failureThreshold old.plan.successThreshold
  others : ∀ key, key ≠ oldKey → key ≠ newKey → s'.slots.get? key = s.slots.get? key
  metrics : s'.metrics = s.metrics
  /-- What is left to do is left to a call in flight. -/
  calls : ∃ left, s'.calls = s.calls ++ [.retiring left .signal (.endpointUpdated oldKey newKey)]

/-- What readers find while an update has not taken effect: the old endpoint, and under the new key
what there has been. The loop that is to come serves nothing. -/
structure Earlier (s : Scheduler P) (oldKey newKey : String) (i : Nat) (was : Option Nat)
    (next : Nat) : Prop where
  old : s.Pictures oldKey (some i)
  new : s.Pictures newKey was
  absent : ¬ s.Serves next

/-- What readers find from then on: the new endpoint instead of both. -/
structure Later (s : Scheduler P) (oldKey newKey : String) (leaving : List Nat) (next : Nat) :
    Prop where
  new : s.Pictures newKey (some next)
  old : oldKey ≠ newKey → s.Pictures oldKey none
  absent : ∀ j ∈ leaving, ¬ s.Serves j

/-- What an update leaves to its call in flight at a place, after some moves. -/
structure Retires (s : Scheduler P) (place : Nat) (leaving : List Nat) (ms : List (Move P)) :
    Prop where
  /-- A step of the call touches no endpoint in service, and no loop but those that make way. -/
  aside : ∀ j, s.placeIn place ms = some j →
    ((s.run ms).move (.call j)).slots = (s.run ms).slots ∧
      ∀ k, k ∉ leaving → ((s.run ms).move (.call j)).loops[k]? = (s.run ms).loops[k]?
  /-- When the call returns, those that make way are over. -/
  ended : s.placeIn place ms = none → ∀ j ∈ leaving, (s.run ms).isDone j = true

/-- The call that an update leaves behind waits for those that make way. -/
theorem mem_awaited_replaced {s : Scheduler P} (hs : Owned s) {key newKey : String} {i : Nat}
    (served : s.slots.get? key = some i) {d : Dependency} {e : Endpoint} {stage : RetireStage}
    {report : LogLine} {j : Nat} :
    j ∈ (Call.retiring ((s.makingWay key newKey i).flatMap (s.retiredFor d e)) stage
      report).awaited ↔ j ∈ s.makingWay key newKey i := by
  simp only [Call.awaited, List.mem_map]
  constructor
  · rintro ⟨r, hr, rfl⟩
    obtain ⟨l, hj, -⟩ := mem_retired.mp hr
    exact hj
  · intro hj
    obtain ⟨k, hk, -⟩ := serves_of_makingWay served hj
    have hl := List.getElem?_eq_getElem (hs.slot j ⟨k, hk⟩)
    exact ⟨⟨j, _⟩, mem_retired.mpr ⟨_, hj, hl, rfl⟩, rfl⟩

/-- What is put in the place of another takes its key and all of its dependency. -/
theorem swapped_replaced {s : Scheduler P} {key : String} {i : Nat} {old : CheckLoop P}
    (e : Endpoint) (probe : P) :
    Swapped s (s.replaced key i old e probe) key (old.dependency.key e) old e probe := by
  have hloop : (s.replaced key i old e probe).loops[s.loops.length]? =
      some (CheckLoop.spawn { old.dependency with endpoints := [e] } e probe none) :=
    List.getElem?_concat_length ..
  refine ⟨rfl, fun status => ?_, fun l hl => ?_, fun k hold hnew => ?_, rfl, _, rfl⟩
  · rw [mem_details, replaced_get?, if_pos rfl]
    simp only [Option.mem_some, exists_eq_left', hloop]
    rfl
  · obtain rfl := Option.some.inj (hloop.symm.trans hl)
    exact ⟨rfl, rfl⟩
  · rw [replaced_get?, if_neg hnew, if_neg hold]

/-- The call that an update leaves behind returns when the loops that make way are over. -/
theorem retires_replaced {s : Scheduler P} (hs : Owned s) (running : s.lifecycle = .running)
    {key : String} {i : Nat} (served : s.slots.get? key = some i) (old : CheckLoop P)
    (e : Endpoint) (probe : P) (ms : List (Move P)) :
    (s.replaced key i old e probe).Retires s.calls.length
      (s.makingWay key (old.dependency.key e) i) ms := by
  have hcall : (s.replaced key i old e probe).calls[s.calls.length]? = some _ :=
    List.getElem?_concat_length ..
  refine ⟨fun j place => ?_, fun returned j hj => ?_⟩
  · obtain ⟨c, hc, hfewer⟩ := call_of_placeIn hcall place
    obtain ⟨hslots, hloops⟩ := move_call_frame hc
    refine ⟨hslots, fun k hk => hloops k fun hawaited => hk ?_⟩
    exact (mem_awaited_replaced hs served).mp (hfewer hawaited)
  · exact isDone_of_returned (hs.replaced running served e probe) hcall
      ((mem_awaited_replaced hs served).mpr hj) returned

/-- Up to the update readers find the old endpoint, and the new key as it was. -/
theorem earlier_of_spared {s : Scheduler P} (hs : Owned s) (started : s.lifecycle ≠ .idle)
    {waiting : List (Move P)} {oldKey newKey : String} {i : Nat}
    (served : (s.run waiting).slots.get? oldKey = some i)
    (spared : Spared [oldKey, newKey] (s.trace waiting)) {ns : List (Move P)}
    (early : ns <+: waiting) :
    (s.run ns).Earlier oldKey newKey i (s.slots.get? newKey) (s.run waiting).loops.length := by
  have hearly : Spared [oldKey, newKey] (s.trace ns) :=
    fun p hp => spared p (trace_subset early s hp)
  refine ⟨pictures (hs.run ns) ?_, pictures (hs.run ns) (get?_run started (by simp) hearly), ?_⟩
  · rw [get?_run started (by simp) hearly, ← served, get?_run started (by simp) spared]
  · obtain ⟨rest, rfl⟩ := early
    have hmore : (s.run ns).loops.length ≤ (s.run (ns ++ rest)).loops.length := by
      rw [run_append]
      exact (loopsGoOn_run _ rest).1
    exact fun hserves => Nat.not_lt.mpr hmore ((hs.run ns).slot _ hserves)

/-- From the update on they find the new endpoint. -/
theorem later_of_spared {s : Scheduler P} (hs : Owned s) (keyed : s.Keyed)
    (running : s.lifecycle = .running) {key : String} {i : Nat}
    (served : s.slots.get? key = some i) {old : CheckLoop P} {e : Endpoint} {probe : P}
    {ns : List (Move P)}
    (spared : Spared [key, old.dependency.key e] ((s.replaced key i old e probe).trace ns)) :
    ((s.replaced key i old e probe).run ns).Later key (old.dependency.key e)
      (s.makingWay key (old.dependency.key e) i) s.loops.length := by
  have started : (s.replaced key i old e probe).lifecycle ≠ .idle := by
    rw [show (s.replaced key i old e probe).lifecycle = .running from running]
    decide
  have hs' : Owned (s.replaced key i old e probe) := hs.replaced running served e probe
  refine ⟨pictures (hs'.run ns) ?_, fun hne => pictures (hs'.run ns) ?_, fun j hj => ?_⟩
  · rw [get?_run started (by simp) spared, replaced_get?, if_pos rfl]
  · rw [get?_run started (by simp) spared, replaced_get?, if_neg hne, if_pos rfl]
  · have hout := not_serves_replaced hs keyed probe served hj
    refine not_serves_run hs' ?_ hout ns
    exact hs'.held _ (List.mem_of_getElem? (List.getElem?_concat_length ..)) j
      ((mem_awaited_replaced hs served).mpr hj)

/-- **An update is a swap.** Readers may look whenever they like, from the moment an update is
issued until it returns and beyond. If no other call concerns its keys meanwhile, they find the old
endpoint and the new key as it was until the update takes effect, and from then on the new endpoint
instead. It takes over all of the dependency, and nothing else of it is seen: the endpoints of other
keys and their loops are left alone, and when the call returns, the loops that have made way are
over. -/
theorem update_swaps (x : Exporter) (defaults : CheckPlan) (before waiting after : List (Move P))
    (name oldHost : String) (oldPort : UInt16) (e : Endpoint) (probe : P)
    (running : ((fresh x defaults).run before).lifecycle = .running)
    (accepted : ∃ s, (((fresh x defaults).run before).run waiting).updateEndpoint name oldHost
      oldPort e probe = .ok s) :
    let s₀ := (fresh x defaults).run before
    let s₁ := s₀.run waiting
    let s₂ := s₁.move (.update name oldHost oldPort e probe)
    let oldKey := Endpoint.keyOf name oldHost oldPort
    ∃ i old, s₁.slots.get? oldKey = some i ∧ s₁.loops[i]? = some old ∧
      let newKey := old.dependency.key e
      let leaving := s₁.makingWay oldKey newKey i
      Swapped s₁ s₂ oldKey newKey old e probe ∧ s₂.Retires s₁.calls.length leaving after ∧
        (Spared [oldKey, newKey] (s₀.trace waiting ++ s₂.trace after) →
          (∀ ns, ns <+: waiting →
            (s₀.run ns).Earlier oldKey newKey i (s₀.slots.get? newKey) s₁.loops.length) ∧
          ∀ ns, ns <+: after →
            (s₂.run ns).Later oldKey newKey leaving s₁.loops.length) := by
  intro s₀ s₁ s₂ oldKey
  have hs₀ : Owned s₀ := owned_run x defaults before
  have hs₁ : Owned s₁ := hs₀.run waiting
  have keyed : s₁.Keyed := (keyed_run x defaults before).run waiting
  obtain ⟨s', haccepted⟩ := accepted
  obtain ⟨running₁, -, i, old, served, loop, hreplaced⟩ := updateEndpoint_ok haccepted
  have hs₂ : s₂ = s₁.replaced oldKey i old e probe :=
    (congrArg s₁.taking haccepted).trans hreplaced
  refine ⟨i, old, served, loop, ?_⟩
  rw [hs₂]
  refine ⟨swapped_replaced e probe, retires_replaced hs₁ running₁ served old e probe after,
    fun spared => ⟨fun ns early => ?_, fun ns early => ?_⟩⟩
  · have started : s₀.lifecycle ≠ .idle := by simp [s₀, running]
    exact earlier_of_spared hs₀ started served
      (fun p hp => spared p (List.mem_append_left _ hp)) early
  · exact later_of_spared hs₁ keyed running₁ served fun p hp =>
      spared p (List.mem_append_right _ (trace_subset early _ hp))

/-! ### An update onto an endpoint that is served -/

/-- Two endpoints are served, and the first has been checked. -/
def bothServed : List (Move Unit) :=
  .register (database [Endpoint.plain "a" 1, Endpoint.plain "b" 2]) () :: .start none ::
    checking 0 (.ok ())

/-- While an update waits, the second endpoint is being checked. -/
def meanwhile : List (Move Unit) :=
  [.loop 1, .ending 1 (.returned (.ok ())), .loop 1]

/-- The first endpoint is moved onto the second. The new loop publishes before either of the two
others is told to stop. -/
def movedOver : List (Move Unit) :=
  [checking 2 (.error .timeout), [.call 0, .loop 0], List.replicate 8 (.call 0),
    List.replicate 7 (.loop 1), List.replicate 3 (.call 0)].flatten

theorem movedOver_swaps :
    let s₀ := newApp.run bothServed
    let s₁ := s₀.run meanwhile
    let s₂ := s₁.move (.update "db" "a" 1 (Endpoint.plain "b" 2) ())
    s₀.lifecycle = .running ∧
      (∃ s, s₁.updateEndpoint "db" "a" 1 (Endpoint.plain "b" 2) () = .ok s) ∧
      Spared ["db:a:1", "db:b:2"] (s₀.trace meanwhile ++ s₂.trace movedOver) ∧
      (∀ ns, ns <+: meanwhile → (s₀.run ns).Earlier "db:a:1" "db:b:2" 0 (some 1) 2) ∧
      (∀ ns, ns <+: movedOver → (s₂.run ns).Later "db:a:1" "db:b:2" [0, 1] 2) ∧
      s₂.placeIn 0 movedOver = none ∧ ∀ j ∈ [0, 1], (s₂.run movedOver).isDone j = true := by
  intro s₀ s₁ s₂
  have running : s₀.lifecycle = .running := by decide +kernel
  have accepted : ∃ s, s₁.updateEndpoint "db" "a" 1 (Endpoint.plain "b" 2) () = .ok s :=
    Checks.exists_of_isOk (by decide +kernel)
  have spared : Spared ["db:a:1", "db:b:2"] (s₀.trace meanwhile ++ s₂.trace movedOver) := by
    decide +kernel
  have returned : s₂.placeIn 0 movedOver = none := by decide +kernel
  obtain ⟨i, old, served, loop, -, retires, swaps⟩ :=
    update_swaps _ _ bothServed meanwhile movedOver "db" "a" 1 (Endpoint.plain "b" 2) () running
      accepted
  obtain rfl : i = 0 := Option.some.inj (served.symm.trans (by decide +kernel))
  have newKey : old.dependency.key (Endpoint.plain "b" 2) = "db:b:2" := by
    have hall : ∀ l ∈ s₁.loops[0]?, l.dependency.key (Endpoint.plain "b" 2) = "db:b:2" := by
      decide +kernel
    exact hall old loop
  have leaving : s₁.makingWay "db:a:1" "db:b:2" 0 = [0, 1] := by decide +kernel
  have was : s₀.slots.get? "db:b:2" = some 1 := by decide +kernel
  have next : s₁.loops.length = 2 := by decide +kernel
  have place : s₁.calls.length = 0 := by decide +kernel
  have oldKey : Endpoint.keyOf "db" "a" 1 = "db:a:1" := by decide +kernel
  simp only [oldKey, newKey] at retires swaps
  obtain ⟨earlier, later⟩ := swaps spared
  refine ⟨running, accepted, spared, fun ns hns => ?_, fun ns hns => ?_, returned, ?_⟩
  · exact next ▸ was ▸ earlier ns hns
  · exact next ▸ leaving ▸ later ns hns
  · exact leaving ▸ retires.ended (place ▸ returned)

end Scheduler

end HealthMonitor
