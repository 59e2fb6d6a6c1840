import HealthMonitor.Proofs.Scheduler.Attempts
import HealthMonitor.Proofs.Scheduler.Keys

/-!
# Schedulers without calls while running

Before the start clients list endpoints, and as long as they change nothing afterwards, the loops of
the start are all the loops there are. Each of them serves the key of its own endpoint, of two
listings of one key the last (`serves_lastListing`), so no two loops have the same label values
(`Fixed.labelsOf_injective`), and nothing is ever cleared.
-/

namespace HealthMonitor

namespace Scheduler

variable {P : Type}

/-- The endpoints that some registrations list, by key. -/
def listings (regs : List (Dependency × P)) : List (String × Dependency × Endpoint × P) :=
  regs.flatMap fun r => r.1.endpoints.map fun e => (r.1.key e, r.1, e, r.2)

/-- The last listing of a key. -/
def lastListing (regs : List (Dependency × P)) (key : String) :
    Option (Dependency × Endpoint × P) :=
  ((listings regs).filter fun x => x.1 = key).getLast?.map Prod.snd

/-- The moves by which dependencies are registered and then started. -/
def startUp (regs : List (Dependency × P)) (outer : Option Instant) : List (Move P) :=
  regs.map (fun r => Move.register r.1 r.2) ++ [Move.start outer]

/-- The endpoints in service are those of the loops: each loop serves its own key, and no call takes
one out of service. -/
structure Fixed (s : Scheduler P) : Prop where
  keyed : ∀ key i, s.slots.get? key = some i →
    ∃ l, s.loops[i]? = some l ∧ l.dependency.key l.endpoint = key
  served : ∀ i, i < s.loops.length → s.Serves i
  stops : ∀ c ∈ s.calls, c.isStop = true

/-- A loop that is served under its own key, which is free, keeps the table fixed. -/
theorem Fixed.serve {s : Scheduler P} (h : s.Fixed) {key : String} {l : CheckLoop P}
    (hkey : l.dependency.key l.endpoint = key) (free : s.slots.get? key = none) :
    (s.serve key l).Fixed := by
  refine ⟨Keyed.serve h.keyed hkey, fun i hi => ?_, h.stops⟩
  by_cases hlt : i < s.loops.length
  · obtain ⟨k, hk⟩ := h.served i hlt
    have hne : k ≠ key := fun heq => by simp [heq ▸ hk] at free
    exact ⟨k, by simpa [Scheduler.serve, hne] using hk⟩
  · refine ⟨key, ?_⟩
    have hlast : s.loops.length = i := by
      simp only [Scheduler.serve, List.length_append, List.length_singleton] at hi
      omega
    simp [Scheduler.serve, hlast]

/-- What keeps the keys and the number of loops keeps to the endpoints in service. -/
private theorem Fixed.of_frame {s s' : Scheduler P} (h : s.Fixed) (hgo : LoopsGoOn s.loops s'.loops)
    (hlength : s'.loops.length = s.loops.length) (hslots : s'.slots = s.slots)
    (hstops : ∀ c ∈ s'.calls, c.isStop = true) : s'.Fixed := by
  refine ⟨Keyed.mono h.keyed hgo fun _ _ hi => hslots ▸ hi, fun i hi => ?_, hstops⟩
  simpa only [Serves, hslots] using h.served i (hlength ▸ hi)

/-- Moves of a static monitor keep the table fixed. -/
theorem Fixed.move {s s' : Scheduler P} {m : Move P} (h : s.Fixed) (hs : Owned s)
    (hm : Effect s m s') (static : m.isDynamic = false) : s'.Fixed := by
  have hgo := hm.loopsGoOn
  cases hm with
  | none => exact h
  | registered => exact h.of_frame hgo rfl rfl h.stops
  | started outer idle =>
    obtain ⟨s', hs', -, hfixed⟩ := begun_induction hs idle outer (motive := Fixed)
      ⟨h.keyed, h.served, h.stops⟩ fun s' e he _ hs' free => by
        obtain ⟨r, -, ep, -, rfl⟩ := spawned_of_mem_startLoops he
        exact hs'.serve rfl free
    rw [hs']
    exact ⟨hfixed.keyed, hfixed.served, hfixed.stops⟩
  | told =>
    rw [tell_frame] at hgo ⊢
    refine h.of_frame hgo (tell_length ..) rfl fun c hc => ?_
    rcases List.mem_append.mp hc with hc | hc
    · exact h.stops c hc
    · rw [List.mem_singleton.mp hc]
      rfl
  | added | removed | replaced => cases static
  | stepped => exact h.of_frame hgo (by simp [note]) rfl h.stops
  | called hc ha =>
    have hlength := advance_length ha
    refine h.of_frame hgo hlength (advance_frame ha).2.1 fun c' hc' => ?_
    rcases mem_of_mem_callsAfter hc' with hc' | rfl
    · exact h.stops c' hc'
    · exact (isStop_of_advance ha).trans (h.stops _ (List.mem_of_getElem? hc))
  | ended => exact h.of_frame hgo (by simp [endProbe, modifyLoop]) rfl h.stops
  | passed => exact h.of_frame hgo rfl rfl h.stops

theorem fixed_fresh (x : Exporter) (defaults : CheckPlan) :
    (fresh x defaults : Scheduler P).Fixed where
  keyed key i hk := by simp [fresh] at hk
  served i hi := by simp [fresh] at hi
  stops c hc := by simp [fresh] at hc

/-- Without dynamic calls the table is fixed in every run. -/
theorem fixed_run (x : Exporter) (defaults : CheckPlan) {ms : List (Move P)}
    (static : ∀ m ∈ ms, m.isDynamic = false) : ((fresh x defaults).run ms).Fixed := by
  induction ms using List.reverseRecOn with
  | nil => exact fixed_fresh x defaults
  | append_singleton ms m ih =>
    rw [run_concat]
    exact (ih fun m hm => static m (by simp [hm])).move (owned_run x defaults ms) (effect_move _ m)
      (static m (by simp))

/-- The label values of an endpoint tell its key. -/
theorem key_of_labelValues {x : Exporter} {d d' : Dependency} {e e' : Endpoint}
    (h : x.labelValues d e = x.labelValues d' e') : d.key e = d'.key e' := by
  have htexts := congrArg LabelValues.texts h
  simp only [Exporter.labelValues, List.cons_append, List.cons.injEq] at htexts
  obtain ⟨-, hname, -, hhost, hport, -⟩ := htexts
  simp only [Dependency.key, Endpoint.key, Endpoint.keyOf, hname, hhost, hport]

/-- **Label values tell loops apart.** -/
theorem Fixed.labelsOf_injective {s : Scheduler P} (h : s.Fixed) {i j : Nat} {l l' : CheckLoop P}
    (hl : s.loops[i]? = some l) (hl' : s.loops[j]? = some l')
    (hlabels : s.labelsOf l = s.labelsOf l') : i = j := by
  have own {i : Nat} {l : CheckLoop P} (hl : s.loops[i]? = some l) :
      s.slots.get? (l.dependency.key l.endpoint) = some i := by
    obtain ⟨key, hkey⟩ := h.served i (List.getElem?_eq_some_iff.mp hl).1
    obtain ⟨l', hl', rfl⟩ := h.keyed key i hkey
    rwa [Option.some.inj (hl.symm.trans hl')]
  have hi := own hl
  rw [key_of_labelValues hlabels] at hi
  exact Option.some.inj (hi.symm.trans (own hl'))

/-- A move that takes no endpoint out of service clears nothing. -/
theorem Fixed.touch_ne_cleared {s : Scheduler P} (h : s.Fixed) {m : Move P} {t : Touch}
    (ht : s.touch? m = some t) (place : Exporter.Removal) : t.change ≠ .cleared place := by
  obtain ⟨l, -, -, ⟨-, hw⟩ | ⟨place', -, hcarried⟩⟩ := touch?_some ht
  · exact CheckLoop.writing?_ne_cleared hw place
  · have hmem : (t.loop, place') ∈ s.carriedOut m := hcarried ▸ List.mem_singleton_self _
    obtain ⟨c, hc, hplace⟩ := List.mem_flatMap.mp hmem
    -- no call in flight takes loops out of service
    have hstop := h.stops c (mem_calls_of_driven hc)
    cases c with
    | stopping => cases hplace
    | retiring => cases hstop

/-! ### The loops of a start -/

theorem serveAll_get?_of_ne {es : List (String × CheckLoop P)} {key : String}
    (hne : ∀ e ∈ es, e.1 ≠ key) (s : Scheduler P) :
    (s.serveAll es).slots.get? key = s.slots.get? key := by
  induction es generalizing s with
  | nil => rfl
  | cons e es ih =>
    change ((s.serve e.1 e.2).serveAll es).slots.get? key = _
    rw [ih fun f hf => hne f (by simp [hf])]
    simp [serve, (hne e (by simp)).symm]

/-- Every one of the loops that are served under distinct keys is in service. -/
theorem serveAll_serves {es : List (String × CheckLoop P)}
    (distinct : es.Pairwise fun a b => a.1 < b.1) (s : Scheduler P) {e : String × CheckLoop P}
    (he : e ∈ es) : ∃ i, (s.serveAll es).slots.get? e.1 = some i ∧
      (s.serveAll es).loops[i]? = some e.2 := by
  induction es generalizing s with
  | nil => cases he
  | cons f es ih =>
    obtain ⟨hhead, htail⟩ := List.pairwise_cons.mp distinct
    rcases List.mem_cons.mp he with rfl | he
    · refine ⟨s.loops.length, ?_, ?_⟩
      · change ((s.serve e.1 e.2).serveAll es).slots.get? e.1 = _
        rw [serveAll_get?_of_ne fun g hg heq => Std.lt_irrefl (heq ▸ hhead g hg)]
        simp [serve]
      · simp [serveAll_loops]
    · exact ih htail (s.serve f.1 f.2) he

/-- Registrations of valid dependencies pile up in their order. -/
theorem run_registers (x : Exporter) (defaults : CheckPlan) {regs : List (Dependency × P)}
    (valid : ∀ r ∈ regs, r.1.validate = .ok ()) :
    (fresh x defaults).run (regs.map fun r => .register r.1 r.2) =
      { fresh x defaults with pending := regs.map fun r => ⟨r.1, r.2⟩ } := by
  induction regs using List.reverseRecOn with
  | nil => rfl
  | append_singleton regs r ih =>
    rw [List.map_append, List.map_singleton, run_concat, ih fun r hr => valid r (by simp [hr])]
    have hr := valid r (by simp)
    have hok : ({ fresh x defaults with pending := regs.map fun r => ⟨r.1, r.2⟩ } :
        Scheduler P).register r.1 r.2 = .ok
          { fresh x defaults with pending := (regs ++ [r]).map fun r => ⟨r.1, r.2⟩ } := by
      rw [register, hr, List.map_append]
      rfl
    rw [move, hok, taking]

/-- **Of two listings of one key the last is served.** -/
theorem serves_lastListing (x : Exporter) (defaults : CheckPlan) {regs : List (Dependency × P)}
    (valid : ∀ r ∈ regs, r.1.validate = .ok ()) (outer : Option Instant) {key : String}
    {d : Dependency} {e : Endpoint} {probe : P}
    (listed : lastListing regs key = some (d, e, probe)) :
    ∃ i, ((fresh x defaults).run (startUp regs outer)).slots.get? key = some i ∧
      ((fresh x defaults).run (startUp regs outer)).loops[i]? =
        some (CheckLoop.spawn d e probe outer) := by
  rw [startUp, run_concat, run_registers x defaults valid]
  set s : Scheduler P := { fresh x defaults with pending := regs.map fun r => ⟨r.1, r.2⟩ }
  have hloops : s.pending.flatMap (loopsOf outer) = (listings regs).map fun p =>
      (p.1, CheckLoop.spawn p.2.1 p.2.2.1 p.2.2.2 outer) := by
    simp [s, listings, loopsOf, List.flatMap_map, List.map_flatMap, Function.comp_def]
  -- of several loops for one key the dictionary keeps the last
  have hget : (s.startLoops outer).get? key = some (CheckLoop.spawn d e probe outer) := by
    obtain ⟨⟨_, _⟩, hlast, rfl⟩ := Option.map_eq_some_iff.mp listed
    rw [startLoops, hloops, Dictionary.get?_ofList, List.filter_map, List.getLast?_map]
    have hlast' : ((listings regs).filter ((fun e => decide (e.1 = key)) ∘ fun p =>
        (p.1, CheckLoop.spawn p.2.1 p.2.2.1 p.2.2.2 outer))).getLast? = _ := hlast
    rw [hlast']
    rfl
  exact serveAll_serves (s.startLoops outer).sorted { s with lifecycle := .running, pending := [] }
    (Dictionary.mem_entries_iff.mpr hget)

/-! ### After the start -/

/-- Once started, a static monitor keeps its table as it is. -/
theorem slots_of_static {s s' : Scheduler P} {m : Move P} (h : Effect s m s')
    (started : s.lifecycle ≠ .idle) (static : m.isDynamic = false) :
    s'.lifecycle ≠ .idle ∧ s'.slots = s.slots := by
  cases h with
  | none => exact ⟨started, rfl⟩
  | registered _ idle => exact absurd idle started
  | started _ idle => exact absurd idle started
  | told =>
    rw [tell_frame]
    exact ⟨nofun, rfl⟩
  | added | removed | replaced => cases static
  | called _ ha =>
    obtain ⟨hlifecycle, hslots, -⟩ := advance_frame ha
    exact ⟨hlifecycle ▸ started, hslots⟩
  | stepped | ended | passed => exact ⟨started, rfl⟩

/-- What is served after the start goes on to be served by the same loop. -/
theorem serves_run {s : Scheduler P} {ms : List (Move P)} (started : s.lifecycle ≠ .idle)
    (static : ∀ m ∈ ms, m.isDynamic = false) {key : String} {i : Nat} {l : CheckLoop P}
    (served : s.slots.get? key = some i) (hl : s.loops[i]? = some l) :
    (s.run ms).slots.get? key = some i ∧ ∃ l', (s.run ms).loops[i]? = some l' ∧ l.GoesOn l' := by
  induction ms generalizing s l with
  | nil => exact ⟨served, l, hl, .refl l⟩
  | cons m ms ih =>
    have heffect := effect_move s m
    obtain ⟨started', hslots⟩ := slots_of_static heffect started (static m (by simp))
    obtain ⟨l', hl', hgo⟩ := heffect.loopsGoOn.2 i l hl
    obtain ⟨hserved, l'', hl'', hgo'⟩ :=
      ih started' (fun n hn => static n (by simp [hn])) (hslots ▸ served) hl'
    exact ⟨hserved, l'', hl'', hgo.trans hgo'⟩

theorem lifecycle_startUp (x : Exporter) (defaults : CheckPlan) {regs : List (Dependency × P)}
    (valid : ∀ r ∈ regs, r.1.validate = .ok ()) (outer : Option Instant) :
    ((fresh x defaults).run (startUp regs outer)).lifecycle = .running := by
  rw [startUp, run_concat, run_registers x defaults valid, move, start, if_neg (by simp [fresh])]
  change (begun _ outer).lifecycle = .running
  rw [begun, serveAll_frame]
  rfl

theorem startUp_static (regs : List (Dependency × P)) (outer : Option Instant) :
    ∀ m ∈ startUp regs outer, m.isDynamic = false := by
  intro m hm
  rcases List.mem_append.mp hm with hm | hm
  · obtain ⟨r, -, rfl⟩ := List.mem_map.mp hm
    rfl
  · rw [List.mem_singleton.mp hm]
    rfl

end Scheduler

end HealthMonitor
