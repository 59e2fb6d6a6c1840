import HealthMonitor.Proofs.Dependency.Valid
import HealthMonitor.Proofs.Scheduler.Ownership

/-!
# The keys of a scheduler

A loop in service serves the key of its own endpoint (`keyed_run`), and a key tells the name, the
host and the port that it is made of: names and ports have no colons, so it is cut at its first
colon and at its last (`keyOf_eq_iff`). So a call that names an endpoint in service names the
dependency of the loop that serves it.
-/

namespace HealthMonitor

/-! ### Names in keys -/

/-- The colon of a key is no letter of a name. -/
theorem IsName.colon_notMem {name : String} (h : IsName name) : ':' ∉ name.toList := by
  obtain ⟨c, rest, spelled, lower, letters⟩ := h.spelling
  rw [spelled, List.mem_cons, not_or]
  refine ⟨?_, fun hmem => ?_⟩
  · rintro rfl
    exact absurd lower (by decide)
  · exact absurd (letters ':' hmem) (by decide)

/-- A key is cut at its first colon and at its last, whatever colons the host has. -/
theorem Endpoint.cut_keyOf {name : String} (h : IsName name) (host : String) (port : UInt16) :
    (Text.cut ':' (keyOf name host port).toList).bind (fun p =>
      (Text.cutLast ':' p.2).map fun q => (p.1, q)) =
      some (name.toList, host.toList, Text.digitsOf port.toNat) := by
  have hkey : (keyOf name host port).toList =
      name.toList ++ ':' :: (host.toList ++ ':' :: Text.digitsOf port.toNat) := by
    simp [keyOf, Text.digitsOf]
  rw [hkey, Text.cut_append h.colon_notMem, Option.bind_some,
    Text.cutLast_append (Text.notMem_digitsOf (by decide)), Option.map_some]

/-- **A key tells its name, its host and its port.** -/
theorem Endpoint.keyOf_eq_iff {name name' host host' : String} {port port' : UInt16}
    (h : IsName name) (h' : IsName name') :
    keyOf name host port = keyOf name' host' port' ↔
      name = name' ∧ host = host' ∧ port = port' := by
  constructor
  · intro same
    have hparts := cut_keyOf h host port
    rw [same, cut_keyOf h' host' port'] at hparts
    obtain ⟨hname, htarget⟩ := Prod.mk.inj (Option.some.inj hparts)
    obtain ⟨hhost, hport⟩ := Prod.mk.inj htarget
    exact ⟨(String.toList_injective hname).symm, (String.toList_injective hhost).symm,
      (UInt16.toNat_inj.mp (Text.digitsOf_inj.mp hport)).symm⟩
  · rintro ⟨rfl, rfl, rfl⟩
    rfl

/-- **The key of an endpoint tells the name of its dependency.** -/
theorem Endpoint.name_of_keyOf {name name' host host' : String} {port port' : UInt16}
    (h : IsName name) (h' : IsName name') (same : keyOf name host port = keyOf name' host' port') :
    name = name' :=
  ((keyOf_eq_iff h h').mp same).1

namespace Scheduler

variable {P : Type}

/-! ### Keys in service -/

/-- What serves a key is a loop of the endpoint that has this key. -/
def Keyed (s : Scheduler P) : Prop :=
  ∀ key i, s.slots.get? key = some i →
    ∃ l, s.loops[i]? = some l ∧ l.dependency.key l.endpoint = key

/-- A loop serves one key only. -/
theorem Keyed.injective {s : Scheduler P} (h : s.Keyed) {key key' : String} {i : Nat}
    (hi : s.slots.get? key = some i) (hi' : s.slots.get? key' = some i) : key = key' := by
  obtain ⟨l, hl, hkey⟩ := h key i hi
  obtain ⟨l', hl', hkey'⟩ := h key' i hi'
  rw [← hkey, ← hkey', Option.some.inj (hl.symm.trans hl')]

/-- What keeps the loops and takes no new key keeps to the keys. -/
theorem Keyed.mono {s s' : Scheduler P} (h : s.Keyed) (hgo : LoopsGoOn s.loops s'.loops)
    (hslots : ∀ key i, s'.slots.get? key = some i → s.slots.get? key = some i) : s'.Keyed := by
  intro key i hi
  obtain ⟨l, hl, hkey⟩ := h key i (hslots key i hi)
  obtain ⟨l', hl', hgoes⟩ := hgo.2 i l hl
  exact ⟨l', hl', by rw [hgoes.dependency, hgoes.endpoint, hkey]⟩

theorem Keyed.serve {s : Scheduler P} (h : s.Keyed) {key : String} {l : CheckLoop P}
    (hkey : l.dependency.key l.endpoint = key) : (s.serve key l).Keyed := by
  intro k i hk
  simp only [Scheduler.serve, Dictionary.get?_insert] at hk
  split at hk
  next heq =>
    obtain rfl := Option.some.inj hk
    exact ⟨l, List.getElem?_concat_length .., hkey.trans heq.symm⟩
  next =>
    obtain ⟨l', hl', hkey'⟩ := h k i hk
    refine ⟨l', ?_, hkey'⟩
    exact (List.getElem?_append_left (List.getElem?_eq_some_iff.mp hl').1).trans hl'

theorem Keyed.serveAll {s : Scheduler P} (h : s.Keyed) {es : List (String × CheckLoop P)}
    (hkeys : ∀ e ∈ es, e.2.dependency.key e.2.endpoint = e.1) : (s.serveAll es).Keyed := by
  induction es generalizing s with
  | nil => exact h
  | cons e es ih =>
    obtain ⟨hkey, hkeys⟩ := List.forall_mem_cons.mp hkeys
    exact ih (h.serve hkey) hkeys

theorem Keyed.replaced {s : Scheduler P} (h : s.Keyed) (key : String) (i : Nat) (old : CheckLoop P)
    (e : Endpoint) (probe : P) : (s.replaced key i old e probe).Keyed := by
  -- the old key is given up before the new one is served
  refine Keyed.serve (s := { s with slots := s.slots.erase key }) ?_ rfl
  refine h.mono (.refl lasts_goesOn _) fun k j hj => ?_
  simp only [Dictionary.get?_erase] at hj
  split at hj
  · cases hj
  · exact hj

/-- **Every move keeps to the keys.** -/
theorem Keyed.move {s s' : Scheduler P} {m : Move P} (h : s.Keyed) (hm : Effect s m s') :
    s'.Keyed := by
  have hgo := hm.loopsGoOn
  cases hm with
  | none => exact h
  | registered | stepped | ended | passed => exact h.mono hgo fun _ _ hi => hi
  | started outer =>
    refine Keyed.serveAll (s := { s with lifecycle := .running, pending := [] }) h fun e he => ?_
    obtain ⟨r, -, ep, -, rfl⟩ := spawned_of_mem_startLoops he
    rfl
  | told =>
    refine h.mono hgo fun key i hi => ?_
    rwa [tell_frame] at hi
  | added => exact h.serve rfl
  | removed =>
    refine h.mono hgo fun key i hi => ?_
    simp only [retire, Dictionary.get?_erase] at hi
    split at hi
    · cases hi
    · exact hi
  | replaced => exact h.replaced _ _ _ _ _
  | called _ advance => exact h.mono hgo fun _ _ hi => (advance_frame advance).2.1 ▸ hi

theorem Keyed.run {s : Scheduler P} (h : s.Keyed) (ms : List (Move P)) : (s.run ms).Keyed :=
  run_invariant (motive := fun _ s => s.Keyed) h (fun _ s m hs => hs.move (effect_move s m)) ms

theorem keyed_run (x : Exporter) (defaults : CheckPlan) (ms : List (Move P)) :
    ((fresh x defaults).run ms).Keyed :=
  Keyed.run (fun key i hi => by simp [fresh] at hi) ms

end Scheduler

end HealthMonitor
