import HealthMonitor.Proofs.Metrics.Locality
import HealthMonitor.Proofs.Scheduler.InFlight
import HealthMonitor.Proofs.Scheduler.Orphans
import HealthMonitor.Proofs.Scheduler.Swap

/-!
# What an update takes away

An update takes one loop or two out of service in favour of a new one, and the new one may publish
before they are over. So their series go only if they are not those of the new endpoint. Whether
they are is decided by the dependency and the endpoint as a whole (`sameSeries_iff`), while an
exporter knows an endpoint by its label values: it sees no label outside its own, and takes a label
that is missing for an empty one. So series go as well if the endpoints differ only in a label that
the exporter does not see (`update_takes`), and with them what the new loop has published
(`zone_hides`).

What goes is cleared by the call that the update leaves behind, and all of it before it returns.
What stays is cleared by nobody: a call takes out loops in service only, and a loop that has been
taken out never comes back (`Kept`).
-/

namespace HealthMonitor

/-! ### Label values -/

theorem Kind.text_injective {k k' : Kind} (h : k.text = k'.text) : k = k' := by
  revert h
  cases k <;> cases k' <;> decide

theorem Exporter.yesNo_injective {a b : Bool} (h : yesNo a = yesNo b) : a = b := by
  revert h
  cases a <;> cases b <;> decide

/-- The port of an endpoint can be read from its label. -/
theorem Endpoint.port_injective {p q : UInt16} (h : toString p.toNat = toString q.toNat) :
    p = q := by
  have hdigits : Nat.toDigits 10 p.toNat = Nat.toDigits 10 q.toNat := by
    simpa [Nat.toString_eq_ofList_toDigits] using congrArg String.toList h
  refine UInt16.toNat_inj.mp ?_
  rw [← Nat.ofDigitChars_ten_toDigits (n := p.toNat), hdigits, Nat.ofDigitChars_ten_toDigits]

namespace Scheduler

variable {P : Type}

/-- **Two endpoints have the same series** just if they have the same label values and the same
labels. -/
theorem sameSeries_iff (x : Exporter) {d d' : Dependency} {e e' : Endpoint} :
    sameSeries d e d' e' = true ↔
      x.labelValues d e = x.labelValues d' e' ∧ e.labels = e'.labels := by
  constructor
  · intro h
    refine ⟨labelValues_of_sameSeries h x, ?_⟩
    simp only [sameSeries, Bool.and_eq_true, beq_iff_eq] at h
    rw [h.2]
  · rintro ⟨hvalues, hlabels⟩
    have htexts := congrArg LabelValues.texts hvalues
    simp only [Exporter.labelValues, List.cons_append, List.cons.injEq] at htexts
    obtain ⟨-, hname, hkind, hhost, hport, hcritical, -⟩ := htexts
    have he : e = e' := by
      have hsame : e.port = e'.port := Endpoint.port_injective hport
      cases e
      cases e'
      simp_all
    simp only [sameSeries, Bool.and_eq_true, beq_iff_eq]
    exact ⟨⟨⟨hname, Kind.text_injective hkind⟩, Exporter.yesNo_injective hcritical⟩, he⟩

/-! ### Whose series are cleared -/

/-- What the update of an endpoint leaves ahead is for those that make way. -/
theorem ahead_of_retired {s : Scheduler P} {d : Dependency} {e : Endpoint} {is : List Nat}
    {report : LogLine} {p : Nat × Exporter.Removal}
    (h : p ∈ (Call.retiring (is.flatMap (s.retiredFor d e)) .signal report).ahead) :
    p.1 ∈ is ∧ ∃ l, s.loops[p.1]? = some l ∧ sameSeries l.dependency l.endpoint d e = false := by
  rw [ahead_signal] at h
  obtain ⟨r, hr, hp⟩ := List.mem_flatMap.mp h
  obtain ⟨a, ha, rfl⟩ := List.mem_map.mp hp
  obtain ⟨l, hmem, hl, hgoes⟩ := mem_retired.mp hr
  refine ⟨hmem, l, hl, ?_⟩
  unfold Retired.removals at ha
  split at ha
  next goes => simpa [goes] using hgoes
  next => cases ha

/-- The calls that a move makes clear for loops that it takes out of service. -/
theorem made_of_effect {s s' : Scheduler P} {m : Move P} (hs : Owned s) (keyed : s.Keyed)
    (h : Effect s m s') {p : Nat × Exporter.Removal}
    (hp : p ∈ (s'.calls.drop s.calls.length).flatMap Call.ahead) :
    s.Serves p.1 ∧ ¬ s'.Serves p.1 := by
  have none_made {calls : List Call} (hcalls : calls.length ≤ s.calls.length)
      (hp : p ∈ (calls.drop s.calls.length).flatMap Call.ahead) : False := by
    simp [List.drop_eq_nil_of_le hcalls] at hp
  have one_made {c : Call}
      (hp : p ∈ ((s.calls ++ [c]).drop s.calls.length).flatMap Call.ahead) : p ∈ c.ahead := by
    simpa using hp
  cases h with
  | none | registered | added | stepped | ended | passed =>
    exact (none_made (Nat.le_refl _) hp).elim
  | started =>
    rw [begun, serveAll_frame] at hp
    exact (none_made (Nat.le_refl _) hp).elim
  | told => cases one_made hp
  | @removed key name host port i named running served =>
    have hahead := one_made hp
    rw [ahead_signal] at hahead
    obtain ⟨a, rfl⟩ : ∃ a, p = (i, a) := by
      simp only [List.flatMap_singleton, List.mem_map] at hahead
      obtain ⟨a, -, rfl⟩ := hahead
      exact ⟨a, rfl⟩
    refine ⟨⟨key, served⟩, fun hserves => ?_⟩
    obtain ⟨k, hk⟩ := hserves
    change (s.slots.erase key).get? k = some i at hk
    rw [Dictionary.get?_erase] at hk
    split at hk
    next => cases hk
    next hne => exact hne (keyed.injective hk served)
  | replaced _ _ _ served =>
    obtain ⟨hway, -⟩ := ahead_of_retired (one_made hp)
    obtain ⟨k, hk, -⟩ := serves_of_makingWay served hway
    exact ⟨⟨k, hk⟩, not_serves_replaced hs keyed _ served hway⟩
  | @called j c s' after hc ha =>
    refine (none_made ?_ hp).elim
    cases after <;> simp [callsAfter, List.length_eraseIdx]
    split <;> omega

/-- **What is ahead after a move** is for a loop for which something has been ahead before, or for
one that the move takes out of service. -/
theorem ahead_of_move {s : Scheduler P} (hs : Owned s) (keyed : s.Keyed) {m : Move P}
    {p : Nat × Exporter.Removal} (hp : p ∈ (s.move m).calls.flatMap Call.ahead) :
    (∃ a, (p.1, a) ∈ s.calls.flatMap Call.ahead) ∨ s.Serves p.1 ∧ ¬ (s.move m).Serves p.1 := by
  have hmem := (clearings_move s m).symm.subset (List.mem_append_right _ hp)
  rcases List.mem_append.mp hmem with hold | hbrought
  · exact Or.inl ⟨p.2, hold⟩
  · rcases List.mem_append.mp hbrought with hmade | hfound
    · exact Or.inr (made_of_effect hs keyed (effect_move s m) hmade)
    · obtain ⟨c, hc, hp⟩ := List.mem_flatMap.mp hfound
      obtain ⟨q, hq, hp⟩ := List.mem_flatMap.mp hp
      obtain ⟨a, -, rfl⟩ := List.mem_map.mp hp
      exact Or.inl ⟨q.2,
        List.mem_flatMap.mpr ⟨c, mem_calls_of_driven hc, clearing_subset_ahead c hq⟩⟩

/-- Nothing is ahead for a loop in service. -/
def ServesUncleared (s : Scheduler P) : Prop :=
  ∀ p ∈ s.calls.flatMap Call.ahead, p.1 < s.loops.length ∧ ¬ s.Serves p.1

theorem servesUncleared_run (x : Exporter) (defaults : CheckPlan) (ms : List (Move P)) :
    ((fresh x defaults).run ms).ServesUncleared := by
  induction ms using List.reverseRecOn with
  | nil => exact fun p hp => by simp [fresh] at hp
  | append_singleton ms m ih =>
    have hs := owned_run x defaults ms
    have keyed := keyed_run x defaults ms
    rw [run_concat]
    generalize (fresh x defaults).run ms = s at ih hs keyed ⊢
    have hm := effect_move s m
    intro p hp
    rcases ahead_of_move hs keyed hp with ⟨a, hold⟩ | ⟨hserves, hout⟩
    · obtain ⟨hlt, hout⟩ := ih _ hold
      refine ⟨Nat.lt_of_lt_of_le hlt hm.loopsGoOn.1, fun hserves => ?_⟩
      exact (serves_of_effect hs hm hserves).elim hout (Nat.not_le.mpr hlt)
    · exact ⟨Nat.lt_of_lt_of_le (hs.slot _ hserves) hm.loopsGoOn.1, hout⟩

/-- A loop is out of service, and nothing is ahead for it. -/
structure Kept (s : Scheduler P) (i : Nat) : Prop where
  there : i < s.loops.length
  out : ¬ s.Serves i
  ahead : ∀ a, (i, a) ∉ s.calls.flatMap Call.ahead

theorem Kept.move {s : Scheduler P} {i : Nat} (h : s.Kept i) (hs : Owned s) (keyed : s.Keyed)
    (m : Move P) : (s.move m).Kept i := by
  have hm := effect_move s m
  refine ⟨Nat.lt_of_lt_of_le h.there hm.loopsGoOn.1, fun hserves => ?_, fun a ha => ?_⟩
  · exact (serves_of_effect hs hm hserves).elim h.out (Nat.not_le.mpr h.there)
  · rcases ahead_of_move hs keyed ha with ⟨b, hold⟩ | ⟨hserves, -⟩
    · exact h.ahead b hold
    · exact h.out hserves

/-- **Nothing is ever cleared for a loop that is kept.** -/
theorem Kept.trace {s : Scheduler P} {i : Nat} (h : s.Kept i) (hs : Owned s) (keyed : s.Keyed)
    (ms : List (Move P)) : ∀ q ∈ s.trace ms, ∀ a, (i, a) ∉ q.1.carriedOut q.2 := by
  induction ms generalizing s with
  | nil => exact fun _ hq => (List.not_mem_nil hq).elim
  | cons m ms ih =>
    have hm := effect_move s m
    intro q hq a ha
    rcases List.mem_cons.mp hq with rfl | hq
    · exact h.ahead a (ahead_of_carriedOut ha)
    · exact ih (h.move hs keyed m) (owned_move hs hm) (keyed.move hm) q hq a ha

theorem Kept.touches {s : Scheduler P} {i : Nat} (h : s.Kept i) (hs : Owned s) (keyed : s.Keyed)
    (ms : List (Move P)) : ∀ t ∈ touches (s.trace ms), t.loop = i → ∀ a, t.change ≠ .cleared a := by
  intro t ht hi a ha
  obtain ⟨p, hp, ht⟩ := List.mem_filterMap.mp ht
  obtain ⟨l, -, -, ⟨-, hw⟩ | ⟨a', -, hcarried⟩⟩ := touch?_some ht
  · exact CheckLoop.writing?_ne_cleared hw a ha
  · exact h.trace hs keyed ms p hp a' (by rw [hcarried, hi]; exact List.mem_singleton_self _)

/-- What a move of a run clears for a loop is at the label values that the loop has had before. -/
theorem touch?_run {s : Scheduler P} {i : Nat} {l : CheckLoop P} (hl : s.loops[i]? = some l)
    {ns : List (Move P)} {m : Move P} {a : Exporter.Removal}
    (h : (i, a) ∈ (s.run ns).carriedOut m) :
    (s.run ns).touch? m = some ⟨i, s.labelsOf l, .cleared a⟩ := by
  obtain ⟨l', hl', -⟩ := (loopsGoOn_run s ns).2 i l hl
  rw [touch?_of_carriedOut h hl', labelsOf_run hl hl']

theorem clearPlace_run {s : Scheduler P} {i : Nat} {l : CheckLoop P} (hl : s.loops[i]? = some l)
    (ns : List (Move P)) (a : Exporter.Removal) :
    ((s.run ns).clearPlace i a).2 = (s.run ns).metrics.remainder (s.labelsOf l) a := by
  obtain ⟨l', hl', -⟩ := (loopsGoOn_run s ns).2 i l hl
  simp only [clearPlace, hl', labelsOf_run hl hl']

theorem ClearsIn.mem_touches {s : Scheduler P} {i j : Nat} {l : CheckLoop P}
    (hl : s.loops[i]? = some l) {ms : List (Move P)} {a : Exporter.Removal}
    (h : s.ClearsIn j ms (i, a)) :
    ⟨i, s.labelsOf l, .cleared a⟩ ∈ Scheduler.touches (s.trace ms) := by
  obtain ⟨ns, k, hns, -, ha⟩ := h
  exact List.mem_filterMap.mpr ⟨_, mem_trace hns, touch?_run hl ha⟩

/-- **A call clears what it has ahead** before it returns, and what turns out to be left then. -/
theorem cleared_of_returned {s : Scheduler P} {i j : Nat} {c : Call} {l : CheckLoop P}
    (hc : s.calls[j]? = some c) (hl : s.loops[i]? = some l) {a : Exporter.Removal}
    (ha : (i, a) ∈ c.ahead) {ms : List (Move P)} (returned : s.placeIn j ms = none) :
    ∃ p ∈ s.trace ms, p.1.touch? p.2 = some ⟨i, s.labelsOf l, .cleared a⟩ ∧
      ∀ b ∈ p.1.metrics.remainder (s.labelsOf l) a,
        ⟨i, s.labelsOf l, .cleared b⟩ ∈ Scheduler.touches (s.trace ms) := by
  have hclears := clearsIn_of_returned hc ha returned
  obtain ⟨ns, k, hns, hcarried, hfound⟩ := found_of_returned hc hclears returned
  refine ⟨_, mem_trace hns, touch?_run hl hcarried, fun b hb => ?_⟩
  exact (hfound b (by rw [clearPlace_run hl]; exact hb)).mem_touches hl

theorem labels_of_touch {s : Scheduler P} {l : CheckLoop P} {t : Touch}
    (hl : s.loops[t.loop]? = some l) {ms : List (Move P)} {p : Scheduler P × Move P}
    (hp : p ∈ s.trace ms) (ht : p.1.touch? p.2 = some t) : t.labels = s.labelsOf l := by
  obtain ⟨ns, -, hstate⟩ := exists_of_mem_trace hp
  obtain ⟨l', hl', hlabels, -⟩ := touch?_some ht
  rw [hstate] at hl'
  rw [hlabels, hstate, labelsOf_run hl hl']

/-- A move keeps what there is of label values that it does not touch. -/
theorem sameAt_move_of_ne {s : Scheduler P} {m : Move P} {t : Touch} {v : LabelValues}
    (ht : s.touch? m = some t) (hne : t.labels ≠ v)
    (apart : StandsOut v (s.metrics.present ++ t.reached)) :
    Exporter.SameAt v (s.move m).metrics s.metrics := by
  rw [metrics_move, ht, Option.elim_some]
  have hwithin : s.metrics.Within (s.metrics.present ++ t.reached) :=
    (Exporter.within_present _).mono (List.subset_append_left ..)
  exact Exporter.sameAt_apply_of_ne hwithin apart (fun q hq => List.mem_append_right _ hq) hne

/-! ### What an update takes away -/

/-- What becomes of the series of a loop that an update retires in favour of a new one. It is in the
hands of a call in flight at a place. -/
structure Taken (s s' : Scheduler P) (place : Nat) (new : CheckLoop P) (r : Retired)
    (l : CheckLoop P) : Prop where
  goes : r.deleteSeries = true ↔
    s.labelsOf l ≠ s.labelsOf new ∨ l.endpoint.labels ≠ new.endpoint.labels
  /-- If the series go, then every place is cleared before the call returns, and what turns out to
  be left then. -/
  cleared : r.deleteSeries = true → ∀ ms, s'.placeIn place ms = none → ∀ a ∈ Exporter.removals,
    ∃ p ∈ s'.trace ms, p.1.touch? p.2 = some ⟨r.loop, s.labelsOf l, .cleared a⟩ ∧
      ∀ b ∈ p.1.metrics.remainder (s.labelsOf l) a,
        ⟨r.loop, s.labelsOf l, .cleared b⟩ ∈ touches (s'.trace ms)
  /-- If they stay, then for good. -/
  kept : r.deleteSeries = false → ∀ ms, ∀ t ∈ touches (s'.trace ms), t.loop = r.loop →
    ∀ a, t.change ≠ .cleared a
  /-- What the new loop has published is safe, if the label values tell all that the endpoints
  differ in. -/
  spares : (s.labelsOf l = s.labelsOf new → l.endpoint.labels = new.endpoint.labels) →
    ∀ ms, ∀ p ∈ s'.trace ms, ∀ t, p.1.touch? p.2 = some t → t.loop = r.loop →
      ∀ a, t.change = .cleared a → StandsOut (s.labelsOf new) (p.1.metrics.present ++ t.reached) →
        Exporter.SameAt (s.labelsOf new) (p.1.move p.2).metrics p.1.metrics

/-- Who is retired for a new loop. -/
theorem map_loop_retired {s : Scheduler P} {d : Dependency} {e : Endpoint} {is : List Nat}
    (there : ∀ i ∈ is, i < s.loops.length) :
    (is.flatMap (s.retiredFor d e)).map Retired.loop = is := by
  induction is with
  | nil => rfl
  | cons i is ih =>
    obtain ⟨hi, his⟩ := List.forall_mem_cons.mp there
    simp [retiredFor, List.getElem?_eq_getElem hi, ih his]

/-- A loop that makes way, with series that stay, is kept. -/
theorem kept_replaced {s : Scheduler P} (hs : Owned s) (keyed : s.Keyed)
    (uncleared : s.ServesUncleared) {key : String} {i : Nat} (served : s.slots.get? key = some i)
    (old : CheckLoop P) (e : Endpoint) (probe : P) {r : Retired}
    (hr : r ∈ (s.makingWay key (old.dependency.key e) i).flatMap
      (s.retiredFor { old.dependency with endpoints := [e] } e))
    (stays : r.deleteSeries = false) : (s.replaced key i old e probe).Kept r.loop := by
  obtain ⟨l, hway, hl, hgoes⟩ := mem_retired.mp hr
  obtain ⟨k, hk, -⟩ := serves_of_makingWay served hway
  refine ⟨?_, not_serves_replaced hs keyed probe served hway, fun a ha => ?_⟩
  · exact Nat.lt_of_lt_of_le (hs.slot _ ⟨k, hk⟩) (by simp [replaced, Scheduler.serve, retire])
  · rcases List.mem_append.mp (List.flatMap_append ▸ ha) with hbefore | hnew
    · exact (uncleared _ hbefore).2 ⟨k, hk⟩
    · rw [List.flatMap_singleton] at hnew
      obtain ⟨-, l', hl', hdiffer⟩ := ahead_of_retired hnew
      obtain rfl := Option.some.inj (hl'.symm.trans hl)
      rw [stays, hdiffer] at hgoes
      cases hgoes

theorem taken_replaced {s : Scheduler P} (hs : Owned s) (keyed : s.Keyed)
    (uncleared : s.ServesUncleared) (running : s.lifecycle = .running) {key : String} {i : Nat}
    (served : s.slots.get? key = some i) (old : CheckLoop P) (e : Endpoint) (probe : P)
    {r : Retired} {l : CheckLoop P}
    (hr : r ∈ (s.makingWay key (old.dependency.key e) i).flatMap
      (s.retiredFor { old.dependency with endpoints := [e] } e))
    (hl : s.loops[r.loop]? = some l) :
    s.Taken (s.replaced key i old e probe) s.calls.length
      (CheckLoop.spawn { old.dependency with endpoints := [e] } e probe none) r l := by
  have hs' : Owned (s.replaced key i old e probe) := hs.replaced running served e probe
  have keyed' : (s.replaced key i old e probe).Keyed := keyed.replaced _ _ _ _ _
  have hl' : (s.replaced key i old e probe).loops[r.loop]? = some l :=
    (List.getElem?_append_left (List.getElem?_eq_some_iff.mp hl).1).trans hl
  set new := CheckLoop.spawn { old.dependency with endpoints := [e] } e probe none
  have goes : r.deleteSeries = true ↔
      s.labelsOf l ≠ s.labelsOf new ∨ l.endpoint.labels ≠ new.endpoint.labels := by
    obtain ⟨l', -, hl', hgoes⟩ := mem_retired.mp hr
    obtain rfl := Option.some.inj (hl.symm.trans hl')
    rw [hgoes, Bool.not_eq_true', ← Bool.not_eq_true, sameSeries_iff s.metrics, not_and_or]
    rfl
  have kept (stays : r.deleteSeries = false) :=
    (kept_replaced hs keyed uncleared served old e probe hr stays).touches hs' keyed'
  refine ⟨goes, fun hgoes ms returned a ha => ?_, kept, fun tells ms p hp t ht ht' a ha apart => ?_⟩
  · have hcall : (s.replaced key i old e probe).calls[s.calls.length]? = some _ :=
      List.getElem?_concat_length ..
    refine cleared_of_returned hcall hl' ?_ returned
    rw [ahead_signal]
    refine List.mem_flatMap.mpr ⟨r, hr, ?_⟩
    simpa [Retired.removals, hgoes] using ha
  · have hgoes : r.deleteSeries = true := by
      rw [← Bool.not_eq_false]
      exact fun stays => kept stays ms t (List.mem_filterMap.mpr ⟨p, hp, ht⟩) ht' a ha
    have hlabels : t.labels = (s.replaced key i old e probe).labelsOf l :=
      labels_of_touch (ht' ▸ hl') hp ht
    refine sameAt_move_of_ne ht ?_ apart
    rw [hlabels]
    exact (goes.mp hgoes).elim id fun hdiffer hsame => hdiffer (tells hsame)

/-- **What an update takes away** are the series of the loops that it retires, of each unless the
new endpoint has the same label values and the same labels. They are gone when the update returns,
and other series stay. So where the label values tell all that the endpoints differ in, the series
that stay are those that the new loop shares, and nothing that it has published is lost by the
update. -/
theorem update_takes (x : Exporter) (defaults : CheckPlan) (before : List (Move P))
    (name oldHost : String) (oldPort : UInt16) (e : Endpoint) (probe : P)
    (accepted : ∃ s, ((fresh x defaults).run before).updateEndpoint name oldHost oldPort e probe =
      .ok s) :
    let s := (fresh x defaults).run before
    let s' := s.move (.update name oldHost oldPort e probe)
    let oldKey := Endpoint.keyOf name oldHost oldPort
    ∃ i old, s.slots.get? oldKey = some i ∧ s.loops[i]? = some old ∧
      let new := CheckLoop.spawn { old.dependency with endpoints := [e] } e probe none
      let newKey := old.dependency.key e
      s'.loops = s.loops ++ [new] ∧ s'.slots.get? newKey = some s.loops.length ∧
        ∃ retired, retired.map Retired.loop = s.makingWay oldKey newKey i ∧
          s'.calls = s.calls ++ [.retiring retired .signal (.endpointUpdated oldKey newKey)] ∧
          ∀ r ∈ retired, ∃ l, s.loops[r.loop]? = some l ∧ s.Taken s' s.calls.length new r l := by
  intro s s' oldKey
  have hs : Owned s := owned_run x defaults before
  have keyed : s.Keyed := keyed_run x defaults before
  obtain ⟨s₁, haccepted⟩ := accepted
  obtain ⟨running, -, i, old, served, loop, hreplaced⟩ := updateEndpoint_ok haccepted
  have hs' : s' = s.replaced oldKey i old e probe :=
    (congrArg s.taking haccepted).trans hreplaced
  refine ⟨i, old, served, loop, ?_⟩
  rw [hs']
  refine ⟨rfl, by rw [replaced_get?, if_pos rfl], _, map_loop_retired fun j hj => ?_, rfl,
    fun r hr => ?_⟩
  · obtain ⟨k, hk, -⟩ := serves_of_makingWay served hj
    exact hs.slot j ⟨k, hk⟩
  · obtain ⟨l, -, hl, -⟩ := mem_retired.mp hr
    exact ⟨l, hl, taken_replaced hs keyed (servesUncleared_run x defaults before) running served old
      e probe hr hl⟩

/-! ### Updates of labels -/

/-- An endpoint in a zone. -/
def zoned (zone : String) : Endpoint :=
  { Endpoint.plain "a" 1 with labels := Dictionary.ofList [("zone", zone)] }

/-- The first endpoint is served and has been checked. -/
def servedIn (e : Endpoint) : List (Move Unit) :=
  .register (database [e]) () :: .start none :: checking 0 (.ok ())

/-- The new loop publishes, then the old one is told to stop, and the call returns. -/
def takenOver : List (Move Unit) :=
  [checking 1 (.ok ()), [.call 0, .loop 0], List.replicate 8 (.call 0)].flatten

/-- An exporter that sees the zone tells the endpoints of two zones apart. -/
theorem moved_zone_taken :
    let app : Scheduler Unit := fresh (Exporter.fresh "app" ["zone"]) CheckPlan.prompt
    let s := app.run (servedIn (zoned "x"))
    let s' := s.move (.update "db" "a" 1 (zoned "y") ())
    (∃ s₁, s.updateEndpoint "db" "a" 1 (zoned "y") () = .ok s₁) ∧
      ∃ l new, s.loops[0]? = some l ∧ s'.loops = s.loops ++ [new] ∧
        s.Taken s' 0 new ⟨0, true⟩ l := by
  intro app s s'
  have accepted : ∃ s₁, s.updateEndpoint "db" "a" 1 (zoned "y") () = .ok s₁ :=
    Checks.exists_of_isOk (by decide +kernel)
  obtain ⟨i, old, -, -, hloops, -, retired, -, hcalls, taken⟩ :=
    update_takes _ _ (servedIn (zoned "x")) "db" "a" 1 (zoned "y") () accepted
  have hcall : s'.calls =
      [.retiring [⟨0, true⟩] .signal (.endpointUpdated "db:a:1" "db:a:1")] := by decide +kernel
  have place : s.calls = [] := by decide +kernel
  rw [place, List.nil_append] at hcalls
  obtain ⟨rfl, -⟩ := Call.retiring.inj (List.cons.inj (hcall.symm.trans hcalls)).1
  obtain ⟨l, hl, htaken⟩ := taken _ (List.mem_singleton_self _)
  rw [place] at htaken
  exact ⟨accepted, l, _, hl, hloops, htaken⟩

/-- An exporter that does not see it takes what the new loop has published. -/
theorem zone_hides :
    let s := newApp.run (servedIn (Endpoint.plain "a" 1))
    let s' := s.move (.update "db" "a" 1 (zoned "x") ())
    s'.calls = [.retiring [⟨0, true⟩] .signal (.endpointUpdated "db:a:1" "db:a:1")] ∧
      (∀ l ∈ s'.loops[0]?, ∀ new ∈ s'.loops[1]?, s'.labelsOf l = s'.labelsOf new) ∧
      (s'.run (checking 1 (.ok ()))).metrics.health.toList ≠ [] ∧
      (s'.run takenOver).calls = [] ∧ (s'.run takenOver).health = [("db:a:1", true)] ∧
      (s'.run takenOver).metrics.health.toList = [] := by
  decide +kernel

end Scheduler

end HealthMonitor
