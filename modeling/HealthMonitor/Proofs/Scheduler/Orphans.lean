import HealthMonitor.Proofs.Metrics.Vouched
import HealthMonitor.Proofs.Scheduler.Touches

/-!
# No series is left behind

When clients wait for each of their calls before the next, every series of the exporter belongs to
an endpoint in service whenever no call is in flight (`series_in_service`). The reason is kept at
every moment of such a run (`Tidy`): a series is at label values of an endpoint in service, or a
call in flight still clears it. The detail of an endpoint is found through the table of details, so
a call answers for the entry of the table first, and for the series that the entry leads to once it
has taken the entry away.

Nothing is assumed of the keys of series: a series stays what it was made for, also when label
values of one key share it.
-/

namespace HealthMonitor

/-- The loops that a call in flight takes out of service. -/
def Call.leaving : Call → List Retired
  | .stopping _ => []
  | .retiring left _ _ => left

namespace Scheduler

variable {P : Type}

/-- There is an endpoint in service at some label values. -/
def InService (s : Scheduler P) (v : LabelValues) : Prop :=
  ∃ i l, s.Serves i ∧ s.loops[i]? = some l ∧ s.labelsOf l = v

/-- A call in flight still clears a place at some label values. -/
def Clears (s : Scheduler P) (place : Exporter.Removal) (v : LabelValues) : Prop :=
  ∃ i l, (i, place) ∈ s.calls.flatMap Call.ahead ∧ s.loops[i]? = some l ∧ s.labelsOf l = v

/-- Somebody answers for a place at some label values: an endpoint in service for all that it may
write to, a call in flight for what it still clears. -/
def Answers (s : Scheduler P) (place : Exporter.Removal) (v : LabelValues) : Prop :=
  s.Clears place v ∨ place ∈ Exporter.removals ∧ s.InService v

/-- Every series is answered for, and so is what a loop leaves behind whose series stay. -/
structure Tidy (s : Scheduler P) : Prop where
  series : s.metrics.Vouched s.Answers
  shared : ∀ c ∈ s.calls, ∀ r ∈ c.leaving, r.deleteSeries = false →
    ∀ l, s.loops[r.loop]? = some l → s.InService (s.labelsOf l)

/-- A call that takes loops out waits for those that it takes out. -/
theorem mem_awaited_retiring {c : Call} (hc : c.isStop = false) {i : Nat} (hi : i ∈ c.awaited) :
    ∃ r ∈ c.leaving, r.loop = i := by
  cases c with
  | stopping => cases hc
  | retiring left stage report => exact List.mem_map.mp hi

theorem mem_awaited_of_leaving {c : Call} {r : Retired} (hr : r ∈ c.leaving) :
    r.loop ∈ c.awaited := by
  cases c with
  | stopping => cases hr
  | retiring left stage report => exact List.mem_map_of_mem hr

/-- A call that takes a loop out whose series go, and which is not over, has all places ahead. -/
theorem mem_ahead_of_leaving {s : Scheduler P} (hs : Owned s) {c : Call} (hc : c ∈ s.calls)
    {r : Retired} (hr : r ∈ c.leaving) (goes : r.deleteSeries = true)
    (alive : s.isDone r.loop = false) {place : Exporter.Removal}
    (hplace : place ∈ Exporter.removals) : (r.loop, place) ∈ c.ahead := by
  have hremovals : r.removals = Exporter.removals := if_pos goes
  cases c with
  | stopping => cases hr
  | retiring left stage report =>
    cases left with
    | nil => cases hr
    | cons r' rest =>
      rcases List.mem_cons.mp hr with rfl | hr
      · cases stage with
        | signal | join => simp [Call.ahead, RetireStage.ahead, hremovals, hplace]
        | clear left => simp [hs.cleared r rest left report hc] at alive
      · refine List.mem_append_right _ (List.mem_flatMap.mpr ⟨r, hr, ?_⟩)
        simpa [hremovals] using hplace

/-- Somebody answers for all that a loop which is not over may write to. -/
theorem Tidy.answers {s : Scheduler P} (h : s.Tidy) (hs : Owned s) {i : Nat} {l : CheckLoop P}
    (hl : s.loops[i]? = some l) (alive : l.isDone = false) :
    ∀ place ∈ Exporter.removals, s.Answers place (s.labelsOf l) := by
  intro place hplace
  rcases hs.loop i l hl alive with hserved | ⟨c, hc, hkind, hi⟩
  · exact Or.inr ⟨hplace, i, l, hserved, hl, rfl⟩
  · obtain ⟨r, hr, rfl⟩ := mem_awaited_retiring hkind hi
    cases hgoes : r.deleteSeries with
    | false => exact Or.inr ⟨hplace, h.shared c hc r hr hgoes l hl⟩
    | true =>
      have hahead := mem_ahead_of_leaving hs hc hr hgoes (isDone_eq_false_iff.mpr ⟨l, hl, alive⟩)
        hplace
      exact Or.inl ⟨r.loop, l, List.mem_flatMap.mpr ⟨c, hc, hahead⟩, hl, rfl⟩

/-! ### Moves that are no calls of clients -/

/-- Only calls of clients change what is in service. -/
theorem slots_of_not_isCall {s s' : Scheduler P} {m : Move P} (h : Effect s m s')
    (hm : m.isCall = false) : s'.slots = s.slots := by
  cases h with
  | called hc ha => exact (advance_frame ha).2.1
  | none | stepped | ended | passed => rfl
  | registered | started | told | added | removed | replaced => cases hm

theorem leaving_of_advance {s s' : Scheduler P} {c c' : Call} (h : Advance s c s' (some c'))
    {r : Retired} (hr : r ∈ c'.leaving) : r ∈ c.leaving := by
  cases h with
  | joinedByStop => cases hr
  | retired => exact List.mem_cons_of_mem _ hr
  | signalled | joined | cleared => exact hr

/-- What leaves after another move has been leaving before. -/
theorem leaving_of_not_isCall {s s' : Scheduler P} {m : Move P} (h : Effect s m s')
    (hm : m.isCall = false) {c' : Call} (hc' : c' ∈ s'.calls) {r : Retired}
    (hr : r ∈ c'.leaving) : ∃ c ∈ s.calls, r ∈ c.leaving := by
  cases h with
  | called hc ha =>
    rcases mem_of_mem_callsAfter hc' with hc' | rfl
    · exact ⟨c', hc', hr⟩
    · exact ⟨_, List.mem_of_getElem? hc, leaving_of_advance ha hr⟩
  | none | stepped | ended | passed => exact ⟨c', hc', hr⟩
  | registered | started | told | added | removed | replaced => cases hm

/-- A place that is to be cleared is cleared by a move or still is to be. -/
theorem ahead_move {s : Scheduler P} {i : Nat} {place : Exporter.Removal} {l : CheckLoop P}
    (m : Move P) (h : (i, place) ∈ s.calls.flatMap Call.ahead) (hl : s.loops[i]? = some l) :
    s.touch? m = some ⟨i, s.labelsOf l, .cleared place⟩ ∨
      (i, place) ∈ (s.move m).calls.flatMap Call.ahead := by
  have hmem := (clearings_move s m).subset (List.mem_append_left _ h)
  exact (List.mem_append.mp hmem).imp_left fun h => touch?_of_carriedOut h hl

/-- What turns out to be left when a place is cleared is cleared next. -/
theorem found_move {s : Scheduler P} {m : Move P} {i : Nat} {place place' : Exporter.Removal}
    {l : CheckLoop P} (h : s.carriedOut m = [(i, place)]) (hl : s.loops[i]? = some l)
    (hfound : place' ∈ s.metrics.remainder (s.labelsOf l) place) :
    (i, place') ∈ (s.move m).calls.flatMap Call.ahead := by
  have hbrought : (i, place') ∈ (s.driven m).flatMap s.foundBy := by
    have hmem : (i, place) ∈ s.carriedOut m := h ▸ List.mem_singleton_self _
    obtain ⟨c, hc, hplace⟩ := List.mem_flatMap.mp hmem
    refine List.mem_flatMap.mpr ⟨c, hc, List.mem_flatMap.mpr ⟨(i, place), hplace, ?_⟩⟩
    simpa [clearPlace, hl] using hfound
  have hne : place' ≠ place := by
    rintro rfl
    cases place' <;> simp [Exporter.remainder] at hfound
  have hmem := (clearings_move s m).subset
    (List.mem_append_right _ (List.mem_append_right _ hbrought))
  rcases List.mem_append.mp hmem with hmem | hmem
  · rw [h, List.mem_singleton] at hmem
    exact absurd (Prod.ext_iff.mp hmem).2 hne
  · exact hmem

/-- Endpoints stay in service while the keys stay as they are. -/
theorem InService.goOn {s s' : Scheduler P} {v : LabelValues} (h : s.InService v)
    (hgo : LoopsGoOn s.loops s'.loops) (hlabels : s'.metrics.labelValues = s.metrics.labelValues)
    (hslots : ∀ i, s.Serves i → s'.Serves i) : s'.InService v := by
  obtain ⟨i, l, hserved, hl, rfl⟩ := h
  obtain ⟨l', hl', hkeep⟩ := hgo.2 i l hl
  refine ⟨i, l', hslots i hserved, hl', ?_⟩
  rw [labelsOf, hlabels, hkeep.dependency, hkeep.endpoint, labelsOf]

/-- Every move but a call of a client keeps a scheduler tidy. -/
private theorem Tidy.step {s : Scheduler P} (h : s.Tidy) (hs : Owned s) {m : Move P}
    (hm : m.isCall = false) : (s.move m).Tidy := by
  have heffect := effect_move s m
  have hgo := heffect.loopsGoOn
  have hlabels := labelValues_move s m
  have hslots := slots_of_not_isCall heffect hm
  have service {v : LabelValues} (hv : s.InService v) : (s.move m).InService v :=
    hv.goOn hgo hlabels fun i hi => by simpa only [Serves, hslots] using hi
  have clears {i : Nat} {place : Exporter.Removal} {l : CheckLoop P} (hl : s.loops[i]? = some l)
      (hahead : (i, place) ∈ (s.move m).calls.flatMap Call.ahead) :
      (s.move m).Clears place (s.labelsOf l) := by
    obtain ⟨l', hl', -⟩ := hgo.2 i l hl
    exact ⟨i, l', hahead, hl', labelsOf_move hl hl'⟩
  -- whoever answers for a place goes on to do so, but for the place that the move clears
  have answers {place : Exporter.Removal} {w : LabelValues} (ha : s.Answers place w)
      (hkept : ∀ i, s.touch? m ≠ some ⟨i, w, .cleared place⟩) : (s.move m).Answers place w := by
    rcases ha with ⟨i, l, hahead, hl, rfl⟩ | ⟨hplace, hw⟩
    · exact Or.inl (clears hl ((ahead_move m hahead hl).resolve_left (hkept i)))
    · exact Or.inr ⟨hplace, service hw⟩
  refine ⟨?_, fun c' hc' r hr stays l' hl' => ?_⟩
  · rw [metrics_move]
    cases ht : s.touch? m with
    | none => exact h.series.imp fun place w ha => answers ha (by simp [ht])
    | some t =>
      obtain ⟨l, hl, htl, ⟨-, hw⟩ | ⟨place, hplace, hcarried⟩⟩ := touch?_some ht
      · have hne := CheckLoop.writing?_ne_cleared hw
        refine (h.series.write (htl ▸ h.answers hs hl (CheckLoop.alive_of_writing hw)) hne).imp
          fun place w ha => answers ha fun i heq => hne place ?_
        rw [Option.some.inj (ht.symm.trans heq)]
      · simp only [Option.elim_some, hplace, htl]
        refine h.series.clear (fun place' w ha hkept => answers ha fun i heq => ?_)
          fun place' hfound => Or.inl (clears hl (found_move hcarried hl hfound))
        obtain rfl := Option.some.inj (ht.symm.trans heq)
        cases hplace
        exact hkept rfl htl
  · obtain ⟨c, hc, hr⟩ := leaving_of_not_isCall heffect hm hc' hr
    have hlt : r.loop < s.loops.length := hs.held c hc _ (mem_awaited_of_leaving hr)
    have hl := List.getElem?_eq_getElem hlt
    rw [labelsOf_move hl hl']
    exact service (h.shared c hc r hr stays _ hl)

/-! ### Calls of clients -/

/-- Without calls in flight a scheduler stays tidy, if whoever is in service stays or has all its
places cleared, and if the series that stay are handed over. -/
private theorem Tidy.hand_over {s s' : Scheduler P} (h : s.Tidy) (quiet : s.calls = [])
    (hmetrics : s'.metrics = s.metrics)
    (answers : ∀ i l, s.Serves i → s.loops[i]? = some l → s'.InService (s.labelsOf l) ∨
      ∀ place ∈ Exporter.removals, s'.Clears place (s.labelsOf l))
    (shared : ∀ c ∈ s'.calls, ∀ r ∈ c.leaving, r.deleteSeries = false →
      ∀ l, s'.loops[r.loop]? = some l → s'.InService (s'.labelsOf l)) : s'.Tidy := by
  refine ⟨hmetrics ▸ h.series.imp fun place w ha => ?_, shared⟩
  rcases ha with ⟨i, l, hahead, -⟩ | ⟨hplace, i, l, hserved, hl, rfl⟩
  · simp [quiet] at hahead
  · exact (answers i l hserved hl).elim (fun hw => Or.inr ⟨hplace, hw⟩)
      fun hall => Or.inl (hall place hplace)

/-- Endpoints of the same series have the same label values in every exporter. -/
theorem labelValues_of_sameSeries {d d' : Dependency} {e e' : Endpoint}
    (h : sameSeries d e d' e' = true) (x : Exporter) : x.labelValues d e = x.labelValues d' e' := by
  simp only [sameSeries, Bool.and_eq_true, beq_iff_eq] at h
  obtain ⟨⟨⟨hname, hkind⟩, hcritical⟩, he⟩ := h
  simp only [Exporter.labelValues, hname, hkind, hcritical, he]

/-- Serving a free key takes no endpoint out of service. -/
theorem Tidy.serve {s : Scheduler P} (h : s.Tidy) {key : String} (free : s.slots.get? key = none)
    (l : CheckLoop P) (hs : Owned s) : (s.serve key l).Tidy := by
  have hserves (i : Nat) (hi : s.Serves i) : (s.serve key l).Serves i := by
    obtain ⟨k, hk⟩ := hi
    have hne : k ≠ key := fun heq => by simp [heq ▸ hk] at free
    exact ⟨k, by simpa [Scheduler.serve, hne] using hk⟩
  have service {v : LabelValues} (hv : s.InService v) : (s.serve key l).InService v :=
    hv.goOn (loopsRelated_append lasts_goesOn ..) rfl hserves
  have old {i : Nat} {l' : CheckLoop P} (hi : i < s.loops.length) :
      (s.serve key l).loops[i]? = some l' ↔ s.loops[i]? = some l' := by
    rw [Scheduler.serve, List.getElem?_append_left hi]
  refine ⟨h.series.imp fun place w ha => ?_, fun c hc r hr stays l' hl' => ?_⟩
  · refine ha.imp ?_ (And.imp_right service)
    rintro ⟨i, l', hahead, hl', rfl⟩
    exact ⟨i, l', hahead, (old (List.getElem?_eq_some_iff.mp hl').1).mpr hl', rfl⟩
  · have hlt : r.loop < s.loops.length := hs.held c hc _ (mem_awaited_of_leaving hr)
    exact service (h.shared c hc r hr stays l' ((old hlt).mp hl'))

theorem Tidy.log {s : Scheduler P} (h : s.Tidy) (line : LogLine) : (s.log line).Tidy :=
  ⟨h.series, h.shared⟩

/-- A call that has just been made has all the places of its loops ahead. -/
theorem ahead_signal (rs : List Retired) (report : LogLine) :
    (Call.retiring rs .signal report).ahead = rs.flatMap fun r => r.removals.map (r.loop, ·) := by
  cases rs <;> rfl

/-- Putting an endpoint in the place of another keeps a scheduler tidy: the loop whose series stay
hands them over to the new one, which has the same label values. -/
private theorem Tidy.replaced {s : Scheduler P} (h : s.Tidy) (hs : Owned s) (quiet : s.calls = [])
    {key : String} {i : Nat} (served : s.slots.get? key = some i) (old : CheckLoop P) (e : Endpoint)
    (probe : P) : (s.replaced key i old e probe).Tidy := by
  rw [replaced_eq s key i old e probe rfl]
  generalize { old.dependency with endpoints := [e] } = d
  set retired := (s.makingWay key (d.key e) i).flatMap (s.retiredFor d e)
  set s' := (({ s with slots := (s.slots.erase key).erase (d.key e) } : Scheduler P).retire
    retired (.endpointUpdated key (d.key e))).serve (d.key e) (CheckLoop.spawn d e probe none)
  have hcalls : s'.calls = [.retiring retired .signal (.endpointUpdated key (d.key e))] := by
    simp [s', Scheduler.serve, retire, quiet]
  have hold {j : Nat} (hj : j < s.loops.length) : s'.loops[j]? = s.loops[j]? :=
    List.getElem?_append_left hj
  have new : s'.InService (s.metrics.labelValues d e) := by
    refine ⟨s.loops.length, CheckLoop.spawn d e probe none, ⟨d.key e, ?_⟩, ?_, rfl⟩
    · simp [s', Scheduler.serve, retire]
    · simp [s', Scheduler.serve, retire]
  refine h.hand_over quiet rfl (fun j l hj hl => ?_) fun c hc r hr stays l hl => ?_
  · have hlt := hs.slot j hj
    obtain ⟨k, hk⟩ := hj
    by_cases hway : j ∈ s.makingWay key (d.key e) i
    · -- whoever makes way leaves its series to the new loop, or has all of them cleared
      have hr : ⟨j, !sameSeries l.dependency l.endpoint d e⟩ ∈ retired :=
        mem_retired.mpr ⟨l, hway, hl, rfl⟩
      cases hsame : sameSeries l.dependency l.endpoint d e with
      | true => exact Or.inl (by rw [labelsOf, labelValues_of_sameSeries hsame]; exact new)
      | false =>
        refine Or.inr fun place hplace => ⟨j, l, ?_, (hold hlt).trans hl, rfl⟩
        rw [hcalls, List.flatMap_singleton, ahead_signal]
        refine List.mem_flatMap.mpr ⟨_, hr, ?_⟩
        simpa [Retired.removals, hsame] using hplace
    · have hk' : ((s.slots.erase key).erase (d.key e)).get? k = some j :=
        get?_of_not_makingWay served hk hway
      have hne : k ≠ d.key e := fun heq => by simp [heq] at hk'
      refine Or.inl ⟨j, l, ⟨k, ?_⟩, (hold hlt).trans hl, rfl⟩
      simpa [s', Scheduler.serve, retire, hne] using hk'
  · rw [hcalls] at hc
    obtain rfl := List.mem_singleton.mp hc
    obtain ⟨l', -, hl', hgoes⟩ := mem_retired.mp hr
    obtain rfl : l = l' := Option.some.inj
      (hl.symm.trans ((hold (List.getElem?_eq_some_iff.mp hl').1).trans hl'))
    rw [stays] at hgoes
    have hsame : sameSeries l.dependency l.endpoint d e = true := by simpa using hgoes
    rw [labelsOf, show s'.metrics = s.metrics from rfl, labelValues_of_sameSeries hsame]
    exact new

private theorem Tidy.begun {s : Scheduler P} (h : s.Tidy) (hs : Owned s)
    (idle : s.lifecycle = .idle) (outer : Option Instant) : (s.begun outer).Tidy := by
  obtain ⟨s', hs', -, htidy⟩ := begun_induction hs idle outer (motive := Tidy)
    ⟨h.series, h.shared⟩ fun s' e _ hs' h' free => h'.serve free e.2 hs'
  rw [hs']
  exact htidy.log _

/-- A call of a client keeps a scheduler tidy, if none is in flight. -/
private theorem Tidy.call {s : Scheduler P} (h : s.Tidy) (hs : Owned s) {m : Move P}
    (hm : m.isCall = true) (quiet : s.calls = []) : (s.move m).Tidy := by
  have heffect := effect_move s m
  have hgo := heffect.loopsGoOn
  generalize s.move m = s' at heffect hgo ⊢
  cases heffect with
  | none => exact h
  | registered => exact h.hand_over quiet rfl (fun i l hi hl => Or.inl ⟨i, l, hi, hl, rfl⟩) h.shared
  | started outer idle => exact h.begun hs idle outer
  | told running =>
    rw [tell_frame] at hgo ⊢
    refine h.hand_over quiet rfl (fun i l hi hl => Or.inl ?_) fun c hc r hr => ?_
    · exact InService.goOn ⟨i, l, hi, hl, rfl⟩ hgo rfl fun _ hi => hi
    · rw [quiet] at hc
      obtain rfl := List.mem_singleton.mp hc
      cases hr
  | added _ running _ free => exact (h.serve free _ hs).log _
  | @removed key name host port i _ running served =>
    refine h.hand_over quiet rfl (fun j l hj hl => ?_) fun c hc r hr stays => ?_
    · obtain ⟨k, hk⟩ := hj
      by_cases hkey : k = key
      · subst hkey
        obtain rfl := Option.some.inj (hk.symm.trans served)
        refine Or.inr fun place hplace => ⟨j, l, ?_, hl, rfl⟩
        simpa [retire, quiet, ahead_signal, Retired.removals] using hplace
      · exact Or.inl ⟨j, l, ⟨k, by simpa [retire, hkey] using hk⟩, hl, rfl⟩
    · rw [retire, quiet] at hc
      obtain rfl := List.mem_singleton.mp hc
      obtain rfl := List.mem_singleton.mp hr
      cases stays
  | replaced _ running _ served _ => exact h.replaced hs quiet served _ _ _
  | stepped | called | ended | passed => cases hm

/-! ### Runs -/

/-- Clients wait for each of their calls before the next. -/
def Sequential (s : Scheduler P) (ms : List (Move P)) : Prop :=
  ∀ p ∈ s.trace ms, p.2.isCall = true → p.1.calls = []

instance (s : Scheduler P) (ms : List (Move P)) : Decidable (s.Sequential ms) :=
  inferInstanceAs (Decidable (∀ p ∈ s.trace ms, _))

theorem tidy_fresh (name : String) (labels : List String) (defaults : CheckPlan) :
    (fresh (Exporter.fresh name labels) defaults : Scheduler P).Tidy where
  series := Exporter.vouched_fresh name labels
  shared c hc := by simp [fresh] at hc

/-- **Every run is tidy** in which clients wait for each of their calls. -/
theorem tidy_run (name : String) (labels : List String) (defaults : CheckPlan)
    {ms : List (Move P)} (h : (fresh (Exporter.fresh name labels) defaults).Sequential ms) :
    ((fresh (Exporter.fresh name labels) defaults).run ms).Tidy := by
  refine (run_invariant (motive := fun past s =>
    (∀ p ∈ past, p.2.isCall = true → p.1.calls = []) → Owned s ∧ s.Tidy)
    (fun _ => ⟨owned_fresh _ defaults, tidy_fresh name labels defaults⟩)
    (fun past s m ih hpast => ?_) ms h).2
  obtain ⟨hs, htidy⟩ := ih fun p hp => hpast p (List.mem_append_left _ hp)
  refine ⟨owned_move hs (effect_move s m), ?_⟩
  cases hm : m.isCall with
  | false => exact htidy.step hs hm
  | true => exact htidy.call hs hm (hpast (s, m) (by simp) hm)

/-- Every series carries the label values of an endpoint in service. -/
structure AllInService (s : Scheduler P) : Prop where
  health : ∀ r ∈ s.metrics.health.toList, ∃ e ∈ s.inService, r.labels = s.labelsOf e.2
  latency : ∀ r ∈ s.metrics.latency.toList, ∃ e ∈ s.inService, r.labels = s.labelsOf e.2
  status : ∀ r ∈ s.metrics.status.toList, ∃ e ∈ s.inService, ∃ c ∈ Category.all,
    r.labels = (s.labelsOf e.2).extended c.text
  detail : ∀ r ∈ s.metrics.detail.toList, ∃ e ∈ s.inService, ∃ text,
    r.labels = (s.labelsOf e.2).extended text

/-- Without calls in flight only endpoints in service answer for anything. -/
theorem inService_of_answers {s : Scheduler P} (quiet : s.calls = []) {place : Exporter.Removal}
    {v : LabelValues} (h : s.Answers place v) : ∃ e ∈ s.inService, v = s.labelsOf e.2 := by
  rcases h with ⟨i, l, hahead, -⟩ | ⟨-, i, l, ⟨key, hkey⟩, hl, rfl⟩
  · simp [quiet] at hahead
  · exact ⟨(key, l), mem_inService.mpr ⟨i, hkey, hl⟩, rfl⟩

/-- **No series is left behind**: when clients wait for each of their calls, every series belongs to
an endpoint in service whenever no call is in flight. -/
theorem series_in_service (name : String) (labels : List String) (defaults : CheckPlan)
    (ms : List (Move P))
    (awaited : (fresh (Exporter.fresh name labels) defaults).Sequential ms)
    (quiet : ((fresh (Exporter.fresh name labels) defaults).run ms).calls = []) :
    ((fresh (Exporter.fresh name labels) defaults).run ms).AllInService := by
  have htidy := tidy_run name labels defaults awaited
  generalize (fresh (Exporter.fresh name labels) defaults).run ms = s at htidy quiet
  refine ⟨fun r hr => ?_, fun r hr => ?_, fun r hr => ?_, fun r hr => ?_⟩
  · exact inService_of_answers quiet (htidy.series.health _ (List.mem_map_of_mem hr))
  · exact inService_of_answers quiet (htidy.series.latency _ (List.mem_map_of_mem hr))
  · obtain ⟨v, c, hc, hlabels, ha⟩ := htidy.series.status _ (List.mem_map_of_mem hr)
    obtain ⟨e, he, rfl⟩ := inService_of_answers quiet ha
    exact ⟨e, he, c, hc, hlabels⟩
  · obtain ⟨v, text, hlabels, ha⟩ := htidy.series.detail _ (List.mem_map_of_mem hr)
    obtain ⟨e, he, rfl⟩ := ha.elim (fun ha => inService_of_answers quiet ha.2)
      (inService_of_answers quiet)
    exact ⟨e, he, text, hlabels⟩

/-! ### An update onto another endpoint -/

/-- Both endpoints are checked; while the loop of the second publishes, the first is updated onto
it, and the new loop publishes as well before the call returns. -/
def updateOntoAnother : List (Move Unit) :=
  [[.register (database [Endpoint.plain "a" 1, Endpoint.plain "b" 2]) (), .start none],
    checking 0 (.ok ()),
    [.loop 1, .ending 1 (.returned (.ok ())), .loop 1, .loop 1,
      .update "db" "a" 1 (Endpoint.plain "b" 2) ()],
    checking 2 (.error .timeout), [.call 0, .loop 0], List.replicate 8 (.call 0),
    List.replicate 6 (.loop 1), List.replicate 3 (.call 0)].flatten

/-- What the old loop of the second endpoint has published, and what the new one has, is in service.
-/
theorem updateOntoAnother_inService :
    newApp.Sequential updateOntoAnother ∧ (newApp.run updateOntoAnother).AllInService := by
  have awaited : newApp.Sequential updateOntoAnother := by decide +kernel
  have quiet : (newApp.run updateOntoAnother).calls = [] := by decide +kernel
  exact ⟨awaited, series_in_service "app" [] CheckPlan.prompt _ awaited quiet⟩

end Scheduler

end HealthMonitor
