import HealthMonitor.Proofs.Metrics.Locality
import HealthMonitor.Proofs.Scheduler.Shadowing

/-!
# Endpoints do not disturb each other

A run and what is left of it when everything is erased that concerns other keys are compared move by
move (`Scheduler.Tracks`). The second leads to a shadow of the first (`Shadow.move`), it touches the
label values of the endpoints of the key as the first does (`Scheduler.touch_only`), and it launches
the same probes for the key (`Scheduler.launched_only`). The exporters of the two remember the same
details of the key all along, since these depend on the touches there alone
(`Exporter.details_replay`); this is what a shadow has to know to take the next step.

So what is seen of the key is the same (`Scheduler.isolated`). Its series in the exporter are the
same if no other series in play have their keys, and may differ otherwise: what a neighbour says can
replace what is said of the key (`Scheduler.neighbour_overwrites`).
-/

namespace HealthMonitor

variable {P : Type} {K : String}

/-! ### Touches at some label values -/

/-- The change of a touch if it is at some label values. -/
def Touch.at? (v : LabelValues) (t : Touch) : Option Exporter.Change :=
  if t.labels = v then some t.change else none

/-- What is remembered of some label values after touches depends on those there. -/
theorem Exporter.details_replay (x : Exporter) (ts : List Touch) (v : LabelValues) :
    (x.replay ts).details.get? v =
      (ts.filterMap (Touch.at? v)).foldl (fun before c => c.memory before) (x.details.get? v) := by
  induction ts using List.reverseRecOn with
  | nil => rfl
  | append_singleton ts t ih =>
    rw [replay_append, List.filterMap_append, List.foldl_append, ← ih]
    change ((x.replay ts).apply t.labels t.change).details.get? v = _
    rw [apply_details, List.filterMap_cons, Touch.at?]
    split
    next => rfl
    next => rfl

/-- Touches at some label values are replayed alike if they make the same changes. -/
theorem Exporter.replay_at (x : Exporter) (ts : List Touch) (v : LabelValues) :
    x.replay (ts.filter fun t => t.labels = v) =
      (ts.filterMap (Touch.at? v)).foldl (fun x c => x.apply v c) x := by
  induction ts using List.reverseRecOn with
  | nil => rfl
  | append_singleton ts t ih =>
    rw [List.filter_append, replay_append, ih, List.filterMap_append, List.foldl_append]
    by_cases hv : t.labels = v
    · rw [List.filter_cons_of_pos (by simpa using hv), List.filterMap_cons, Touch.at?, if_pos hv,
        ← hv]
      rfl
    · rw [List.filter_cons_of_neg (by simpa using hv), List.filterMap_cons, Touch.at?, if_neg hv]
      rfl

namespace Scheduler

variable {s t : Scheduler P} {m : Move P}

/-! ### Touches and launches of a move and of what is left of it -/

theorem writing?_only {x y : Exporter} (usable : y.latencyUsable = x.latencyUsable)
    (l : CheckLoop P) : (l.only K).writing? y = l.writing? x := by
  rw [CheckLoop.writing?, CheckLoop.writing?, usable, CheckLoop.phase_only]
  rfl

/-- The label values of other keys are other label values. -/
theorem at?_of_other {d : Dependency} {e : Endpoint} (hk : d.key e = K) {l : CheckLoop P}
    (hl : l.key ≠ K) (i : Nat) (c : Exporter.Change) :
    Touch.at? (s.metrics.labelValues d e) ⟨i, s.labelsOf l, c⟩ = none := by
  refine if_neg fun heq => hl ?_
  rw [← hk]
  exact key_of_labelValues heq

/-- A step of a loop of the key touches what the step of its mirror image does, and one of another
loop touches nothing of the key. -/
theorem touch_loop (h : Shadow K s t) (agree : Agree K s.metrics t.metrics) (i : Nat)
    {d : Dependency} {e : Endpoint} (hk : d.key e = K) :
    ((Move.only? K s (.loop i)).bind t.touch?).bind (Touch.at? (s.metrics.labelValues d e)) =
      (s.touch? (.loop i)).bind (Touch.at? (s.metrics.labelValues d e)) := by
  rw [Move.only?]
  cases hl : s.loops[i]? with
  | none =>
    rw [lane?_of_none hl]
    simp [touch?, hl]
  | some l =>
    by_cases hkey : l.key = K
    · obtain ⟨r, hr, hl'⟩ := h.getElem? hl hkey
      have hwriting := writing?_only (K := K) agree.latencyUsable l
      have hlabels := agree.labelsOf_only l
      rw [hr]
      cases hw : l.writing? s.metrics with
      | none => simp [touch?, hl, hl', hwriting, hw]
      | some c =>
        simp [touch?, hl, hl', hwriting, hw, hlabels, Touch.at?]
    · rw [lane?_of_ne hl hkey]
      cases hw : l.writing? s.metrics with
      | none => simp [touch?, hl, hw]
      | some c => simp [touch?, hl, hw, at?_of_other hk hkey]

/-- What a call in flight clears next, as a touch. -/
def clears? (s : Scheduler P) (c : Call) : Option Touch := do
  let (i, place) ← c.clearing.head?
  let l ← s.loops[i]?
  some ⟨i, s.labelsOf l, .cleared place⟩

theorem touch?_call (s : Scheduler P) (j : Nat) :
    s.touch? (.call j) = s.calls[j]?.bind s.clears? := rfl

/-- A call in flight about the key clears what is left of it clears. -/
theorem clears?_own (h : Mirrors K s t) (agree : Agree K s.metrics t.metrics) (parted : Parted K s)
    {c c' : Call} (hc : c ∈ s.calls) (hc' : c.only? K s.keys = some c') (v : LabelValues) :
    (t.clears? c').bind (Touch.at? v) = (s.clears? c).bind (Touch.at? v) := by
  cases c with
  | stopping =>
    cases hc'
    rfl
  | retiring left stage report =>
    have habout : report.isAbout K = true := by
      rw [← Bool.not_eq_false]
      intro other
      rw [Call.only?_retiring_other other] at hc'
      cases hc'
    cases left with
    | nil =>
      rw [Call.only?_retiring habout] at hc'
      cases hc'
      cases stage <;> rfl
    | cons r rest =>
      obtain ⟨l, n, hl, hn, hl', -⟩ :=
        h.image ((parted _ _ _ hc r List.mem_cons_self).mpr habout)
      rw [Call.only?_retiring_cons habout hn] at hc'
      cases hc'
      cases stage with
      | signal | join => rfl
      | clear places =>
        cases places with
        | nil => rfl
        | cons a places =>
          simp [clears?, Call.clearing, hl, hl', agree.labelsOf_only, Touch.at?]

/-- A call in flight about another key clears nothing of the key. -/
theorem clears?_other (parted : Parted K s) {c : Call} (hc : c ∈ s.calls)
    (hfor : c.isFor K s.keys = false) {d : Dependency} {e : Endpoint} (hk : d.key e = K) :
    (s.clears? c).bind (Touch.at? (s.metrics.labelValues d e)) = none := by
  rw [Option.bind_eq_none_iff]
  intro touch htouch
  simp only [clears?, Option.bind_eq_bind, Option.bind_eq_some_iff, Option.some.injEq] at htouch
  obtain ⟨⟨i, place⟩, hplace, l, hl, rfl⟩ := htouch
  refine at?_of_other hk (fun hkey => ?_) i (.cleared place)
  cases c with
  | stopping => cases hplace
  | retiring left stage report =>
    have habout : report.isAbout K = false := hfor
    cases left with
    | nil => cases stage <;> cases hplace
    | cons r rest =>
      cases stage with
      | signal | join => cases hplace
      | clear places =>
        cases places with
        | nil => cases hplace
        | cons a places =>
          -- a loop of the key ahead would make the call one about the key
          cases hplace
          have hown : s.keys[r.loop]? = some K := by
            rw [getElem?_keys, hl, Option.map_some, hkey]
          rw [(parted _ _ _ hc r List.mem_cons_self).mp hown] at habout
          cases habout

/-- A step of a call in flight clears what the step of its mirror image does. -/
theorem touch_call (h : Shadow K s t) (agree : Agree K s.metrics t.metrics) (parted : Parted K s)
    (j : Nat) {d : Dependency} {e : Endpoint} (hk : d.key e = K) :
    ((Move.only? K s (.call j)).bind t.touch?).bind (Touch.at? (s.metrics.labelValues d e)) =
      (s.touch? (.call j)).bind (Touch.at? (s.metrics.labelValues d e)) := by
  rw [touch?_call]
  cases hc : s.calls[j]? with
  | none => simp [Move.only?, hc]
  | some c =>
    have hmem : c ∈ s.calls := List.mem_of_getElem? hc
    cases ha : s.advance c with
    -- a call that waits is not asked for in what is left, and clears nothing
    | none => simp [Move.only?, hc, ha, clears?, clearing_of_waiting ha]
    | some result =>
      cases hfor : c.isFor K s.keys with
      | false =>
        rw [Option.bind_some, clears?_other parted hmem hfor hk]
        simp [Move.only?, hc, ha, hfor]
      | true =>
        have hleft : ∃ c', c.only? K s.keys = some c' := by
          cases c with
          | stopping => exact ⟨_, rfl⟩
          | retiring => exact ⟨_, Call.only?_retiring hfor ..⟩
        obtain ⟨c', hc'⟩ := hleft
        have hcall : t.calls[Sieve.rank (Call.only? K s.keys) s.calls j]? = some c' := by
          rw [h.calls]
          exact Sieve.getElem?_rank hc hc'
        rw [Option.bind_some, ← clears?_own h.toMirrors agree parted hmem hc']
        simp [Move.only?, hc, ha, hfor, touch?_call, hcall]

/-- **A move touches the endpoints of the key as what is left of it does.** -/
theorem touch_only (h : Shadow K s t) (agree : Agree K s.metrics t.metrics) (parted : Parted K s)
    (m : Move P) {d : Dependency} {e : Endpoint} (hk : d.key e = K) :
    ((m.only? K s).bind t.touch?).bind (Touch.at? (s.metrics.labelValues d e)) =
      (s.touch? m).bind (Touch.at? (s.metrics.labelValues d e)) := by
  cases m with
  | loop i => exact touch_loop h agree i hk
  | call j => exact touch_call h agree parted j hk
  | start | stop | clock => rfl
  | register d' probe => cases hd : d'.erased? K <;> simp [Move.only?, touch?, hd]
  | ending i how => cases hr : lane? K s.keys i <;> simp [Move.only?, touch?, hr]
  | add | remove | update =>
    rw [Move.only?]
    split
    next => rfl
    next => rfl

/-- **A move launches the probes of the key as what is left of it does.** -/
theorem launched_only (h : Shadow K s t) (agree : Agree K s.metrics t.metrics) (m : Move P) :
    (m.only? K s).bind (t.launched? K) = s.launched? K m := by
  cases m with
  | loop i =>
    rw [Move.only?]
    cases hl : s.loops[i]? with
    | none =>
      rw [lane?_of_none hl]
      simp [launched?, hl]
    | some l =>
      by_cases hkey : l.key = K
      · obtain ⟨r, hr, hl'⟩ := h.getElem? hl hkey
        have hsteps := CheckLoop.step_only (K := K) agree.latencyUsable l s.now
        have hkey' : (l.only K).key = K := by rw [CheckLoop.key_only, hkey]
        rw [hr]
        simp only [Option.map_some, Option.bind_some, launched?, hl, hl', Option.bind_eq_bind,
          hkey, hkey', if_true, h.now]
        generalize l.step s.metrics s.now = q at hsteps ⊢
        generalize (l.only K).step t.metrics s.now = q' at hsteps ⊢
        cases hsteps with
        | none => rfl
        | some hreduced => rw [Option.bind_some, Option.bind_some, hreduced.events]
      · rw [lane?_of_ne hl hkey]
        simp [launched?, hl, hkey]
  | start | stop | clock => rfl
  | call j =>
    -- what is left of a step of a call is none of a loop
    change _ = none
    rw [Option.bind_eq_none_iff]
    intro m hm
    have hcalls := Move.leavesCalls_only? hm
    cases m with
    | loop => cases hcalls
    | register | start | stop | add | remove | update | call | ending | clock => rfl
  | register d' probe => cases hd : d'.erased? K <;> simp [Move.only?, launched?, hd]
  | ending i how => cases hr : lane? K s.keys i <;> simp [Move.only?, launched?, hr]
  | add | remove | update =>
    rw [Move.only?]
    split
    next => rfl
    next => rfl

/-! ### Runs -/

/-- A mirror has loops of the key only. -/
theorem Mirrors.key_of_getElem? (h : Mirrors K s t) {r : Nat} {l : CheckLoop P}
    (hl : t.loops[r]? = some l) : l.key = K := by
  rw [h.loops] at hl
  obtain ⟨l', -, hleft⟩ := List.mem_filterMap.mp (List.mem_of_getElem? hl)
  rw [CheckLoop.only?] at hleft
  split at hleft
  next hk =>
    cases hleft
    exact hk
  next => cases hleft

/-- Exporters that are touched alike at the label values of the key agree about it. -/
theorem agree_replay (x : Exporter) {ts us : List Touch}
    (touched : ∀ d e, d.key e = K → us.filterMap (Touch.at? (x.labelValues d e)) =
      ts.filterMap (Touch.at? (x.labelValues d e))) :
    Agree K (x.replay ts) (x.replay us) := by
  have hnames := x.replay_names ts
  have hnames' := x.replay_names us
  refine ⟨hnames'.1.trans hnames.1.symm, hnames'.2.trans hnames.2.symm, fun d e hk => ?_⟩
  have hlabels : (x.replay ts).labelValues d e = x.labelValues d e := by
    simp only [Exporter.labelValues, hnames.1, hnames.2]
  rw [hlabels, Exporter.details_replay, Exporter.details_replay, touched d e hk]

/-- A run and another are about the key alike, and the second has led to a shadow. -/
structure Tracks (K : String) (x : Exporter) (past past' : List (Scheduler P × Move P))
    (s t : Scheduler P) : Prop where
  shadow : Shadow K s t
  parted : Parted K s
  touched : ∀ d e, d.key e = K → (touches past').filterMap (Touch.at? (x.labelValues d e)) =
    (touches past).filterMap (Touch.at? (x.labelValues d e))
  launched : launchedFor K past' = launchedFor K past
  own : ∀ u ∈ touches past', ∃ d e, d.key e = K ∧ u.labels = x.labelValues d e

theorem shadow_fresh (x : Exporter) (defaults : CheckPlan) :
    Shadow (P := P) K (fresh x defaults) (fresh x defaults) := by
  refine ⟨⟨rfl, rfl, rfl, rfl, rfl, ?_, fun key => ?_⟩, rfl⟩
  · intro i hi
    cases hi
  · split <;> rfl

theorem touches_extend (past : List (Scheduler P × Move P)) (t : Scheduler P)
    (o : Option (Move P)) :
    touches (past ++ t.trace o.toList) = touches past ++ (o.bind t.touch?).toList := by
  cases o with
  | none => simp [trace]
  | some m => exact touches_concat past t m

theorem launchedFor_extend (past : List (Scheduler P × Move P)) (t : Scheduler P)
    (o : Option (Move P)) :
    launchedFor K (past ++ t.trace o.toList) =
      launchedFor K past ++ (o.bind (t.launched? K)).toList := by
  cases o with
  | none => simp [trace]
  | some m => exact launchedFor_concat K past t m

private theorem filterMap_toList {α β : Type} (f : α → Option β) (o : Option α) :
    o.toList.filterMap f = (o.bind f).toList := by
  cases o with
  | none => rfl
  | some a => cases h : f a <;> simp [h]

theorem Tracks.move {x : Exporter} {past past' : List (Scheduler P × Move P)}
    (h : Tracks K x past past' s t) (hs : Owned s) (ht : Owned t) (hk : s.Keyed)
    (hx : s.metrics = x.replay (touches past)) (hx' : t.metrics = x.replay (touches past'))
    (solitary : K ∈ m.concerns s → ∀ key ∈ m.concerns s, key = K) :
    Tracks K x (past ++ [(s, m)]) (past' ++ t.trace (m.only? K s).toList) (s.move m)
      (t.run (m.only? K s).toList) := by
  have agree : Agree K s.metrics t.metrics := by
    rw [hx, hx']
    exact agree_replay x h.touched
  have hlabels : s.metrics.labelValues = x.labelValues := by
    have hnames := x.replay_names (touches past)
    rw [hx]
    exact Exporter.labelValues_congr hnames.1 hnames.2
  refine ⟨h.shadow.move agree hs ht hk h.parted solitary,
    h.parted.move hs hk solitary (effect_move s m), ?_, ?_, ?_⟩
  · intro d e hkey
    have htouch := touch_only h.shadow agree h.parted m hkey
    rw [hlabels] at htouch
    rw [touches_extend, touches_concat, List.filterMap_append, List.filterMap_append,
      h.touched d e hkey, filterMap_toList, filterMap_toList, htouch]
  · rw [launchedFor_extend, launchedFor_concat, h.launched, launched_only h.shadow agree]
  · -- the loops of a shadow are of the key, so whatever it touches is
    intro u hu
    rw [touches_extend] at hu
    rcases List.mem_append.mp hu with hu | hu
    · exact h.own u hu
    · obtain ⟨m', -, htouch⟩ := Option.bind_eq_some_iff.mp (Option.mem_toList.mp hu)
      obtain ⟨l, hl, hlabelled, -⟩ := touch?_some htouch
      refine ⟨l.dependency, l.endpoint, h.shadow.key_of_getElem? hl, ?_⟩
      rw [hlabelled, labelsOf, agree.labelValues, hlabels]

/-- **What is left of a run tracks it.** -/
theorem tracks_run (x : Exporter) (defaults : CheckPlan) (ms : List (Move P))
    (solitary : Solitary K ((fresh x defaults).trace ms)) :
    Tracks K x ((fresh x defaults).trace ms)
      ((fresh x defaults).trace (erased K ((fresh x defaults).trace ms)))
      ((fresh x defaults).run ms)
      ((fresh x defaults).run (erased K ((fresh x defaults).trace ms))) := by
  induction ms using List.reverseRecOn with
  | nil =>
    refine ⟨shadow_fresh x defaults, ?_, fun _ _ _ => rfl, rfl, ?_⟩
    · intro left stage report hc
      cases hc
    · intro u hu
      cases hu
  | append_singleton ms m ih =>
    rw [trace_concat] at solitary ⊢
    have htracks := ih fun p hp => solitary p (List.mem_append_left _ hp)
    rw [run_concat, erased_concat, run_append, trace_append]
    exact htracks.move (owned_run x defaults ms) (owned_run x defaults _)
      (keyed_run x defaults ms) (metrics_run _ ms) (metrics_run _ _)
      (solitary ((fresh x defaults).run ms, m) (by simp))

/-! ### What is seen of a key -/

theorem health_of_mirrors (h : Mirrors K s t) :
    t.health = s.health.filter fun e => e.1 = K := by
  rw [health, health, h.inService, List.filterMap_map, List.filter_filterMap, List.filterMap_filter]
  refine List.filterMap_congr ?_
  rintro ⟨key, l⟩ -
  change (if decide (key = K) = true then l.state.tracker.healthy.map (Prod.mk key) else none) = _
  by_cases hk : key = K <;> cases l.state.tracker.healthy <;> simp [hk, Option.filter]

theorem details_of_mirrors (h : Mirrors K s t) :
    t.details = s.details.filter fun e => e.1 = K := by
  rw [details, details, h.inService, List.map_map, List.filter_map]
  rfl

/-- What is left of a run reaches no series that the run does not reach. -/
theorem Tracks.reached {x : Exporter} {past past' : List (Scheduler P × Move P)}
    (h : Tracks K x past past' s t) {u : Touch} (hu : u ∈ touches past') :
    ∀ p ∈ u.reached, p ∈ (touches past).flatMap Touch.reached := by
  intro p hp
  obtain ⟨d, e, hkey, hlabels⟩ := h.own u hu
  have hchange : u.change ∈ (touches past').filterMap (Touch.at? (x.labelValues d e)) :=
    List.mem_filterMap.mpr ⟨u, hu, if_pos hlabels⟩
  rw [h.touched d e hkey] at hchange
  obtain ⟨t, ht, hat⟩ := List.mem_filterMap.mp hchange
  rw [Touch.at?] at hat
  split at hat
  next htlabels =>
    have hreached : t.reached = u.reached := by
      rw [Touch.reached, Touch.reached, Option.some.inj hat, htlabels, ← hlabels]
    exact List.mem_flatMap.mpr ⟨t, ht, hreached ▸ hp⟩
  next => cases hat

/-- The series of an endpoint of the key are the same if no others in play have their keys. -/
theorem Tracks.sameAt {x : Exporter} {past past' : List (Scheduler P × Move P)}
    (h : Tracks K x past past' s t) {d : Dependency} {e : Endpoint} (hkey : d.key e = K)
    (apart : StandsOut (x.labelValues d e)
      (x.present ++ (touches past).flatMap Touch.reached)) :
    Exporter.SameAt (x.labelValues d e) (x.replay (touches past)) (x.replay (touches past')) := by
  have hwithin : x.Within (x.present ++ (touches past).flatMap Touch.reached) :=
    x.within_present.mono (List.subset_append_left ..)
  have hsame := (Exporter.SameAt.refl (x.labelValues d e) x).replay hwithin hwithin apart
    fun u hu p hp => List.mem_append_right _ (List.mem_flatMap.mpr ⟨u, hu, hp⟩)
  have hsame' := (Exporter.SameAt.refl (x.labelValues d e) x).replay hwithin hwithin apart
    fun u hu p hp => List.mem_append_right _ (h.reached hu p hp)
  rw [Exporter.replay_at] at hsame hsame'
  rw [h.touched d e hkey] at hsame'
  exact hsame.trans hsame'.symm

/-- **Endpoints do not disturb each other.** In every run of a scheduler in which no call concerns a
key and another one, and in the run that is left of it when everything is erased that concerns other
keys, the key has the same health, the same details and the same launches. Each endpoint of the key
has the same series in the exporter too, if no other series in play have the keys of these. -/
theorem isolated (x : Exporter) (defaults : CheckPlan) (K : String) (ms : List (Move P))
    (solitary : Solitary K ((fresh x defaults).trace ms)) :
    let s := (fresh x defaults).run ms
    let alone := (fresh x defaults).run (erased K ((fresh x defaults).trace ms))
    alone.now = s.now ∧
      alone.health = s.health.filter (fun e => e.1 = K) ∧
      alone.details = s.details.filter (fun e => e.1 = K) ∧
      launchedFor K ((fresh x defaults).trace (erased K ((fresh x defaults).trace ms))) =
        launchedFor K ((fresh x defaults).trace ms) ∧
      ∀ d e, d.key e = K →
        StandsOut (x.labelValues d e)
            (x.present ++ (touches ((fresh x defaults).trace ms)).flatMap Touch.reached) →
          Exporter.SameAt (x.labelValues d e) s.metrics alone.metrics := by
  intro s alone
  have htracks := tracks_run x defaults ms solitary
  refine ⟨htracks.shadow.now, health_of_mirrors htracks.shadow.toMirrors,
    details_of_mirrors htracks.shadow.toMirrors, htracks.launched, ?_⟩
  intro d e hkey apart
  have hmetrics : s.metrics = x.replay (touches ((fresh x defaults).trace ms)) := metrics_run _ ms
  have hmetrics' : alone.metrics = x.replay
      (touches ((fresh x defaults).trace (erased K ((fresh x defaults).trace ms)))) :=
    metrics_run _ _
  rw [hmetrics, hmetrics']
  exact htracks.sameAt hkey apart

/-- Two databases, of which the second fails and is given up. -/
def besideFailing : List (Move Unit) :=
  startUp [(database [Endpoint.plain "a" 1, Endpoint.plain "b" 2], ())] none ++
    (checking 1 (.error .refused) ++ .remove "db" "b" 2 :: .call 0 :: .loop 1 ::
      checking 0 (.ok ())) ++ List.replicate 8 (.call 0)

/-- The first database is seen alike whether the second is there or not. -/
theorem sound_beside_failing :
    let past := newApp.trace besideFailing
    let alone := newApp.run (erased "db:a:1" past)
    let d := database [Endpoint.plain "a" 1]
    past.length = 31 ∧ (erased "db:a:1" past).length = 11 ∧
      alone.health = (newApp.run besideFailing).health.filter (fun e => e.1 = "db:a:1") ∧
      Exporter.SameAt (newApp.metrics.labelValues d (Endpoint.plain "a" 1))
        (newApp.run besideFailing).metrics alone.metrics := by
  intro past alone d
  have hisolated := isolated newApp.metrics CheckPlan.prompt "db:a:1" besideFailing
    (by decide +kernel)
  exact ⟨by decide +kernel, by decide +kernel, hisolated.2.1,
    hisolated.2.2.2.2 d (Endpoint.plain "a" 1) rfl (by decide +kernel)⟩

/-- **A neighbour can be heard in its place.** The label values of `a1:2` and of `a:12` have the
same key, so the failed check of the second replaces the health of the first. Its own health is
what it was. -/
theorem neighbour_overwrites :
    let d := database [Endpoint.plain "a1" 2, Endpoint.plain "a" 12]
    let moves := startUp [(d, ())] none ++ (checking 0 (.ok ()) ++ checking 1 (.error .refused))
    let labels := newApp.metrics.labelValues d (Endpoint.plain "a1" 2)
    let alone := newApp.run (erased "db:a1:2" (newApp.trace moves))
    Solitary "db:a1:2" (newApp.trace moves) ∧
      (newApp.run moves).health = [("db:a1:2", true), ("db:a:12", false)] ∧
      alone.health = [("db:a1:2", true)] ∧
      (newApp.run moves).metrics.health.own? labels = some false ∧
      alone.metrics.health.own? labels = some true := by
  decide +kernel

end Scheduler

end HealthMonitor
