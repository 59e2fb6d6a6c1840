import HealthMonitor.Proofs.Scheduler.Listing
import HealthMonitor.Proofs.Scheduler.Shadow

/-!
# Moves of a scheduler and of its shadow

When a move is carried out, and what is left of it in the shadow, then the shadow is one again
(`Shadow.move`). For loops, probes and the clock this is what mirrors are about. A call in flight
takes its steps in the shadow if it is about the key, and is not seen there otherwise.

That takes two things. A call in flight that retires loops must have loops of the key ahead only, or
none of them (`Parted`); it has, if no update leads from the key to another or back. And what it
finds in the table of details of the exporter must be the same for the endpoints of the key
(`Agree`).
-/

namespace HealthMonitor

variable {P : Type} {K : String}

namespace Scheduler

variable {s t s' t' : Scheduler P}

/-! ### Loops, probes and the clock -/

/-- A loop of the key takes its step in the mirror; that of another is not there. -/
theorem Mirrors.move_loop (h : Mirrors K s t)
    (usable : t.metrics.latencyUsable = s.metrics.latencyUsable) (i : Nat) :
    Mirrors K (s.move (.loop i)) (t.run (Move.only? K s (.loop i)).toList) := by
  rw [Move.only?]
  cases hl : s.loops[i]? with
  | none =>
    rw [lane?_of_none hl]
    have hsame : s.move (.loop i) = s := by simp [move, stepLoop, hl]
    rw [hsame]
    exact h
  | some l =>
    have hsteps := CheckLoop.step_only (K := K) usable l s.now
    by_cases hk : l.key = K
    · obtain ⟨r, hr, hl'⟩ := h.getElem? hl hk
      rw [hr, Option.map_some, Option.toList_some, run_cons, run_nil]
      cases hq : l.step s.metrics s.now with
      | none =>
        rw [hq] at hsteps
        cases hq' : (l.only K).step t.metrics s.now with
        | none =>
          rw [← h.now] at hq'
          rw [move_loop_of_stuck hl hq, move_loop_of_stuck hl' hq']
          exact h
        | some q' => rw [hq'] at hsteps; cases hsteps
      | some q =>
        rw [hq] at hsteps
        cases hq' : (l.only K).step t.metrics s.now with
        | none => rw [hq'] at hsteps; cases hsteps
        | some q' =>
          rw [hq'] at hsteps
          cases hsteps with
          | some hreduced =>
            rw [← h.now] at hq'
            have hkey := (CheckLoop.stepped_of_step hq).goesOn.key
            have hset := h.set_own hl hk hkey hr
            rw [Scheduler.move_loop hl hq, Scheduler.move_loop hl' hq', hreduced.loop]
            exact hset.beside
    · rw [lane?_of_ne hl hk]
      cases hq : l.step s.metrics s.now with
      | none =>
        rw [move_loop_of_stuck hl hq]
        exact h
      | some q =>
        have hset := h.set_other hl hk (CheckLoop.stepped_of_step hq).goesOn.key
        rw [Scheduler.move_loop hl hq]
        exact hset.beside

/-- A probe of the key ends in the mirror as well. -/
theorem Mirrors.move_ending (h : Mirrors K s t) (i : Nat) (how : ProbeEnd) :
    Mirrors K (s.move (.ending i how)) (t.run (Move.only? K s (.ending i how)).toList) := by
  have hmodify := h.modifyLoop (f := fun l => l.endProbe how) i (fun l => l.key_endProbe how)
    fun l => l.only_endProbe K how
  rw [Move.only?]
  cases hr : lane? K s.keys i with
  | none =>
    rw [hr] at hmodify
    exact hmodify
  | some r =>
    rw [hr] at hmodify
    exact hmodify

theorem Mirrors.passTo (h : Mirrors K s t) (moment : Instant) :
    Mirrors K (s.passTo moment) (t.passTo moment) := by
  refine ⟨?_, h.defaults, h.lifecycle, h.pending, h.loops, h.served, h.slots⟩
  change max t.now moment = max s.now moment
  rw [h.now]

/-! ### Calls in flight -/

/-- A call in flight that retires loops has only loops of the key ahead if its report is about the
key, and none of them otherwise. -/
def Parted (K : String) (s : Scheduler P) : Prop :=
  ∀ left stage report, Call.retiring left stage report ∈ s.calls →
    ∀ r ∈ left, s.keys[r.loop]? = some K ↔ report.isAbout K = true

/-- It is not seen in a mirror that a loop has been found to be over. -/
theorem Mirrors.noticeEnd (h : Mirrors K s t) (i r : Nat) :
    Mirrors K (s.noticeEnd i) (t.noticeEnd r) := by
  obtain ⟨es, hs⟩ := noticeEnd_eq s i
  obtain ⟨es', ht⟩ := noticeEnd_eq t r
  rw [hs, ht]
  exact h.beside

/-- A mirror is not about the exporter, so clearing places in either keeps it. -/
theorem Mirrors.clearPlace (h : Mirrors K s t) (i r : Nat) (place place' : Exporter.Removal) :
    Mirrors K (s.clearPlace i place).1 (t.clearPlace r place').1 := by
  rw [clearPlace_eq s, clearPlace_eq t]
  exact h.beside

/-- A call in flight about the key takes a step: so does what is left of it. -/
theorem Mirrors.advance_own (h : Mirrors K s t) (parted : Parted K s)
    (remainder : ∀ l place, l.key = K →
      t.metrics.remainder (t.labelsOf (l.only K)) place = s.metrics.remainder (s.labelsOf l) place)
    (alone : s.retiring = 0 → t.retiring = 0) {c : Call} {after : Option Call}
    (hc : c ∈ s.calls) (hfor : c.isFor K s.keys = true) (ha : Advance s c s' after) :
    ∃ c' t' after', c.only? K s.keys = some c' ∧ t.advance c' = some (t', after') ∧
      Mirrors K s' t' ∧ after.map (Call.only? K s.keys) = after'.map some := by
  cases ha with
  | @joinedByStop i rest done =>
    have hk : s.keys[i]? = some K := by
      by_contra hne
      rw [Call.isFor, lane?, if_neg hne] at hfor
      cases hfor
    obtain ⟨l, r, hl, hr, hl', hdone⟩ := h.image hk
    refine ⟨.stopping (r :: rest.filterMap (lane? K s.keys)), t.noticeEnd r,
      some (.stopping (rest.filterMap (lane? K s.keys))), ?_, ?_, h.noticeEnd i r, rfl⟩
    · rw [Call.only?, List.filterMap_cons, hr]
    · rw [advance, hdone, done]
      rfl
  | stopReturned none_retiring =>
    refine ⟨.stopping [], t.log .stopped, none, rfl, ?_, h.beside, rfl⟩
    rw [advance, if_pos (alone none_retiring)]
  | @signalled r rest report =>
    have habout : report.isAbout K = true := hfor
    obtain ⟨l, n, -, hn, -, -⟩ := h.image ((parted _ _ _ hc r List.mem_cons_self).mpr habout)
    have hmodify := h.modifyLoop (f := CheckLoop.signal) r.loop (fun _ => rfl)
      (CheckLoop.only_signal K)
    rw [hn] at hmodify
    exact ⟨_, t.modifyLoop n CheckLoop.signal,
      some (.retiring (⟨n, r.deleteSeries⟩ :: rest.filterMap (Retired.only? K s.keys)) .join
        report),
      Call.only?_retiring_cons habout hn rest .signal, rfl, hmodify,
      congrArg some (Call.only?_retiring_cons habout hn rest .join)⟩
  | @joined r rest report done =>
    have habout : report.isAbout K = true := hfor
    obtain ⟨l, n, -, hn, -, hdone⟩ := h.image ((parted _ _ _ hc r List.mem_cons_self).mpr habout)
    refine ⟨_, t.noticeEnd n,
      some (.retiring (⟨n, r.deleteSeries⟩ :: rest.filterMap (Retired.only? K s.keys))
        (.clear r.removals) report),
      Call.only?_retiring_cons habout hn rest .join, ?_, h.noticeEnd r.loop n,
      congrArg some (Call.only?_retiring_cons habout hn rest (.clear r.removals))⟩
    rw [advance, hdone, done]
    rfl
  | @cleared r rest a left report =>
    have habout : report.isAbout K = true := hfor
    have hk := (parted _ _ _ hc r List.mem_cons_self).mpr habout
    obtain ⟨l, n, hl, hn, hl', -⟩ := h.image hk
    have hfound : (t.clearPlace n a).2 = (s.clearPlace r.loop a).2 := by
      rw [getElem?_keys, hl, Option.map_some, Option.some_inj] at hk
      rw [Scheduler.clearPlace, Scheduler.clearPlace, hl, hl']
      exact remainder l a hk
    refine ⟨_, (t.clearPlace n a).1,
      some (.retiring (⟨n, r.deleteSeries⟩ :: rest.filterMap (Retired.only? K s.keys))
        (.clear ((t.clearPlace n a).2 ++ left)) report),
      Call.only?_retiring_cons habout hn rest (.clear (a :: left)), rfl,
      h.clearPlace r.loop n a a, ?_⟩
    rw [hfound]
    exact congrArg some (Call.only?_retiring_cons habout hn rest _)
  | @retired r rest report =>
    have habout : report.isAbout K = true := hfor
    obtain ⟨l, n, -, hn, -, -⟩ := h.image ((parted _ _ _ hc r List.mem_cons_self).mpr habout)
    exact ⟨_, t, some (.retiring (rest.filterMap (Retired.only? K s.keys)) .signal report),
      Call.only?_retiring_cons habout hn rest (.clear []), rfl, h,
      congrArg some (Call.only?_retiring habout s.keys rest .signal)⟩
  | @returned stage report =>
    have habout : report.isAbout K = true := hfor
    exact ⟨_, ({ t with retiring := t.retiring - 1 } : Scheduler P).log report, none,
      Call.only?_retiring habout s.keys [] stage, by cases stage <;> rfl, h.beside, rfl⟩

/-- A step of a call in flight about another key is not seen in what is left of it. -/
theorem Mirrors.advance_other (h : Mirrors K s t) (parted : Parted K s) {c : Call}
    {after : Option Call} (hc : c ∈ s.calls) (hfor : c.isFor K s.keys = false)
    (ha : Advance s c s' after) :
    Mirrors K s' t ∧ after.bind (Call.only? K s.keys) = c.only? K s.keys := by
  cases ha with
  | @joinedByStop i rest done =>
    have hlane : lane? K s.keys i = none := by
      rw [← Option.isNone_iff_eq_none, ← Option.isSome_eq_false_iff]
      exact hfor
    obtain ⟨es, hs⟩ := noticeEnd_eq s i
    rw [hs]
    refine ⟨h.beside, ?_⟩
    rw [Option.bind_some, Call.only?, Call.only?, List.filterMap_cons, hlane]
  | stopReturned => cases hfor
  | @signalled r rest report =>
    have habout : report.isAbout K = false := hfor
    have hlane : lane? K s.keys r.loop = none := by
      refine if_neg fun hk => ?_
      rw [(parted _ _ _ hc r List.mem_cons_self).mp hk] at habout
      cases habout
    have hmodify := h.modifyLoop (f := CheckLoop.signal) r.loop (fun _ => rfl)
      (CheckLoop.only_signal K)
    rw [hlane] at hmodify
    refine ⟨hmodify, ?_⟩
    rw [Option.bind_some, Call.only?_retiring_other habout, Call.only?_retiring_other habout]
  | @joined r rest report done =>
    have habout : report.isAbout K = false := hfor
    obtain ⟨es, hs⟩ := noticeEnd_eq s r.loop
    rw [hs]
    refine ⟨h.beside, ?_⟩
    rw [Option.bind_some, Call.only?_retiring_other habout, Call.only?_retiring_other habout]
  | @cleared r rest a left report =>
    have habout : report.isAbout K = false := hfor
    refine ⟨?_, ?_⟩
    · rw [clearPlace_eq]
      exact h.beside
    · rw [Option.bind_some, Call.only?_retiring_other habout, Call.only?_retiring_other habout]
  | @retired r rest report =>
    have habout : report.isAbout K = false := hfor
    refine ⟨h, ?_⟩
    rw [Option.bind_some, Call.only?_retiring_other habout, Call.only?_retiring_other habout]
  | @returned stage report =>
    have habout : report.isAbout K = false := hfor
    exact ⟨h.beside, (Call.only?_retiring_other habout s.keys [] stage).symm⟩

/-- A step of a call in flight tells a loop to stop at most, and leaves the keys. -/
theorem keys_advance {c : Call} {after : Option Call} (ha : Advance s c s' after) :
    s'.keys = s.keys := by
  rcases advance_loops ha with hloops | ⟨i, hloops⟩
  · rw [keys, hloops, keys]
  · rw [← s.keys_modifyLoop (f := CheckLoop.signal) i fun _ => rfl, keys, hloops]
    rfl

/-- Steps of a call that leaves something are steps of what it leaves, at its place among the
others. -/
theorem filterMap_callsAfter_own {calls : List Call} {j : Nat} {c c' : Call}
    {after after' : Option Call} (hc : calls[j]? = some c) {g : Call → Option Call}
    (hc' : g c = some c') (hafter : after.map g = after'.map some) :
    (callsAfter calls j after).filterMap g =
      callsAfter (calls.filterMap g) (Sieve.rank g calls j) after' := by
  cases after with
  | none =>
    cases after' with
    | none => exact Sieve.filterMap_eraseIdx_of_some hc hc'
    | some d' => cases hafter
  | some d =>
    cases after' with
    | none => cases hafter
    | some d' => exact Sieve.filterMap_set_of_some hc hc' (Option.some.inj hafter)

/-- A step of a call that leaves the same after it changes nothing in what is left of the calls. -/
theorem filterMap_callsAfter_other {calls : List Call} {j : Nat} {c : Call} {after : Option Call}
    (hc : calls[j]? = some c) {g : Call → Option Call} (hafter : after.bind g = g c) :
    (callsAfter calls j after).filterMap g = calls.filterMap g := by
  cases after with
  | none => exact Sieve.filterMap_eraseIdx_of_none hc hafter.symm
  | some d => exact Sieve.filterMap_set_of_eq hc hafter

/-- A step of a call in flight keeps the shadow. -/
theorem Shadow.move_call (h : Shadow K s t) (parted : Parted K s)
    (remainder : ∀ l place, l.key = K →
      t.metrics.remainder (t.labelsOf (l.only K)) place = s.metrics.remainder (s.labelsOf l) place)
    (alone : s.retiring = 0 → t.retiring = 0) (j : Nat) :
    Shadow K (s.move (.call j)) (t.run (Move.only? K s (.call j)).toList) := by
  cases hc : s.calls[j]? with
  | none =>
    have hwait (c : Call) (hc' : s.calls[j]? = some c) : s.advance c = none := by
      rw [hc] at hc'
      cases hc'
    rw [move_call_of_waiting hwait]
    simpa [Move.only?, hc] using h
  | some c =>
    cases ha : s.advance c with
    | none =>
      have hwait (c' : Call) (hc' : s.calls[j]? = some c') : s.advance c' = none := by
        rw [← Option.some.inj (hc.symm.trans hc')]
        exact ha
      rw [move_call_of_waiting hwait]
      simpa [Move.only?, hc, ha] using h
    | some result =>
      obtain ⟨s', after⟩ := result
      have hmem : c ∈ s.calls := List.mem_of_getElem? hc
      have hadvance := advance_some ha
      have hkeys := keys_advance hadvance
      rw [Scheduler.move_call hc ha]
      cases hfor : c.isFor K s.keys with
      | true =>
        obtain ⟨c', t', after', hc', ha', hm, hafter⟩ :=
          h.advance_own parted remainder alone hmem hfor hadvance
        have hcall : t.calls[Sieve.rank (Call.only? K s.keys) s.calls j]? = some c' := by
          rw [h.calls]
          exact Sieve.getElem?_rank hc hc'
        have hmove : t.run (Move.only? K s (.call j)).toList =
            { t' with calls :=
                callsAfter t.calls (Sieve.rank (Call.only? K s.keys) s.calls j) after' } := by
          rw [← Scheduler.move_call hcall ha']
          simp [Move.only?, hc, ha, hfor]
        rw [hmove]
        refine ⟨hm.beside, ?_⟩
        change callsAfter t.calls _ after' =
          (callsAfter s.calls j after).filterMap (Call.only? K s'.keys)
        rw [hkeys, filterMap_callsAfter_own hc hc' hafter, h.calls]
      | false =>
        obtain ⟨hm, hafter⟩ := h.advance_other parted hmem hfor hadvance
        have hmove : t.run (Move.only? K s (.call j)).toList = t := by
          simp [Move.only?, hc, ha, hfor]
        rw [hmove]
        refine ⟨hm.beside, ?_⟩
        change t.calls = (callsAfter s.calls j after).filterMap (Call.only? K s'.keys)
        rw [hkeys, filterMap_callsAfter_other hc hafter, h.calls]

/-! ### Every move -/

/-- Stopping keeps the shadow. -/
theorem Shadow.move_stop (h : Shadow K s t) (hs : Owned s) (hk : s.Keyed) :
    Shadow K (s.move .stop) (t.move .stop) := by
  have hm := h.toMirrors.move_stop hk
  have hgo := (effect_move s .stop).loopsGoOn
  by_cases running : s.lifecycle = .running
  · refine h.of_mirrors hs hgo hm [.stopping s.serving] ?_ ?_ ?_
    · intro c hc i hi
      rw [List.mem_singleton.mp hc] at hi
      exact hs.slot i (mem_serving.mp hi)
    · change s.stop.calls = _
      rw [stop, if_pos running]
    · change t.stop.calls = _
      rw [stop, if_pos (h.lifecycle.trans running), h.serving hk]
      rfl
  · refine h.of_same hs hgo hm ?_ ?_
    · change s.stop.calls = _
      rw [stop, if_neg running]
    · change t.stop.calls = _
      rw [stop, if_neg fun hr => running (h.lifecycle.symm.trans hr)]

end Scheduler

/-- Whether a move leaves the calls in flight as they are. -/
def Move.leavesCalls : Move P → Bool
  | .register .. | .start _ | .add .. | .loop _ | .ending .. | .clock _ => true
  | .stop | .remove .. | .update .. | .call _ => false

/-- What is left of a move leaves the calls in flight just if the move does. -/
theorem Move.leavesCalls_only? {s : Scheduler P} {m m' : Move P} (h : m.only? K s = some m') :
    m'.leavesCalls = m.leavesCalls := by
  cases m with
  | register =>
    obtain ⟨d, -, rfl⟩ := Option.map_eq_some_iff.mp h
    rfl
  | loop | ending =>
    obtain ⟨r, -, rfl⟩ := Option.map_eq_some_iff.mp h
    rfl
  | start | stop | clock =>
    cases h
    rfl
  | add | remove | update =>
    simp only [Move.only?] at h
    split at h
    next =>
      cases h
      rfl
    next => cases h
  | call j =>
    simp only [Move.only?, Option.bind_eq_bind, Option.bind_eq_some_iff] at h
    obtain ⟨c, -, after, -, h⟩ := h
    split at h
    next =>
      cases h
      rfl
    next => cases h

namespace Scheduler

variable {s t s' t' : Scheduler P} {m : Move P}

/-- A move that leaves the calls in flight alone neither makes one nor takes a step of one. -/
theorem calls_of_leavesCalls (h : Effect s m s') (hm : m.leavesCalls = true) :
    s'.calls = s.calls := by
  cases h with
  | started =>
    rw [begun, serveAll_frame]
    rfl
  | none | registered | added | stepped | ended | passed => rfl
  | told | removed | replaced | called => cases hm

/-- A move that leaves the calls in flight alone keeps the shadow if it keeps the mirror. -/
theorem Shadow.of_leavesCalls (h : Shadow K s t) (hs : Owned s) (hm : m.leavesCalls = true)
    (mirrors : Mirrors K (s.move m) (t.run (m.only? K s).toList)) :
    Shadow K (s.move m) (t.run (m.only? K s).toList) := by
  have heffect := effect_move s m
  refine h.of_same hs heffect.loopsGoOn mirrors (calls_of_leavesCalls heffect hm) ?_
  cases hm' : m.only? K s with
  | none => rfl
  | some m' =>
    exact calls_of_leavesCalls (effect_move t m') ((Move.leavesCalls_only? hm').trans hm)

/-- What a scheduler and its shadow need to know of their exporters. -/
structure Agree (K : String) (x y : Exporter) : Prop where
  name : y.name = x.name
  extraLabels : y.extraLabels = x.extraLabels
  detail : ∀ d e, d.key e = K →
    y.details.get? (x.labelValues d e) = x.details.get? (x.labelValues d e)

theorem Agree.labelValues {x y : Exporter} (h : Agree K x y) : y.labelValues = x.labelValues := by
  funext d e
  simp only [Exporter.labelValues, h.name, h.extraLabels]

theorem Agree.latencyUsable {x y : Exporter} (h : Agree K x y) :
    y.latencyUsable = x.latencyUsable := by
  rw [Exporter.latencyUsable, Exporter.latencyUsable, h.extraLabels]

/-- The mirror image of a loop has the same label values. -/
theorem Agree.labelsOf_only (h : Agree K s.metrics t.metrics) (l : CheckLoop P) :
    t.labelsOf (l.only K) = s.labelsOf l := by
  rw [labelsOf, labelsOf, h.labelValues]
  rfl

/-- **What is left of a move is the move of the shadow.** -/
theorem Shadow.move (h : Shadow K s t) (agree : Agree K s.metrics t.metrics) (hs : Owned s)
    (ht : Owned t) (hk : s.Keyed) (parted : Parted K s)
    (solitary : K ∈ m.concerns s → ∀ key ∈ m.concerns s, key = K) :
    Shadow K (s.move m) (t.run (m.only? K s).toList) := by
  cases m with
  | register d probe => exact h.of_leavesCalls hs rfl (h.move_register d probe)
  | start outer => exact h.of_leavesCalls hs rfl (h.move_start outer)
  | stop => exact h.move_stop hs hk
  | add name kind critical e probe =>
    exact h.of_leavesCalls hs rfl (h.move_add name kind critical e probe)
  | remove name host port => exact h.move_remove hs name host port
  | update name host port e probe => exact h.move_update hs name host port e probe solitary
  | loop i => exact h.of_leavesCalls hs rfl (h.move_loop agree.latencyUsable i)
  | call j =>
    refine h.move_call parted ?_ ?_ j
    · intro l place hkey
      have hdetail := agree.detail l.dependency l.endpoint hkey
      rw [agree.labelsOf_only]
      cases place with
      | memory =>
        rw [Exporter.remainder, Exporter.remainder, labelsOf, hdetail]
      | health | latency | status | detail => rfl
    · intro alone
      rw [hs.count, List.countP_eq_zero] at alone
      rw [ht.count, h.calls, List.countP_eq_zero]
      intro c hc
      obtain ⟨c', hc', hleft⟩ := List.mem_filterMap.mp hc
      rw [Call.isStop_only? hleft]
      exact alone c' hc'
  | ending i how => exact h.of_leavesCalls hs rfl (h.move_ending i how)
  | clock moment => exact h.of_leavesCalls hs rfl (h.passTo moment)

/-! ### Calls in flight are about the key or not -/

/-- What a call in flight retires keeps its key. -/
theorem Parted.of_goOn (h : Parted K s) (hs : Owned s) (hgo : LoopsGoOn s.loops s'.loops)
    {left : List Retired} {stage : RetireStage} {report : LogLine}
    (hc : Call.retiring left stage report ∈ s.calls) {r : Retired} (hr : r ∈ left) :
    s'.keys[r.loop]? = some K ↔ report.isAbout K = true := by
  have hloop : r.loop < s.keys.length := by
    rw [keys, List.length_map]
    exact hs.held _ hc r.loop (List.mem_map.mpr ⟨r, hr, rfl⟩)
  obtain ⟨more, hmore⟩ := keys_of_goOn hgo
  rw [hmore, List.getElem?_append_left hloop]
  exact h left stage report hc r hr

/-- What a call in flight retires after a step it has retired before. -/
theorem retiring_of_advance {c : Call} {left : List Retired} {stage : RetireStage}
    {report : LogLine} (ha : Advance s c s' (some (.retiring left stage report))) :
    ∃ before stage', c = .retiring before stage' report ∧ left ⊆ before := by
  cases ha with
  | signalled | joined | cleared => exact ⟨_, _, rfl, fun _ hr => hr⟩
  | retired => exact ⟨_, _, rfl, List.subset_cons_self ..⟩

/-- **Every move keeps them apart** unless it is an update from the key to another, or back. -/
theorem Parted.move (h : Parted K s) (hs : Owned s) (hk : s.Keyed)
    (solitary : K ∈ m.concerns s → ∀ key ∈ m.concerns s, key = K) (hm : Effect s m s') :
    Parted K s' := by
  have hgo := hm.loopsGoOn
  intro left stage report hc r hr
  cases hm with
  | none | registered | added | stepped | ended | passed => exact h.of_goOn hs hgo hc hr
  | started =>
    rw [begun, serveAll_frame] at hc
    exact h.of_goOn hs hgo hc hr
  | told =>
    rcases List.mem_append.mp hc with hc | hc
    · exact h.of_goOn hs hgo hc hr
    · cases List.mem_singleton.mp hc
  | @removed key name host port i named running served =>
    rcases List.mem_append.mp hc with hc | hc
    · exact h.of_goOn hs hgo hc hr
    · cases List.mem_singleton.mp hc
      rw [List.mem_singleton.mp hr]
      change s.keys[i]? = some K ↔ _
      rw [hk.getElem?_keys served, Option.some_inj]
      exact decide_eq_true_iff.symm
  | @replaced key name host port i old e probe named running labels served loop =>
    have hconcerns : (Move.update name host port e probe).concerns s =
        [key, old.dependency.key e] := by
      simp [Move.concerns, ← named, served, loop]
    rw [hconcerns] at solitary
    rcases List.mem_append.mp hc with hc | hc
    · exact h.of_goOn hs hgo hc hr
    · cases List.mem_singleton.mp hc
      obtain ⟨l, hway, hl, -⟩ := mem_retired.mp hr
      obtain ⟨l', hl', hgoes⟩ := hgo.2 r.loop l hl
      rw [getElem?_keys, hl', Option.map_some, hgoes.key, Option.some_inj]
      rcases List.mem_cons.mp hway with hloop | hloop
      · -- the loop that served the key given up
        obtain ⟨l₀, hl₀, hkey⟩ := hk key i served
        rw [hloop] at hl
        obtain rfl := Option.some.inj (hl.symm.trans hl₀)
        change l.dependency.key l.endpoint = K ↔ _
        rw [hkey]
        exact decide_eq_true_iff.symm
      · -- the loop that served the new key
        have hother := Option.mem_toList.mp hloop
        rw [Dictionary.get?_erase] at hother
        split at hother
        next => cases hother
        next =>
          obtain ⟨l₀, hl₀, hkey⟩ := hk _ r.loop hother
          obtain rfl := Option.some.inj (hl.symm.trans hl₀)
          change l.dependency.key l.endpoint = K ↔ _
          rw [hkey]
          change old.dependency.key e = K ↔ decide (key = K) = true
          rw [decide_eq_true_iff]
          constructor
          · intro hnew
            exact solitary (by simp [hnew]) key (by simp)
          · intro hgiven
            exact solitary (by simp [hgiven]) _ (by simp)
  | called call advance =>
    rcases mem_of_mem_callsAfter hc with hc | hafter
    · exact h.of_goOn hs hgo hc hr
    · rw [hafter] at advance
      obtain ⟨before, stage', rfl, hsub⟩ := retiring_of_advance advance
      exact h.of_goOn hs hgo (List.mem_of_getElem? call) (hsub hr)

end Scheduler

end HealthMonitor
