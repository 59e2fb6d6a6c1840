import HealthMonitor.Proofs.Scheduler.Mirror

/-!
# Calls of clients in a mirror

The `Shadow` of a scheduler is a mirror of it that has what is left of the calls in flight. When a
client registers a dependency, starts or stops the scheduler, or adds, removes or updates an
endpoint, then what is left of the call does the same to the shadow: it is taken or refused alike,
and makes what is left of the calls in flight that are made.

An update is the one call that names two keys, so it must not lead from the key to another or back.
-/

namespace HealthMonitor

namespace Scheduler

variable {P : Type} {K : String} {s t s' t' : Scheduler P}

/-! ### Shadows -/

/-- A mirror that has what is left of the calls in flight. -/
structure Shadow (K : String) (s t : Scheduler P) : Prop extends Mirrors K s t where
  calls : t.calls = s.calls.filterMap (Call.only? K s.keys)

/-- New loops change nothing in what is left of calls that wait for old ones. -/
theorem calls_of_goOn (hgo : LoopsGoOn s.loops s'.loops) {cs : List Call}
    (held : ∀ c ∈ cs, ∀ i ∈ c.awaited, i < s.loops.length) :
    cs.filterMap (Call.only? K s'.keys) = cs.filterMap (Call.only? K s.keys) := by
  obtain ⟨more, hmore⟩ := keys_of_goOn hgo
  refine List.filterMap_congr fun c hc => ?_
  rw [hmore, Call.only?_append]
  rw [keys, List.length_map]
  exact held c hc

/-- Mirrors of schedulers that have made calls are shadows if the shadow has made what is left of
them. -/
theorem Shadow.of_mirrors (h : Shadow K s t) (hs : Owned s) (hgo : LoopsGoOn s.loops s'.loops)
    (hm : Mirrors K s' t') (made : List Call)
    (held : ∀ c ∈ made, ∀ i ∈ c.awaited, i < s.loops.length) (hcalls : s'.calls = s.calls ++ made)
    (hcalls' : t'.calls = t.calls ++ made.filterMap (Call.only? K s.keys)) : Shadow K s' t' := by
  refine ⟨hm, ?_⟩
  have hall : ∀ c ∈ s.calls ++ made, ∀ i ∈ c.awaited, i < s.loops.length := by
    intro c hc
    rcases List.mem_append.mp hc with hc | hc
    · exact hs.held c hc
    · exact held c hc
  rw [hcalls, calls_of_goOn hgo hall, List.filterMap_append, hcalls', h.calls]

/-- A move that makes no calls needs a mirror only. -/
theorem Shadow.of_same (h : Shadow K s t) (hs : Owned s) (hgo : LoopsGoOn s.loops s'.loops)
    (hm : Mirrors K s' t') (hcalls : s'.calls = s.calls) (hcalls' : t'.calls = t.calls) :
    Shadow K s' t' := by
  refine h.of_mirrors hs hgo hm [] (fun _ hc => absurd hc List.not_mem_nil) ?_ ?_
  · rw [hcalls, List.append_nil]
  · rw [hcalls', List.filterMap_nil, List.append_nil]

/-! ### Registering and starting -/

/-- Registering a dependency does the same in the mirror, for its endpoints of the key. -/
theorem Mirrors.move_register (h : Mirrors K s t) (d : Dependency) (probe : P) :
    Mirrors K (s.move (.register d probe)) (t.run (Move.only? K s (.register d probe)).toList) := by
  by_cases hnil : (d.only K).endpoints = []
  · have herased : d.erased? K = none := if_pos hnil
    have hnew := h.register ⟨d, probe⟩
    rw [Registration.only?, if_pos hnil] at hnew
    rw [Move.only?, herased, Scheduler.move_register]
    split
    next =>
      rw [Option.toList_none, List.append_nil] at hnew
      exact hnew
    next => exact h
  · cases hv : d.validate with
    | error e =>
      have herased : d.erased? K = some d := by rw [Dependency.erased?, if_neg hnil, hv]
      rw [Move.only?, herased, Option.map_some, Option.toList_some, run_cons, run_nil,
        Scheduler.move_register, Scheduler.move_register, if_neg, if_neg]
      · exact h
      · simp [hv]
      · simp [hv]
    | ok u =>
      have herased : d.erased? K = some (d.only K) := by rw [Dependency.erased?, if_neg hnil, hv]
      have hnew := h.register ⟨d, probe⟩
      rw [Registration.only?, if_neg hnil] at hnew
      rw [Move.only?, herased, Option.map_some, Option.toList_some, run_cons, run_nil,
        Scheduler.move_register, Scheduler.move_register]
      by_cases idle : s.lifecycle = .idle
      · rw [if_pos ⟨hv, idle⟩, if_pos ⟨Dependency.validate_only hv hnil, h.lifecycle.trans idle⟩]
        exact hnew
      · rw [if_neg fun hc => idle hc.2, if_neg fun hc => idle (h.lifecycle.symm.trans hc.2)]
        exact h

/-- What is spawned for what is left of registrations is what is left of what is spawned. -/
theorem loopsOf_only (outer : Option Instant) (rs : List (Registration P)) :
    (rs.filterMap (Registration.only? K)).flatMap (loopsOf outer) =
      ((rs.flatMap (loopsOf outer)).filter fun e => e.1 = K).map fun e => (e.1, e.2.only K) := by
  induction rs with
  | nil => rfl
  | cons r rs ih =>
    have hr : (r.only? K).toList.flatMap (loopsOf outer) =
        ((loopsOf outer r).filter fun e => e.1 = K).map fun e => (e.1, e.2.only K) := by
      have hloops : ((loopsOf outer r).filter fun e => e.1 = K).map (fun e => (e.1, e.2.only K)) =
          loopsOf outer ⟨r.dependency.only K, r.probe⟩ := by
        rw [loopsOf, List.filter_map, List.map_map]
        rfl
      rw [hloops, Registration.only?]
      split
      next hnil => rw [loopsOf, hnil]; rfl
      next => simp
    rw [List.filterMap_cons, List.flatMap_cons, List.filter_append, List.map_append, ← ih, ← hr]
    cases r.only? K with
    | none => rfl
    | some r => simp

/-- A start of the mirror spawns the loop of the key, if there is one. -/
theorem Mirrors.startLoops (h : Mirrors K s t) (outer : Option Instant) :
    (t.startLoops outer).entries =
      ((s.startLoops outer).entries.filter fun e => e.1 = K).map fun e => (e.1, e.2.only K) := by
  have hlist := loopsOf_only (K := K) outer s.pending
  rw [← h.pending] at hlist
  have hown : (t.startLoops outer).entries.filter (fun e => e.1 = K) =
      (t.startLoops outer).entries := by
    rw [List.filter_eq_self]
    intro e he
    have hmem := Dictionary.mem_of_mem_ofList he
    rw [hlist] at hmem
    obtain ⟨e', he', rfl⟩ := List.mem_map.mp hmem
    exact (List.mem_filter.mp he').2
  rw [← hown, Dictionary.filter_entries, Dictionary.filter_entries, Scheduler.startLoops,
    Scheduler.startLoops, Dictionary.get?_ofList, Dictionary.get?_ofList, hlist, List.filter_map,
    List.filter_filter, List.getLast?_map]
  simp only [Function.comp_def, Bool.and_self]
  cases ((s.pending.flatMap (loopsOf outer)).filter fun e => e.1 = K).getLast? <;> rfl

/-- Starting keeps the mirror. -/
theorem Mirrors.move_start (h : Mirrors K s t) (outer : Option Instant) :
    Mirrors K (s.move (.start outer)) (t.move (.start outer)) := by
  rw [Scheduler.move_start, Scheduler.move_start, h.lifecycle]
  split
  next =>
    have hopen : Mirrors K { s with lifecycle := .running, pending := [] }
        { t with lifecycle := .running, pending := [] } :=
      ⟨h.now, h.defaults, rfl, rfl, h.loops, h.served, h.slots⟩
    have hkeys : ∀ e ∈ (s.startLoops outer).entries, e.2.key = e.1 := by
      intro e he
      obtain ⟨r, -, ep, -, rfl⟩ := spawned_of_mem_startLoops he
      rfl
    have hall := hopen.serveAll hkeys
    rw [← h.startLoops] at hall
    exact hall.beside
  next => exact h

/-! ### Stopping -/

/-- Stopping tells the loops of the key to stop in both. -/
theorem Mirrors.move_stop (h : Mirrors K s t) (hk : s.Keyed) :
    Mirrors K (s.move .stop) (t.move .stop) := by
  change Mirrors K s.stop t.stop
  rw [stop, stop, h.lifecycle]
  split
  next =>
    have htell := h.tell s.serving
    rw [← h.serving hk] at htell
    exact ⟨htell.now, htell.defaults, rfl, htell.pending, htell.loops, htell.served, htell.slots⟩
  next => exact h

/-! ### Adding, removing and updating -/

/-- An endpoint of the key is added to the mirror, and one of another is not. -/
theorem Mirrors.move_add (h : Mirrors K s t) (name : String) (kind : Kind) (critical : Bool)
    (e : Endpoint) (probe : P) :
    Mirrors K (s.move (.add name kind critical e probe))
      (t.run (Move.only? K s (.add name kind critical e probe)).toList) := by
  obtain ⟨d, hd⟩ : ∃ d, d = s.dynamicDependency name kind critical e := ⟨_, rfl⟩
  have hd' : d = t.dynamicDependency name kind critical e := by
    rw [hd, dynamicDependency, dynamicDependency, h.defaults]
  have he : d.endpoints = [e] := by rw [hd]; rfl
  have hkey : d.key e = Endpoint.keyOf name e.host e.port := by rw [hd]; rfl
  rw [Scheduler.move_add s hd, Move.only?, ← hkey]
  by_cases hk : d.key e = K
  · rw [if_pos hk, Option.toList_some, run_cons, run_nil, Scheduler.move_add t hd', hk, h.contains,
      h.lifecycle]
    split
    next =>
      have hserve := h.serve_own (l := CheckLoop.spawn d e probe none) hk
      rw [CheckLoop.only_spawn he hk] at hserve
      exact hserve.beside
    next => exact h
  · rw [if_neg hk]
    split
    next =>
      have hserve := h.serve_other (l := CheckLoop.spawn d e probe none) hk hk
      exact hserve.beside
    next => exact h

/-- A call in flight that retires loops of the key is left as one that retires their mirror
images. -/
theorem Shadow.retire (h : Shadow K s t) (hs : Owned s) (hm : Mirrors K s' t')
    (hgo : LoopsGoOn s.loops s'.loops) (hcalls : s'.calls = s.calls) (hcalls' : t'.calls = t.calls)
    {left left' : List Retired} {report : LogLine}
    (held : ∀ i ∈ left.map Retired.loop, i < s.loops.length)
    (hleft : Call.only? K s.keys (.retiring left .signal report) =
      some (.retiring left' .signal report)) :
    Shadow K (s'.retire left report) (t'.retire left' report) := by
  refine h.of_mirrors hs hgo hm.beside [.retiring left .signal report] ?_ ?_ ?_
  · intro c hc
    rw [List.mem_singleton.mp hc]
    exact held
  · rw [← hcalls]
    rfl
  · rw [List.filterMap_cons, hleft, ← hcalls']
    rfl

/-- One that is about another key leaves nothing. -/
theorem Shadow.retire_other (h : Shadow K s t) (hs : Owned s) (hm : Mirrors K s' t')
    (hgo : LoopsGoOn s.loops s'.loops) (hcalls : s'.calls = s.calls) (hcalls' : t'.calls = t.calls)
    {left : List Retired} {report : LogLine}
    (held : ∀ i ∈ left.map Retired.loop, i < s.loops.length) (hreport : report.isAbout K = false) :
    Shadow K (s'.retire left report) t' := by
  refine h.of_mirrors hs hgo hm.beside [.retiring left .signal report] ?_ ?_ ?_
  · intro c hc
    rw [List.mem_singleton.mp hc]
    exact held
  · rw [← hcalls]
    rfl
  · rw [List.filterMap_cons, Call.only?_retiring_other hreport, hcalls', List.filterMap_nil,
      List.append_nil]

/-- Removing an endpoint of the key retires it in the shadow as well. -/
theorem Shadow.move_remove (h : Shadow K s t) (hs : Owned s) (name host : String) (port : UInt16) :
    Shadow K (s.move (.remove name host port))
      (t.run (Move.only? K s (.remove name host port)).toList) := by
  generalize hkey : Endpoint.keyOf name host port = key
  rw [Scheduler.move_remove, Move.only?, hkey]
  have held (i : Nat) (hi : s.slots.get? key = some i) :
      ∀ j ∈ [Retired.mk i true].map Retired.loop, j < s.loops.length := by
    intro j hj
    rw [List.mem_singleton.mp hj]
    exact hs.slot i ⟨key, hi⟩
  by_cases hk : key = K
  · subst hk
    rw [if_pos rfl, Option.toList_some, run_cons, run_nil, Scheduler.move_remove, hkey]
    by_cases running : s.lifecycle = .running
    · rw [if_pos running, if_pos (h.lifecycle.trans running), h.get?]
      cases hi : s.slots.get? key with
      | none => exact h
      | some i =>
        have hlane : lane? key s.keys i = some ((s.keys.take i).count key) :=
          if_pos (h.served i hi)
        rw [Option.bind_some, hlane]
        have herase := h.erase key
        rw [if_pos rfl] at herase
        have habout : (LogLine.endpointRemoved key).isAbout key = true := decide_eq_true rfl
        exact h.retire hs herase (.refl lasts_goesOn _) rfl rfl (held i hi)
          (Call.only?_retiring_cons habout hlane [] .signal)
    · rw [if_neg running, if_neg fun hr => running (h.lifecycle.symm.trans hr)]
      exact h
  · rw [if_neg hk]
    split
    next =>
      cases hi : s.slots.get? key with
      | none => exact h
      | some i =>
        have herase := h.erase key
        rw [if_neg hk] at herase
        exact h.retire_other hs herase (.refl lasts_goesOn _) rfl rfl (held i hi)
          (decide_eq_false hk)
    next => exact h

/-- A new endpoint under a key, in the place of the loop that serves another or the same. -/
theorem replaced_under (s : Scheduler P) (key newKey : String) (i : Nat) (old : CheckLoop P)
    (e : Endpoint) (probe : P) {d : Dependency} (hd : d = { old.dependency with endpoints := [e] })
    (hkey : d.key e = newKey) :
    s.replaced key i old e probe =
      (({ s with slots := s.slots.erase key } : Scheduler P).serve newKey
        (CheckLoop.spawn d e probe none)).retire
          ((s.makingWay key newKey i).flatMap (s.retiredFor d e))
          (.endpointUpdated key newKey) := by
  subst hkey
  simp only [replaced, ← hd]

/-- An update under one key retires the loop that serves it, and no other. -/
theorem retired_of_same_key (key : String) (d : Dependency) (e : Endpoint) {i : Nat}
    {old : CheckLoop P} (hold : s.loops[i]? = some old) :
    (s.makingWay key key i).flatMap (s.retiredFor d e) =
      [⟨i, !sameSeries old.dependency old.endpoint d e⟩] := by
  rw [makingWay, Dictionary.get?_erase, if_pos rfl, Option.toList_none, List.flatMap_singleton,
    retiredFor, hold]

/-- An update within the key is an update of the shadow. -/
theorem Shadow.replaced_own (h : Shadow K s t) (hs : Owned s) {i r : Nat} {old : CheckLoop P}
    {e : Endpoint} {probe : P} (served : s.slots.get? K = some i) (hold : s.loops[i]? = some old)
    (hk : old.dependency.key e = K) (hr : lane? K s.keys i = some r)
    (hold' : t.loops[r]? = some (old.only K)) :
    Shadow K (s.replaced K i old e probe) (t.replaced K r (old.only K) e probe) := by
  obtain ⟨d, hd⟩ : ∃ d, d = { old.dependency with endpoints := [e] } := ⟨_, rfl⟩
  have he : d.endpoints = [e] := by rw [hd]
  have hk' : d.key e = K := by rw [hd]; exact hk
  rw [replaced_under s K K i old e probe hd hk', replaced_under t K K r (old.only K) e probe hd hk',
    retired_of_same_key K d e hold, retired_of_same_key K d e hold']
  have herase := h.erase K
  rw [if_pos rfl] at herase
  have hserve := herase.serve_own (l := CheckLoop.spawn d e probe none) hk'
  rw [CheckLoop.only_spawn he hk'] at hserve
  have habout : (LogLine.endpointUpdated K K).isAbout K = true := decide_eq_true rfl
  refine h.retire hs hserve (loopsRelated_append lasts_goesOn ..) rfl rfl ?_
    (Call.only?_retiring_cons habout hr [] .signal)
  intro j hj
  rw [List.mem_singleton.mp hj]
  exact hs.slot i ⟨K, served⟩

/-- An update among other keys is not seen in the shadow. -/
theorem Shadow.replaced_other (h : Shadow K s t) (hs : Owned s) {key : String} {i : Nat}
    {old : CheckLoop P} {e : Endpoint} {probe : P} (hne : key ≠ K)
    (hk : old.dependency.key e ≠ K) :
    Shadow K (s.replaced key i old e probe) t := by
  obtain ⟨d, hd⟩ : ∃ d, d = { old.dependency with endpoints := [e] } := ⟨_, rfl⟩
  have hk' : d.key e ≠ K := by rw [hd]; exact hk
  rw [replaced_under s key (d.key e) i old e probe hd rfl]
  have herase := h.erase key
  rw [if_neg hne] at herase
  have hserve := herase.serve_other (l := CheckLoop.spawn d e probe none) hk' hk'
  refine h.retire_other hs hserve (loopsRelated_append lasts_goesOn ..) rfl rfl ?_
    (decide_eq_false hne)
  intro j hj
  obtain ⟨r, hr, rfl⟩ := List.mem_map.mp hj
  obtain ⟨l, -, hl, -⟩ := mem_retired.mp hr
  exact (List.getElem?_eq_some_iff.mp hl).1

/-- An update keeps the shadow unless it leads from the key to another, or back. -/
theorem Shadow.move_update (h : Shadow K s t) (hs : Owned s) (name host : String) (port : UInt16)
    (e : Endpoint) (probe : P)
    (solitary : K ∈ (Move.update name host port e probe).concerns s →
      ∀ key ∈ (Move.update name host port e probe).concerns s, key = K) :
    Shadow K (s.move (.update name host port e probe))
      (t.run (Move.only? K s (.update name host port e probe)).toList) := by
  generalize hkey : Endpoint.keyOf name host port = key
  simp only [Move.concerns, hkey] at solitary
  rw [Scheduler.move_update, Move.only?, hkey]
  by_cases hk : key = K
  · subst hk
    rw [if_pos rfl, Option.toList_some, run_cons, run_nil, Scheduler.move_update, hkey,
      h.lifecycle]
    split
    next =>
      rw [h.get?]
      cases hi : s.slots.get? key with
      | none => exact h
      | some i =>
        obtain ⟨old, hold⟩ : ∃ old, s.loops[i]? = some old :=
          ⟨_, List.getElem?_eq_getElem (hs.slot i ⟨key, hi⟩)⟩
        have hnew : old.dependency.key e = key :=
          solitary List.mem_cons_self _ (by simp [hi, hold])
        have hserved := h.served i hi
        rw [getElem?_keys, hold, Option.map_some, Option.some_inj] at hserved
        obtain ⟨r, hr, hold'⟩ := h.getElem? hold hserved
        rw [Option.elim_some, hold, Option.elim_some, Option.bind_some, hr, Option.elim_some, hold']
        exact h.replaced_own hs hi hold hnew hr hold'
    next => exact h
  · rw [if_neg hk]
    split
    next =>
      cases hi : s.slots.get? key with
      | none => exact h
      | some i =>
        rw [Option.elim_some]
        cases hold : s.loops[i]? with
        | none => exact h
        | some old =>
          refine h.replaced_other hs hk fun hnew => hk (solitary ?_ key List.mem_cons_self)
          simp [hi, hold, hnew]
    next => exact h

end Scheduler

end HealthMonitor
