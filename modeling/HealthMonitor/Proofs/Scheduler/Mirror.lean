import HealthMonitor.Proofs.Scheduler.Erasure
import HealthMonitor.Proofs.Scheduler.Keys

/-!
# A scheduler with one key only

A scheduler `Mirrors` another when it is what is left of it for one key: it has the loops of that
key in the same order, each with its dependency cut down to the key, it serves the key by the same
loop, and the rest of its state but the exporter, the journal and the calls in flight is the same.

What is done to a loop, or to the keys that are served, keeps this if the mirror does the same where
it is about the key, and nothing where it is about another. The lemmas here say so for each of the
things that moves are made of.
-/

namespace HealthMonitor

variable {P : Type} {K : String}

/-! ### Dependencies of one key -/

namespace Dependency

/-- What is left of a valid dependency is valid. -/
theorem validate_only {d : Dependency}
    (valid : d.validate = .ok ()) (some : (d.only K).endpoints ≠ []) :
    (d.only K).validate = .ok () := by
  rw [validate_eq_ok_iff] at valid ⊢
  refine ⟨valid.name, valid.critical, some, ?_, ?_, valid.plan⟩
  · intro e he
    exact valid.places e (List.mem_of_mem_filter he)
  · intro e he
    exact valid.labels e (List.mem_of_mem_filter he)

/-- A dependency of one endpoint, which has the key, has no others. -/
theorem only_of_single {d : Dependency} {e : Endpoint} (he : d.endpoints = [e])
    (hk : d.key e = K) : d.only K = d := by
  have hall : d.endpoints.filter (fun e => d.key e = K) = d.endpoints := by
    rw [he, List.filter_cons_of_pos (by simpa using hk), List.filter_nil]
  rw [only, hall]

end Dependency

/-! ### Loops of one key -/

namespace CheckLoop

@[simp] theorem key_only (K : String) (l : CheckLoop P) : (l.only K).key = l.key := rfl

/-- A loop of the key is kept, with its dependency cut down to the key. -/
theorem only?_of_key {l : CheckLoop P} (h : l.key = K) : l.only? K = some (l.only K) :=
  if_pos h

theorem only?_of_ne {l : CheckLoop P} (h : l.key ≠ K) : l.only? K = none :=
  if_neg h

/-- A loop for a dependency of one endpoint, as additions and updates spawn them, is kept as it is.
-/
theorem only_spawn {d : Dependency} {e : Endpoint} (he : d.endpoints = [e]) (hk : d.key e = K)
    (probe : P) (outer : Option Instant) :
    (spawn d e probe outer).only K = spawn d e probe outer := by
  rw [only]
  change ({ spawn d e probe outer with dependency := d.only K } : CheckLoop P) = _
  rw [Dependency.only_of_single he hk]
  rfl

theorem only_signal (K : String) (l : CheckLoop P) : l.signal.only K = (l.only K).signal := rfl

/-- What is left of a loop is told of the end of a probe as the loop is. -/
theorem only_endProbe (K : String) (l : CheckLoop P) (ending : ProbeEnd) :
    (l.endProbe ending).only K = (l.only K).endProbe ending := by
  obtain ⟨d, e, probe, outer, stopped, state, phase⟩ := l
  cases phase <;> rfl

theorem key_endProbe (l : CheckLoop P) (ending : ProbeEnd) : (l.endProbe ending).key = l.key := by
  have hgo := l.goesOn_endProbe ending
  rw [key, hgo.dependency, hgo.endpoint, key]

/-- A loop has its key for life. -/
theorem GoesOn.key {l l' : CheckLoop P} (h : l.GoesOn l') : l'.key = l.key := by
  rw [CheckLoop.key, h.dependency, h.endpoint, CheckLoop.key]

@[simp] theorem phase_only (K : String) (l : CheckLoop P) : (l.only K).phase = l.phase := rfl

@[simp] theorem plan_only (K : String) (l : CheckLoop P) : (l.only K).plan = l.plan := rfl

@[simp] theorem isCancelled_only (K : String) (l : CheckLoop P) (now : Instant) :
    (l.only K).isCancelled now = l.isCancelled now := rfl

@[simp] theorem isDone_only (K : String) (l : CheckLoop P) : (l.only K).isDone = l.isDone := rfl

/-- A step of a loop, and one of what is left of it. -/
structure Progress.Reduced (K : String) (q q' : Progress P) : Prop where
  loop : q'.loop = q.loop.only K
  events : q'.events = q.events

/-- What is left of a loop launches its probe, or ends, just as the loop does. -/
theorem reduced_launch (K : String) (l : CheckLoop P) (x y : Exporter) (now : Instant)
    (nextTick : Option Instant) :
    Progress.Reduced K (l.launch x now nextTick) ((l.only K).launch y now nextTick) := by
  rw [launch, launch, isCancelled_only]
  split
  next => exact ⟨rfl, rfl⟩
  next => exact ⟨rfl, rfl⟩

/-- What is left of a loop publishes alike, whatever the exporters hold, as long as both take
latencies or both do not. -/
theorem reduced_publishOn {x y : Exporter} (h : y.latencyUsable = x.latencyUsable) (l : CheckLoop P)
    (now : Instant) (p : Publication) :
    Progress.Reduced K (l.publishOn x now p) ((l.only K).publishOn y now p) := by
  rw [publishOn, publishOn]
  cases p.left with
  | nil => exact ⟨rfl, rfl⟩
  | cons place rest =>
    cases place with
    | latency =>
      simp only [write?, Exporter.observeLatency?_eq, h]
      cases x.latencyUsable with
      | true => exact ⟨rfl, rfl⟩
      | false => exact ⟨rfl, rfl⟩
    | status | detail | state | health => exact ⟨rfl, rfl⟩

private theorem rel_ite {α β : Type} {R : α → β → Prop} {c : Prop} [Decidable c] {o o' : Option α}
    {u u' : Option β} (pos : Option.Rel R o u) (neg : Option.Rel R o' u') :
    Option.Rel R (if c then o else o') (if c then u else u') := by
  by_cases h : c
  · rwa [if_pos h, if_pos h]
  · rwa [if_neg h, if_neg h]

/-- **A loop steps alike** whichever other endpoints its dependency has, and whatever an exporter
holds. -/
theorem step_only {x y : Exporter} (h : y.latencyUsable = x.latencyUsable) (l : CheckLoop P)
    (now : Instant) :
    Option.Rel (Progress.Reduced K) (l.step x now) ((l.only K).step y now) := by
  cases hphase : l.phase with
  | spawned =>
    simp only [step, phase_only, plan_only, isCancelled_only, hphase]
    exact rel_ite (.some (reduced_launch ..)) (rel_ite (.some ⟨rfl, rfl⟩) (.some ⟨rfl, rfl⟩))
  | delaying due =>
    simp only [step, phase_only, isCancelled_only, hphase]
    exact rel_ite (.some ⟨rfl, rfl⟩) (rel_ite (.some (reduced_launch ..)) .none)
  | probing a =>
    simp only [step, phase_only, plan_only, isCancelled_only, hphase]
    refine rel_ite (.some ⟨rfl, rfl⟩) ?_
    cases a.ending with
    | some ending => exact .some ⟨rfl, rfl⟩
    | none => exact rel_ite (.some ⟨rfl, rfl⟩) .none
  | publishing p =>
    simp only [step, phase_only, hphase]
    exact .some (reduced_publishOn h l now p)
  | waiting due =>
    simp only [step, phase_only, isCancelled_only, hphase]
    exact rel_ite (.some ⟨rfl, rfl⟩) (rel_ite (.some (reduced_launch ..)) .none)
  | finished =>
    simp only [step, phase_only, hphase]
    exact .none
  | broken =>
    simp only [step, phase_only, hphase]
    exact .none

end CheckLoop

/-! ### Numbers of loops -/

/-- Loops that come behind do not change the number of a loop among those of its key. -/
theorem lane?_append {keys : List String} {i : Nat} (hi : i < keys.length) (more : List String) :
    lane? K (keys ++ more) i = lane? K keys i := by
  rw [lane?, lane?, List.getElem?_append_left hi, List.take_append_of_le_length (Nat.le_of_lt hi)]

/-! ### Calls in flight -/

namespace Call

/-- What is left of a call in flight does not depend on loops that it does not wait for. -/
theorem only?_append {keys : List String} {c : Call} (held : ∀ i ∈ c.awaited, i < keys.length)
    (more : List String) : c.only? K (keys ++ more) = c.only? K keys := by
  cases c with
  | stopping loops =>
    have hlanes : loops.filterMap (lane? K (keys ++ more)) = loops.filterMap (lane? K keys) :=
      List.filterMap_congr fun i hi => lane?_append (held i hi) more
    rw [only?, only?, hlanes]
  | retiring left stage report =>
    have hlanes : left.filterMap (Retired.only? K (keys ++ more)) =
        left.filterMap (Retired.only? K keys) := by
      refine List.filterMap_congr fun r hr => ?_
      have hloop := held r.loop (List.mem_map.mpr ⟨r, hr, rfl⟩)
      rw [Retired.only?, Retired.only?, lane?_append hloop]
    rw [only?, only?, hlanes]

/-- What is left of a call that stops is one that stops. -/
theorem isStop_only? {keys : List String} {c c' : Call} (h : c.only? K keys = some c') :
    c'.isStop = c.isStop := by
  cases c with
  | stopping =>
    cases h
    rfl
  | retiring left stage report =>
    rw [only?] at h
    split at h
    next =>
      cases h
      rfl
    next => cases h

/-- A call that retires loops is kept if its report is about the key, and so are those of its loops
that have the key. -/
theorem only?_retiring {report : LogLine} (about : report.isAbout K = true) (keys : List String)
    (left : List Retired) (stage : RetireStage) :
    only? K keys (.retiring left stage report) =
      some (.retiring (left.filterMap (Retired.only? K keys)) stage report) :=
  if_pos about

/-- The loop that is next to be retired stays the next if it is of the key. -/
theorem only?_retiring_cons {report : LogLine} (about : report.isAbout K = true)
    {keys : List String} {r : Retired} {n : Nat} (hn : lane? K keys r.loop = some n)
    (rest : List Retired) (stage : RetireStage) :
    only? K keys (.retiring (r :: rest) stage report) =
      some (.retiring (⟨n, r.deleteSeries⟩ :: rest.filterMap (Retired.only? K keys)) stage
        report) := by
  rw [only?_retiring about, List.filterMap_cons, Retired.only?, hn]
  rfl

/-- A call is gone if its report is about another key. -/
theorem only?_retiring_other {report : LogLine} (other : report.isAbout K = false)
    (keys : List String) (left : List Retired) (stage : RetireStage) :
    only? K keys (.retiring left stage report) = none := by
  rw [only?, other]
  rfl

end Call

namespace Scheduler

variable {s t : Scheduler P} {i : Nat} {l : CheckLoop P}

theorem getElem?_keys (s : Scheduler P) (i : Nat) :
    s.keys[i]? = s.loops[i]?.map CheckLoop.key := by
  rw [keys, List.getElem?_map]

/-- The loops of the key in front of one of them are in front of what is left of it. -/
theorem lane?_of_key (hl : s.loops[i]? = some l) (hk : l.key = K) :
    lane? K s.keys i = some (Sieve.rank (CheckLoop.only? K) s.loops i) := by
  have hkey : s.keys[i]? = some K := by rw [getElem?_keys, hl, Option.map_some, hk]
  have hcount (ls : List (CheckLoop P)) :
      (ls.map CheckLoop.key).count K = (ls.filterMap (CheckLoop.only? K)).length := by
    induction ls with
    | nil => rfl
    | cons l ls ih =>
      rw [List.map_cons, List.count_cons, ih, List.filterMap_cons]
      by_cases hk : l.key = K
      · rw [CheckLoop.only?_of_key hk, hk, beq_self_eq_true, if_pos rfl, List.length_cons]
      · rw [CheckLoop.only?_of_ne hk, if_neg (by simpa using hk), Nat.add_zero]
  rw [lane?, if_pos hkey, Sieve.rank, keys, ← List.map_take, hcount]

theorem lane?_of_ne (hl : s.loops[i]? = some l) (hk : l.key ≠ K) : lane? K s.keys i = none := by
  refine if_neg ?_
  rw [getElem?_keys, hl, Option.map_some, Option.some_inj]
  exact hk

theorem lane?_of_none (hl : s.loops[i]? = none) : lane? K s.keys i = none := by
  refine if_neg ?_
  simp [getElem?_keys, hl]

/-- Loops that go on keep their keys. -/
theorem keys_of_goOn {s' : Scheduler P} (h : LoopsGoOn s.loops s'.loops) :
    ∃ more, s'.keys = s.keys ++ more := by
  have hprefix : s.keys <+: s'.keys := by
    rw [List.prefix_iff_getElem?]
    intro i hi
    rw [keys, List.length_map] at hi
    obtain ⟨l', hl', hgo⟩ := h.2 i s.loops[i] (List.getElem?_eq_getElem hi)
    rw [getElem?_keys, hl', Option.map_some, hgo.key]
    simp only [keys, List.getElem_map]
  obtain ⟨more, hmore⟩ := hprefix
  exact ⟨more, hmore.symm⟩

/-- A loop may be put in the place of another of its key. -/
theorem keys_set {l' : CheckLoop P} (hl : s.loops[i]? = some l) (hkey : l'.key = l.key) :
    (s.loops.set i l').map CheckLoop.key = s.keys := by
  refine List.ext_getElem? fun j => ?_
  rw [List.getElem?_map, getElem?_keys, List.getElem?_set]
  split
  next hij =>
    subst hij
    split
    next => rw [hl, Option.map_some, Option.map_some, hkey]
    next hi => rw [List.getElem?_eq_none (Nat.le_of_not_lt hi)] at hl; cases hl
  next => rfl

/-- A served key is that of the loop which serves it. -/
theorem Keyed.getElem?_keys (h : s.Keyed) {key : String} (hi : s.slots.get? key = some i) :
    s.keys[i]? = some key := by
  obtain ⟨l, hl, hkey⟩ := h key i hi
  rw [Scheduler.getElem?_keys, hl]
  exact congrArg some hkey

/-! ### Mirrors -/

/-- A scheduler is what is left of another for a key, but for the exporter, the journal and the
calls in flight. -/
structure Mirrors (K : String) (s t : Scheduler P) : Prop where
  now : t.now = s.now
  defaults : t.defaults = s.defaults
  lifecycle : t.lifecycle = s.lifecycle
  pending : t.pending = s.pending.filterMap (Registration.only? K)
  loops : t.loops = s.loops.filterMap (CheckLoop.only? K)
  served : ∀ i, s.slots.get? K = some i → s.keys[i]? = some K
  slots : ∀ key, t.slots.get? key =
    if key = K then (s.slots.get? K).bind (lane? K s.keys) else none

/-- A loop of the key has its mirror image. -/
theorem Mirrors.getElem? (h : Mirrors K s t) (hl : s.loops[i]? = some l) (hk : l.key = K) :
    ∃ r, lane? K s.keys i = some r ∧ t.loops[r]? = some (l.only K) := by
  refine ⟨_, lane?_of_key hl hk, ?_⟩
  rw [h.loops]
  exact Sieve.getElem?_rank hl (CheckLoop.only?_of_key hk)

/-- A loop of the key has a mirror image that is over when it is. -/
theorem Mirrors.image (h : Mirrors K s t) {i : Nat} (hk : s.keys[i]? = some K) :
    ∃ l r, s.loops[i]? = some l ∧ lane? K s.keys i = some r ∧ t.loops[r]? = some (l.only K) ∧
      t.isDone r = s.isDone i := by
  rw [getElem?_keys] at hk
  obtain ⟨l, hl, hk⟩ := Option.map_eq_some_iff.mp hk
  obtain ⟨r, hr, hl'⟩ := h.getElem? hl hk
  refine ⟨l, r, hl, hr, hl', ?_⟩
  rw [isDone, isDone, hl, hl', Option.all_some, Option.all_some, CheckLoop.isDone_only]

/-- Mirrors mirror whatever else happens to the exporters, the journals and the calls in flight. -/
theorem Mirrors.beside (h : Mirrors K s t) {x x' : Exporter} {cs cs' : List Call} {n n' : Nat}
    {es es' : List Happening} :
    Mirrors K { s with metrics := x, calls := cs, retiring := n, journal := es }
      { t with metrics := x', calls := cs', retiring := n', journal := es' } :=
  ⟨h.now, h.defaults, h.lifecycle, h.pending, h.loops, h.served, h.slots⟩

/-- A registration waits in the mirror as well, if it has endpoints of the key. -/
theorem Mirrors.register (h : Mirrors K s t) (r : Registration P) :
    Mirrors K { s with pending := s.pending ++ [r] }
      { t with pending := t.pending ++ (r.only? K).toList } := by
  refine ⟨h.now, h.defaults, h.lifecycle, ?_, h.loops, h.served, h.slots⟩
  change t.pending ++ _ = _
  rw [h.pending, List.filterMap_append, List.filterMap_cons, List.filterMap_nil]
  cases r.only? K <;> rfl

/-- The mirror serves the key by what is left of the loop that serves it. -/
theorem Mirrors.get? (h : Mirrors K s t) :
    t.slots.get? K = (s.slots.get? K).bind (lane? K s.keys) := by
  rw [h.slots, if_pos rfl]

/-- The mirror serves the key if it is served. -/
theorem Mirrors.contains (h : Mirrors K s t) : t.slots.contains K = s.slots.contains K := by
  rw [Dictionary.contains, Dictionary.contains, h.get?]
  cases hi : s.slots.get? K with
  | none => rfl
  | some i => rw [Option.bind_some, lane?, if_pos (h.served i hi)]; rfl

/-- When a loop of the key becomes another, so does its mirror image. -/
theorem Mirrors.set_own (h : Mirrors K s t) {l' : CheckLoop P} {r : Nat}
    (hl : s.loops[i]? = some l) (hk : l.key = K) (hkey : l'.key = l.key)
    (hr : lane? K s.keys i = some r) :
    Mirrors K { s with loops := s.loops.set i l' }
      { t with loops := t.loops.set r (l'.only K) } := by
  have hkeys : ({ s with loops := s.loops.set i l' } : Scheduler P).keys = s.keys :=
    keys_set hl hkey
  rw [lane?_of_key hl hk] at hr
  obtain rfl := Option.some.inj hr
  refine ⟨h.now, h.defaults, h.lifecycle, h.pending, ?_, ?_, ?_⟩
  · have hset := Sieve.filterMap_set_of_some hl (CheckLoop.only?_of_key hk)
      (CheckLoop.only?_of_key (hkey.trans hk))
    rw [← h.loops] at hset
    exact hset.symm
  · rw [hkeys]
    exact h.served
  · rw [hkeys]
    exact h.slots

/-- When a loop of another key becomes another, the mirror stays as it is. -/
theorem Mirrors.set_other (h : Mirrors K s t) {l' : CheckLoop P} (hl : s.loops[i]? = some l)
    (hk : l.key ≠ K) (hkey : l'.key = l.key) :
    Mirrors K { s with loops := s.loops.set i l' } t := by
  have hkeys : ({ s with loops := s.loops.set i l' } : Scheduler P).keys = s.keys :=
    keys_set hl hkey
  refine ⟨h.now, h.defaults, h.lifecycle, h.pending, ?_, ?_, ?_⟩
  · have hnone : l'.only? K = l.only? K := by
      rw [CheckLoop.only?_of_ne hk, CheckLoop.only?_of_ne (by rwa [hkey])]
    rw [h.loops]
    exact (Sieve.filterMap_set_of_eq hl hnone).symm
  · rw [hkeys]
    exact h.served
  · rw [hkeys]
    exact h.slots

section Change

variable {f : CheckLoop P → CheckLoop P}

/-- What is done to a loop is done to its mirror image. -/
theorem Mirrors.modifyLoop (h : Mirrors K s t) (i : Nat) (hkey : ∀ l, (f l).key = l.key)
    (hf : ∀ l, (f l).only K = f (l.only K)) :
    Mirrors K (s.modifyLoop i f)
      ((lane? K s.keys i).elim t fun r => t.modifyLoop r f) := by
  cases hl : s.loops[i]? with
  | none =>
    have hsame : s.modifyLoop i f = s := by
      rw [Scheduler.modifyLoop, List.modify_eq_self (List.getElem?_eq_none_iff.mp hl)]
    rw [hsame, lane?_of_none hl]
    exact h
  | some l =>
    have hset : s.modifyLoop i f = { s with loops := s.loops.set i (f l) } := by
      rw [Scheduler.modifyLoop, List.modify_eq_set_getElem?, hl]
      rfl
    rw [hset]
    by_cases hk : l.key = K
    · obtain ⟨r, hr, hl'⟩ := h.getElem? hl hk
      have hset' : t.modifyLoop r f = { t with loops := t.loops.set r ((f l).only K) } := by
        rw [Scheduler.modifyLoop, List.modify_eq_set_getElem?, hl', hf]
        rfl
      rw [hr, Option.elim_some, hset']
      exact h.set_own hl hk (hkey l) hr
    · rw [lane?_of_ne hl hk, Option.elim_none]
      exact h.set_other hl hk (hkey l)

/-- A change that leaves a loop its key leaves all keys. -/
theorem keys_modifyLoop (s : Scheduler P) (i : Nat) (hkey : ∀ l, (f l).key = l.key) :
    (s.modifyLoop i f).keys = s.keys := by
  refine List.ext_getElem? fun j => ?_
  rw [getElem?_keys, getElem?_keys, Scheduler.modifyLoop, List.getElem?_modify]
  cases s.loops[j]? with
  | none => rfl
  | some l =>
    by_cases hij : i = j
    · simp [hij, hkey]
    · simp [hij]

end Change

/-- Loops are told to stop where their mirror images are. -/
theorem Mirrors.tell (h : Mirrors K s t) (is : List Nat) :
    Mirrors K (s.tell is) (t.tell (is.filterMap (lane? K s.keys))) := by
  induction is generalizing s t with
  | nil => exact h
  | cons i is ih =>
    have hkeys : (s.modifyLoop i CheckLoop.signal).keys = s.keys :=
      s.keys_modifyLoop (f := CheckLoop.signal) i fun _ => rfl
    have hsignalled := h.modifyLoop (f := CheckLoop.signal) i (fun _ => rfl)
      (CheckLoop.only_signal K)
    have hnext := ih hsignalled
    rw [hkeys] at hnext
    rw [List.filterMap_cons]
    cases hr : lane? K s.keys i with
    | none =>
      rw [hr] at hnext
      exact hnext
    | some r =>
      rw [hr] at hnext
      exact hnext

/-! ### Serving keys -/

theorem keys_serve (s : Scheduler P) (key : String) (l : CheckLoop P) :
    (s.serve key l).keys = s.keys ++ [l.key] := by
  rw [keys, serve, List.map_append, List.map_singleton, keys]

/-- When the key gets a new loop, so it does in the mirror. -/
theorem Mirrors.serve_own (h : Mirrors K s t) (hk : l.key = K) :
    Mirrors K (s.serve K l) (t.serve K (l.only K)) := by
  have hlength : s.keys.length = s.loops.length := List.length_map ..
  have hnew : (s.serve K l).loops[s.loops.length]? = some l := List.getElem?_concat_length ..
  refine ⟨h.now, h.defaults, h.lifecycle, h.pending, ?_, ?_, ?_⟩
  · rw [serve, serve, h.loops, List.filterMap_append, List.filterMap_cons,
      CheckLoop.only?_of_key hk]
    rfl
  · intro i hi
    rw [serve, Dictionary.get?_insert, if_pos rfl] at hi
    obtain rfl := Option.some.inj hi
    rw [getElem?_keys, hnew, Option.map_some, hk]
  · intro key
    have hrank : Sieve.rank (CheckLoop.only? K) (s.serve K l).loops s.loops.length =
        t.loops.length := by
      rw [h.loops, ← Sieve.rank_length, serve, Sieve.rank, Sieve.rank,
        List.take_append_of_le_length (Nat.le_refl _)]
    have hlane := lane?_of_key hnew hk
    rw [hrank] at hlane
    simp only [serve, Dictionary.get?_insert, if_true, Option.bind_some]
    split
    next => exact hlane.symm
    next hkey => rw [h.slots, if_neg hkey]

/-- When another key gets a new loop, the mirror stays as it is. -/
theorem Mirrors.serve_other (h : Mirrors K s t) {key : String} (hne : key ≠ K) (hk : l.key ≠ K) :
    Mirrors K (s.serve key l) t := by
  have hslot : (s.serve key l).slots.get? K = s.slots.get? K := by
    rw [serve, Dictionary.get?_insert, if_neg (Ne.symm hne)]
  have hin (i : Nat) (hi : s.slots.get? K = some i) : i < s.keys.length :=
    (List.getElem?_eq_some_iff.mp (h.served i hi)).1
  refine ⟨h.now, h.defaults, h.lifecycle, h.pending, ?_, ?_, ?_⟩
  · rw [serve, h.loops, List.filterMap_append, List.filterMap_cons, CheckLoop.only?_of_ne hk]
    exact (List.append_nil _).symm
  · intro i hi
    rw [hslot] at hi
    rw [keys_serve, List.getElem?_append_left (hin i hi), h.served i hi]
  · intro k
    rw [h.slots, hslot, keys_serve]
    split
    next =>
      cases hi : s.slots.get? K with
      | none => rfl
      | some i => exact (lane?_append (hin i hi) _).symm
    next => rfl

/-- Of loops that are served one after another the mirror serves those of the key. -/
theorem Mirrors.serveAll (h : Mirrors K s t) {es : List (String × CheckLoop P)}
    (hkeys : ∀ e ∈ es, e.2.key = e.1) :
    Mirrors K (s.serveAll es)
      (t.serveAll ((es.filter fun e => e.1 = K).map fun e => (e.1, e.2.only K))) := by
  induction es generalizing s t with
  | nil => exact h
  | cons e es ih =>
    obtain ⟨key, l⟩ := e
    obtain ⟨hkey, hkeys⟩ := List.forall_mem_cons.mp hkeys
    have hkey : l.key = key := hkey
    by_cases hk : key = K
    · subst hk
      rw [List.filter_cons_of_pos (by simp)]
      exact ih (h.serve_own hkey) hkeys
    · rw [List.filter_cons_of_neg (by simpa using hk)]
      exact ih (h.serve_other hk (by rwa [hkey])) hkeys

/-- A key that is given up. -/
theorem Mirrors.erase (h : Mirrors K s t) (key : String) :
    Mirrors K { s with slots := s.slots.erase key }
      (if key = K then { t with slots := t.slots.erase key } else t) := by
  by_cases hk : key = K
  · subst hk
    rw [if_pos rfl]
    refine ⟨h.now, h.defaults, h.lifecycle, h.pending, h.loops, ?_, ?_⟩
    · intro i hi
      rw [Dictionary.get?_erase, if_pos rfl] at hi
      cases hi
    · intro k
      rw [Dictionary.get?_erase, Dictionary.get?_erase, if_pos rfl, h.slots]
      split
      next => rfl
      next => rfl
  · have hslot : (s.slots.erase key).get? K = s.slots.get? K := by
      rw [Dictionary.get?_erase, if_neg (Ne.symm hk)]
    rw [if_neg hk]
    refine ⟨h.now, h.defaults, h.lifecycle, h.pending, h.loops, ?_, ?_⟩
    · intro i hi
      exact h.served i (hslot ▸ hi)
    · intro k
      rw [h.slots]
      exact if_congr Iff.rfl (congrArg (Option.bind · _) hslot.symm) rfl

/-! ### What is served -/

/-- The mirror serves nothing but the key. -/
theorem Mirrors.entries (h : Mirrors K s t) :
    t.slots.entries = (((s.slots.get? K).bind (lane? K s.keys)).map (Prod.mk K)).toList := by
  have hall : t.slots.entries.filter (fun e => e.1 = K) = t.slots.entries := by
    rw [List.filter_eq_self]
    rintro ⟨key, r⟩ he
    have hget := Dictionary.mem_entries_iff.mp he
    rw [h.slots] at hget
    split at hget
    next hk => exact decide_eq_true hk
    next => cases hget
  rw [← hall, Dictionary.filter_entries, h.slots, if_pos rfl]

/-- The mirror has the loop that serves the key in service, and no other. -/
theorem Mirrors.serving (h : Mirrors K s t) (hs : s.Keyed) :
    t.serving = s.serving.filterMap (lane? K s.keys) := by
  have hlanes : s.serving.filterMap (lane? K s.keys) =
      (s.slots.entries.filter fun e => e.1 = K).filterMap fun e => lane? K s.keys e.2 := by
    rw [Scheduler.serving, List.filterMap_map, List.filterMap_filter]
    refine List.filterMap_congr ?_
    rintro ⟨key, i⟩ he
    have hkey := hs.getElem?_keys (Dictionary.mem_entries_iff.mp he)
    split
    next => rfl
    next hk =>
      refine if_neg ?_
      rw [hkey, Option.some_inj]
      exact fun heq => hk (decide_eq_true heq)
  rw [hlanes, Dictionary.filter_entries, Scheduler.serving, h.entries]
  cases s.slots.get? K with
  | none => rfl
  | some i => cases hr : lane? K s.keys i <;> simp [hr]

/-- The loops in service, by key. -/
theorem Mirrors.inService (h : Mirrors K s t) :
    t.inService = (s.inService.filter fun e => e.1 = K).map fun e => (e.1, e.2.only K) := by
  have hfilter : s.inService.filter (fun e => e.1 = K) =
      (s.slots.entries.filter fun e => e.1 = K).filterMap fun e =>
        s.loops[e.2]?.map fun l => (e.1, l) := by
    rw [Scheduler.inService, List.filter_filterMap, List.filterMap_filter]
    refine List.filterMap_congr ?_
    rintro ⟨key, i⟩ -
    cases s.loops[i]? with
    | none => simp
    | some l => by_cases hk : key = K <;> simp [hk]
  rw [hfilter, Dictionary.filter_entries, Scheduler.inService, h.entries]
  cases hi : s.slots.get? K with
  | none => rfl
  | some i =>
    have hkey := h.served i hi
    rw [getElem?_keys] at hkey
    obtain ⟨l, hl, hk⟩ := Option.map_eq_some_iff.mp hkey
    obtain ⟨r, hr, hl'⟩ := h.getElem? hl hk
    simp [hr, hl, hl']

end Scheduler

end HealthMonitor
