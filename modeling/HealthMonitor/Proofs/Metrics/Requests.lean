import HealthMonitor.Proofs.Metrics.Locality
import HealthMonitor.Proofs.Metrics.Vouched

/-!
# Requests to an exporter

Whoever holds an exporter can set the health of an endpoint, add a latency, set a category or a
detail, and delete what there is of the endpoint. A `Request` is one of these operations on an
endpoint of a dependency. It comes to some touches at the label values of the endpoint
(`Exporter.perform_eq`), so what some requests leave is known from the requests at each label values
by themselves (`Exporter.performAll_congr`).

Both main results follow. Writers of different endpoints do not see each other
(`Exporter.performAll_interleaved`). Deleting an endpoint is as if nothing had ever been asked about
it (`Exporter.delete_forgets`); the other half of that is that deleting leaves nothing, whatever
details the endpoint went through, since the table of details always leads to the series of the last
(`Exporter.Rooted`).

Two label values of one key share a series, so both are about requests that the exporter tells
apart: no two of the series in play (`Exporter.inPlay`) have the same key.
-/

namespace HealthMonitor

namespace Exporter

/-- What can be done about an endpoint. -/
inductive Operation where
  | setHealth (healthy : Bool)
  | observeLatency (span : Span)
  | setStatus (category : Category)
  | setDetail (text : String)
  | delete
  deriving DecidableEq, Repr

end Exporter

/-- A request to an exporter about an endpoint of a dependency. -/
structure Request where
  dependency : Dependency
  endpoint : Endpoint
  operation : Exporter.Operation
  deriving DecidableEq, Repr

namespace Exporter

/-- Carries out a request, unless the family of latencies refuses it. -/
def perform? (x : Exporter) (r : Request) : Option Exporter :=
  match r.operation with
  | .setHealth healthy => some (x.setHealth r.dependency r.endpoint healthy)
  | .observeLatency span => x.observeLatency? r.dependency r.endpoint span
  | .setStatus category => some (x.setStatus r.dependency r.endpoint category)
  | .setDetail text => some (x.setDetail r.dependency r.endpoint text)
  | .delete => some (x.delete r.dependency r.endpoint)

/-- The exporter after a request. One that is refused changes nothing. -/
def perform (x : Exporter) (r : Request) : Exporter :=
  (x.perform? r).getD x

/-- The exporter after some requests, in order. -/
def performAll (x : Exporter) (rs : List Request) : Exporter :=
  rs.foldl perform x

/-- The exporter after some requests, unless one of them is refused. -/
def performAll? (x : Exporter) (rs : List Request) : Option Exporter :=
  rs.foldlM perform? x

/-- The label values that a request is about. -/
def labelsOf (x : Exporter) (r : Request) : LabelValues :=
  x.labelValues r.dependency r.endpoint

theorem performAll_append (x : Exporter) (rs ss : List Request) :
    x.performAll (rs ++ ss) = (x.performAll rs).performAll ss :=
  List.foldl_append

/-! ### Requests are touches -/

/-- The changes that an operation comes to, by whether latencies are kept and by the detail that is
remembered. -/
def Operation.changes (usable : Bool) (before : Option String) : Operation → List Change
  | .setHealth healthy => [.health healthy]
  | .observeLatency span => if usable then [.latency span] else []
  | .setStatus category => [.status category]
  | .setDetail text => [.detail text]
  | .delete => (removals ++ (before.map Removal.detail).toList).map Change.cleared

/-- What a request does to an exporter. No loop is behind it. -/
def touchesOf (x : Exporter) (r : Request) : List Touch :=
  (r.operation.changes x.latencyUsable (x.details.get? (x.labelsOf r))).map
    (Touch.mk 0 (x.labelsOf r))

theorem labels_of_mem_touchesOf {x : Exporter} {r : Request} {t : Touch} (h : t ∈ x.touchesOf r) :
    t.labels = x.labelsOf r := by
  obtain ⟨c, -, rfl⟩ := List.mem_map.mp h
  rfl

/-- A latency is added if the family of latencies can hold it. -/
theorem perform_observeLatency (x : Exporter) (d : Dependency) (e : Endpoint) (span : Span) :
    x.perform ⟨d, e, .observeLatency span⟩ =
      if x.latencyUsable then x.apply (x.labelValues d e) (.latency span) else x := by
  change (x.observeLatency? d e span).getD x = _
  rw [observeLatency?_eq]
  split
  next => rfl
  next => rfl

/-- **A request is its touches**: carrying it out is to replay them. -/
theorem perform_eq (x : Exporter) (r : Request) : x.perform r = x.replay (x.touchesOf r) := by
  obtain ⟨d, e, operation⟩ := r
  cases operation with
  | setHealth | setStatus | setDetail => rfl
  | observeLatency span =>
    rw [perform_observeLatency, touchesOf, Operation.changes]
    split
    next => rfl
    next => rfl
  | delete =>
    change x.delete d e = _
    simp only [delete, touchesOf, Operation.changes, remainder, replay, List.foldl_map]
    rfl

/-- So they take a request to be about the same label values. -/
theorem labelsOf_congr {x y : Exporter} (hname : x.name = y.name)
    (hlabels : x.extraLabels = y.extraLabels) : x.labelsOf = y.labelsOf := by
  funext r
  rw [labelsOf, labelsOf, labelValues_congr hname hlabels]

/-- Requests leave the name and the custom labels of an exporter alone. -/
theorem performAll_names (x : Exporter) (rs : List Request) :
    (x.performAll rs).name = x.name ∧ (x.performAll rs).extraLabels = x.extraLabels := by
  induction rs using List.reverseRecOn with
  | nil => exact ⟨rfl, rfl⟩
  | append_singleton rs r ih =>
    have hreplay := (x.performAll rs).replay_names ((x.performAll rs).touchesOf r)
    rw [← perform_eq] at hreplay
    rw [performAll_append]
    exact ⟨hreplay.1.trans ih.1, hreplay.2.trans ih.2⟩

theorem labelsOf_performAll (x : Exporter) (rs : List Request) :
    (x.performAll rs).labelsOf = x.labelsOf :=
  labelsOf_congr (x.performAll_names rs).1 (x.performAll_names rs).2

/-! ### Series in play -/

/-- The series that a request writes to or takes away, apart from that of a remembered detail. -/
def reachedBy (x : Exporter) (r : Request) : List (Site × LabelValues) :=
  (r.operation.changes true none).flatMap fun c => Touch.reached ⟨0, x.labelsOf r, c⟩

/-- The series in play while an exporter carries out some requests. -/
def inPlay (x : Exporter) (rs : List Request) : List (Site × LabelValues) :=
  x.present ++ rs.flatMap x.reachedBy

variable {x y : Exporter} {ps : List (Site × LabelValues)} {v : LabelValues} {r : Request}
  {rs ss : List Request}

theorem within_inPlay (x : Exporter) (rs : List Request) : x.Within (x.inPlay rs) :=
  x.within_present.mono (List.subset_append_left ..)

theorem mem_inPlay (hr : r ∈ rs) : ∀ p ∈ x.reachedBy r, p ∈ x.inPlay rs := by
  intro p hp
  exact List.mem_append_right _ (List.mem_flatMap.mpr ⟨r, hr, hp⟩)

/-- An operation knows its changes beforehand, but for the clearing of a remembered detail. -/
theorem mem_changes {usable : Bool} {before : Option String} {operation : Operation} {c : Change}
    (h : c ∈ operation.changes usable before) :
    c ∈ operation.changes true none ∨ ∃ text, before = some text ∧ c = .cleared (.detail text) := by
  cases operation with
  | setHealth | setStatus | setDetail => exact Or.inl h
  | observeLatency span =>
    cases usable with
    | true => exact Or.inl h
    | false => cases h
  | delete =>
    obtain ⟨place, hplace, rfl⟩ := List.mem_map.mp h
    rcases List.mem_append.mp hplace with hplace | hplace
    · exact Or.inl (List.mem_map.mpr ⟨place, List.mem_append_left _ hplace, rfl⟩)
    · obtain ⟨text, htext, rfl⟩ := Option.map_eq_some_iff.mp (Option.mem_toList.mp hplace)
      exact Or.inr ⟨text, htext, rfl⟩

/-- The touches of a request reach listed series only: the one that they do not know beforehand,
that of a remembered detail, is there already. -/
theorem Within.reached (h : x.Within ps) (hr : ∀ p ∈ x.reachedBy r, p ∈ ps) :
    ∀ t ∈ x.touchesOf r, ∀ p ∈ t.reached, p ∈ ps := by
  intro t ht p hp
  obtain ⟨c, hc, rfl⟩ := List.mem_map.mp ht
  rcases mem_changes hc with hc | ⟨text, htext, rfl⟩
  · exact hr p (List.mem_flatMap.mpr ⟨c, hc, hp⟩)
  · rw [List.mem_singleton.mp hp]
    exact h.remembered _ _ htext

theorem Within.perform (h : x.Within ps) (hr : ∀ p ∈ x.reachedBy r, p ∈ ps) :
    (x.perform r).Within ps := by
  rw [perform_eq]
  exact h.replay (h.reached hr)

/-- What requests reach depends on the name and the custom labels of the exporter. -/
theorem reachedBy_congr (h : x.labelsOf = y.labelsOf) : x.reachedBy = y.reachedBy := by
  funext r
  rw [reachedBy, reachedBy, h]

/-- Requests one after another lead to listed series only. -/
theorem Within.performAll (h : x.Within ps) (hrs : ∀ r ∈ rs, ∀ p ∈ x.reachedBy r, p ∈ ps) :
    (x.performAll rs).Within ps := by
  induction rs using List.reverseRecOn with
  | nil => exact h
  | append_singleton rs r ih =>
    have hbefore := ih fun s hs => hrs s (List.mem_append_left _ hs)
    rw [performAll_append]
    refine hbefore.perform ?_
    rw [reachedBy_congr (x.labelsOf_performAll rs)]
    exact hrs r (by simp)

/-! ### Requests by label values -/

/-- Exporters with the same at some label values take a request to be about the same ones. -/
theorem SameAt.labelsOf_eq (h : SameAt v x y) : x.labelsOf = y.labelsOf :=
  labelsOf_congr h.name h.extraLabels

/-- A request elsewhere keeps what there is of some label values. -/
theorem sameAt_perform_of_ne (hx : x.Within ps) (apart : StandsOut v ps)
    (hr : ∀ p ∈ x.reachedBy r, p ∈ ps) (hne : x.labelsOf r ≠ v) : SameAt v (x.perform r) x := by
  have hnone : (x.touchesOf r).filter (fun t => t.labels = v) = [] := by
    rw [List.filter_eq_nil_iff]
    intro t ht
    rwa [labels_of_mem_touchesOf ht, decide_eq_true_eq]
  have hreplay := (SameAt.refl v x).replay hx hx apart (hx.reached hr)
  rw [hnone] at hreplay
  rw [perform_eq]
  exact hreplay

/-- A request makes the same of what is the same. -/
theorem SameAt.perform (h : SameAt v x y) (hx : x.Within ps) (hy : y.Within ps)
    (apart : StandsOut v ps) (hr : ∀ p ∈ x.reachedBy r, p ∈ ps) :
    SameAt v (x.perform r) (y.perform r) := by
  have hr' : ∀ p ∈ y.reachedBy r, p ∈ ps := by rwa [← reachedBy_congr h.labelsOf_eq]
  by_cases hv : x.labelsOf r = v
  · have htouches : x.touchesOf r = y.touchesOf r := by
      have hdetail := h.detail
      rw [← hv] at hdetail
      rw [touchesOf, touchesOf, latencyUsable, latencyUsable, ← h.labelsOf_eq, h.extraLabels,
        hdetail]
    have hall : (x.touchesOf r).filter (fun t => t.labels = v) = x.touchesOf r := by
      rw [List.filter_eq_self]
      intro t ht
      rwa [labels_of_mem_touchesOf ht, decide_eq_true_eq]
    have hreplay := h.replay hx hy apart (hx.reached hr)
    rw [hall] at hreplay
    rw [perform_eq, perform_eq, ← htouches]
    exact hreplay
  · have hleft := sameAt_perform_of_ne hx apart hr hv
    have hright := sameAt_perform_of_ne hy apart hr' (by rwa [← h.labelsOf_eq])
    exact (hleft.trans h).trans hright.symm

/-- **Only the requests at some label values** matter to them. -/
theorem SameAt.performAll (h : SameAt v x y) (hx : x.Within ps) (hy : y.Within ps)
    (apart : StandsOut v ps) (hrs : ∀ r ∈ rs, ∀ p ∈ x.reachedBy r, p ∈ ps) :
    SameAt v (x.performAll rs) (y.performAll (rs.filter fun r => x.labelsOf r = v)) := by
  induction rs using List.reverseRecOn with
  | nil => exact h
  | append_singleton rs r ih =>
    have hbefore : ∀ s ∈ rs, ∀ p ∈ x.reachedBy s, p ∈ ps :=
      fun s hs => hrs s (List.mem_append_left _ hs)
    have hsame := ih hbefore
    have hwithin := hx.performAll hbefore
    have hwithin' : (y.performAll (rs.filter fun r => x.labelsOf r = v)).Within ps := by
      refine hy.performAll ?_
      intro s hs
      rw [← reachedBy_congr h.labelsOf_eq]
      exact hbefore s (List.mem_filter.mp hs).1
    have hr : ∀ p ∈ (x.performAll rs).reachedBy r, p ∈ ps := by
      rw [reachedBy_congr (x.labelsOf_performAll rs)]
      exact hrs r (by simp)
    rw [performAll_append, List.filter_append, performAll_append]
    by_cases hv : x.labelsOf r = v
    · rw [List.filter_cons_of_pos (by simpa using hv)]
      exact hsame.perform hwithin hwithin' apart hr
    · rw [List.filter_cons_of_neg (by simpa using hv)]
      have hne : (x.performAll rs).labelsOf r ≠ v := by rwa [labelsOf_performAll]
      exact (sameAt_perform_of_ne hwithin apart hr hne).trans hsame

/-- Requests with the same at some label values, in order, leave the same of them. -/
theorem sameAt_of_filter_eq (hx : x.Within ps) (apart : StandsOut v ps)
    (hrs : ∀ r ∈ rs, ∀ p ∈ x.reachedBy r, p ∈ ps) (hss : ∀ r ∈ ss, ∀ p ∈ x.reachedBy r, p ∈ ps)
    (h : rs.filter (fun r => x.labelsOf r = v) = ss.filter fun r => x.labelsOf r = v) :
    SameAt v (x.performAll rs) (x.performAll ss) := by
  have hleft := (SameAt.refl v x).performAll hx hx apart hrs
  have hright := (SameAt.refl v x).performAll hx hx apart hss
  rw [h] at hleft
  exact hleft.trans hright.symm

/-- **What requests leave** depends on the order at each label values only. -/
theorem performAll_congr (hx : x.Within ps) (apart : TellsApart ps)
    (hrs : ∀ r ∈ rs, ∀ p ∈ x.reachedBy r, p ∈ ps) (hss : ∀ r ∈ ss, ∀ p ∈ x.reachedBy r, p ∈ ps)
    (h : ∀ v, rs.filter (fun r => x.labelsOf r = v) = ss.filter fun r => x.labelsOf r = v) :
    x.performAll rs = x.performAll ss :=
  eq_of_sameAt fun v => sameAt_of_filter_eq hx (apart.standsOut v) hrs hss (h v)

end Exporter

/-! ### Writers side by side -/

/-- A list is made of two others, each of which keeps its order. -/
inductive Interleaving {α : Type} : List α → List α → List α → Prop where
  | nil : Interleaving [] [] []
  | left {x : α} {xs ys zs : List α} : Interleaving xs ys zs → Interleaving (x :: xs) ys (x :: zs)
  | right {y : α} {xs ys zs : List α} : Interleaving xs ys zs → Interleaving xs (y :: ys) (y :: zs)

namespace Interleaving

variable {α : Type} {xs ys zs : List α}

theorem mem_iff (h : Interleaving xs ys zs) {a : α} : a ∈ zs ↔ a ∈ xs ∨ a ∈ ys := by
  induction h with
  | nil => simp
  | left _ ih => rw [List.mem_cons, List.mem_cons, ih, or_assoc]
  | right _ ih => rw [List.mem_cons, List.mem_cons, ih, or_left_comm]

/-- What a filter leaves of two lists is interleaved in the same way. -/
theorem filter (h : Interleaving xs ys zs) (p : α → Bool) :
    Interleaving (xs.filter p) (ys.filter p) (zs.filter p) := by
  induction h with
  | nil => exact nil
  | left _ ih =>
    rw [List.filter_cons, List.filter_cons]
    split
    · exact ih.left
    · exact ih
  | right _ ih =>
    rw [List.filter_cons, List.filter_cons]
    split
    · exact ih.right
    · exact ih

theorem eq_of_nil_left (h : Interleaving [] ys zs) : zs = ys := by
  induction ys generalizing zs with
  | nil =>
    cases h
    rfl
  | cons y ys ih =>
    cases h with
    | right h => rw [ih h]

theorem eq_of_nil_right (h : Interleaving xs [] zs) : zs = xs := by
  induction xs generalizing zs with
  | nil =>
    cases h
    rfl
  | cons x xs ih =>
    cases h with
    | left h => rw [ih h]

end Interleaving

namespace Exporter

/-- **Writers of different endpoints do not see each other**: however their requests are
interleaved, they leave what those of one writer after those of the other leave. -/
theorem performAll_interleaved {x : Exporter} {xs ys zs : List Request}
    (h : Interleaving xs ys zs) (differ : ∀ r ∈ xs, ∀ s ∈ ys, x.labelsOf r ≠ x.labelsOf s)
    (apart : TellsApart (x.inPlay (xs ++ ys))) :
    x.performAll zs = (x.performAll xs).performAll ys ∧
      x.performAll zs = (x.performAll ys).performAll xs := by
  have hplay : ∀ r ∈ xs ++ ys, ∀ p ∈ x.reachedBy r, p ∈ x.inPlay (xs ++ ys) :=
    fun r hr => mem_inPlay hr
  have hzs : ∀ r ∈ zs, ∀ p ∈ x.reachedBy r, p ∈ x.inPlay (xs ++ ys) :=
    fun r hr => mem_inPlay (List.mem_append.mpr (h.mem_iff.mp hr))
  -- at any label values at most one of the writers has something to ask
  have hone (v : LabelValues) : zs.filter (fun r => x.labelsOf r = v) =
        xs.filter (fun r => x.labelsOf r = v) ∧ ys.filter (fun r => x.labelsOf r = v) = [] ∨
      zs.filter (fun r => x.labelsOf r = v) = ys.filter (fun r => x.labelsOf r = v) ∧
        xs.filter (fun r => x.labelsOf r = v) = [] := by
    have hfilter := h.filter fun r => decide (x.labelsOf r = v)
    cases hxs : xs.filter fun r => x.labelsOf r = v with
    | nil =>
      rw [hxs] at hfilter
      exact Or.inr ⟨hfilter.eq_of_nil_left, rfl⟩
    | cons r rest =>
      obtain ⟨hr, hv⟩ := List.mem_filter.mp (hxs ▸ List.mem_cons_self)
      have hys : ys.filter (fun r => x.labelsOf r = v) = [] := by
        rw [List.filter_eq_nil_iff]
        intro s hs heq
        exact differ r hr s hs ((of_decide_eq_true hv).trans (of_decide_eq_true heq).symm)
      rw [hys] at hfilter
      exact Or.inl ⟨hfilter.eq_of_nil_right.trans hxs, hys⟩
  rw [← performAll_append, ← performAll_append]
  constructor
  · refine performAll_congr (x.within_inPlay _) apart hzs hplay ?_
    intro v
    rw [List.filter_append]
    rcases hone v with ⟨heq, hnil⟩ | ⟨heq, hnil⟩
    · rw [heq, hnil, List.append_nil]
    · rw [heq, hnil, List.nil_append]
  · refine performAll_congr (x.within_inPlay _) apart hzs ?_ ?_
    · intro r hr
      exact hplay r (List.mem_append.mpr (List.mem_append.mp hr).symm)
    · intro v
      rw [List.filter_append]
      rcases hone v with ⟨heq, hnil⟩ | ⟨heq, hnil⟩
      · rw [heq, hnil, List.nil_append]
      · rw [heq, hnil, List.append_nil]

/-- A database with a replica. -/
def replicated : Dependency where
  name := "db"
  kind := .postgres
  critical := some true
  endpoints := [Endpoint.plain "primary" 5432, Endpoint.plain "replica" 5432]
  plan := CheckPlan.standard

/-- A request about the primary of the database. -/
def onPrimary : Operation → Request :=
  Request.mk replicated (Endpoint.plain "primary" 5432)

/-- A request about the replica of the database. -/
def onReplica : Operation → Request :=
  Request.mk replicated (Endpoint.plain "replica" 5432)

/-- The primary is deleted while the replica changes its detail. -/
theorem primary_apart_from_replica :
    let x := (fresh "app" []).performAll [onPrimary (.setDetail "ok"), onReplica (.setDetail "ok")]
    x.performAll [onReplica (.setHealth false), onPrimary .delete,
        onReplica (.setDetail "timeout")] =
      (x.performAll [onPrimary .delete]).performAll
        [onReplica (.setHealth false), onReplica (.setDetail "timeout")] :=
  (performAll_interleaved (.right (.left (.right .nil))) (by decide +kernel)
    (by decide +kernel)).1

/-! ### Deleting -/

variable {x : Exporter} {v : LabelValues}

/-- Every series of a category or a detail belongs to label values, and the table of details leads
to the latter. -/
def Rooted (x : Exporter) : Prop :=
  x.Vouched fun place _ => place ∈ removals

/-- Clearing the next of some places that are cleared in turn. -/
private theorem Vouched.clear_next {answered : Removal → LabelValues → Prop} {place : Removal}
    {rest : List Removal}
    (h : x.Vouched fun p w => answered p w ∨ w = v ∧ p ∈ place :: rest)
    (found : ∀ p ∈ x.remainder v place, p ∈ rest) :
    (x.clear v place).Vouched fun p w => answered p w ∨ w = v ∧ p ∈ rest := by
  refine h.clear ?_ ?_
  · intro p w hp hne
    rcases hp with hp | ⟨hw, hp⟩
    · exact Or.inl hp
    · rcases List.mem_cons.mp hp with hplace | hp
      · exact absurd hw (hne hplace)
      · exact Or.inr ⟨hw, hp⟩
  · intro p hp
    exact Or.inr ⟨rfl, found p hp⟩

/-- After deleting, nothing at the label values has to be answered for. -/
theorem Rooted.delete (h : x.Rooted) (d : Dependency) (e : Endpoint) :
    (x.delete d e).Vouched fun place w => place ∈ removals ∧ w ≠ x.labelValues d e := by
  let v := x.labelValues d e
  let left := ((x.details.get? v).map Removal.detail).toList
  have hstart : x.Vouched fun p w => (p ∈ removals ∧ w ≠ v) ∨
      w = v ∧ p ∈ [.health, .latency, .status, .memory] ++ left := by
    refine h.imp fun p w hp => ?_
    by_cases hw : w = v
    · exact Or.inr ⟨hw, List.mem_append_left _ hp⟩
    · exact Or.inl ⟨hp, hw⟩
  have hhealth := hstart.clear_next fun _ hp => absurd hp List.not_mem_nil
  have hlatency := hhealth.clear_next fun _ hp => absurd hp List.not_mem_nil
  have hstatus := hlatency.clear_next fun _ hp => absurd hp List.not_mem_nil
  -- what the table leads to is looked up before anything is cleared, and is the same now
  have hmemory := hstatus.clear_next fun _ hp => hp
  have hall : (x.delete d e).Vouched fun p w => (p ∈ removals ∧ w ≠ v) ∨ w = v ∧ p ∈ [] := by
    change (left.foldl (fun (x : Exporter) place => x.clear v place) _).Vouched _
    cases hget : x.details.get? v with
    | none =>
      have hleft : left = [] := by simp only [left, hget, Option.map_none, Option.toList_none]
      rw [hleft] at hmemory ⊢
      exact hmemory
    | some text =>
      have hleft : left = [.detail text] := by
        simp only [left, hget, Option.map_some, Option.toList_some]
      rw [hleft] at hmemory ⊢
      exact hmemory.clear_next fun _ hp => absurd hp List.not_mem_nil
  refine hall.imp fun p w hp => ?_
  rcases hp with hp | ⟨-, hp⟩
  · exact hp
  · cases hp

/-- Deleting an endpoint takes its entry out of the table of details. -/
theorem details_delete (x : Exporter) (d : Dependency) (e : Endpoint) :
    (x.delete d e).details = x.details.erase (x.labelValues d e) := by
  simp only [delete, remainder]
  cases x.details.get? (x.labelValues d e) with
  | none => rfl
  | some text => rfl

/-- A write keeps the table leading to every series of a detail. -/
private theorem Rooted.write (h : x.Rooted) (v : LabelValues) {c : Change}
    (hc : ∀ place, c ≠ .cleared place) : (x.apply v c).Rooted :=
  Vouched.write h (fun _ hplace => hplace) hc

/-- Every request keeps the table leading to the series of details. -/
theorem Rooted.perform (h : x.Rooted) (r : Request) : (x.perform r).Rooted := by
  obtain ⟨d, e, operation⟩ := r
  cases operation with
  | setHealth healthy => exact h.write (c := .health healthy) _ fun _ heq => by cases heq
  | setStatus category => exact h.write (c := .status category) _ fun _ heq => by cases heq
  | setDetail text => exact h.write (c := .detail text) _ fun _ heq => by cases heq
  | observeLatency span =>
    rw [perform_observeLatency]
    split
    next => exact h.write (c := .latency span) _ fun _ heq => by cases heq
    next => exact h
  | delete => exact (h.delete d e).imp fun _ _ hp => hp.1

/-- So no history of a new exporter leaves a series of a detail that the table does not lead to. -/
theorem rooted_performAll (name : String) (labels : List String) (rs : List Request) :
    ((fresh name labels).performAll rs).Rooted := by
  induction rs using List.reverseRecOn with
  | nil => exact vouched_fresh name labels
  | append_singleton rs r ih =>
    rw [performAll_append]
    exact ih.perform r

/-- Deleting leaves nothing of the label values. -/
theorem Rooted.sameAt_fresh (h : x.Rooted) (d : Dependency) (e : Endpoint) :
    SameAt (x.labelValues d e) (x.delete d e) (fresh x.name x.extraLabels) := by
  have hvouched := h.delete d e
  have hnames := x.replay_names (x.touchesOf ⟨d, e, .delete⟩)
  rw [← perform_eq] at hnames
  have hgone (site : Site) (w : LabelValues) (hw : site.owner w = x.labelValues d e) :
      w ∉ ((x.delete d e).family site).labels := by
    intro hmem
    cases site with
    | health => exact (hvouched.health w hmem).2 hw
    | latency => exact (hvouched.latency w hmem).2 hw
    | status =>
      obtain ⟨u, c, -, rfl, -, hne⟩ := hvouched.status w hmem
      exact hne ((LabelValues.base_extended u c.text).symm.trans hw)
    | detail =>
      obtain ⟨u, text, rfl, ⟨-, -, hne⟩ | ⟨-, hne⟩⟩ := hvouched.detail w hmem
      · exact hne ((LabelValues.base_extended u text).symm.trans hw)
      · exact hne ((LabelValues.base_extended u text).symm.trans hw)
  refine ⟨hnames.1, hnames.2, ?_, ?_⟩
  · intro site w hw
    have hnone : ((x.delete d e).family site).own? w = none := by
      rw [← Option.not_isSome_iff_eq_none, ← Family.mem_labels_iff_own?]
      exact hgone site w hw
    rw [hnone]
    cases site <;> rfl
  · rw [details_delete, Dictionary.get?_erase, if_pos rfl]
    rfl

/-- **Deleting is forgetting**: what is left of some requests when an endpoint is deleted is what
the requests about other label values leave. -/
theorem delete_forgets (name : String) (labels : List String) (history : List Request)
    (d : Dependency) (e : Endpoint)
    (apart : TellsApart ((fresh name labels).inPlay (history ++ [⟨d, e, .delete⟩]))) :
    ((fresh name labels).performAll history).delete d e =
      (fresh name labels).performAll
        (history.filter fun r =>
          (fresh name labels).labelsOf r ≠ (fresh name labels).labelValues d e) := by
  let x := fresh name labels
  let deletion : Request := ⟨d, e, .delete⟩
  let v := x.labelValues d e
  let ps := x.inPlay (history ++ [deletion])
  have hwithin : x.Within ps := x.within_inPlay _
  have hplay : ∀ r ∈ history ++ [deletion], ∀ p ∈ x.reachedBy r, p ∈ ps :=
    fun r hr => mem_inPlay hr
  have hothers : ∀ r ∈ history.filter (fun r => x.labelsOf r ≠ v), ∀ p ∈ x.reachedBy r, p ∈ ps :=
    fun r hr => hplay r (List.mem_append_left _ (List.mem_filter.mp hr).1)
  have hdelete : (x.performAll history).delete d e = x.performAll (history ++ [deletion]) := by
    rw [performAll_append]
    rfl
  have hdeleted : (x.performAll history).labelValues d e = v :=
    congrFun (x.labelsOf_performAll history) deletion
  refine eq_of_sameAt fun u => ?_
  by_cases hu : u = v
  · rw [hu]
    -- both sides have what a new exporter has
    have hgone := (rooted_performAll name labels history).sameAt_fresh d e
    have hfresh : fresh (x.performAll history).name (x.performAll history).extraLabels = x := by
      obtain ⟨hname, hlabels⟩ := x.performAll_names history
      rw [hname, hlabels]
      rfl
    have hnone : (history.filter fun r => x.labelsOf r ≠ v).filter (fun r => x.labelsOf r = v) =
        [] := by
      rw [List.filter_eq_nil_iff]
      intro r hr hv
      exact of_decide_eq_true (List.mem_filter.mp hr).2 (of_decide_eq_true hv)
    have hnothing := (SameAt.refl v x).performAll hwithin hwithin (apart.standsOut v) hothers
    rw [hnone] at hnothing
    rw [hfresh, hdeleted] at hgone
    exact hgone.trans hnothing.symm
  · rw [hdelete]
    refine sameAt_of_filter_eq hwithin (apart.standsOut u) hplay hothers ?_
    -- neither the deletion nor what it makes forgotten is at these label values
    have hdeletion : [deletion].filter (fun r => x.labelsOf r = u) = [] := by
      rw [List.filter_eq_nil_iff]
      intro r hr hv
      rw [List.mem_singleton.mp hr] at hv
      exact hu (of_decide_eq_true hv).symm
    rw [List.filter_append, hdeletion, List.append_nil, List.filter_filter]
    refine List.filter_congr ?_
    intro r _
    by_cases hr : x.labelsOf r = u
    · have hne : x.labelsOf r ≠ v := by rwa [hr]
      rw [decide_eq_true hne, Bool.and_true]
    · rw [decide_eq_false hr, Bool.false_and]

/-- A replica that has gone through two details is deleted. -/
theorem replica_forgotten :
    let history := [onPrimary (.setHealth true), onReplica (.setDetail "timeout"),
      onReplica (.setStatus .timeout), onPrimary (.setDetail "ok"),
      onReplica (.setDetail "refused")]
    ((fresh "app" []).performAll history).delete replicated (Endpoint.plain "replica" 5432) =
      (fresh "app" []).performAll [onPrimary (.setHealth true), onPrimary (.setDetail "ok")] :=
  delete_forgets "app" [] _ _ _ (by decide +kernel)

end Exporter

end HealthMonitor
