import HealthMonitor.Proofs.Metrics.Requests

/-!
# The series that an endpoint has now

An endpoint that has been given a detail has one series of the family of details, that of the last,
and one that has been given a category has eight of the family of categories, of which that of the
last is set. It has neither if it has not been given any since it was last deleted. So an exporter
`Displays` what is `current` of the requests at each label values.

The table of details always has the current detail (`details_performAll`). The families have the
current series as long as requests keep keys clear (`KeepsClear`): when one is done, no series that
there should be has the key of another that it has reached. `displays_iff_keepsClear` is that this
is needed and enough; label values that run together to one text break it (`detail_of_another`).
-/

namespace HealthMonitor

namespace Exporter

/-! ### What is current -/

def Operation.category? : Operation → Option Category
  | .setStatus category => some category
  | _ => none

def Operation.detail? : Operation → Option String
  | .setDetail text => some text
  | _ => none

/-- What has been asked at some label values since they were last deleted, the last first. -/
def since (x : Exporter) (v : LabelValues) (rs : List Request) : List Operation :=
  ((rs.filter fun r => x.labelsOf r = v).map Request.operation).reverse.takeWhile (· ≠ .delete)

/-- The last category that some label values have been given since they were last deleted. -/
def currentCategory (x : Exporter) (v : LabelValues) (rs : List Request) : Option Category :=
  (x.since v rs).findSome? Operation.category?

/-- The last detail that some label values have been given since they were last deleted. -/
def currentDetail (x : Exporter) (v : LabelValues) (rs : List Request) : Option String :=
  (x.since v rs).findSome? Operation.detail?

/-- What some requests have published of categories and details. -/
def current (x : Exporter) (rs : List Request) : Told := fun v =>
  ⟨0, x.currentCategory v rs, x.currentDetail v rs, none⟩

end Exporter

namespace Told

/-- What has been published when label values are deleted. -/
def without (told : Told) (v : LabelValues) : Told :=
  Function.update told v .nothing

/-- What has been published of categories and details after one more request at label values. -/
def following (told : Told) (v : LabelValues) : Exporter.Operation → Told
  | .setStatus category => told.after ⟨0, v, .status category⟩
  | .setDetail text => told.after ⟨0, v, .detail text⟩
  | .delete => told.without v
  | .setHealth _ | .observeLatency _ => told

@[simp] theorem without_self (told : Told) (v : LabelValues) : told.without v v = .nothing :=
  Function.update_self ..

theorem without_of_ne (told : Told) {u v : LabelValues} (h : u ≠ v) : told.without v u = told u :=
  Function.update_of_ne h ..

/-- For the series of details, to delete label values is to forget their detail. -/
theorem detail_without (told : Told) (v : LabelValues) :
    (told.without v).detail = (Exporter.forget told v).detail := by
  have hsame (u : LabelValues) : (told.without v u).detail = (Exporter.forget told v u).detail := by
    by_cases hu : u = v
    · subst hu
      simp [Exporter.forget, Published.nothing]
    · rw [without_of_ne told hu, Exporter.forget, Function.update_of_ne hu]
  funext w
  simp only [detail, hsame]

end Told

namespace Exporter

variable {x : Exporter} {told : Told} {v : LabelValues} {r : Request} {rs : List Request}

/-- A request elsewhere is not among what has been asked since. -/
theorem since_concat_of_ne (h : x.labelsOf r ≠ v) : x.since v (rs ++ [r]) = x.since v rs := by
  simp [since, h]

/-- A request is the latest of what has been asked since, unless it deletes. -/
theorem since_concat_self (x : Exporter) (rs : List Request) (r : Request) :
    x.since (x.labelsOf r) (rs ++ [r]) =
      if r.operation = .delete then [] else r.operation :: x.since (x.labelsOf r) rs := by
  by_cases h : r.operation = .delete <;> simp [since, h]

/-- **One more request** changes what is current at its label values only. -/
theorem current_concat (x : Exporter) (rs : List Request) (r : Request) :
    x.current (rs ++ [r]) = (x.current rs).following (x.labelsOf r) r.operation := by
  funext v
  by_cases hv : x.labelsOf r = v
  · subst hv
    rw [current, currentCategory, currentDetail, since_concat_self]
    obtain ⟨d, e, operation⟩ := r
    cases operation with
    | setStatus | setDetail =>
      rw [if_neg (by simp), Told.following, Told.after, Function.update_self]
      rfl
    | delete =>
      rw [if_pos rfl, Told.following, Told.without_self]
      rfl
    | setHealth | observeLatency =>
      rw [if_neg (by simp)]
      rfl
  · rw [current, currentCategory, currentDetail, since_concat_of_ne hv]
    obtain ⟨d, e, operation⟩ := r
    cases operation with
    | setStatus | setDetail =>
      rw [Told.following, Told.after, Function.update_of_ne (Ne.symm hv)]
      rfl
    | delete =>
      rw [Told.following, Told.without_of_ne _ (Ne.symm hv)]
      rfl
    | setHealth | observeLatency => rfl

/-- What one request keeps of an exporter and what is current, some requests lead to. -/
theorem performAll_current {motive : Exporter → Told → Prop} (x : Exporter)
    (start : motive x .nothing)
    (step : ∀ (y : Exporter) (told : Told) (r : Request), motive y told →
      motive (y.perform r) (told.following (y.labelsOf r) r.operation)) (rs : List Request) :
    motive (x.performAll rs) (x.current rs) := by
  induction rs using List.reverseRecOn with
  | nil => exact start
  | append_singleton rs r ih =>
    have hstep := step _ _ r ih
    rw [labelsOf_performAll, ← current_concat] at hstep
    rw [performAll_append]
    exact hstep

/-- What has been asked since is the operation of one of the requests. -/
theorem mem_of_since {operation : Operation} (h : operation ∈ x.since v rs) :
    ∃ r ∈ rs, x.labelsOf r = v ∧ r.operation = operation := by
  have hmem := List.takeWhile_subset _ h
  rw [List.mem_reverse, List.mem_map] at hmem
  obtain ⟨r, hr, heq⟩ := hmem
  exact ⟨r, (List.mem_filter.mp hr).1, by simpa using (List.mem_filter.mp hr).2, heq⟩

/-- A category that is current has been asked for. -/
theorem mem_of_currentCategory {category : Category}
    (h : x.currentCategory v rs = some category) :
    ∃ r ∈ rs, x.labelsOf r = v ∧ r.operation = .setStatus category := by
  obtain ⟨operation, hmem, hcategory⟩ := List.exists_of_findSome?_eq_some h
  obtain ⟨r, hr, hv, rfl⟩ := mem_of_since hmem
  refine ⟨r, hr, hv, ?_⟩
  cases hop : r.operation <;> simp_all [Operation.category?]

/-- A detail that is current has been asked for. -/
theorem mem_of_currentDetail {text : String} (h : x.currentDetail v rs = some text) :
    ∃ r ∈ rs, x.labelsOf r = v ∧ r.operation = .setDetail text := by
  obtain ⟨operation, hmem, htext⟩ := List.exists_of_findSome?_eq_some h
  obtain ⟨r, hr, hv, rfl⟩ := mem_of_since hmem
  refine ⟨r, hr, hv, ?_⟩
  cases hop : r.operation <;> simp_all [Operation.detail?]

/-! ### The table of details -/

/-- A request keeps the table of details at what is current. -/
theorem details_following (told : Told) (h : ∀ v, x.details.get? v = (told v).detail)
    (r : Request) (v : LabelValues) :
    (x.perform r).details.get? v = (told.following (x.labelsOf r) r.operation v).detail := by
  obtain ⟨d, e, operation⟩ := r
  cases operation with
  | setHealth => exact h v
  | setStatus category =>
    exact details_write h (t := ⟨0, x.labelValues d e, .status category⟩) nofun v
  | setDetail text =>
    exact details_write h (t := ⟨0, x.labelValues d e, .detail text⟩) nofun v
  | observeLatency span =>
    rw [perform_observeLatency]
    split
    next => exact h v
    next => exact h v
  | delete =>
    change (x.delete d e).details.get? v = (told.without (x.labelValues d e) v).detail
    rw [details_delete, Dictionary.get?_erase]
    by_cases hv : v = x.labelValues d e
    · rw [if_pos hv, hv, Told.without_self]
      rfl
    · rw [if_neg hv, h v, Told.without_of_ne _ hv]

/-- **The table of details has the current detail**, whatever the keys of series are. -/
theorem details_performAll (name : String) (labels : List String) (rs : List Request)
    (v : LabelValues) :
    ((fresh name labels).performAll rs).details.get? v =
      (fresh name labels).currentDetail v rs :=
  performAll_current (motive := fun x told => ∀ v, x.details.get? v = (told v).detail)
    (fresh name labels) (fun _ => rfl) (fun _ told r h => details_following told h r) rs v

/-! ### The families -/

/-- The families of categories and details have just the series that there should be. -/
structure Current (x : Exporter) (told : Told) : Prop where
  status : x.status.Holds id told.status
  detail : x.detail.Holds id told.detail

/-- Deleting an endpoint takes the eight series of categories away. -/
theorem status_delete (x : Exporter) (d : Dependency) (e : Endpoint) :
    (x.delete d e).status =
      (Category.all.map fun c => (x.labelValues d e).extended c.text).foldl Family.remove
        x.status := by
  simp only [delete, remainder, List.foldl_map]
  cases x.details.get? (x.labelValues d e) with
  | none => rfl
  | some text => rfl

/-- Deleting an endpoint takes away the series of the detail that the table has. -/
theorem detail_delete (x : Exporter) (d : Dependency) (e : Endpoint) :
    (x.delete d e).detail = (x.details.get? (x.labelValues d e)).elim x.detail
      fun text => x.detail.remove ((x.labelValues d e).extended text) := by
  simp only [delete, remainder]
  cases x.details.get? (x.labelValues d e) with
  | none => rfl
  | some text => rfl

/-- No series that there should be has the key of another that a request has reached. -/
def Clears (x : Exporter) (told : Told) (r : Request) : Prop :=
  ∀ p ∈ x.reachedBy r, ∀ w, told.wants w p.1 = true → w.key = p.2.key → w = p.2

/-- A deletion reaches the series of every category. -/
theorem mem_reachedBy_delete (d : Dependency) (e : Endpoint) {c : Category}
    (hc : c ∈ Category.all) :
    (.status, (x.labelValues d e).extended c.text) ∈ x.reachedBy ⟨d, e, .delete⟩ := by
  refine List.mem_flatMap.mpr ⟨.cleared .status, ?_, ?_⟩
  · simp [Operation.changes, removals]
  · exact List.mem_map.mpr ⟨c, hc, rfl⟩

/-- A write into a free place leaves the series of each family apart. -/
private theorem separate_after {t : Touch} (site : Site)
    (h : ∀ v w, told.wants v site = true → told.wants w site = true → v.key = w.key → v = w)
    (clears : ∀ p ∈ t.written, ∀ w, (told.after t).wants w p.1 = true → w.key = p.2.key → w = p.2)
    (v w : LabelValues) (hv : (told.after t).wants v site = true)
    (hw : (told.after t).wants w site = true) (hkey : v.key = w.key) : v = w := by
  -- a series that there should be is an old one or has been written to, and then its key is clear
  rcases Told.wants_after hv with hv' | hwritten
  · rcases Told.wants_after hw with hw' | hwritten
    · exact h v w hv' hw' hkey
    · exact clears _ hwritten v hv hkey
  · exact (clears _ hwritten w hw hkey.symm).symm

/-- Setting a category where the keys it writes to are clear leads to what is current then. -/
private theorem Current.setStatus (h : x.Current told) (v : LabelValues) (category : Category)
    (clears : ∀ p ∈ (Touch.mk 0 v (.status category)).written, ∀ w,
      (told.after ⟨0, v, .status category⟩).wants w p.1 = true → w.key = p.2.key → w = p.2) :
    (x.apply v (.status category)).Current (told.after ⟨0, v, .status category⟩) := by
  refine ⟨status_write h.status category ?_, ?_⟩
  · exact separate_after .status h.status.separate clears
  · rw [detail_after rfl]
    exact h.detail

/-- Setting a detail where the key it writes to is clear leads to what is current then. -/
private theorem Current.setDetail (h : x.Current told) (v : LabelValues) (text : String)
    (hdetails : x.details.get? v = (told v).detail)
    (clears : ∀ p ∈ (Touch.mk 0 v (.detail text)).written, ∀ w,
      (told.after ⟨0, v, .detail text⟩).wants w p.1 = true → w.key = p.2.key → w = p.2) :
    (x.apply v (.detail text)).Current (told.after ⟨0, v, .detail text⟩) := by
  refine ⟨?_, detail_write h.detail hdetails text ?_⟩
  · rw [status_after rfl]
    exact h.status
  · exact separate_after .detail h.detail.separate clears

/-- Deleting an endpoint whose keys are clear leads to what is current then. -/
private theorem Current.delete (h : x.Current told) (d : Dependency) (e : Endpoint)
    (hdetails : x.details.get? (x.labelValues d e) = (told (x.labelValues d e)).detail)
    (clears : x.Clears (told.without (x.labelValues d e)) ⟨d, e, .delete⟩) :
    (x.delete d e).Current (told.without (x.labelValues d e)) := by
  constructor
  · rw [status_delete]
    refine h.status.removeAll _ ?_ ?_
    · intro w hw
      refine status_congr (fun u hu => told.without_of_ne hu) fun c hc heq => ?_
      exact hw (List.mem_map.mpr ⟨c, hc, heq.symm⟩)
    · intro u hu w hw hkey
      obtain ⟨c, hc, rfl⟩ := List.mem_map.mp hu
      -- the one series that may have the key is not wanted any more
      rw [clears _ (mem_reachedBy_delete d e hc) w hw hkey] at hw
      simp [Told.status, Published.nothing] at hw
  · rw [detail_delete, Told.detail_without]
    cases hd : x.details.get? (x.labelValues d e) with
    | none =>
      have hforget : forget told (x.labelValues d e) = told := by
        rw [forget, ← hd, hdetails]
        exact Function.update_eq_self _ told
      rw [hforget]
      exact h.detail
    | some text => exact detail_remove h.detail (hdetails ▸ hd)

/-- **A request that clears the keys it reaches** keeps the families at what is current. -/
theorem Current.perform (h : x.Current told) (hdetails : ∀ v, x.details.get? v = (told v).detail)
    (hr : x.Clears (told.following (x.labelsOf r) r.operation) r) :
    (x.perform r).Current (told.following (x.labelsOf r) r.operation) := by
  obtain ⟨d, e, operation⟩ := r
  cases operation with
  | setHealth => exact ⟨h.status, h.detail⟩
  | observeLatency span =>
    rw [perform_observeLatency]
    split
    next => exact ⟨h.status, h.detail⟩
    next => exact h
  | setStatus category =>
    exact h.setStatus _ category fun p hp =>
      hr p (List.mem_flatMap.mpr ⟨.status category, List.mem_cons_self, hp⟩)
  | setDetail text =>
    exact h.setDetail _ text (hdetails _) fun p hp =>
      hr p (List.mem_flatMap.mpr ⟨.detail text, List.mem_cons_self, hp⟩)
  | delete => exact h.delete d e (hdetails _) hr

/-- When each of some requests is done, the keys that it has reached are clear. -/
def KeepsClear (x : Exporter) (rs : List Request) : Prop :=
  ∀ h r, h ++ [r] <+: rs → x.Clears (x.current (h ++ [r])) r

theorem KeepsClear.mono {ss : List Request} (h : x.KeepsClear ss) (hrs : rs <+: ss) :
    x.KeepsClear rs :=
  fun past r hpast => h past r (hpast.trans hrs)

/-- **Requests that keep keys clear** leave the families at what is current. -/
theorem KeepsClear.current {name : String} {labels : List String}
    (h : (fresh name labels).KeepsClear rs) :
    ((fresh name labels).performAll rs).Current ((fresh name labels).current rs) := by
  induction rs using List.reverseRecOn with
  | nil => exact ⟨(faithful_fresh name labels).status, (faithful_fresh name labels).detail⟩
  | append_singleton rs r ih =>
    have hr := h rs r (List.prefix_refl _)
    -- what a request reaches does not depend on what has been asked before
    rw [Clears, ← reachedBy_congr ((fresh name labels).labelsOf_performAll rs), ← Clears,
      current_concat, ← (fresh name labels).labelsOf_performAll rs] at hr
    have hstep := (ih (h.mono (List.prefix_append ..))).perform
      (details_performAll name labels rs) hr
    rw [labelsOf_performAll, ← current_concat] at hstep
    rw [performAll_append]
    exact hstep

/-! ### What is displayed -/

/-- An exporter displays what some label values have been given: the one series of a detail, and
either no series of a category or all of them, of which one is set. -/
structure Displays (x : Exporter) (v : LabelValues) (category : Option Category)
    (detail : Option String) : Prop where
  remembered : x.details.get? v = detail
  detail : ∀ text, x.detail.own? (v.extended text) = if detail = some text then some true else none
  status : ∀ c ∈ Category.all,
    x.status.own? (v.extended c.text) = category.map fun current => decide (c = current)
  chosen : ∀ current ∈ category, x.status.own? (v.extended current.text) = some true
  /-- A series of a category is one of the eight. -/
  named : ∀ text, (∀ c ∈ Category.all, c.text ≠ text) → x.status.own? (v.extended text) = none

/-- Families that have what is current display it, if all categories are among the eight. -/
theorem Current.displays (h : x.Current told) (hdetails : ∀ v, x.details.get? v = (told v).detail)
    (known : ∀ v, ∀ category ∈ (told v).category, category ∈ Category.all) (v : LabelValues) :
    x.Displays v (told v).category (told v).detail := by
  have hstatus (c : Category) (hc : c ∈ Category.all) : x.status.own? (v.extended c.text) =
      (told v).category.map fun current => decide (c = current) := by
    simpa [Told.status, find?_text c hc] using h.status (v.extended c.text)
  refine ⟨hdetails v, fun text => ?_, hstatus, fun category hcategory => ?_, fun text htext => ?_⟩
  · simpa [Told.detail] using h.detail (v.extended text)
  · rw [hstatus category (known v category hcategory), hcategory]
    simp
  · have hnone : (Category.all.find? fun c => c.text == text) = none :=
      List.find?_eq_none.mpr fun c hc heq => htext c hc (beq_iff_eq.mp heq)
    simpa [Told.status, hnone] using h.status (v.extended text)

/-- Series of categories that should be there are, if they are displayed. -/
private theorem own?_status_of_displays
    (h : ∀ v, x.Displays v (told v).category (told v).detail) (w : LabelValues)
    (hw : (told.status w).isSome = true) : (x.status.own? w).isSome = true := by
  obtain ⟨v, c, hc, rfl, hsome⟩ := Told.exists_of_status hw
  rwa [(h v).status c hc, Option.isSome_map]

/-- Series of details that should be there are, if they are displayed. -/
private theorem own?_detail_of_displays
    (h : ∀ v, x.Displays v (told v).category (told v).detail) (w : LabelValues)
    (hw : (told.detail w).isSome = true) : (x.detail.own? w).isSome = true := by
  obtain ⟨v, text, rfl, hsome⟩ := Told.exists_of_detail hw
  rw [(h v).detail text, if_pos hsome]
  rfl

/-- The series of categories that a request reaches are those of its label values, and it sets or
deletes them. -/
theorem mem_reachedBy_status {u : LabelValues} (h : (Site.status, u) ∈ x.reachedBy r) :
    (∃ c ∈ Category.all, u = (x.labelsOf r).extended c.text) ∧
      ((∃ category, r.operation = .setStatus category) ∨ r.operation = .delete) := by
  obtain ⟨change, hchange, hu⟩ := List.mem_flatMap.mp h
  obtain ⟨d, e, operation⟩ := r
  cases operation with
  | setStatus category =>
    obtain rfl := List.mem_singleton.mp hchange
    obtain ⟨c, hc, heq⟩ := List.mem_map.mp hu
    exact ⟨⟨c, hc, (Prod.mk.inj heq).2.symm⟩, Or.inl ⟨category, rfl⟩⟩
  | delete =>
    refine ⟨?_, Or.inr rfl⟩
    simp only [Operation.changes, removals, Option.map_none, Option.toList_none, List.append_nil,
      List.map_cons, List.map_nil, List.mem_cons, List.not_mem_nil, or_false] at hchange
    rcases hchange with rfl | rfl | rfl | rfl
    · simp [Touch.reached] at hu
    · simp [Touch.reached] at hu
    · obtain ⟨c, hc, heq⟩ := List.mem_map.mp hu
      exact ⟨c, hc, (Prod.mk.inj heq).2.symm⟩
    · cases hu
  | setHealth | observeLatency | setDetail =>
    obtain rfl := List.mem_singleton.mp hchange
    simp [Touch.reached] at hu

/-- The series of a detail that a request reaches is that which it sets. -/
theorem mem_reachedBy_detail {u : LabelValues} (h : (Site.detail, u) ∈ x.reachedBy r) :
    ∃ text, u = (x.labelsOf r).extended text ∧ r.operation = .setDetail text := by
  obtain ⟨d, e, operation⟩ := r
  cases operation with
  | setDetail text =>
    have hu : u = (x.labelsOf ⟨d, e, .setDetail text⟩).extended text := by
      simpa [reachedBy, Operation.changes, Touch.reached] using h
    exact ⟨text, hu, rfl⟩
  | setStatus | delete | setHealth | observeLatency =>
    simp [reachedBy, Operation.changes, Touch.reached, removals] at h

/-- Where everything that is current is displayed after a request, it has cleared its keys. -/
theorem clears_of_displays (h : ∀ v, (x.performAll (rs ++ [r])).Displays v
      (x.currentCategory v (rs ++ [r])) (x.currentDetail v (rs ++ [r]))) :
    x.Clears (x.current (rs ++ [r])) r := by
  rintro ⟨site, u⟩ hu w hw hkey
  cases site with
  | health | latency => cases hw
  | status =>
    obtain ⟨⟨c, hc, rfl⟩, ⟨category, hcategory⟩ | hdelete⟩ := mem_reachedBy_status hu
    · refine Family.separate_of_own? (own?_status_of_displays h) w _ hw ?_ hkey
      rw [current_concat, hcategory]
      exact Option.isSome_of_eq_some (status_after_self _ _ category hc)
    · -- there is no series under the key any more
      obtain ⟨b, hb⟩ := Option.isSome_iff_exists.mp (own?_status_of_displays h w hw)
      obtain ⟨d, e, operation⟩ := r
      obtain rfl : operation = .delete := hdelete
      have hnone : (x.performAll (rs ++ [⟨d, e, .delete⟩])).status.series? w = none := by
        rw [performAll_append]
        change ((x.performAll rs).delete d e).status.series? w = none
        rw [status_delete, Family.series?_removeAll, if_pos]
        refine ⟨_, List.mem_map.mpr ⟨c, hc, rfl⟩, ?_⟩
        rw [hkey, ← (x.labelsOf_performAll rs)]
        rfl
      rw [Family.own?, hnone] at hb
      cases hb
  | detail =>
    obtain ⟨text, rfl, htext⟩ := mem_reachedBy_detail hu
    refine Family.separate_of_own? (own?_detail_of_displays h) w _ hw ?_ hkey
    rw [current_concat, htext]
    simp [Told.following, Told.detail, Told.after, Published.after]

/-! ### What there is at most -/

/-- The family of details has no series but those of current details. -/
theorem current_of_mem_detail {name : String} {labels : List String} {text : String}
    (h : v.extended text ∈ ((fresh name labels).performAll rs).detail.labels) :
    (fresh name labels).currentDetail v rs = some text := by
  obtain ⟨u, text', heq, ⟨hget, -⟩ | hplace⟩ := (rooted_performAll name labels rs).detail _ h
  · obtain ⟨rfl, rfl⟩ := LabelValues.extended_inj heq
    rw [← details_performAll, hget]
  · simp [removals] at hplace

/-- A request makes no series of a category but for those that there should be. -/
private theorem status_following (h : ∀ w ∈ x.status.labels, (told.status w).isSome = true)
    (r : Request) (w : LabelValues) (hw : w ∈ (x.perform r).status.labels) :
    ((told.following (x.labelsOf r) r.operation).status w).isSome = true := by
  obtain ⟨d, e, operation⟩ := r
  cases operation with
  | setHealth => exact h w hw
  | observeLatency span =>
    rw [perform_observeLatency] at hw
    split at hw
    next => exact h w hw
    next => exact h w hw
  | setDetail text =>
    rw [Told.following, status_after rfl]
    exact h w hw
  | setStatus category =>
    rw [Told.following]
    by_cases hown : ∃ c ∈ Category.all, w = (x.labelValues d e).extended c.text
    · obtain ⟨c, hc, rfl⟩ := hown
      exact Option.isSome_of_eq_some (status_after_self told _ category hc)
    · -- a series of other label values was there before, and is wanted as before
      have hold := (mem_labels_setAll hw).resolve_left hown
      have hkept : (told.after ⟨0, x.labelValues d e, .status category⟩).status w =
          told.status w :=
        status_congr (fun u hu => Function.update_of_ne hu ..) fun c hc heq => hown ⟨c, hc, heq⟩
      exact (congrArg Option.isSome hkept).trans (h w hold)
  | delete =>
    change w ∈ (x.delete d e).status.labels at hw
    rw [status_delete, List.foldl_map] at hw
    obtain ⟨hne, hw⟩ := mem_labels_removeAll hw
    have hkept : (told.without (x.labelValues d e)).status w = told.status w :=
      status_congr (fun u hu => told.without_of_ne hu) hne
    exact (congrArg Option.isSome hkept).trans (h w hw)

/-- The family of categories has no series but those of current categories. -/
theorem current_of_mem_status {name : String} {labels : List String} {text : String}
    (h : v.extended text ∈ ((fresh name labels).performAll rs).status.labels) :
    ((fresh name labels).currentCategory v rs).isSome = true ∧
      ∃ c ∈ Category.all, c.text = text := by
  have hall : ∀ w ∈ ((fresh name labels).performAll rs).status.labels,
      (((fresh name labels).current rs).status w).isSome = true :=
    performAll_current
      (motive := fun x told => ∀ w ∈ x.status.labels, (told.status w).isSome = true)
      (fresh name labels) (List.forall_mem_nil _) (fun _ _ r h => status_following h r) rs
  obtain ⟨u, c, hc, heq, hsome⟩ := Told.exists_of_status (hall _ h)
  obtain ⟨rfl, rfl⟩ := LabelValues.extended_inj heq
  exact ⟨hsome, c, hc, rfl⟩

/-! ### Keys that do not clash -/

/-- Series that should be there have been reached by one of the requests. -/
theorem mem_reachedBy_of_wants {site : Site} {w : LabelValues}
    (h : (x.current rs).wants w site = true) : (site, w) ∈ rs.flatMap x.reachedBy := by
  cases site with
  | health | latency => cases h
  | status =>
    obtain ⟨v, c, hc, rfl, hsome⟩ := Told.exists_of_status h
    obtain ⟨category, hcategory⟩ := Option.isSome_iff_exists.mp hsome
    obtain ⟨r, hr, rfl, hset⟩ := mem_of_currentCategory hcategory
    refine List.mem_flatMap.mpr ⟨r, hr, List.mem_flatMap.mpr ⟨.status category, ?_, ?_⟩⟩
    · rw [hset]
      exact List.mem_cons_self
    · exact List.mem_map.mpr ⟨c, hc, rfl⟩
  | detail =>
    obtain ⟨v, text, rfl, htext⟩ := Told.exists_of_detail h
    obtain ⟨r, hr, rfl, hset⟩ := mem_of_currentDetail htext
    refine List.mem_flatMap.mpr ⟨r, hr, List.mem_flatMap.mpr ⟨.detail text, ?_, ?_⟩⟩
    · rw [hset]
      exact List.mem_cons_self
    · exact List.mem_cons_self

/-- Requests whose series have different keys keep keys clear. -/
theorem keepsClear_of_tellsApart (h : TellsApart (rs.flatMap x.reachedBy)) : x.KeepsClear rs := by
  intro past r hstart p hp w hw hkey
  have hsub {q : Site × LabelValues} (hq : q ∈ (past ++ [r]).flatMap x.reachedBy) :
      q ∈ rs.flatMap x.reachedBy := by
    obtain ⟨s, hs, hq⟩ := List.mem_flatMap.mp hq
    exact List.mem_flatMap.mpr ⟨s, hstart.subset hs, hq⟩
  have hreached : p ∈ (past ++ [r]).flatMap x.reachedBy :=
    List.mem_flatMap.mpr ⟨r, by simp, hp⟩
  exact h _ (hsub (mem_reachedBy_of_wants hw)) p (hsub hreached) rfl hkey

/-! ### What there is -/

/-- **What is displayed.** The table of details has the current detail of all label values, and the
families have no series but those of current details and categories. They have all of these after
each of some requests just if each request clears the keys that it reaches. -/
theorem displays_iff_keepsClear (name : String) (labels : List String) (rs : List Request)
    (known : ∀ r ∈ rs, r.operation ≠ .setStatus .unknown) :
    let x := fresh name labels
    (∀ v, (x.performAll rs).details.get? v = x.currentDetail v rs ∧
      (∀ text, v.extended text ∈ (x.performAll rs).detail.labels →
        x.currentDetail v rs = some text) ∧
      ∀ text, v.extended text ∈ (x.performAll rs).status.labels →
        (x.currentCategory v rs).isSome = true ∧ ∃ c ∈ Category.all, c.text = text) ∧
    ((∀ h, h <+: rs → ∀ v,
        (x.performAll h).Displays v (x.currentCategory v h) (x.currentDetail v h)) ↔
      x.KeepsClear rs) := by
  refine ⟨fun v => ⟨details_performAll name labels rs v, fun _ => current_of_mem_detail,
    fun _ => current_of_mem_status⟩, fun hdisplays h r hstart => ?_, fun hclear h hstart => ?_⟩
  · exact clears_of_displays (hdisplays _ hstart)
  · refine (hclear.mono hstart).current.displays (details_performAll name labels h) ?_
    intro v category hcategory
    obtain ⟨r, hr, -, hset⟩ := mem_of_currentCategory hcategory
    have hne : category ≠ .unknown := by
      rintro rfl
      exact known r (hstart.subset hr) hset
    cases category <;> simp_all [Category.all]

/-- The primary is deleted, and the replica goes through two details. -/
def succession : List Request :=
  [onPrimary (.setDetail "ok"), onReplica (.setDetail "timeout"), onReplica (.setStatus .timeout),
    onPrimary .delete, onReplica (.setDetail "refused")]

/-- The replica has the one series of its last detail and eight of its category; the primary has
none. -/
theorem replica_displayed :
    let x := fresh "app" []
    (x.performAll succession).Displays (x.labelsOf (onPrimary .delete)) none none ∧
      (x.performAll succession).Displays (x.labelsOf (onReplica .delete)) (some .timeout)
        (some "refused") := by
  have hdisplays := (displays_iff_keepsClear "app" [] succession (by decide)).2.mpr
    (keepsClear_of_tellsApart (by decide +kernel)) succession (List.prefix_refl _)
  have hprimary := hdisplays ((fresh "app" []).labelsOf (onPrimary .delete))
  have hreplica := hdisplays ((fresh "app" []).labelsOf (onReplica .delete))
  rw [show currentCategory _ _ _ = none by decide +kernel,
    show currentDetail _ _ _ = none by decide +kernel] at hprimary
  rw [show currentCategory _ _ _ = some .timeout by decide +kernel,
    show currentDetail _ _ _ = some "refused" by decide +kernel] at hreplica
  exact ⟨hprimary, hreplica⟩

/-- The label values of `h1:1` and `h:11` run together to one text. Both have been given a detail,
and the table has both, but the one series is that of the first. -/
theorem detail_of_another :
    let x := fresh "app" []
    let give (e : Endpoint) :=
      Request.mk { replicated with kind := .tcp, endpoints := [e] } e (.setDetail "ok")
    let first := give (Endpoint.plain "h1" 1)
    let second := give (Endpoint.plain "h" 11)
    let after := x.performAll [first, second]
    x.labelsOf first ≠ x.labelsOf second ∧
      x.currentDetail (x.labelsOf second) [first, second] = some "ok" ∧
      after.details.get? (x.labelsOf second) = some "ok" ∧
      after.detail.toList = [⟨(x.labelsOf first).extended "ok", true⟩] := by
  decide +kernel

end Exporter

end HealthMonitor
