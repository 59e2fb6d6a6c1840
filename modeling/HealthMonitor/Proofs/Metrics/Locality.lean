import HealthMonitor.Proofs.Metrics.Marks

/-!
# What a change of an exporter reaches

A change at the label values of an endpoint reads and writes what is about that endpoint, and
nothing else. For the table of details this is so because the table goes by label values. For the
families it is so as long as no other series in play have the keys of those about the endpoint
(`StandsOut`): then each of these has the value that the last mark at its own label values left
(`Family.own?_foldl_mark`), and no mark elsewhere reaches it (`Family.own?_foldl_mark_of_aside`).

Two exporters have the same of some label values (`Exporter.SameAt`) when each series about them is
the same in both, and what is remembered of them is.

* A change at other label values keeps what there is of these (`Exporter.sameAt_apply_of_ne`), and
  one at the same makes the same of what is the same (`Exporter.SameAt.apply`).
* So only the touches at some label values matter to them (`Exporter.SameAt.replay`).
* Exporters that have the same of all label values are equal (`Exporter.eq_of_sameAt`).
-/

namespace HealthMonitor

/-! ### Families -/

namespace Family

variable {α : Type} {f g : Family α} {v w : LabelValues}

/-- A family is known by the series that label values have of their own. -/
theorem eq_of_own? (h : ∀ w, f.own? w = g.own? w) : f = g := by
  have sub {f g : Family α} (h : ∀ w, f.own? w = g.own? w) {v : LabelValues} {s : Series α}
      (hs : f.series? v = some s) : g.series? v = some s := by
    have hown : g.own? s.labels = some s.value := by rw [← h, own?_of_series? hs]
    rw [series?, ← key_of_series? hs]
    exact own?_eq_some.mp hown
  have hbyKey : f.byKey = g.byKey := by
    apply Dictionary.ext_get?
    intro key
    have hf (s : Series α) (hs : f.byKey.get? key = some s) : g.byKey.get? key = some s := by
      have hkey : s.labels.key = key := f.keyed _ (Dictionary.mem_of_get? hs)
      rw [← hkey] at hs ⊢
      exact sub h hs
    have hg (s : Series α) (hs : g.byKey.get? key = some s) : f.byKey.get? key = some s := by
      have hkey : s.labels.key = key := g.keyed _ (Dictionary.mem_of_get? hs)
      rw [← hkey] at hs ⊢
      exact sub (fun w => (h w).symm) hs
    exact Option.ext fun s => ⟨hf s, hg s⟩
  obtain ⟨byKey, keyed⟩ := f
  obtain rfl : byKey = g.byKey := hbyKey
  rfl

/-- Under the key of label values there is no series but their own. -/
def Free (f : Family α) (v : LabelValues) : Prop :=
  ∀ w ∈ f.labels, w.key = v.key → w = v

/-- Where label values are alone under their key, the look-up by key finds their own series. -/
theorem Free.get?_eq (h : f.Free v) : f.get? v = f.own? v := by
  rw [Family.get?, own?]
  cases hs : f.series? v with
  | none => rfl
  | some s =>
    have hmem : s.labels ∈ f.labels := mem_labels_iff_own?.mpr (by rw [own?_of_series? hs]; rfl)
    rw [Option.map_some, Option.bind_some, if_pos (h s.labels hmem (key_of_series? hs))]

private theorem holds_own? (f : Family α) : f.Holds id f.own? := by
  intro w
  rw [Option.map_id]
  rfl

/-- Marking label values alone under their key changes their own series only. -/
theorem Free.own?_mark {m : Mark α} (h : f.Free m.labels) :
    (f.mark m).own? = Function.update f.own? m.labels m.value := by
  obtain ⟨v, value⟩ := m
  have free (w : LabelValues) (hw : (f.own? w).isSome = true) (hkey : w.key = v.key) : w = v :=
    h w (mem_labels_iff_own?.mpr hw) hkey
  funext w
  cases value with
  | none =>
    have hremove := f.holds_own?.remove free w
    rwa [Option.map_id] at hremove
  | some a =>
    have hset := f.holds_own?.set free a w
    rwa [Option.map_id] at hset

/-- A mark makes no series but one of its label values. -/
theorem mem_labels_mark {m : Mark α} (h : w ∈ (f.mark m).labels) : w = m.labels ∨ w ∈ f.labels := by
  unfold mark at h
  split at h
  next => exact mem_labels_set h
  next => exact Or.inr (mem_labels_remove h).2

/-- Marks make no series but for their label values. -/
theorem mem_labels_foldl_mark {ms : List (Mark α)} (h : w ∈ (ms.foldl mark f).labels) :
    w ∈ f.labels ∨ ∃ m ∈ ms, m.labels = w := by
  induction ms using List.reverseRecOn with
  | nil => exact Or.inl h
  | append_singleton ms m ih =>
    rw [List.foldl_append, List.foldl_cons, List.foldl_nil] at h
    rcases mem_labels_mark h with rfl | h
    · exact Or.inr ⟨m, by simp, rfl⟩
    · rcases ih h with h | ⟨n, hn, hw⟩
      · exact Or.inl h
      · exact Or.inr ⟨n, List.mem_append_left _ hn, hw⟩

/-- **What marks leave** of label values is what the last of them there says, else what there
was. -/
theorem own?_foldl_mark {ms : List (Mark α)} (free : ∀ m ∈ ms, f.Free m.labels)
    (unmixed : Unmixed ms) (w : LabelValues) :
    (ms.foldl mark f).own? w = (lastAt w ms).getD (f.own? w) := by
  induction ms using List.reverseRecOn with
  | nil => rfl
  | append_singleton ms m ih =>
    have hbefore : ∀ n ∈ ms, n ∈ ms ++ [m] := fun n hn => List.mem_append_left _ hn
    have hm : m ∈ ms ++ [m] := by simp
    have ih := ih (fun n hn => free n (hbefore n hn))
      fun n hn p hp => unmixed n (hbefore n hn) p (hbefore p hp)
    have hfree : (ms.foldl mark f).Free m.labels := by
      intro u hu hkey
      rcases mem_labels_foldl_mark hu with hu | ⟨n, hn, rfl⟩
      · exact free m hm u hu hkey
      · exact unmixed n (hbefore n hn) m hm hkey
    rw [List.foldl_append, List.foldl_cons, List.foldl_nil, hfree.own?_mark]
    by_cases hw : m.labels = w
    · subst hw
      rw [Function.update_self, lastAt_concat_self, Option.getD_some]
    · rw [Function.update_of_ne (Ne.symm hw), ih, lastAt_append_of_ne]
      intro n hn
      rwa [List.mem_singleton.mp hn]

/-- A mark under another key does not reach a series. -/
theorem own?_mark_of_key_ne {m : Mark α} (hkey : w.key ≠ m.labels.key) :
    (f.mark m).own? w = f.own? w := by
  have hseries : (f.mark m).series? w = f.series? w := by
    unfold mark
    split
    next => rw [series?_set, if_neg hkey]
    next => rw [series?_remove, if_neg hkey]
  rw [own?, own?, hseries]

/-- **Marks elsewhere** leave a series as it is, or not there, if its key is none of theirs. -/
theorem own?_foldl_mark_of_aside {ms : List (Mark α)} (aside : ∀ m ∈ ms, m.labels ≠ w)
    (apart : w ∈ f.labels → ∀ m ∈ ms, w.key ≠ m.labels.key) :
    (ms.foldl mark f).own? w = f.own? w := by
  by_cases hw : w ∈ f.labels
  · have apart := apart hw
    clear hw
    induction ms using List.reverseRecOn with
    | nil => rfl
    | append_singleton ms m ih =>
      have hbefore : ∀ n ∈ ms, n ∈ ms ++ [m] := fun n hn => List.mem_append_left _ hn
      rw [List.foldl_append, List.foldl_cons, List.foldl_nil,
        own?_mark_of_key_ne (apart m (by simp))]
      exact ih (fun n hn => aside n (hbefore n hn)) (fun _ n hn => apart n (hbefore n hn))
        fun n hn => apart n (hbefore n hn)
  · have hnone {g : Family α} (hg : w ∉ g.labels) : g.own? w = none := by
      rwa [mem_labels_iff_own?, Option.not_isSome_iff_eq_none] at hg
    rw [hnone hw]
    refine hnone fun hmem => ?_
    rcases mem_labels_foldl_mark hmem with hmem | ⟨m, hm, heq⟩
    · exact hw hmem
    · exact aside m hm heq

end Family

/-- Label values without the last of them. -/
def LabelValues.base (v : LabelValues) : LabelValues :=
  ⟨v.texts.dropLast⟩

@[simp] theorem LabelValues.base_extended (v : LabelValues) (text : String) :
    (v.extended text).base = v := by
  simp [base, extended]

namespace Exporter

/-! ### The marks of a change in each family -/

/-- What the series of a family hold. -/
abbrev Site.Value : Site → Type
  | .health => Bool
  | .latency => Histogram
  | .status => Bool
  | .detail => Bool

/-- The family at a site. -/
def family (x : Exporter) : (site : Site) → Family site.Value
  | .health => x.health
  | .latency => x.latency
  | .status => x.status
  | .detail => x.detail

/-- The label values of the endpoint that a series is about. The series of a category or a detail
has one label value more. -/
def Site.owner : Site → LabelValues → LabelValues
  | .health, w => w
  | .latency, w => w
  | .status, w => w.base
  | .detail, w => w.base

/-- What a touch does to the family of latencies, which depends on the histogram that is there. -/
def latencyMarks (x : Exporter) (t : Touch) : List (Mark Histogram) :=
  match t.change with
  | .latency span =>
    [⟨t.labels, some (((x.latency.get? t.labels).getD Histogram.empty).observe span)⟩]
  | .cleared .latency => [⟨t.labels, none⟩]
  | _ => []

end Exporter

/-- What a touch does to the family of categories. -/
def Touch.statusMarks (t : Touch) : List (Mark Bool) :=
  match t.change with
  | .status category =>
    Category.all.map fun c => ⟨t.labels.extended c.text, some (decide (c = category))⟩
  | .cleared .status => Category.all.map fun c => ⟨t.labels.extended c.text, none⟩
  | _ => []

/-- The series that a touch writes to or takes away, as far as the touch itself says. That of a
detail which it takes the place of is known to the table of details only. -/
def Touch.reached (t : Touch) : List (Exporter.Site × LabelValues) :=
  match t.change with
  | .latency _ | .cleared .latency => [(.latency, t.labels)]
  | .status _ | .cleared .status => Category.all.map fun c => (.status, t.labels.extended c.text)
  | .detail text | .cleared (.detail text) => [(.detail, t.labels.extended text)]
  | .health _ | .cleared .health => [(.health, t.labels)]
  | .cleared .memory => []

namespace Exporter

/-- What a touch does to each family. -/
def marks (x : Exporter) (t : Touch) : (site : Site) → List (Mark site.Value)
  | .health => t.healthMarks
  | .latency => x.latencyMarks t
  | .status => t.statusMarks
  | .detail => x.detailMarks t

variable {x y : Exporter} {t : Touch} {site : Site}

/-- **A change is its marks**: on each family it does what they do, one after another. -/
theorem family_apply (x : Exporter) (t : Touch) (site : Site) :
    (x.apply t.labels t.change).family site =
      (x.marks t site).foldl Family.mark (x.family site) := by
  cases site with
  | health => exact x.apply_health t
  | detail => exact x.apply_detail t
  | latency =>
    obtain ⟨i, v, c⟩ := t
    cases c with
    | cleared place => cases place <;> rfl
    | latency | status | detail | health => rfl
  | status =>
    obtain ⟨i, v, c⟩ := t
    cases c with
    | status category =>
      simp only [apply, family, marks, Touch.statusMarks, List.foldl_map]
      rfl
    | cleared place =>
      cases place with
      | status =>
        simp only [apply, clear, family, marks, Touch.statusMarks, List.foldl_map]
        rfl
      | health | latency | memory | detail => rfl
    | latency | detail | health => rfl

/-- A marked series is one that the touch reaches, or that of a remembered detail. -/
theorem reached_of_mem_marks {m : Mark site.Value} (h : m ∈ x.marks t site) :
    (site, m.labels) ∈ t.reached ∨
      ∃ before, x.details.get? t.labels = some before ∧
        (site, m.labels) = (Site.detail, t.labels.extended before) := by
  obtain ⟨i, v, c⟩ := t
  cases site with
  | health =>
    refine Or.inl ?_
    cases c with
    | cleared place => cases place <;> simp_all [marks, Touch.healthMarks, Touch.reached]
    | latency | status | detail | health => simp_all [marks, Touch.healthMarks, Touch.reached]
  | latency =>
    refine Or.inl ?_
    cases c with
    | cleared place => cases place <;> simp_all [marks, latencyMarks, Touch.reached]
    | latency | status | detail | health => simp_all [marks, latencyMarks, Touch.reached]
  | status =>
    refine Or.inl ?_
    cases c with
    | status category =>
      obtain ⟨c, hc, rfl⟩ := List.mem_map.mp h
      exact List.mem_map.mpr ⟨c, hc, rfl⟩
    | cleared place =>
      cases place with
      | status =>
        obtain ⟨c, hc, rfl⟩ := List.mem_map.mp h
        exact List.mem_map.mpr ⟨c, hc, rfl⟩
      | health | latency | memory | detail => cases h
    | latency | detail | health => cases h
  | detail =>
    cases c with
    | detail text =>
      rcases List.mem_append.mp h with h | h
      · obtain ⟨before, hbefore, rfl⟩ := List.mem_map.mp h
        have hget := Option.mem_toList.mp ((List.mem_filter.mp hbefore).1)
        exact Or.inr ⟨before, hget, rfl⟩
      · rw [List.mem_singleton.mp h]
        exact Or.inl List.mem_cons_self
    | cleared place =>
      cases place with
      | detail text =>
        rw [List.mem_singleton.mp h]
        exact Or.inl List.mem_cons_self
      | health | latency | status | memory => cases h
    | latency | status | health => cases h

/-- A touch reaches series about its own label values. -/
theorem owner_of_mem_reached {p : Site × LabelValues} (h : p ∈ t.reached) :
    p.1.owner p.2 = t.labels := by
  obtain ⟨i, v, c⟩ := t
  cases c with
  | latency | health =>
    rw [List.mem_singleton.mp h]
    rfl
  | status =>
    obtain ⟨c, -, rfl⟩ := List.mem_map.mp h
    exact LabelValues.base_extended ..
  | detail =>
    rw [List.mem_singleton.mp h]
    exact LabelValues.base_extended ..
  | cleared place =>
    cases place with
    | health | latency =>
      rw [List.mem_singleton.mp h]
      rfl
    | status =>
      obtain ⟨c, -, rfl⟩ := List.mem_map.mp h
      exact LabelValues.base_extended ..
    | detail =>
      rw [List.mem_singleton.mp h]
      exact LabelValues.base_extended ..
    | memory => cases h

/-- A touch marks series about its own label values. -/
theorem owner_of_mem_marks {m : Mark site.Value} (h : m ∈ x.marks t site) :
    site.owner m.labels = t.labels := by
  rcases reached_of_mem_marks h with hreached | ⟨before, -, heq⟩
  · exact owner_of_mem_reached hreached
  · obtain ⟨rfl, hlabels⟩ := Prod.mk.inj heq
    rw [hlabels]
    exact LabelValues.base_extended ..

/-- Touches leave the name and the custom labels alone. -/
theorem replay_names (x : Exporter) (ts : List Touch) :
    (x.replay ts).name = x.name ∧ (x.replay ts).extraLabels = x.extraLabels := by
  induction ts using List.reverseRecOn with
  | nil => exact ⟨rfl, rfl⟩
  | append_singleton ts t ih =>
    obtain ⟨hname, hlabels⟩ := (x.replay ts).apply_names t.labels t.change
    rw [replay_append]
    exact ⟨hname.trans ih.1, hlabels.trans ih.2⟩

/-- Exporters of one name and the same custom labels give endpoints the same label values. -/
theorem labelValues_congr {x y : Exporter} (hname : x.name = y.name)
    (hlabels : x.extraLabels = y.extraLabels) : x.labelValues = y.labelValues := by
  funext d e
  rw [labelValues, labelValues, hname, hlabels]

/-! ### The table of details -/

/-- What is remembered after a change, given what was. -/
def Change.memory : Change → Option String → Option String
  | .detail text, _ => some text
  | .cleared .memory, _ => none
  | _, before => before

/-- A touch changes what is remembered at its own label values, as its change says. -/
theorem apply_details (x : Exporter) (t : Touch) (v : LabelValues) :
    (x.apply t.labels t.change).details.get? v =
      if t.labels = v then t.change.memory (x.details.get? v) else x.details.get? v := by
  split
  next h =>
    subst h
    obtain ⟨i, v, c⟩ := t
    cases c with
    | detail text => simp [apply, Change.memory]
    | cleared place => cases place <;> simp [apply, clear, Change.memory]
    | latency | status | health => rfl
  next h => exact x.apply_details_of_ne h

end Exporter

/-! ### Series in play -/

/-- Series of one family in a list have different keys. -/
def TellsApart (ps : List (Exporter.Site × LabelValues)) : Prop :=
  ∀ p ∈ ps, ∀ q ∈ ps, p.1 = q.1 → p.2.key = q.2.key → p.2 = q.2

instance (ps : List (Exporter.Site × LabelValues)) : Decidable (TellsApart ps) :=
  inferInstanceAs (Decidable (∀ p ∈ ps, ∀ q ∈ ps, _))

/-- No other series of their family in a list has the key of one about some label values. -/
def StandsOut (v : LabelValues) (ps : List (Exporter.Site × LabelValues)) : Prop :=
  ∀ p ∈ ps, p.1.owner p.2 = v → ∀ q ∈ ps, q.1 = p.1 → q.2.key = p.2.key → q.2 = p.2

instance (v : LabelValues) (ps : List (Exporter.Site × LabelValues)) : Decidable (StandsOut v ps) :=
  inferInstanceAs (Decidable (∀ p ∈ ps, _ → ∀ q ∈ ps, _))

theorem TellsApart.standsOut {ps : List (Exporter.Site × LabelValues)} (h : TellsApart ps)
    (v : LabelValues) : StandsOut v ps :=
  fun p hp _ q hq => h q hq p hp

namespace Exporter

variable {x y : Exporter} {t : Touch} {ps : List (Site × LabelValues)} {v : LabelValues}

/-- The series that an exporter has, and those that its table of details leads to, are listed. -/
structure Within (x : Exporter) (ps : List (Site × LabelValues)) : Prop where
  series : ∀ site, ∀ w ∈ (x.family site).labels, (site, w) ∈ ps
  remembered : ∀ v text, x.details.get? v = some text → (Site.detail, v.extended text) ∈ ps

/-- The series that an exporter has, and those that its table of details leads to. -/
def present (x : Exporter) : List (Site × LabelValues) :=
  [Site.health, .latency, .status, .detail].flatMap
      (fun site => (x.family site).labels.map (Prod.mk site)) ++
    x.details.entries.map fun e => (Site.detail, e.1.extended e.2)

/-- What an exporter has is among what is present in it. -/
theorem within_present (x : Exporter) : x.Within x.present where
  series site w hw := by
    refine List.mem_append_left _ (List.mem_flatMap.mpr ⟨site, ?_, ?_⟩)
    · cases site <;> simp
    · exact List.mem_map.mpr ⟨w, hw, rfl⟩
  remembered v text h := by
    refine List.mem_append_right _ (List.mem_map.mpr ⟨(v, text), ?_, rfl⟩)
    exact Dictionary.mem_entries_iff.mpr h

theorem Within.mono {qs : List (Site × LabelValues)} (h : x.Within ps) (hsub : ps ⊆ qs) :
    x.Within qs :=
  ⟨fun site w hw => hsub (h.series site w hw), fun v text htext => hsub (h.remembered v text htext)⟩

/-- Whatever a touch marks is listed, if what it reaches is. -/
theorem Within.mark (h : x.Within ps) (ht : ∀ p ∈ t.reached, p ∈ ps) {site : Site}
    {m : Mark site.Value} (hm : m ∈ x.marks t site) : (site, m.labels) ∈ ps := by
  rcases reached_of_mem_marks hm with hreached | ⟨before, hbefore, heq⟩
  · exact ht _ hreached
  · rw [heq]
    exact h.remembered _ _ hbefore

/-- A touch leads to listed series only. -/
theorem Within.apply (h : x.Within ps) (ht : ∀ p ∈ t.reached, p ∈ ps) :
    (x.apply t.labels t.change).Within ps := by
  refine ⟨?_, ?_⟩
  · intro site w hw
    rw [family_apply] at hw
    rcases Family.mem_labels_foldl_mark hw with hw | ⟨m, hm, rfl⟩
    · exact h.series site w hw
    · exact h.mark ht hm
  · intro v text htext
    rw [apply_details] at htext
    split at htext
    next heq =>
      subst heq
      have hbefore := h.remembered t.labels text
      obtain ⟨i, v, c⟩ := t
      cases c with
      | detail text' =>
        obtain rfl : text' = text := Option.some.inj htext
        exact ht _ List.mem_cons_self
      | cleared place =>
        cases place with
        | memory => cases htext
        | health | latency | status | detail => exact hbefore htext
      | latency | status | health => exact hbefore htext
    next => exact h.remembered v text htext

/-- Touches one after another lead to listed series only. -/
theorem Within.replay {ts : List Touch} (h : x.Within ps)
    (hts : ∀ t ∈ ts, ∀ p ∈ t.reached, p ∈ ps) : (x.replay ts).Within ps := by
  induction ts using List.reverseRecOn with
  | nil => exact h
  | append_singleton ts t ih =>
    have hbefore := ih fun u hu => hts u (List.mem_append_left _ hu)
    rw [replay_append]
    exact hbefore.apply (hts t (by simp))

theorem Within.free (h : x.Within ps) (apart : StandsOut v ps) {site : Site} {w : LabelValues}
    (hw : (site, w) ∈ ps) (howner : site.owner w = v) : (x.family site).Free w := by
  intro u hu hkey
  exact apart _ hw howner _ (h.series site u hu) rfl hkey

/-- The series of a family after a touch, where those about its label values stand out. -/
theorem Within.own?_apply (h : x.Within ps) (apart : StandsOut t.labels ps)
    (ht : ∀ p ∈ t.reached, p ∈ ps) (site : Site) (w : LabelValues) :
    ((x.apply t.labels t.change).family site).own? w =
      (lastAt w (x.marks t site)).getD ((x.family site).own? w) := by
  rw [family_apply]
  refine Family.own?_foldl_mark ?_ ?_ w
  · intro m hm
    exact h.free apart (h.mark ht hm) (owner_of_mem_marks hm)
  · intro m hm n hn hkey
    exact apart _ (h.mark ht hn) (owner_of_mem_marks hn) _ (h.mark ht hm) rfl hkey

/-! ### What exporters have of some label values -/

/-- Two exporters have the same of some label values. -/
structure SameAt (v : LabelValues) (x y : Exporter) : Prop where
  name : x.name = y.name
  extraLabels : x.extraLabels = y.extraLabels
  series : ∀ (site : Site) (w : LabelValues), site.owner w = v →
    (x.family site).own? w = (y.family site).own? w
  detail : x.details.get? v = y.details.get? v

theorem SameAt.refl (v : LabelValues) (x : Exporter) : SameAt v x x :=
  ⟨rfl, rfl, fun _ _ _ => rfl, rfl⟩

theorem SameAt.symm (h : SameAt v x y) : SameAt v y x :=
  ⟨h.name.symm, h.extraLabels.symm, fun site w hw => (h.series site w hw).symm, h.detail.symm⟩

theorem SameAt.trans {z : Exporter} (h : SameAt v x y) (h' : SameAt v y z) : SameAt v x z :=
  ⟨h.name.trans h'.name, h.extraLabels.trans h'.extraLabels,
    fun site w hw => (h.series site w hw).trans (h'.series site w hw), h.detail.trans h'.detail⟩

/-- **Exporters are equal** if they have the same of all label values. -/
theorem eq_of_sameAt (h : ∀ v, SameAt v x y) : x = y := by
  have hfamily (site : Site) : x.family site = y.family site :=
    Family.eq_of_own? fun w => (h (site.owner w)).series site w rfl
  have hdetails : x.details = y.details := Dictionary.ext_get? fun v => (h v).detail
  have hname := (h ⟨[]⟩).name
  have hlabels := (h ⟨[]⟩).extraLabels
  obtain ⟨name, extraLabels, health, latency, status, detail, details⟩ := x
  obtain ⟨name', extraLabels', health', latency', status', detail', details'⟩ := y
  congr
  · exact hfamily .health
  · exact hfamily .latency
  · exact hfamily .status
  · exact hfamily .detail

/-- What a touch does depends on what there is of its label values. -/
theorem SameAt.marks_eq (h : SameAt t.labels x y)
    (hlatency : ∀ span, t.change = .latency span →
      x.latency.get? t.labels = y.latency.get? t.labels) (site : Site) :
    x.marks t site = y.marks t site := by
  cases site with
  | health | status => rfl
  | latency =>
    change x.latencyMarks t = y.latencyMarks t
    unfold latencyMarks
    split
    next span hchange => rw [hlatency span hchange]
    next => rfl
    next => rfl
  | detail => simp only [marks, detailMarks, h.detail]

/-- **A touch elsewhere** keeps what there is of some label values. -/
theorem sameAt_apply_of_ne (hx : x.Within ps) (apart : StandsOut v ps)
    (ht : ∀ p ∈ t.reached, p ∈ ps) (hne : t.labels ≠ v) :
    SameAt v (x.apply t.labels t.change) x where
  name := (x.apply_names t.labels t.change).1
  extraLabels := (x.apply_names t.labels t.change).2
  series site w hw := by
    have aside : ∀ m ∈ x.marks t site, m.labels ≠ w := by
      intro m hm heq
      apply hne
      rw [← owner_of_mem_marks hm, heq, hw]
    rw [family_apply]
    refine Family.own?_foldl_mark_of_aside aside ?_
    intro hmem m hm hkey
    exact aside m hm (apart _ (hx.series site w hmem) hw _ (hx.mark ht hm) rfl hkey.symm)
  detail := x.apply_details_of_ne hne

/-- **A touch at some label values** makes the same of what is the same of them. -/
theorem SameAt.apply (h : SameAt v x y) (hx : x.Within ps) (hy : y.Within ps)
    (apart : StandsOut v ps) (ht : ∀ p ∈ t.reached, p ∈ ps) :
    SameAt v (x.apply t.labels t.change) (y.apply t.labels t.change) := by
  by_cases hv : t.labels = v
  · subst hv
    have hnames := x.apply_names t.labels t.change
    have hnames' := y.apply_names t.labels t.change
    have hlatency (span : Span) (hchange : t.change = .latency span) :
        x.latency.get? t.labels = y.latency.get? t.labels := by
      have hin : (Site.latency, t.labels) ∈ ps := ht _ (by simp [Touch.reached, hchange])
      rw [(hx.free apart hin rfl).get?_eq (f := x.latency),
        (hy.free apart hin rfl).get?_eq (f := y.latency)]
      exact h.series .latency t.labels rfl
    refine ⟨?_, ?_, ?_, ?_⟩
    · rw [hnames.1, hnames'.1, h.name]
    · rw [hnames.2, hnames'.2, h.extraLabels]
    · intro site w hw
      rw [hx.own?_apply apart ht, hy.own?_apply apart ht, h.marks_eq hlatency, h.series site w hw]
    · rw [apply_details, apply_details, h.detail]
  · have hleft := sameAt_apply_of_ne hx apart ht hv
    have hright := sameAt_apply_of_ne hy apart ht hv
    exact (hleft.trans h).trans hright.symm

/-- **Only the touches at some label values** matter to them. -/
theorem SameAt.replay (h : SameAt v x y) (hx : x.Within ps) (hy : y.Within ps)
    (apart : StandsOut v ps) {ts : List Touch} (hts : ∀ t ∈ ts, ∀ p ∈ t.reached, p ∈ ps) :
    SameAt v (x.replay ts) (y.replay (ts.filter fun t => t.labels = v)) := by
  induction ts using List.reverseRecOn with
  | nil => exact h
  | append_singleton ts t ih =>
    have hbefore : ∀ u ∈ ts, ∀ p ∈ u.reached, p ∈ ps :=
      fun u hu => hts u (List.mem_append_left _ hu)
    have hsame := ih hbefore
    have hwithin := hx.replay hbefore
    have hwithin' : (y.replay (ts.filter fun t => t.labels = v)).Within ps :=
      hy.replay fun u hu => hbefore u (List.mem_filter.mp hu).1
    have ht : ∀ p ∈ t.reached, p ∈ ps := hts t (by simp)
    rw [replay_append, List.filter_append, replay_append]
    by_cases hv : t.labels = v
    · rw [List.filter_cons_of_pos (by simpa using hv)]
      exact hsame.apply hwithin hwithin' apart ht
    · rw [List.filter_cons_of_neg (by simpa using hv)]
      exact (sameAt_apply_of_ne hwithin apart ht hv).trans hsame

end Exporter

end HealthMonitor
