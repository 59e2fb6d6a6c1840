import HealthMonitor.Proofs.Health.History
import Mathlib.Data.List.Induction
import Mathlib.Logic.Function.Basic

/-!
# When an exporter tells its endpoints apart

An exporter finds series by the keys of label values, not by the label values. `Faithful` says that
this does not show: for every endpoint there are just the series that it has been told to publish,
made for its label values, with its values. As long as nothing is taken away there is an exact
condition for that: at no moment two series that there should be have the same key. It is needed by
`Faithful.apart`, and `Faithful.write` has that it is enough.

* A family `Holds` what is wanted of it when the series made for some label values are the wanted
  ones; a series that other label values of the key have made does not count.
* What is wanted can be held only if it is `Separate`: different label values have different keys.
-/

namespace HealthMonitor

/-- What is wanted of a family is separate: no two series of it have the same key. -/
def Separate {β : Type} (want : LabelValues → Option β) : Prop :=
  ∀ v w, (want v).isSome = true → (want w).isSome = true → v.key = w.key → v = w

namespace Family

variable {α β : Type} {f : Family α} {g : α → β} {want : LabelValues → Option β}

/-- The value of the series that was made for some label values. -/
def own? (f : Family α) (w : LabelValues) : Option α :=
  (f.series? w).bind fun s => if s.labels = w then some s.value else none

/-- A series is the own one of the label values that stand in it. -/
theorem own?_eq_some {w : LabelValues} {a : α} :
    f.own? w = some a ↔ f.series? w = some ⟨w, a⟩ := by
  unfold own?
  cases h : f.series? w with
  | none => simp
  | some s =>
    obtain ⟨labels, value⟩ := s
    simp only [Option.bind_some, Option.some.injEq, Series.mk.injEq]
    constructor
    · intro h
      split at h
      next heq => exact ⟨heq, Option.some.inj h⟩
      next => cases h
    · rintro ⟨rfl, rfl⟩
      simp

/-- A family has a series for label values when it has one that was made for them. -/
theorem mem_labels_iff_own? {w : LabelValues} : w ∈ f.labels ↔ (f.own? w).isSome = true := by
  rw [mem_labels_iff, Option.isSome_iff_exists]
  constructor
  · rintro ⟨⟨_, a⟩, hs, rfl⟩
    exact ⟨a, own?_eq_some.mpr hs⟩
  · rintro ⟨a, ha⟩
    exact ⟨⟨w, a⟩, own?_eq_some.mp ha, rfl⟩

theorem key_of_series? {v : LabelValues} {s : Series α} (h : f.series? v = some s) :
    s.labels.key = v.key :=
  f.keyed _ (Dictionary.mem_of_get? h)

/-- A series is found by the label values that it was made for. -/
theorem own?_of_series? {v : LabelValues} {s : Series α} (h : f.series? v = some s) :
    f.own? s.labels = some s.value := by
  rw [own?_eq_some, series?, key_of_series? h]
  exact h

/-- A family holds what is wanted: for all label values, the series made for them, as far as it
matters, is the wanted one. -/
def Holds (f : Family α) (g : α → β) (want : LabelValues → Option β) : Prop :=
  ∀ w, (f.own? w).map g = want w

/-- Series that a family has, each made for its label values, have different keys. -/
theorem separate_of_own? (h : ∀ w, (want w).isSome = true → (f.own? w).isSome = true) :
    Separate want := by
  intro v w hv hw hkey
  obtain ⟨a, ha⟩ := Option.isSome_iff_exists.mp (h v hv)
  obtain ⟨b, hb⟩ := Option.isSome_iff_exists.mp (h w hw)
  have hsame : f.series? v = f.series? w := by rw [series?, hkey, series?]
  rw [own?_eq_some.mp ha, own?_eq_some.mp hb] at hsame
  exact congrArg Series.labels (Option.some.inj hsame)

/-- What a family holds is separate, since each key leads to one series. -/
theorem Holds.separate (h : f.Holds g want) : Separate want :=
  separate_of_own? fun w hw => by rwa [← h w, Option.isSome_map] at hw

/-- Where nothing else is wanted under the key of label values, only their own series is there. -/
theorem Holds.labels_eq (h : f.Holds g want) {v : LabelValues}
    (free : ∀ w, (want w).isSome = true → w.key = v.key → w = v) {s : Series α}
    (hs : f.series? v = some s) : s.labels = v := by
  refine free s.labels ?_ (key_of_series? hs)
  rw [← h s.labels, own?_of_series? hs]
  rfl

/-- Where nothing else is wanted under a key, the look-up finds just what is wanted. -/
theorem Holds.get? (h : f.Holds g want) {v : LabelValues}
    (free : ∀ w, (want w).isSome = true → w.key = v.key → w = v) :
    (f.get? v).map g = want v := by
  rw [← h v, Family.get?, own?]
  cases hs : f.series? v with
  | none => rfl
  | some s => simp [h.labels_eq free hs]

/-- Setting the series of label values alone under their key adds it to what is held. -/
theorem Holds.set (h : f.Holds g want) {v : LabelValues}
    (free : ∀ w, (want w).isSome = true → w.key = v.key → w = v) (a : α) :
    (f.set v a).Holds g (Function.update want v (some (g a))) := by
  have hlabels : f.labelsFor v = v := by
    unfold labelsFor
    cases hs : f.series? v with
    | none => rfl
    | some s => exact h.labels_eq free hs
  intro w
  rw [own?, series?_set, hlabels]
  by_cases hw : w = v
  · subst hw
    simp
  · rw [Function.update_of_ne hw]
    by_cases hkey : w.key = v.key
    · have hnone : want w = none := by
        by_contra hne
        exact hw (free w (Option.isSome_iff_ne_none.mpr hne) hkey)
      simp [hkey, Ne.symm hw, hnone]
    · rw [if_neg hkey, ← h w, own?]

/-- Taking the series of label values alone under their key away takes it from what is held. -/
theorem Holds.remove (h : f.Holds g want) {v : LabelValues}
    (free : ∀ w, (want w).isSome = true → w.key = v.key → w = v) :
    (f.remove v).Holds g (Function.update want v none) := by
  intro w
  rw [own?, series?_remove]
  by_cases hw : w = v
  · subst hw
    simp
  · rw [Function.update_of_ne hw]
    by_cases hkey : w.key = v.key
    · have hnone : want w = none := by
        by_contra hne
        exact hw (free w (Option.isSome_iff_ne_none.mpr hne) hkey)
      simp [hkey, hnone]
    · rw [if_neg hkey, ← h w, own?]

/-- Taking series away one after another leaves no series under their keys. -/
theorem series?_removeAll (f : Family α) (vs : List LabelValues) (w : LabelValues) :
    (vs.foldl remove f).series? w = if ∃ v ∈ vs, w.key = v.key then none else f.series? w := by
  induction vs generalizing f with
  | nil => simp
  | cons v vs ih =>
    rw [List.foldl_cons, ih, series?_remove]
    by_cases hv : w.key = v.key
    · simp [hv]
    · simp [hv]

/-- Taking series away leads to what is wanted then, if none of it has the key of one of them. -/
theorem Holds.removeAll {want' : LabelValues → Option β} (h : f.Holds g want)
    (vs : List LabelValues) (others : ∀ w ∉ vs, want' w = want w)
    (apart : ∀ v ∈ vs, ∀ w, (want' w).isSome = true → w.key ≠ v.key) :
    (vs.foldl Family.remove f).Holds g want' := by
  intro w
  rw [own?, series?_removeAll]
  by_cases hw : ∃ v ∈ vs, w.key = v.key
  · obtain ⟨v, hv, hkey⟩ := hw
    have hnone : want' w = none := by
      by_contra hne
      exact apart v hv w (Option.isSome_iff_ne_none.mpr hne) hkey
    rw [if_pos ⟨v, hv, hkey⟩, hnone]
    rfl
  · rw [if_neg hw, others w fun hmem => hw ⟨w, hmem, rfl⟩, ← h w, own?]

/-- Setting series one after another leads to what is wanted then, if that is separate. -/
theorem Holds.setAll {want' : LabelValues → Option β} (h : f.Holds g want)
    (ps : List (LabelValues × α)) (added : ∀ p ∈ ps, want' p.1 = some (g p.2))
    (others : ∀ w, (∀ p ∈ ps, w ≠ p.1) → want' w = want w) (separate : Separate want') :
    (ps.foldl (fun f p => f.set p.1 p.2) f).Holds g want' := by
  induction ps generalizing f want with
  | nil => exact fun w => (h w).trans (others w nofun).symm
  | cons p ps ih =>
    have hp : (want' p.1).isSome = true := by rw [added p (by simp)]; rfl
    -- whatever is wanted before this write is wanted at the end, where it is separate
    refine ih (h.set (fun w hw hkey => separate w p.1 ?_ hp hkey) p.2)
      (fun q hq => added q (by simp [hq])) fun w hw => ?_
    · by_cases hmem : ∃ q ∈ p :: ps, w = q.1
      · obtain ⟨q, hq, rfl⟩ := hmem
        rw [added q hq]
        rfl
      · rwa [others w fun q hq heq => hmem ⟨q, hq, heq⟩]
    · by_cases hwp : w = p.1
      · subst hwp
        rw [Function.update_self, added p (by simp)]
      · rw [Function.update_of_ne hwp]
        refine others w fun q hq => ?_
        rcases List.mem_cons.mp hq with rfl | hq
        · exact hwp
        · exact hw q hq

end Family

namespace LabelValues

/-- Label values without the last of them, and the last. -/
def split? (v : LabelValues) : Option (LabelValues × String) :=
  v.texts.getLast?.map fun text => (⟨v.texts.dropLast⟩, text)

@[simp] theorem split?_extended (v : LabelValues) (text : String) :
    (v.extended text).split? = some (v, text) := by
  simp [split?, extended]

/-- Label values that split are the parts put together again. -/
theorem eq_extended_of_split? {v w : LabelValues} {text : String}
    (h : w.split? = some (v, text)) : w = v.extended text := by
  obtain ⟨last, hlast, heq⟩ := Option.map_eq_some_iff.mp h
  cases heq
  obtain ⟨init, hinit⟩ := List.getLast?_eq_some_iff.mp hlast
  exact eq_of_texts (by simp [extended, hinit])

end LabelValues

/-- What has been published at each label values. -/
abbrev Told := LabelValues → Published

namespace Told

/-- Nobody has published anything. -/
def nothing : Told := fun _ => .nothing

/-- What has been published after one more touch. -/
def after (told : Told) (t : Touch) : Told :=
  Function.update told t.labels ((told t.labels).after t.change)

/-- What some touches, in order, have published. -/
def of (touches : List Touch) : Told :=
  touches.foldl after nothing

/-! ### The series that there should be -/

def health (told : Told) (w : LabelValues) : Option Bool :=
  (told w).health

def latency (told : Told) (w : LabelValues) : Option Nat :=
  if (told w).latencies = 0 then none else some (told w).latencies

/-- Of the eight series of an endpoint the one of its category is set. -/
def status (told : Told) (w : LabelValues) : Option Bool :=
  w.split?.bind fun p => (Category.all.find? fun c => c.text == p.2).bind fun c =>
    (told p.1).category.map fun category => decide (c = category)

/-- An endpoint has one series of a detail. -/
def detail (told : Told) (w : LabelValues) : Option Bool :=
  w.split?.bind fun p => if (told p.1).detail = some p.2 then some true else none

/-- A series of a category that there should be is that of an endpoint with a category. -/
theorem exists_of_status {told : Told} {w : LabelValues} (h : (told.status w).isSome = true) :
    ∃ v, ∃ c ∈ Category.all, w = v.extended c.text ∧ (told v).category.isSome = true := by
  obtain ⟨b, hb⟩ := Option.isSome_iff_exists.mp h
  obtain ⟨⟨v, text⟩, hsplit, hb⟩ := Option.bind_eq_some_iff.mp hb
  obtain ⟨c, hc, hb⟩ := Option.bind_eq_some_iff.mp hb
  obtain ⟨category, hcategory, -⟩ := Option.map_eq_some_iff.mp hb
  have htext : c.text = text := by simpa using List.find?_some hc
  refine ⟨v, c, List.mem_of_find?_eq_some hc, ?_, Option.isSome_iff_exists.mpr ⟨_, hcategory⟩⟩
  rw [htext]
  exact LabelValues.eq_extended_of_split? hsplit

/-- A series of a detail that there should be is that of an endpoint with the detail. -/
theorem exists_of_detail {told : Told} {w : LabelValues} (h : (told.detail w).isSome = true) :
    ∃ v text, w = v.extended text ∧ (told v).detail = some text := by
  obtain ⟨b, hb⟩ := Option.isSome_iff_exists.mp h
  obtain ⟨⟨v, text⟩, hsplit, hb⟩ := Option.bind_eq_some_iff.mp hb
  refine ⟨v, text, LabelValues.eq_extended_of_split? hsplit, ?_⟩
  by_contra hne
  simp [hne] at hb

/-- No two series that there should be have the same key. -/
structure Apart (told : Told) : Prop where
  health : Separate told.health
  latency : Separate told.latency
  status : Separate told.status
  detail : Separate told.detail

end Told

namespace Exporter

/-- An exporter has just the series that there should be. -/
structure Faithful (x : Exporter) (told : Told) : Prop where
  health : x.health.Holds id told.health
  latency : x.latency.Holds Histogram.count told.latency
  status : x.status.Holds id told.status
  detail : x.detail.Holds id told.detail
  details : ∀ v, x.details.get? v = (told v).detail

/-- **Only what is apart can be held**: a faithful exporter has a series for all that there should
be, and no two of its series have the same key. -/
theorem Faithful.apart {x : Exporter} {told : Told} (h : x.Faithful told) : told.Apart :=
  ⟨h.health.separate, h.latency.separate, h.status.separate, h.detail.separate⟩

/-- A new exporter has no series, and nothing has been published. -/
theorem faithful_fresh (name : String) (labels : List String) :
    (fresh name labels).Faithful .nothing where
  health _ := rfl
  latency _ := rfl
  status w := by
    cases h : w.split? with
    | none => simp [Told.status, h, fresh, Family.own?, Family.series?_empty]
    | some p =>
      simp [Told.status, h, fresh, Family.own?, Family.series?_empty, Told.nothing,
        Published.nothing]
  detail w := by
    cases h : w.split? with
    | none => simp [Told.detail, h, fresh, Family.own?, Family.series?_empty]
    | some p =>
      simp [Told.detail, h, fresh, Family.own?, Family.series?_empty, Told.nothing,
        Published.nothing]
  details _ := rfl

variable {x : Exporter} {told : Told} {v : LabelValues}

/-- What is wanted of label values alone under their key. -/
private theorem free_of_separate {β : Type} {want : LabelValues → Option β} {b : β}
    (h : Separate (Function.update want v (some b))) (w : LabelValues)
    (hw : (want w).isSome = true) (hkey : w.key = v.key) : w = v := by
  by_contra hne
  exact hne (h w v (by rwa [Function.update_of_ne hne]) (by simp) hkey)

/-! What a touch does not publish, there should be as before. -/

/-- A reading of what has been published stays at all label values if the change keeps it at its
own. -/
private theorem eq_of_untold {β : Type} {F : Published → β} {t : Touch}
    (h : F ((told t.labels).after t.change) = F (told t.labels)) (w : LabelValues) :
    F (told.after t w) = F (told w) := by
  rw [Told.after]
  by_cases hw : w = t.labels
  · rw [hw, Function.update_self, h]
  · rw [Function.update_of_ne hw]

private theorem health_after {t : Touch}
    (h : ((told t.labels).after t.change).health = (told t.labels).health) :
    (told.after t).health = told.health :=
  funext (eq_of_untold h)

private theorem latency_after {t : Touch}
    (h : ((told t.labels).after t.change).latencies = (told t.labels).latencies) :
    (told.after t).latency = told.latency := by
  funext w
  simp only [Told.latency, eq_of_untold h]

theorem status_after {t : Touch}
    (h : ((told t.labels).after t.change).category = (told t.labels).category) :
    (told.after t).status = told.status := by
  funext w
  simp only [Told.status, eq_of_untold h]

theorem detail_after {t : Touch}
    (h : ((told t.labels).after t.change).detail = (told t.labels).detail) :
    (told.after t).detail = told.detail := by
  funext w
  simp only [Told.detail, eq_of_untold h]

private theorem details_after {t : Touch} (hd : ∀ w, x.details.get? w = (told w).detail)
    (h : ((told t.labels).after t.change).detail = (told t.labels).detail) (w : LabelValues) :
    x.details.get? w = (told.after t w).detail := by
  rw [eq_of_untold h, hd]

/-! What it publishes takes the place of what there was. -/

/-- The series of a latency counts one more, or is made with the first. -/
private theorem Faithful.latency_write (h : x.Faithful told) (span : Span)
    (apart : (told.after ⟨0, v, .latency span⟩).Apart) :
    (x.apply v (.latency span)).latency.Holds Histogram.count
      (told.after ⟨0, v, .latency span⟩).latency := by
  have hwant : (told.after ⟨0, v, .latency span⟩).latency =
      Function.update told.latency v (some ((told v).latencies + 1)) := by
    funext w
    by_cases hw : w = v
    · subst hw
      simp [Told.latency, Told.after, Published.after]
    · simp [Told.latency, Told.after, hw]
  have hseparate := apart.latency
  rw [hwant] at hseparate ⊢
  -- the histogram under the key is the endpoint's own, so it has counted what has been published
  have hcount : (((x.latency.get? v).getD Histogram.empty).observe span).count =
      (told v).latencies + 1 := by
    have hget := h.latency.get? (free_of_separate hseparate)
    unfold Told.latency at hget
    cases hv : x.latency.get? v with
    | none =>
      rw [hv] at hget
      split at hget
      next hzero => rw [hzero]; rfl
      next => cases hget
    | some histogram =>
      rw [hv] at hget
      split at hget
      next => cases hget
      next => exact congrArg (· + 1) (Option.some.inj hget)
  rw [← hcount]
  exact h.latency.set (free_of_separate hseparate) _

/-- The series of health has the new value. -/
private theorem Faithful.health_write (h : x.Faithful told) (healthy : Bool)
    (apart : (told.after ⟨0, v, .health healthy⟩).Apart) :
    (x.apply v (.health healthy)).health.Holds id
      (told.after ⟨0, v, .health healthy⟩).health := by
  have hwant : (told.after ⟨0, v, .health healthy⟩).health =
      Function.update told.health v (some healthy) := by
    funext w
    by_cases hw : w = v
    · subst hw
      simp [Told.health, Told.after, Published.after]
    · simp [Told.health, Told.after, hw]
  have hseparate := apart.health
  rw [hwant] at hseparate ⊢
  exact h.health.set (free_of_separate hseparate) healthy

theorem find?_text : ∀ c ∈ Category.all,
    (Category.all.find? fun c' => c'.text == c.text) = some c := by
  decide

/-- The series of other endpoints, and those of no category, stay as they are wanted. -/
theorem status_congr {told' : Told} (h : ∀ u ≠ v, told' u = told u) {w : LabelValues}
    (hw : ∀ c ∈ Category.all, w ≠ v.extended c.text) : told'.status w = told.status w := by
  unfold Told.status
  cases hsplit : w.split? with
  | none => rfl
  | some p =>
    by_cases hv : p.1 = v
    · -- other texts at the end of these label values name no category
      have hnone : (Category.all.find? fun c => c.text == p.2) = none := by
        refine List.find?_eq_none.mpr fun c hc htext => hw c hc ?_
        rw [LabelValues.eq_extended_of_split? hsplit, hv, beq_iff_eq.mp htext]
      simp [hnone]
    · simp [h p.1 hv]

/-- There should be a series of each category where one has been published. -/
theorem status_after_self (told : Told) (v : LabelValues) (category : Category) {c : Category}
    (hc : c ∈ Category.all) :
    (told.after ⟨0, v, .status category⟩).status (v.extended c.text) =
      some (decide (c = category)) := by
  simp [Told.status, find?_text c hc, Told.after, Published.after]

/-- To publish a category is to have the eight series of it. -/
theorem status_write (h : x.status.Holds id told.status) (category : Category)
    (separate : Separate (told.after ⟨0, v, .status category⟩).status) :
    (x.apply v (.status category)).status.Holds id
      (told.after ⟨0, v, .status category⟩).status := by
  have hfold := h.setAll
    (Category.all.map fun c => (v.extended c.text, decide (c = category))) ?_ ?_ separate
  · rwa [List.foldl_map] at hfold
  · intro p hp
    obtain ⟨c, hc, rfl⟩ := List.mem_map.mp hp
    exact status_after_self told v category hc
  · intro w hw
    refine status_congr (v := v) (fun u hu => ?_) fun c hc => ?_
    · rw [Told.after, Function.update_of_ne hu]
    · exact hw (v.extended c.text, _) (List.mem_map_of_mem hc)

/-- What has been published when the detail at some label values is forgotten. -/
def forget (told : Told) (v : LabelValues) : Told :=
  Function.update told v { told v with detail := none }

/-- To publish a detail is to have the one series of it. -/
private theorem detail_published (text : String) :
    (told.after ⟨0, v, .detail text⟩).detail =
      Function.update (forget told v).detail (v.extended text) (some true) := by
  funext w
  by_cases hw : w = v.extended text
  · subst hw
    simp [Told.detail, Told.after, Published.after]
  · rw [Function.update_of_ne hw, Told.detail, Told.detail]
    cases hsplit : w.split? with
    | none => rfl
    | some p =>
      by_cases hv : p.1 = v
      · have htext : text ≠ p.2 := fun heq =>
          hw (by rw [LabelValues.eq_extended_of_split? hsplit, hv, heq])
        simp [Told.after, Published.after, forget, hv, htext]
      · simp [Told.after, forget, hv]

/-- To forget a detail is to lose the one series of it. -/
private theorem detail_forgotten {before : String} (h : (told v).detail = some before) :
    (forget told v).detail = Function.update told.detail (v.extended before) none := by
  funext w
  by_cases hw : w = v.extended before
  · subst hw
    simp [Told.detail, forget]
  · rw [Function.update_of_ne hw, Told.detail, Told.detail]
    cases hsplit : w.split? with
    | none => rfl
    | some p =>
      by_cases hv : p.1 = v
      · have htext : before ≠ p.2 := fun heq =>
          hw (by rw [LabelValues.eq_extended_of_split? hsplit, hv, heq])
        simp [forget, hv, h, htext]
      · simp [forget, hv]

/-- Taking away the one series of a detail is to forget it. -/
theorem detail_remove {f : Family Bool} (h : f.Holds id told.detail) {before : String}
    (hd : (told v).detail = some before) :
    (f.remove (v.extended before)).Holds id (forget told v).detail := by
  have hpresent : (told.detail (v.extended before)).isSome = true := by
    simp [Told.detail, hd]
  rw [detail_forgotten hd]
  exact h.remove fun w hw hkey => h.separate w (v.extended before) hw hpresent hkey

/-- A detail takes the place of the one that the table leads to. -/
theorem detail_write (h : x.detail.Holds id told.detail)
    (hdetails : x.details.get? v = (told v).detail) (text : String)
    (hseparate : Separate (told.after ⟨0, v, .detail text⟩).detail) :
    (x.apply v (.detail text)).detail.Holds id
      (told.after ⟨0, v, .detail text⟩).detail := by
  cases hd : (told v).detail with
  | none =>
    have hforget : forget told v = told := by
      rw [forget, ← hd]
      exact Function.update_eq_self v told
    rw [detail_published, hforget] at hseparate ⊢
    simp only [apply, hdetails, hd]
    exact h.set (free_of_separate hseparate) true
  | some before =>
    by_cases hsame : before = text
    · subst hsame
      have hafter : (told.after ⟨0, v, .detail before⟩).detail = told.detail :=
        detail_after (by rw [hd]; rfl)
      have hwanted : Function.update told.detail (v.extended before) (some true) = told.detail := by
        rw [Function.update_eq_self_iff]
        simp [Told.detail, hd]
      rw [hafter] at hseparate ⊢
      simp only [apply, hdetails, hd, if_true]
      rw [← hwanted] at hseparate ⊢
      exact h.set (free_of_separate hseparate) true
    · -- the series of the detail before goes first, and frees its key if the new one has the same
      rw [detail_published] at hseparate ⊢
      simp only [apply, hdetails, hd, hsame, if_false]
      exact (detail_remove h hd).set (free_of_separate hseparate) true

/-- A write keeps the table of details at what has been published. -/
theorem details_write (hd : ∀ w, x.details.get? w = (told w).detail) {t : Touch}
    (hc : ∀ place, t.change ≠ .cleared place) (w : LabelValues) :
    (x.apply t.labels t.change).details.get? w = (told.after t w).detail := by
  obtain ⟨i, v, c⟩ := t
  cases c with
  | detail text =>
    by_cases hw : w = v
    · subst hw
      simp [apply, Told.after, Published.after]
    · simpa [apply, Told.after, hw] using hd w
  | latency | status | health => exact details_after hd rfl w
  | cleared place => exact absurd rfl (hc place)

/-- **A write keeps an exporter faithful**, if what there should be then is apart. -/
theorem Faithful.write (h : x.Faithful told) {t : Touch}
    (hc : ∀ place, t.change ≠ .cleared place) (apart : (told.after t).Apart) :
    (x.apply t.labels t.change).Faithful (told.after t) := by
  obtain ⟨i, v, c⟩ := t
  cases c with
  | latency span =>
    refine ⟨?_, h.latency_write span apart, ?_, ?_, details_write h.details hc⟩
    · rw [health_after rfl]
      exact h.health
    · rw [status_after rfl]
      exact h.status
    · rw [detail_after rfl]
      exact h.detail
  | status category =>
    refine ⟨?_, ?_, status_write h.status category apart.status, ?_, details_write h.details hc⟩
    · rw [health_after rfl]
      exact h.health
    · rw [latency_after rfl]
      exact h.latency
    · rw [detail_after rfl]
      exact h.detail
  | detail text =>
    refine ⟨?_, ?_, ?_, detail_write h.detail (h.details v) text apart.detail,
      details_write h.details hc⟩
    · rw [health_after rfl]
      exact h.health
    · rw [latency_after rfl]
      exact h.latency
    · rw [status_after rfl]
      exact h.status
  | health healthy =>
    refine ⟨h.health_write healthy apart, ?_, ?_, ?_, details_write h.details hc⟩
    · rw [latency_after rfl]
      exact h.latency
    · rw [status_after rfl]
      exact h.status
    · rw [detail_after rfl]
      exact h.detail
  | cleared place => exact absurd rfl (hc place)

/-! ### One endpoint -/

/-- An exporter shows what has been published at some label values: there are just these series of
them. -/
structure Shows (x : Exporter) (v : LabelValues) (p : Published) : Prop where
  health : x.health.own? v = p.health
  latency : (x.latency.own? v).map Histogram.count =
    if p.latencies = 0 then none else some p.latencies
  /-- One series of each category, of which that of the last check is set. -/
  status : ∀ text, x.status.own? (v.extended text) =
    (Category.all.find? fun c => c.text == text).bind fun c =>
      p.category.map fun category => decide (c = category)
  /-- One series, that of the last detail. -/
  detail : ∀ text, x.detail.own? (v.extended text) =
    if p.detail = some text then some true else none

/-- **A faithful exporter shows** what has been published at each label values. -/
theorem Faithful.shows (h : x.Faithful told) (v : LabelValues) : x.Shows v (told v) where
  health := by
    have hv := h.health v
    rwa [Option.map_id] at hv
  latency := h.latency v
  status text := by simpa [Told.status] using h.status (v.extended text)
  detail text := by simpa [Told.detail] using h.detail (v.extended text)

/-- Nothing published is shown when there is no series of the label values. -/
theorem shows_nothing_iff : x.Shows v .nothing ↔
    v ∉ x.health.labels ∧ v ∉ x.latency.labels ∧ (∀ text, v.extended text ∉ x.status.labels) ∧
      ∀ text, v.extended text ∉ x.detail.labels := by
  simp only [Family.mem_labels_iff_own?, Bool.not_eq_true,
    Option.isSome_eq_false_iff, Option.isNone_iff_eq_none]
  constructor
  · intro h
    refine ⟨h.health, Option.map_eq_none_iff.mp h.latency, fun text => ?_, h.detail⟩
    rw [h.status text]
    cases Category.all.find? fun c => c.text == text <;> rfl
  · rintro ⟨health, latency, status, detail⟩
    refine ⟨health, by rw [latency]; rfl, fun text => ?_, detail⟩
    rw [status text]
    cases Category.all.find? fun c => c.text == text <;> rfl

/-- Series that are shown together are apart. -/
theorem apart_of_shows (h : ∀ v, told v = .nothing ∨ x.Shows v (told v)) : told.Apart where
  health := Family.separate_of_own? (f := x.health) fun v hv => by
    rcases h v with hnothing | hshows
    · simp [Told.health, hnothing, Published.nothing] at hv
    · rwa [hshows.health]
  latency := Family.separate_of_own? (f := x.latency) fun v hv => by
    rcases h v with hnothing | hshows
    · simp [Told.latency, hnothing, Published.nothing] at hv
    · rwa [← Option.isSome_map (f := Histogram.count), hshows.latency]
  status := Family.separate_of_own? (f := x.status) fun w hw => by
    obtain ⟨v, c, hc, rfl, hsome⟩ := Told.exists_of_status hw
    rcases h v with hnothing | hshows
    · simp [hnothing, Published.nothing] at hsome
    · simpa [hshows.status, find?_text c hc] using hsome
  detail := Family.separate_of_own? (f := x.detail) fun w hw => by
    obtain ⟨v, text, rfl, hsome⟩ := Told.exists_of_detail hw
    rcases h v with hnothing | hshows
    · simp [hnothing, Published.nothing] at hsome
    · simp [hshows.detail, hsome]

end Exporter

/-! ### Touches whose series have different keys -/

/-- The families of an exporter. -/
inductive Exporter.Site where
  | health
  | latency
  | status
  | detail
  deriving DecidableEq, Repr

/-- The series that a touch writes to, each in its family. -/
def Touch.written (t : Touch) : List (Exporter.Site × LabelValues) :=
  match t.change with
  | .latency _ => [(.latency, t.labels)]
  | .status _ => Category.all.map fun c => (.status, t.labels.extended c.text)
  | .detail text => [(.detail, t.labels.extended text)]
  | .health _ => [(.health, t.labels)]
  | .cleared _ => []

namespace Told

/-- Whether there should be a series of a family for label values. -/
def wants (told : Told) (w : LabelValues) : Exporter.Site → Bool
  | .health => (told.health w).isSome
  | .latency => (told.latency w).isSome
  | .status => (told.status w).isSome
  | .detail => (told.detail w).isSome

/-- There should be no series but those that have been written to. -/
theorem wants_after {told : Told} {t : Touch} {w : LabelValues} {site : Exporter.Site}
    (h : (told.after t).wants w site = true) :
    told.wants w site = true ∨ (site, w) ∈ t.written := by
  obtain ⟨i, v, c⟩ := t
  cases site with
  | health =>
    cases c with
    | health healthy =>
      by_cases hw : w = v
      · exact Or.inr (by simp [Touch.written, hw])
      · exact Or.inl (by simpa [wants, health, after, hw] using h)
    | latency | status | detail | cleared =>
      exact Or.inl (by rwa [wants, Exporter.health_after rfl] at h)
  | latency =>
    cases c with
    | latency span =>
      by_cases hw : w = v
      · exact Or.inr (by simp [Touch.written, hw])
      · exact Or.inl (by simpa [wants, latency, after, hw] using h)
    | health | status | detail | cleared =>
      exact Or.inl (by rwa [wants, Exporter.latency_after rfl] at h)
  | status =>
    cases c with
    | status category =>
      obtain ⟨u, c, hc, rfl, -⟩ := exists_of_status h
      by_cases hu : u = v
      · exact Or.inr (List.mem_map.mpr ⟨c, hc, by rw [hu]⟩)
      · exact Or.inl (by simpa [wants, status, after, hu] using h)
    | latency | health | detail | cleared =>
      exact Or.inl (by rwa [wants, Exporter.status_after rfl] at h)
  | detail =>
    cases c with
    | detail text =>
      obtain ⟨u, text', rfl, htext⟩ := exists_of_detail h
      by_cases hu : u = v
      · subst hu
        simp only [after, Function.update_self, Published.after, Option.some.injEq] at htext
        exact Or.inr (List.mem_singleton.mpr (by rw [htext]))
      · exact Or.inl (by simpa [wants, detail, after, hu] using h)
    | latency | health | status | cleared =>
      exact Or.inl (by rwa [wants, Exporter.detail_after rfl] at h)

/-- Every series that there should be after some touches has been written to by one of them. -/
theorem mem_written_of_wants {ts : List Touch} {w : LabelValues} {site : Exporter.Site}
    (h : (of ts).wants w site = true) : (site, w) ∈ ts.flatMap Touch.written := by
  induction ts using List.reverseRecOn with
  | nil =>
    refine absurd h ?_
    cases site with
    | health | latency => simp [wants, of, health, latency, nothing, Published.nothing]
    | status =>
      cases hsplit : w.split? <;>
        simp [wants, of, status, nothing, Published.nothing, hsplit]
    | detail =>
      cases hsplit : w.split? <;>
        simp [wants, of, detail, nothing, Published.nothing, hsplit]
  | append_singleton ts t ih =>
    rw [of, List.foldl_append] at h
    rw [List.flatMap_append, List.flatMap_singleton, List.mem_append]
    exact (wants_after h).imp_left ih

end Told

/-- The series that some touches write to have different keys in each family. -/
def KeysDiffer (ts : List Touch) : Prop :=
  ∀ p ∈ ts.flatMap Touch.written, ∀ q ∈ ts.flatMap Touch.written,
    p.1 = q.1 → p.2.key = q.2.key → p.2 = q.2

instance (ts : List Touch) : Decidable (KeysDiffer ts) :=
  inferInstanceAs (Decidable (∀ p ∈ _, ∀ q ∈ _, _))

theorem KeysDiffer.mono {ts us : List Touch} (h : KeysDiffer us) (hts : ts <+: us) :
    KeysDiffer ts := by
  obtain ⟨rest, rfl⟩ := hts
  rw [KeysDiffer, List.flatMap_append] at h
  exact fun p hp q hq => h p (List.mem_append_left _ hp) q (List.mem_append_left _ hq)

/-- Touches whose series have different keys ask only for what is apart. -/
theorem KeysDiffer.apart {ts : List Touch} (h : KeysDiffer ts) : (Told.of ts).Apart := by
  have separate (site : Exporter.Site) {v w : LabelValues}
      (hv : (Told.of ts).wants v site = true) (hw : (Told.of ts).wants w site = true)
      (hkey : v.key = w.key) : v = w :=
    h _ (Told.mem_written_of_wants hv) _ (Told.mem_written_of_wants hw) rfl hkey
  exact ⟨fun _ _ => separate .health, fun _ _ => separate .latency, fun _ _ => separate .status,
    fun _ _ => separate .detail⟩

end HealthMonitor
