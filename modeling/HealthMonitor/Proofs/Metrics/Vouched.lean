import HealthMonitor.Proofs.Metrics.Changes

/-!
# Who answers for the series of an exporter

Every series of an exporter is answered for (`Exporter.Vouched`): for the place that it is at, or,
if it is the series of a detail, for the entry of the table that leads to it. A write of an endpoint
whose places are answered for keeps it so (`Exporter.Vouched.write`). Once a place is cleared its
series need no answer any more, and what turns out to be left needs one
(`Exporter.Vouched.clear`).

Nothing is assumed of the keys of series: a series stays what it was made for, also when label
values of one key share it.
-/

namespace HealthMonitor

namespace Exporter

/-- Somebody answers for every series of an exporter: for the place that it is at, or, if it is the
series of a detail, for the entry of the table that leads to it. -/
structure Vouched (x : Exporter) (answered : Removal → LabelValues → Prop) : Prop where
  health : ∀ w ∈ x.health.labels, answered .health w
  latency : ∀ w ∈ x.latency.labels, answered .latency w
  status : ∀ w ∈ x.status.labels, ∃ v, ∃ c ∈ Category.all,
    w = v.extended c.text ∧ answered .status v
  detail : ∀ w ∈ x.detail.labels, ∃ v text, w = v.extended text ∧
    (x.details.get? v = some text ∧ answered .memory v ∨ answered (.detail text) v)

theorem vouched_fresh (name : String) (labels : List String)
    {answered : Removal → LabelValues → Prop} : (fresh name labels).Vouched answered where
  health w hw := by simp [fresh] at hw
  latency w hw := by simp [fresh] at hw
  status w hw := by simp [fresh] at hw
  detail w hw := by simp [fresh] at hw

variable {x : Exporter} {answered answered' : Removal → LabelValues → Prop}

/-- Whoever answers for more answers for what was answered for. -/
theorem Vouched.imp (h : x.Vouched answered)
    (himp : ∀ place v, answered place v → answered' place v) : x.Vouched answered' where
  health w hw := himp _ _ (h.health w hw)
  latency w hw := himp _ _ (h.latency w hw)
  status w hw := by
    obtain ⟨v, c, hc, hv, ha⟩ := h.status w hw
    exact ⟨v, c, hc, hv, himp _ _ ha⟩
  detail w hw := by
    obtain ⟨v, text, hv, ha⟩ := h.detail w hw
    exact ⟨v, text, hv, ha.imp (And.imp_right (himp _ _)) (himp _ _)⟩

/-- Setting the series of categories makes no others. -/
theorem mem_labels_setAll {f : Family Bool} {v w : LabelValues} {cs : List Category}
    {value : Category → Bool}
    (h : w ∈ (cs.foldl (fun f c => f.set (v.extended c.text) (value c)) f).labels) :
    (∃ c ∈ cs, w = v.extended c.text) ∨ w ∈ f.labels := by
  induction cs generalizing f with
  | nil => exact Or.inr h
  | cons c cs ih =>
    rcases ih h with ⟨c', hc', heq⟩ | h
    · exact Or.inl ⟨c', List.mem_cons_of_mem _ hc', heq⟩
    · exact (Family.mem_labels_set h).imp_left fun h => ⟨c, List.mem_cons_self, h⟩

/-- Taking the series of categories away leaves none of them. -/
theorem mem_labels_removeAll {f : Family Bool} {v w : LabelValues} {cs : List Category}
    (h : w ∈ (cs.foldl (fun f c => f.remove (v.extended c.text)) f).labels) :
    (∀ c ∈ cs, w ≠ v.extended c.text) ∧ w ∈ f.labels := by
  induction cs generalizing f with
  | nil => exact ⟨nofun, h⟩
  | cons c cs ih =>
    obtain ⟨hcs, hw⟩ := ih h
    obtain ⟨hkey, hw⟩ := Family.mem_labels_remove hw
    refine ⟨fun c' hc' => ?_, hw⟩
    rcases List.mem_cons.mp hc' with rfl | hc'
    · exact fun heq => hkey (by rw [heq])
    · exact hcs c' hc'

/-- A write of an endpoint that is answered for leaves every series answered for. -/
theorem Vouched.write (h : x.Vouched answered) {v : LabelValues}
    (hv : ∀ place ∈ removals, answered place v) {c : Change} (hc : ∀ place, c ≠ .cleared place) :
    (x.apply v c).Vouched answered := by
  cases c with
  | latency span =>
    refine ⟨h.health, fun w hw => ?_, h.status, h.detail⟩
    rcases Family.mem_labels_set hw with rfl | hw
    · exact hv _ (by simp [removals])
    · exact h.latency w hw
  | status category =>
    refine ⟨h.health, h.latency, fun w hw => ?_, h.detail⟩
    rcases mem_labels_setAll hw with ⟨c, hc, rfl⟩ | hw
    · exact ⟨v, c, hc, rfl, hv _ (by simp [removals])⟩
    · exact h.status w hw
  | detail text =>
    refine ⟨h.health, h.latency, h.status, fun w hw => ?_⟩
    have hmemory : answered .memory v := hv _ (by simp [removals])
    rcases Family.mem_labels_set hw with rfl | hw
    · exact ⟨v, text, rfl, Or.inl ⟨by simp [apply], hmemory⟩⟩
    · -- an older series stays, unless it was the one that the entry led to
      have hold : w ∈ x.detail.labels ∧
          ∀ before, x.details.get? v = some before → w = v.extended before → before = text := by
        split at hw
        next before hbefore =>
          split at hw
          next heq => exact ⟨hw, fun b hb _ => (Option.some.inj (hb.symm.trans hbefore)).trans heq⟩
          next =>
            obtain ⟨hkey, hw⟩ := Family.mem_labels_remove hw
            refine ⟨hw, fun b hb heq => absurd ?_ hkey⟩
            rw [heq, Option.some.inj (hb.symm.trans hbefore)]
        next hnone => exact ⟨hw, fun b hb => by simp [hnone] at hb⟩
      obtain ⟨v', text', hlabels, ha⟩ := h.detail w hold.1
      refine ⟨v', text', hlabels, ha.imp_left (And.imp_left fun hget => ?_)⟩
      by_cases hv' : v' = v
      · subst hv'
        rw [hold.2 text' hget hlabels]
        simp [apply]
      · simpa [apply, hv'] using hget
  | health healthy =>
    refine ⟨fun w hw => ?_, h.latency, h.status, h.detail⟩
    rcases Family.mem_labels_set hw with rfl | hw
    · exact hv _ (by simp [removals])
    · exact h.health w hw
  | cleared place => exact absurd rfl (hc place)

/-! ### Clearing -/

variable {v w : LabelValues} {place : Removal}

/-- The series of health that a clearing leaves were there, and are not those of the cleared place.
-/
private theorem health_of_clear (h : w ∈ (x.clear v place).health.labels) :
    w ∈ x.health.labels ∧ (.health = place → w ≠ v) := by
  cases place with
  | health =>
    obtain ⟨hkey, hw⟩ := Family.mem_labels_remove h
    exact ⟨hw, fun _ heq => hkey (by rw [heq])⟩
  | latency | status | memory | detail => exact ⟨h, nofun⟩

/-- The series of latencies that a clearing leaves were there, and are not those of the cleared
place. -/
private theorem latency_of_clear (h : w ∈ (x.clear v place).latency.labels) :
    w ∈ x.latency.labels ∧ (.latency = place → w ≠ v) := by
  cases place with
  | latency =>
    obtain ⟨hkey, hw⟩ := Family.mem_labels_remove h
    exact ⟨hw, fun _ heq => hkey (by rw [heq])⟩
  | health | status | memory | detail => exact ⟨h, nofun⟩

/-- The series of categories that a clearing leaves were there; where it clears them, it takes all
eight. -/
private theorem status_of_clear (h : w ∈ (x.clear v place).status.labels) :
    w ∈ x.status.labels ∧ (.status = place → ∀ c ∈ Category.all, w ≠ v.extended c.text) := by
  cases place with
  | status =>
    obtain ⟨hne, hw⟩ := mem_labels_removeAll h
    exact ⟨hw, fun _ => hne⟩
  | health | latency | memory | detail => exact ⟨h, nofun⟩

/-- The series of details that a clearing leaves were there, and are not the one that it is about.
-/
private theorem detail_of_clear (h : w ∈ (x.clear v place).detail.labels) :
    w ∈ x.detail.labels ∧ ∀ text, .detail text = place → w ≠ v.extended text := by
  cases place with
  | detail text =>
    obtain ⟨hkey, hw⟩ := Family.mem_labels_remove h
    refine ⟨hw, fun text' htext heq => hkey ?_⟩
    cases htext
    rw [heq]
  | health | latency | status | memory => exact ⟨h, nofun⟩

/-- The entry of the table at label values stays, or the series it leads to turns out to be left. -/
private theorem details_of_clear (v : LabelValues) (place : Removal) {text : String}
    (h : x.details.get? w = some text) :
    (x.clear v place).details.get? w = some text ∧ (.memory = place → w ≠ v) ∨
      w = v ∧ .detail text ∈ x.remainder v place := by
  cases place with
  | memory =>
    by_cases hw : w = v
    · refine Or.inr ⟨hw, ?_⟩
      simp [remainder, ← hw, h]
    · refine Or.inl ⟨?_, fun _ => hw⟩
      simpa [clear, hw] using h
  | health | latency | status | detail =>
    refine Or.inl ⟨h, fun hplace => ?_⟩
    cases hplace

/-- When a place is cleared, the series there need no answer any more, and what turns out to be left
needs one. -/
theorem Vouched.clear (h : x.Vouched answered)
    (kept : ∀ place' w, answered place' w → (place' = place → w ≠ v) → answered' place' w)
    (found : ∀ place' ∈ x.remainder v place, answered' place' v) :
    (x.clear v place).Vouched answered' := by
  refine ⟨fun w hw => ?_, fun w hw => ?_, fun w hw => ?_, fun w hw => ?_⟩
  · obtain ⟨hw, hne⟩ := health_of_clear hw
    exact kept _ _ (h.health w hw) hne
  · obtain ⟨hw, hne⟩ := latency_of_clear hw
    exact kept _ _ (h.latency w hw) hne
  · obtain ⟨hw, hne⟩ := status_of_clear hw
    obtain ⟨v', c, hc, rfl, ha⟩ := h.status w hw
    exact ⟨v', c, hc, rfl, kept _ _ ha fun hplace heq => hne hplace c hc (by rw [heq])⟩
  · obtain ⟨hw, hne⟩ := detail_of_clear hw
    obtain ⟨v', text, rfl, ⟨hget, ha⟩ | ha⟩ := h.detail w hw
    · rcases details_of_clear v place hget with ⟨hget, hv'⟩ | ⟨rfl, hleft⟩
      · exact ⟨v', text, rfl, Or.inl ⟨hget, kept _ _ ha hv'⟩⟩
      · exact ⟨v', text, rfl, Or.inr (found _ hleft)⟩
    · exact ⟨v', text, rfl, Or.inr (kept _ _ ha fun hplace heq => hne text hplace (by rw [heq]))⟩

end Exporter

end HealthMonitor
