import HealthMonitor.Proofs.Metrics.Faithful

/-!
# What marks leave of a family

A family only ever sees marks: the series that label values lead to is given a value, or it is
taken away. After some marks there is a series under a key just if its series has been written to
since it was last taken away. It has the label values of the first of these writes and the value of
the last (`Family.series?_ofMarks`), so the series of label values stands with a value just if that
is so (`Family.own?_ofMarks`). The changes of an exporter are marks on its families
(`Exporter.apply_health`, `Exporter.apply_detail`).
-/

namespace HealthMonitor

/-- One thing that is done to a family. -/
structure Mark (α : Type) where
  labels : LabelValues
  /-- The value that is written, unless the series is taken away. -/
  value : Option α
  deriving DecidableEq, Repr

namespace Family

variable {α : Type}

def mark (f : Family α) (m : Mark α) : Family α :=
  match m.value with
  | some a => f.set m.labels a
  | none => f.remove m.labels

/-- What some marks, in order, leave of a family that was empty. -/
def ofMarks (ms : List (Mark α)) : Family α :=
  ms.foldl mark empty

theorem ofMarks_append (ms ns : List (Mark α)) :
    ofMarks (ms ++ ns) = ns.foldl mark (ofMarks ms) :=
  List.foldl_append

end Family

section Standing

variable {α : Type} {ms : List (Mark α)} {v w : LabelValues}

/-- The writes under a key since its series was last taken away. -/
def standing (key : SeriesKey) (ms : List (Mark α)) : List (LabelValues × α) :=
  ms.foldl
    (fun writes m =>
      if m.labels.key = key then m.value.elim [] fun a => writes ++ [(m.labels, a)] else writes) []

/-- A write under the key is added to those that stand, and a removal ends them. -/
theorem standing_concat (key : SeriesKey) (ms : List (Mark α)) (m : Mark α) :
    standing key (ms ++ [m]) =
      if m.labels.key = key then m.value.elim [] fun a => standing key ms ++ [(m.labels, a)]
      else standing key ms := by
  rw [standing, List.foldl_append]
  rfl

/-- **The series under a key** has the label values of the first write that stands and the value of
the last. -/
theorem Family.series?_ofMarks (ms : List (Mark α)) (v : LabelValues) :
    (ofMarks ms).series? v = (standing v.key ms).head?.bind fun first =>
      (standing v.key ms).getLast?.map fun last => ⟨first.1, last.2⟩ := by
  induction ms using List.reverseRecOn with
  | nil => rfl
  | append_singleton ms m ih =>
    obtain ⟨u, value⟩ := m
    rw [ofMarks_append, List.foldl_cons, List.foldl_nil, standing_concat]
    by_cases hkey : u.key = v.key
    · rw [if_pos hkey]
      cases value with
      | none =>
        rw [mark, series?_remove, if_pos hkey.symm]
        rfl
      | some a =>
        -- a series keeps the label values that it was made for, whoever writes to it
        have hsame : (ofMarks ms).series? u = (ofMarks ms).series? v := by
          rw [series?, hkey, series?]
        rw [mark, series?_set, if_pos hkey.symm, labelsFor, hsame, ih]
        cases standing v.key ms <;> simp [List.getLast?_cons]
    · rw [if_neg hkey, ← ih]
      cases value with
      | none => rw [mark, series?_remove, if_neg (Ne.symm hkey)]
      | some a => rw [mark, series?_set, if_neg (Ne.symm hkey)]

/-- After some marks the series of label values stands with a value: since its key was last taken
away, the first write there was at these label values, and the last wrote the value. -/
def Stands (ms : List (Mark α)) (v : LabelValues) (a : α) : Prop :=
  (standing v.key ms).head?.map Prod.fst = some v ∧
    (standing v.key ms).getLast?.map Prod.snd = some a

instance [DecidableEq α] (ms : List (Mark α)) (v : LabelValues) (a : α) :
    Decidable (Stands ms v a) :=
  inferInstanceAs (Decidable (_ ∧ _))

/-- **The series of label values** has a value after some marks just if it stands with that value.
-/
theorem Family.own?_ofMarks {a : α} : (ofMarks ms).own? v = some a ↔ Stands ms v a := by
  rw [own?_eq_some, series?_ofMarks, Stands]
  cases standing v.key ms with
  | nil => simp
  | cons first rest => simp [List.getLast?_cons]

/-! ### Marks that do not mix -/

/-- Different label values of some marks have different keys. -/
def Unmixed (ms : List (Mark α)) : Prop :=
  ∀ m ∈ ms, ∀ n ∈ ms, m.labels.key = n.labels.key → m.labels = n.labels

instance (ms : List (Mark α)) : Decidable (Unmixed ms) :=
  inferInstanceAs (Decidable (∀ m ∈ ms, ∀ n ∈ ms, _))

/-- The last of some marks at label values: the value that it wrote, if it wrote one. -/
def lastAt (v : LabelValues) (ms : List (Mark α)) : Option (Option α) :=
  (ms.filter fun m => m.labels = v).getLast?.map Mark.value

theorem lastAt_append_of_ne {ns : List (Mark α)} (h : ∀ n ∈ ns, n.labels ≠ v) :
    lastAt v (ms ++ ns) = lastAt v ms := by
  have hnone : ns.filter (fun m => m.labels = v) = [] :=
    List.filter_eq_nil_iff.mpr fun n hn => by simpa using h n hn
  rw [lastAt, List.filter_append, hnone, List.append_nil, lastAt]

@[simp] theorem lastAt_concat_self (ms : List (Mark α)) (v : LabelValues) (value : Option α) :
    lastAt v (ms ++ [⟨v, value⟩]) = some value := by
  simp [lastAt]

/-- What stands under a key has been written there. -/
private theorem mem_of_mem_standing {key : SeriesKey} {p : LabelValues × α}
    (h : p ∈ standing key ms) : ∃ m ∈ ms, m.labels = p.1 ∧ p.1.key = key := by
  induction ms using List.reverseRecOn with
  | nil => cases h
  | append_singleton ms m ih =>
    have hold (h : p ∈ standing key ms) : ∃ n ∈ ms ++ [m], n.labels = p.1 ∧ p.1.key = key := by
      obtain ⟨n, hn, hp⟩ := ih h
      exact ⟨n, List.mem_append_left _ hn, hp⟩
    rw [standing_concat] at h
    split at h
    next hkey =>
      cases hv : m.value with
      | none => simp [hv] at h
      | some a =>
        rw [hv, Option.elim_some] at h
        rcases List.mem_append.mp h with h | h
        · exact hold h
        · rw [List.mem_singleton.mp h]
          exact ⟨m, by simp, rfl, hkey⟩
    next => exact hold h

/-- Where label values are alone under their key, what stands is their last mark, if that wrote. -/
private theorem last_standing (alone : ∀ m ∈ ms, m.labels.key = v.key → m.labels = v) :
    (standing v.key ms).getLast?.map Prod.snd = (lastAt v ms).join := by
  induction ms using List.reverseRecOn with
  | nil => rfl
  | append_singleton ms m ih =>
    have ih := ih fun n hn => alone n (by simp [hn])
    rw [standing_concat]
    split
    next hkey =>
      obtain ⟨u, value⟩ := m
      obtain rfl : u = v := alone _ (by simp) hkey
      cases value <;> simp
    next hkey =>
      rw [ih, lastAt_append_of_ne]
      rintro n hn rfl
      rw [List.mem_singleton.mp hn] at hkey
      exact hkey rfl

/-- Where marks do not mix, what was last written stands. -/
theorem Unmixed.stands (h : Unmixed ms) {a : α} (last : lastAt v ms = some (some a)) :
    Stands ms v a := by
  obtain ⟨m, hm, rfl⟩ : ∃ m ∈ ms, m.labels = v := by
    obtain ⟨m, hlast, -⟩ := Option.map_eq_some_iff.mp last
    obtain ⟨hm, hv⟩ := List.mem_filter.mp (List.mem_of_getLast? hlast)
    exact ⟨m, hm, of_decide_eq_true hv⟩
  have hlast := last_standing fun n hn hkey => h n hn m hm hkey
  rw [last, Option.join_some] at hlast
  refine ⟨?_, hlast⟩
  cases hs : standing m.labels.key ms with
  | nil => simp [hs] at hlast
  | cons first rest =>
    obtain ⟨n, hn, hlabels, hkey⟩ := mem_of_mem_standing (hs ▸ List.mem_cons_self)
    rw [List.head?_cons, Option.map_some, ← hlabels, h n hn m hm (hlabels ▸ hkey)]

end Standing

/-! ### The marks of changes -/

/-- What a touch does to the family of health. -/
def Touch.healthMarks (t : Touch) : List (Mark Bool) :=
  match t.change with
  | .health healthy => [⟨t.labels, some healthy⟩]
  | .cleared .health => [⟨t.labels, none⟩]
  | _ => []

/-- A touch marks the health of its own label values. -/
theorem Touch.labels_of_mem_healthMarks {t : Touch} {m : Mark Bool} (h : m ∈ t.healthMarks) :
    m.labels = t.labels := by
  unfold healthMarks at h
  split at h
  next => rw [List.mem_singleton.mp h]
  next => rw [List.mem_singleton.mp h]
  next => cases h

namespace Exporter

/-- What a touch does to the family of details, as the table of details has it. -/
def detailMarks (x : Exporter) (t : Touch) : List (Mark Bool) :=
  match t.change with
  | .detail text =>
    ((x.details.get? t.labels).toList.filter fun before => before ≠ text).map
      (fun before => ⟨t.labels.extended before, none⟩) ++ [⟨t.labels.extended text, some true⟩]
  | .cleared (.detail text) => [⟨t.labels.extended text, none⟩]
  | _ => []

/-- A touch marks details of its own label values. -/
theorem labels_of_mem_detailMarks {x : Exporter} {t : Touch} {m : Mark Bool}
    (h : m ∈ x.detailMarks t) : ∃ text, m.labels = t.labels.extended text := by
  unfold detailMarks at h
  split at h
  next =>
    rcases List.mem_append.mp h with h | h
    · obtain ⟨before, -, rfl⟩ := List.mem_map.mp h
      exact ⟨before, rfl⟩
    · rw [List.mem_singleton.mp h]
      exact ⟨_, rfl⟩
  next text _ =>
    rw [List.mem_singleton.mp h]
    exact ⟨text, rfl⟩
  next => cases h

/-- On the family of health a change does what its marks do. -/
theorem apply_health (x : Exporter) (t : Touch) :
    (x.apply t.labels t.change).health = t.healthMarks.foldl Family.mark x.health := by
  obtain ⟨i, v, c⟩ := t
  cases c with
  | cleared place => cases place <;> rfl
  | latency | status | detail | health => rfl

/-- On the family of details a change does what its marks do. -/
theorem apply_detail (x : Exporter) (t : Touch) :
    (x.apply t.labels t.change).detail = (x.detailMarks t).foldl Family.mark x.detail := by
  obtain ⟨i, v, c⟩ := t
  cases c with
  | detail text =>
    simp only [apply, detailMarks]
    cases x.details.get? v with
    | none => rfl
    | some before => by_cases h : before = text <;> simp [h, Family.mark]
  | cleared place => cases place <;> rfl
  | latency | status | health => rfl

/-- A touch leaves what is remembered of other label values alone. -/
theorem apply_details_of_ne (x : Exporter) {t : Touch} {v : LabelValues} (h : t.labels ≠ v) :
    (x.apply t.labels t.change).details.get? v = x.details.get? v := by
  obtain ⟨i, w, c⟩ := t
  cases c with
  | detail text => simp [apply, Ne.symm h]
  | cleared place => cases place <;> simp [apply, clear, Ne.symm h]
  | latency | status | health => rfl

end Exporter

end HealthMonitor
