import HealthMonitor.Dictionary
import Mathlib.Data.List.Sort

/-!
# Look-ups

A list of named entries answers a look-up with the first entry of the name. Where no name comes
twice that is the only one, so the order of the entries does not matter (`lookup_of_perm`); entries
of other names never do (`lookup_filter`).

The keys of a dictionary are in rising order, so they are determined by what look-ups find anything
under (`Dictionary.keys_eq_of_isSome`).
-/

namespace HealthMonitor

/-! ### Lists of named entries -/

section Entries

variable {α : Type} {es fs : List (String × α)} {name : String} {a : α}

theorem lookup_eq_some_iff (h : (es.map Prod.fst).Nodup) :
    es.lookup name = some a ↔ (name, a) ∈ es := by
  induction es with
  | nil => simp
  | cons e es ih =>
    obtain ⟨k, b⟩ := e
    obtain ⟨hk, hes⟩ := List.nodup_cons.mp h
    rw [List.lookup_cons, List.mem_cons, Prod.mk.injEq]
    by_cases heq : name = k
    · subst heq
      have habsent : (name, a) ∉ es := fun hmem => hk (List.mem_map.mpr ⟨_, hmem, rfl⟩)
      simp [habsent, eq_comm]
    · have hne : (name == k) = false := by simpa using heq
      simp [hne, heq, ih hes]

theorem lookup_of_perm (perm : fs.Perm es) (distinct : (es.map Prod.fst).Nodup) (name : String) :
    fs.lookup name = es.lookup name := by
  have distinct' : (fs.map Prod.fst).Nodup := (perm.map Prod.fst).nodup_iff.mpr distinct
  refine Option.ext fun a => ?_
  rw [lookup_eq_some_iff distinct, lookup_eq_some_iff distinct', perm.mem_iff]

theorem lookup_filter {p : String → Bool} (h : p name = true) (es : List (String × α)) :
    (es.filter fun e => p e.1).lookup name = es.lookup name := by
  induction es with
  | nil => rfl
  | cons e es ih =>
    obtain ⟨k, b⟩ := e
    by_cases hk : name = k
    · rw [List.filter_cons_of_pos (by simpa [← hk] using h)]
      simp [hk]
    · have hne : (name == k) = false := beq_false_of_ne hk
      rw [List.filter_cons]
      split <;> simp [List.lookup_cons, hne, ih]

end Entries

/-! ### Keys of dictionaries -/

namespace Dictionary

variable {κ α β : Type} [LT κ]

theorem pairwise_keys (d : Dictionary κ α) : d.keys.Pairwise (· < ·) :=
  List.pairwise_map.mpr d.sorted

variable [DecidableEq κ] [LE κ] [Std.IsLinearOrder κ] [Std.LawfulOrderLT κ]

omit [Std.IsLinearOrder κ] in
/-- The keys are what look-ups find something under. -/
theorem mem_keys_iff {d : Dictionary κ α} {key : κ} :
    key ∈ d.keys ↔ (d.get? key).isSome = true := by
  rw [keys, List.mem_map, Option.isSome_iff_exists]
  constructor
  · rintro ⟨⟨key, value⟩, hmem, rfl⟩
    exact ⟨value, mem_entries_iff.mp hmem⟩
  · rintro ⟨value, hvalue⟩
    exact ⟨(key, value), mem_entries_iff.mpr hvalue, rfl⟩

/-- Dictionaries with values under the same keys have the same keys in the same order. -/
theorem keys_eq_of_isSome {c : Dictionary κ α} {d : Dictionary κ β}
    (h : ∀ k, (c.get? k).isSome = (d.get? k).isSome) : c.keys = d.keys := by
  refine c.pairwise_keys.eq_of_mem_iff d.pairwise_keys fun k => ?_
  rw [mem_keys_iff, mem_keys_iff, h]

end Dictionary

end HealthMonitor
