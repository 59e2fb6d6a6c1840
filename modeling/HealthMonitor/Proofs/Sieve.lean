import Mathlib.Data.List.Basic

/-!
# Sieves

A sieve lets some members of a list through, perhaps changed, and keeps their order. A member that
it lets through at one place of the list has another place among those let through (`Sieve.rank`).
What is done at the first place then shows at the second; what is done to a member that is held back
does not show at all.
-/

namespace HealthMonitor

namespace Sieve

variable {α β : Type} (g : α → Option β)

/-- The number of members that are let through in front of a place. -/
def rank (xs : List α) (i : Nat) : Nat :=
  ((xs.take i).filterMap g).length

variable {g} {xs : List α} {i : Nat} {a a' : α} {b b' : β}

private theorem eq_split (ha : xs[i]? = some a) : xs = xs.take i ++ a :: xs.drop (i + 1) := by
  obtain ⟨hi, rfl⟩ := List.getElem?_eq_some_iff.mp ha
  rw [← List.drop_eq_getElem_cons hi, List.take_append_drop]

private theorem filterMap_split (ha : xs[i]? = some a) :
    xs.filterMap g =
      (xs.take i).filterMap g ++ ((g a).toList ++ (xs.drop (i + 1)).filterMap g) := by
  have hsplit := congrArg (List.filterMap g) (eq_split ha)
  rw [List.filterMap_append, List.filterMap_cons] at hsplit
  rw [hsplit]
  cases g a <;> rfl

private theorem filterMap_set (ha : xs[i]? = some a) :
    (xs.set i a').filterMap g =
      (xs.take i).filterMap g ++ ((g a').toList ++ (xs.drop (i + 1)).filterMap g) := by
  have hi : i < xs.length := (List.getElem?_eq_some_iff.mp ha).1
  rw [List.set_eq_take_append_cons_drop, if_pos hi, List.filterMap_append, List.filterMap_cons]
  cases g a' <;> rfl

theorem getElem?_rank (ha : xs[i]? = some a) (hb : g a = some b) :
    (xs.filterMap g)[rank g xs i]? = some b := by
  rw [filterMap_split ha, rank, List.getElem?_append_right (Nat.le_refl _), Nat.sub_self, hb]
  rfl

/-- A change that the sieve does not see. -/
theorem filterMap_set_of_eq (ha : xs[i]? = some a) (h : g a' = g a) :
    (xs.set i a').filterMap g = xs.filterMap g := by
  rw [filterMap_set ha, filterMap_split ha, h]

/-- A change of a member that is let through before and after. -/
theorem filterMap_set_of_some (ha : xs[i]? = some a) (hb : g a = some b) (hb' : g a' = some b') :
    (xs.set i a').filterMap g = (xs.filterMap g).set (rank g xs i) b' := by
  rw [filterMap_set ha, filterMap_split ha, hb, hb', rank,
    List.set_append_right _ _ (Nat.le_refl _), Nat.sub_self]
  rfl

theorem filterMap_eraseIdx_of_none (ha : xs[i]? = some a) (hb : g a = none) :
    (xs.eraseIdx i).filterMap g = xs.filterMap g := by
  rw [filterMap_split ha, hb, List.eraseIdx_eq_take_drop_succ, List.filterMap_append]
  rfl

theorem filterMap_eraseIdx_of_some (ha : xs[i]? = some a) (hb : g a = some b) :
    (xs.eraseIdx i).filterMap g = (xs.filterMap g).eraseIdx (rank g xs i) := by
  rw [filterMap_split ha, hb, List.eraseIdx_eq_take_drop_succ, List.filterMap_append, rank,
    List.eraseIdx_append_of_length_le (Nat.le_refl _), Nat.sub_self]
  rfl

/-- The rank of the place behind all. -/
theorem rank_length (xs : List α) : rank g xs xs.length = (xs.filterMap g).length := by
  rw [rank, List.take_length]

end Sieve

end HealthMonitor
