/-!
# Label values

The values that tell one series of a family from the others, in the order of the family's label
names. They are ordered like words of a dictionary: the first value that differs decides.
-/

namespace HealthMonitor

/-- The label values of one series. -/
structure LabelValues where
  texts : List String
  deriving DecidableEq, Repr

namespace LabelValues

instance : LT LabelValues := ⟨fun a b => List.lt a.texts b.texts⟩

instance : LE LabelValues := ⟨fun a b => List.le a.texts b.texts⟩

instance : DecidableLT LabelValues := fun a b => List.decidableLT a.texts b.texts

instance : DecidableLE LabelValues := fun a b => List.decidableLE a.texts b.texts

/-- Label values with one more at the end. -/
def extended (v : LabelValues) (text : String) : LabelValues :=
  ⟨v.texts ++ [text]⟩

/-! ### The order -/

theorem lt_iff {a b : LabelValues} : a < b ↔ a ≤ b ∧ ¬ b ≤ a := by
  change List.lt a.texts b.texts ↔ ¬ List.lt b.texts a.texts ∧ ¬ ¬ List.lt a.texts b.texts
  have := @List.lt_asymm String _ _ a.texts b.texts
  constructor
  · intro h
    exact ⟨this h, fun hn => hn h⟩
  · intro h
    exact Classical.not_not.1 h.2

theorem eq_of_texts {a b : LabelValues} (h : a.texts = b.texts) : a = b := by
  cases a
  cases b
  exact congrArg LabelValues.mk h

end LabelValues

instance : Std.IsLinearOrder LabelValues where
  le_refl a := List.le_refl a.texts
  le_trans a b c := @List.le_trans String _ _ _ _ a.texts b.texts c.texts
  le_antisymm _ _ hab hba := LabelValues.eq_of_texts (@List.le_antisymm String _ _ _ _ hab hba)
  le_total a b := List.le_total a.texts b.texts

instance : Std.LawfulOrderLT LabelValues where
  lt_iff _ _ := LabelValues.lt_iff

end HealthMonitor
