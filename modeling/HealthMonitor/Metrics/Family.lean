import HealthMonitor.Dictionary
import HealthMonitor.Metrics.SeriesKey

/-!
# Families of series

A `Family` keeps each series under the key of the label values that it was made for. `set` and
`remove` act on the series under the key of the label values that they are given; a series keeps
the label values that it was made for as long as it lives. `get?_set` and `get?_remove` say what
each of them does to every look-up.
-/

namespace HealthMonitor

/-- One series: the label values that it was made for, and its value. -/
structure Series (α : Type) where
  labels : LabelValues
  value : α
  deriving DecidableEq, Repr

/-- The series of one family. -/
structure Family (α : Type) where
  byKey : Dictionary SeriesKey (Series α)
  keyed : ∀ e ∈ byKey.entries, e.2.labels.key = e.1

namespace Family

variable {α : Type}

def empty : Family α := ⟨Dictionary.empty, fun _ h => nomatch h⟩

instance : Inhabited (Family α) := ⟨empty⟩

/-- The series in order of their keys. -/
def toList (f : Family α) : List (Series α) :=
  f.byKey.entries.map Prod.snd

def isEmpty (f : Family α) : Bool :=
  f.byKey.isEmpty

/-- The series that some label values lead to. -/
def series? (f : Family α) (v : LabelValues) : Option (Series α) :=
  f.byKey.get? v.key

/-- The value of the series that some label values lead to. -/
def get? (f : Family α) (v : LabelValues) : Option α :=
  (f.series? v).map Series.value

/-- The label values of the series that some label values lead to: those of the series that is
there, else their own. -/
def labelsFor (f : Family α) (v : LabelValues) : LabelValues :=
  ((f.series? v).map Series.labels).getD v

theorem key_labelsFor (f : Family α) (v : LabelValues) : (f.labelsFor v).key = v.key := by
  unfold labelsFor series?
  cases h : f.byKey.get? v.key with
  | none => rfl
  | some s => exact f.keyed (v.key, s) (Dictionary.mem_of_get? h)

/-- Gives a value to the series that some label values lead to, which is made if it is not there. -/
def set (f : Family α) (v : LabelValues) (value : α) : Family α where
  byKey := f.byKey.insert v.key ⟨f.labelsFor v, value⟩
  keyed e h := by
    rcases Dictionary.mem_insertEntry h with rfl | h
    · exact f.key_labelsFor v
    · exact f.keyed e h

/-- Takes the series that some label values lead to away, if it is there. -/
def remove (f : Family α) (v : LabelValues) : Family α where
  byKey := f.byKey.erase v.key
  keyed e h := f.keyed e ((List.mem_filter.1 h).1)

/-! ### Look-up -/

@[simp] theorem get?_empty (v : LabelValues) : (empty : Family α).get? v = none := rfl

@[simp] theorem get?_set (f : Family α) (v : LabelValues) (value : α) (w : LabelValues) :
    (f.set v value).get? w = if w.key = v.key then some value else f.get? w := by
  by_cases h : w.key = v.key <;> simp [get?, series?, set, h]

@[simp] theorem get?_remove (f : Family α) (v w : LabelValues) :
    (f.remove v).get? w = if w.key = v.key then none else f.get? w := by
  by_cases h : w.key = v.key <;> simp [get?, series?, remove, h]

end Family

end HealthMonitor
