import HealthMonitor.Text.Blank
import Mathlib.Data.List.TakeWhile

/-!
# Blanks around a text

Trimming takes the blanks at the ends of a text, however many there are: more of them change nothing
(`trim_append_of_blank`), and nothing is left just if there is nothing else (`trim_eq_nil_iff`).
-/

namespace HealthMonitor.Text

variable {before cs after : List Char}

theorem trimStart_eq_nil_iff : trimStart cs = [] ↔ ∀ c ∈ cs, isBlank c = true :=
  List.dropWhile_eq_nil_iff

theorem trimEnd_eq_nil_iff : trimEnd cs = [] ↔ ∀ c ∈ cs, isBlank c = true := by
  simp [trimEnd]

/-- **Of a blank text nothing is left.** -/
theorem trim_eq_nil_iff : trim cs = [] ↔ ∀ c ∈ cs, isBlank c = true := by
  rw [trim, trimEnd_eq_nil_iff]
  refine ⟨fun h => ?_, fun h c hc => h c ((List.dropWhile_sublist isBlank).mem hc)⟩
  rw [← trimStart_eq_nil_iff]
  by_contra hne
  have hblank : isBlank ((trimStart cs).head hne) = true := h _ (List.head_mem hne)
  -- the first character that is left is not blank
  have hfirst : isBlank ((trimStart cs).head hne) = false := List.head_dropWhile_not isBlank hne
  rw [hblank] at hfirst
  cases hfirst

theorem trimEnd_append_of_blank (hafter : ∀ c ∈ after, isBlank c = true) :
    trimEnd (cs ++ after) = trimEnd cs := by
  have hreverse : ∀ c ∈ after.reverse, isBlank c = true := fun c hc =>
    hafter c (List.mem_reverse.mp hc)
  rw [trimEnd, trimEnd, List.reverse_append, List.dropWhile_append_of_pos hreverse]

/-- **Blanks around a text are trimmed away.** -/
theorem trim_append_of_blank (hbefore : ∀ c ∈ before, isBlank c = true)
    (hafter : ∀ c ∈ after, isBlank c = true) : trim (before ++ cs ++ after) = trim cs := by
  rw [trim, trim, trimStart, trimStart, List.append_assoc, List.dropWhile_append_of_pos hbefore,
    List.dropWhile_append]
  split
  next hcs =>
    -- of a blank text the blanks behind it are in front as well
    rw [List.isEmpty_iff.mp hcs, List.dropWhile_eq_nil_iff.mpr hafter]
  next => exact trimEnd_append_of_blank hafter

/-- A text without blanks has none to be trimmed. -/
theorem trim_of_not_blank (h : ∀ c ∈ cs, isBlank c = false) : trim cs = cs :=
  trim_eq_self (fun c hc => h c (List.mem_of_mem_head? hc)) fun c hc =>
    h c (List.mem_of_mem_getLast? hc)

end HealthMonitor.Text
