import HealthMonitor.Text.Cut

/-!
# Upper and lower case

Only the letters of ASCII have two cases, 32 characters apart. Text in lower case has no upper case
letter left, so lowering it again changes nothing (`lower_lower`), and a lower case letter comes
back from upper case (`toLower_toUpper_of_isLower`).
-/

namespace HealthMonitor.Text

theorem isUpper_iff_toNat {c : Char} : c.isUpper = true ↔ 65 ≤ c.toNat ∧ c.toNat ≤ 90 :=
  decide_eq_true_iff.trans (and_congr UInt32.le_iff_toNat_le UInt32.le_iff_toNat_le)

theorem isLower_iff_val {c : Char} : c.isLower = true ↔ 'a'.val ≤ c.val ∧ c.val ≤ 'z'.val :=
  Bool.and_eq_true_iff.trans (and_congr decide_eq_true_iff decide_eq_true_iff)

theorem isLower_iff_toNat {c : Char} : c.isLower = true ↔ 97 ≤ c.toNat ∧ c.toNat ≤ 122 :=
  isLower_iff_val.trans (and_congr UInt32.le_iff_toNat_le UInt32.le_iff_toNat_le)

/-! ### To lower case -/

/-- An upper case letter and its lower case. -/
theorem toNat_toLower_of_isUpper {c : Char} (h : c.isUpper = true) :
    65 ≤ c.toNat ∧ c.toNat ≤ 90 ∧ c.toLower.toNat = c.toNat + 32 := by
  have hupper : 'A'.val ≤ c.val ∧ c.val ≤ 'Z'.val := of_decide_eq_true h
  obtain ⟨hleast, hgreatest⟩ := isUpper_iff_toNat.mp h
  have hval : c.toLower.toNat = (c.val + 32).toNat := congrArg Char.toNat (dif_pos hupper)
  have hsum : (c.val + 32).toNat = (c.toNat + 32) % 2 ^ 32 := UInt32.toNat_add c.val 32
  exact ⟨hleast, hgreatest, by omega⟩

theorem toLower_of_not_isUpper {c : Char} (h : c.isUpper = false) : c.toLower = c :=
  dif_neg (of_decide_eq_false h)

theorem toLower_toLower (c : Char) : c.toLower.toLower = c.toLower := by
  cases hc : c.isUpper with
  | false => rw [toLower_of_not_isUpper hc, toLower_of_not_isUpper hc]
  | true =>
    obtain ⟨hleast, -, hlower⟩ := toNat_toLower_of_isUpper hc
    refine toLower_of_not_isUpper (Bool.eq_false_iff.mpr ?_)
    rw [Ne, isUpper_iff_toNat]
    omega

@[simp] theorem lower_lower (cs : List Char) : lower (lower cs) = lower cs := by
  rw [lower, lower, List.map_map]
  exact List.map_congr_left fun c _ => toLower_toLower c

/-! ### To upper case -/

/-- A lower case letter and its upper case. -/
theorem toNat_toUpper_of_isLower {c : Char} (h : c.isLower = true) :
    97 ≤ c.toNat ∧ c.toNat ≤ 122 ∧ c.toUpper.toNat + 32 = c.toNat := by
  obtain ⟨hleast, hgreatest⟩ := isLower_iff_toNat.mp h
  have hval : c.toUpper.val = c.val + ('A'.val - 'a'.val) := by
    delta Char.toUpper
    rw [dif_pos (isLower_iff_val.mp h)]
  -- in 32 bits the way down is a way up
  have hdown : ('A'.val - 'a'.val).toNat = 4294967264 := by decide
  have hsum : c.toUpper.toNat = (c.toNat + 4294967264) % 2 ^ 32 := by
    rw [← Char.toNat_val, hval, UInt32.toNat_add, hdown, Char.toNat_val]
  exact ⟨hleast, hgreatest, by omega⟩

theorem toUpper_of_not_isLower {c : Char} (h : c.isLower = false) : c.toUpper = c := by
  refine dif_neg fun hlower => ?_
  rw [isLower_iff_val.mpr hlower] at h
  cases h

/-- A lower case letter comes back from upper case. -/
theorem toLower_toUpper_of_isLower {c : Char} (h : c.isLower = true) : c.toUpper.toLower = c := by
  obtain ⟨hleast, hgreatest, hupper⟩ := toNat_toUpper_of_isLower h
  have hisUpper : c.toUpper.isUpper = true := isUpper_iff_toNat.mpr (by omega)
  obtain ⟨-, -, hlower⟩ := toNat_toLower_of_isUpper hisUpper
  exact Char.toNat_inj.mp (by omega)

end HealthMonitor.Text
