import HealthMonitor.Text.Cut
import Mathlib.Data.List.Infix

/-!
# Words in texts

A text holds a word where the word is an infix of it. A word without some character is never found
across that character, so it stands in front of it or behind it.
-/

namespace HealthMonitor.Text

/-- A text holds a word just if the word is an infix of it. -/
theorem holds_iff_infix {word cs : List Char} : holds word cs = true ↔ word <:+: cs := by
  rw [holds]
  induction cs with
  | nil => cases word <;> simp [cutAt]
  | cons c cs ih =>
    rw [cutAt, List.infix_cons_iff, ← ih]
    cases hprefix : word.isPrefixOf? (c :: cs) with
    | some rest =>
      have hword : word <+: c :: cs :=
        ⟨rest, List.isPrefixOf?_eq_some_iff_append_eq.mp hprefix⟩
      simp [hword]
    | none =>
      have hword : ¬ word <+: c :: cs := by
        rintro ⟨rest, hrest⟩
        rw [List.isPrefixOf?_eq_some_iff_append_eq.mpr hrest] at hprefix
        cases hprefix
      simp [hword]

/-- A word does not go over a character that it does not have. -/
theorem prefix_append_cons_iff {word before after : List Char} {c : Char} (h : c ∉ word) :
    word <+: before ++ c :: after ↔ word <+: before := by
  refine ⟨fun hword => ?_, fun hword => hword.trans (List.prefix_append before _)⟩
  rcases List.prefix_or_prefix_of_prefix hword (List.prefix_append before _) with hin | ⟨rest, rfl⟩
  · exact hin
  · rcases rest with _ | ⟨d, rest⟩
    · simp
    · obtain ⟨tail, htail⟩ := (List.prefix_append_right_inj before).mp hword
      have hd : d = c := (List.cons.inj htail).1
      exact absurd (by simp [hd]) h

theorem infix_append_cons_iff {word before after : List Char} {c : Char} (h : c ∉ word) :
    word <:+: before ++ c :: after ↔ word <:+: before ∨ word <:+: after := by
  induction before with
  | nil =>
    rw [List.nil_append, List.infix_cons_iff]
    have hhead : word <+: [] ++ c :: after ↔ word <+: [] := prefix_append_cons_iff h
    rw [List.nil_append] at hhead
    rw [hhead, List.prefix_nil, List.infix_nil]
  | cons d before ih =>
    have hhead : word <+: d :: before ++ c :: after ↔ word <+: d :: before :=
      prefix_append_cons_iff h
    rw [List.cons_append] at hhead ⊢
    rw [List.infix_cons_iff, List.infix_cons_iff, hhead, ih, or_assoc]

end HealthMonitor.Text
