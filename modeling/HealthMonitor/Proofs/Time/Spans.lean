import HealthMonitor.Monitor.Overrides
import HealthMonitor.Proofs.Text.Numerals

/-!
# Spans in configurations

A span is written as a count of minutes, seconds or milliseconds: digits, with a plus sign in front
of them at most, and the suffix of the scale (`Writes`). One suffix ends another and seconds can go
without, but digits have no letters, so a text has one scale and one count only (`Writes.unique`).

What is written is read exactly, as long as the count stays below the limit in seconds or in
milliseconds; no other text is read, and its error shows it (`readSpan_exact`).
-/

namespace HealthMonitor

namespace Span

/-! ### What is written -/

/-- The suffixes of a scale. Seconds can go without one. -/
def Scale.suffixes : Scale → List (List Char)
  | .minutes => [['m']]
  | .seconds => [[], ['s']]
  | .millis => [['m', 's']]

/-- One unit of a scale, in nanoseconds. -/
def Scale.unit : Scale → Nat
  | .minutes => 60000000000
  | .seconds => 1000000000
  | .millis => 1000000

/-- Whether a scale has room for a count. Minutes are counted in seconds. -/
def Scale.Admits : Scale → Nat → Prop
  | .minutes, n => 60 * n < countLimit
  | .seconds, n | .millis, n => n < countLimit

instance : (scale : Scale) → (n : Nat) → Decidable (scale.Admits n)
  | .minutes, n => inferInstanceAs (Decidable (60 * n < countLimit))
  | .seconds, n | .millis, n => inferInstanceAs (Decidable (n < countLimit))

/-- A text writes a count on a scale. -/
def Writes (text : List Char) (scale : Scale) (n : Nat) : Prop :=
  ∃ digits suffix, Text.IsDecimal digits n ∧ suffix ∈ scale.suffixes ∧
    (text = digits ++ suffix ∨ text = '+' :: digits ++ suffix)

section Scales

variable {scale : Scale} {n : Nat}

theorem Scale.Admits.lt (h : scale.Admits n) : n < countLimit := by
  cases scale with
  | minutes =>
    change 60 * n < countLimit at h
    omega
  | seconds => exact h
  | millis => exact h

/-- What a scale has room for is shorter than as many seconds as can be counted. -/
theorem Scale.Admits.mul_unit_lt (h : scale.Admits n) :
    n * scale.unit < countLimit * Scale.unit .seconds := by
  cases scale with
  | minutes =>
    change 60 * n < countLimit at h
    simp only [unit]
    omega
  | seconds => exact Nat.mul_lt_mul_of_pos_right h (by decide)
  | millis =>
    have := h.lt
    simp only [unit]
    omega

theorem ofCount?_eq_some_iff {span : Span} :
    ofCount? scale n = some span ↔ scale.Admits n ∧ span.nanos = n * scale.unit := by
  obtain ⟨nanos⟩ := span
  cases scale with
  | minutes =>
    have hnanos : 60 * n * 1000000000 = nanos ↔ nanos = n * 60000000000 := by omega
    simp [ofCount?, ofScale, ofMinutes, ofSeconds, Scale.Admits, Scale.unit, hnanos]
  | seconds => simp [ofCount?, ofScale, ofSeconds, Scale.Admits, Scale.unit, eq_comm]
  | millis => simp [ofCount?, ofScale, ofMillis, Scale.Admits, Scale.unit, eq_comm]

end Scales

/-! ### Reading -/

section Reading

variable {cs body suffix : List Char} {scale : Scale} {n : Nat}

/-- What is split off is a suffix of the scale. -/
theorem exists_suffix_of_splitScale (h : splitScale cs = (body, scale)) :
    ∃ suffix ∈ scale.suffixes, cs = body ++ suffix := by
  unfold splitScale at h
  split at h
  next rest hrev =>
    obtain ⟨rfl, rfl⟩ := Prod.mk.inj h
    exact ⟨['m', 's'], by decide, by simpa using congrArg List.reverse hrev⟩
  next rest _ hrev =>
    obtain ⟨rfl, rfl⟩ := Prod.mk.inj h
    exact ⟨['s'], by decide, by simpa using congrArg List.reverse hrev⟩
  next rest hrev =>
    obtain ⟨rfl, rfl⟩ := Prod.mk.inj h
    exact ⟨['m'], by decide, by simpa using congrArg List.reverse hrev⟩
  next =>
    obtain ⟨rfl, rfl⟩ := Prod.mk.inj h
    exact ⟨[], by decide, (List.append_nil cs).symm⟩

/-- Behind a text without their letters suffixes do not run into each other. -/
theorem splitScale_append (hs : 's' ∉ body) (hm : 'm' ∉ body) (h : suffix ∈ scale.suffixes) :
    splitScale (body ++ suffix) = (body, scale) := by
  have hlast {c : Char} {rest : List Char} (hc : c ∉ body) : body.reverse ≠ c :: rest := fun hrev =>
    hc (List.mem_reverse.mp (hrev ▸ List.mem_cons_self))
  cases scale with
  | minutes =>
    obtain rfl : suffix = ['m'] := by simpa [Scale.suffixes] using h
    simp [splitScale]
  | millis =>
    obtain rfl : suffix = ['m', 's'] := by simpa [Scale.suffixes] using h
    simp [splitScale]
  | seconds =>
    obtain rfl | rfl : suffix = [] ∨ suffix = ['s'] := by simpa [Scale.suffixes] using h
    · rw [List.append_nil]
      unfold splitScale
      split
      next rest hrev => exact absurd hrev (hlast hs)
      next rest _ hrev => exact absurd hrev (hlast hs)
      next rest hrev => exact absurd hrev (hlast hm)
      next => rfl
    · have hbehind : (body ++ ['s']).reverse = 's' :: body.reverse := by simp
      unfold splitScale
      rw [hbehind]
      split
      next rest hrev => exact absurd (List.cons.inj hrev).2 (hlast hm)
      next rest _ hrev => rw [← (List.cons.inj hrev).2, List.reverse_reverse]
      next rest hrev => exact absurd (List.cons.inj hrev).1 (by decide)
      next _ hs _ => exact absurd rfl (hs body.reverse)

/-- A text that is written is split behind its digits, and they are read. -/
theorem Writes.split (h : Writes cs scale n) :
    ∃ body, splitScale cs = (body, scale) ∧
      ∀ limit, n < limit → Text.natural? limit body = some n := by
  obtain ⟨digits, suffix, decimal, hsuffix, hcs⟩ := h
  have plain {c : Char} (hc : c.isDigit = false) : c ∉ digits := fun hmem =>
    Text.ne_of_class (decimal.2.1 c hmem) hc rfl
  rcases hcs with rfl | rfl
  · refine ⟨digits, splitScale_append (plain (by decide)) (plain (by decide)) hsuffix, ?_⟩
    exact fun limit hlt => Text.natural?_eq_some_iff.mpr ⟨hlt, digits, Or.inl rfl, decimal⟩
  · have signed {c : Char} (hc : c.isDigit = false) (hne : c ≠ '+') : c ∉ '+' :: digits :=
      List.not_mem_cons_of_ne_of_not_mem hne (plain hc)
    refine ⟨'+' :: digits, splitScale_append (signed (by decide) (by decide))
      (signed (by decide) (by decide)) hsuffix, ?_⟩
    exact fun limit hlt => Text.natural?_eq_some_iff.mpr ⟨hlt, digits, Or.inr rfl, decimal⟩

/-- What is read has been written. -/
theorem writes_of_split {limit : Nat} (hsplit : splitScale cs = (body, scale))
    (hread : Text.natural? limit body = some n) : Writes cs scale n := by
  obtain ⟨suffix, hsuffix, rfl⟩ := exists_suffix_of_splitScale hsplit
  obtain ⟨-, digits, hbody, decimal⟩ := Text.natural?_eq_some_iff.mp hread
  rcases hbody with rfl | rfl
  · exact ⟨body, suffix, decimal, hsuffix, Or.inl rfl⟩
  · exact ⟨digits, suffix, decimal, hsuffix, Or.inr rfl⟩

/-- **A text has one scale and one count.** -/
theorem Writes.unique {scale' : Scale} {n' : Nat} (h : Writes cs scale n)
    (h' : Writes cs scale' n') : scale = scale' ∧ n = n' := by
  obtain ⟨body, hsplit, hread⟩ := h.split
  obtain ⟨body', hsplit', hread'⟩ := h'.split
  obtain ⟨rfl, rfl⟩ := Prod.mk.inj (hsplit.symm.trans hsplit')
  have hn := hread (n + n' + 1) (by omega)
  rw [hread' (n + n' + 1) (by omega)] at hn
  exact ⟨rfl, (Option.some.inj hn).symm⟩

/-- **A span is read from a count that its scale has room for.** -/
theorem parse?_eq_some_iff {text : String} {span : Span} :
    parse? text = some span ↔ ∃ scale n, Writes (Text.trim text.toList) scale n ∧
      scale.Admits n ∧ span.nanos = n * scale.unit := by
  constructor
  · intro h
    obtain ⟨n, hread, hcount⟩ := Option.bind_eq_some_iff.mp h
    exact ⟨_, n, writes_of_split rfl hread, ofCount?_eq_some_iff.mp hcount⟩
  · rintro ⟨scale, n, writes, admits, hspan⟩
    obtain ⟨body, hsplit, hread⟩ := writes.split
    rw [parse?, hsplit]
    simp only [hread countLimit admits.lt, Option.bind_some]
    exact ofCount?_eq_some_iff.mpr ⟨admits, hspan⟩

/-- What is written says how long the span is, wherever it is read. -/
theorem eq_of_parse? {text other : String} {span span' : Span} {scale scale' : Scale} {n n' : Nat}
    (h : parse? text = some span) (h' : parse? other = some span')
    (writes : Writes (Text.trim text.toList) scale n)
    (writes' : Writes (Text.trim other.toList) scale' n')
    (same : n * scale.unit = n' * scale'.unit) : span = span' := by
  obtain ⟨_, _, written, -, hspan⟩ := parse?_eq_some_iff.mp h
  obtain ⟨_, _, written', -, hspan'⟩ := parse?_eq_some_iff.mp h'
  obtain ⟨rfl, rfl⟩ := written.unique writes
  obtain ⟨rfl, rfl⟩ := written'.unique writes'
  exact congrArg Span.mk (hspan.trans (same.trans hspan'.symm))

end Reading

/-! ### Reading a setting -/

section Settings

open CheckOverrides (readSpan)

theorem readSpan_eq_ok_iff {text : String} {span : Span} :
    readSpan text = .ok span ↔ parse? text = some span := by
  unfold readSpan
  cases parse? text with
  | none => simp
  | some s => simp

theorem readSpan_eq_error_iff {text : String} :
    readSpan text = .error (.invalidSpan text) ↔ parse? text = none := by
  unfold readSpan
  cases parse? text with
  | none => simp
  | some s => simp

/-- **Spans are read exactly.** A text is read just if, between blanks, it writes a count that its
scale has room for, and then it is that many units long, which is less than the seconds that can be
counted. Every other text is refused, and the error shows it. No text writes two counts, and as many
seconds as some minutes have, or milliseconds as some seconds, are the same span. -/
theorem readSpan_exact (text : String) :
    (∀ span, readSpan text = .ok span ↔ ∃ scale n, Writes (Text.trim text.toList) scale n ∧
      scale.Admits n ∧ span.nanos = n * scale.unit) ∧
    (∀ span, readSpan text = .ok span → span.nanos < countLimit * Scale.unit .seconds) ∧
    (readSpan text = .error (.invalidSpan text) ↔
      ¬ ∃ scale n, Writes (Text.trim text.toList) scale n ∧ scale.Admits n) ∧
    (∀ scale n scale' n', Writes (Text.trim text.toList) scale n →
      Writes (Text.trim text.toList) scale' n' → scale = scale' ∧ n = n') ∧
    ∀ other span span', readSpan text = .ok span → readSpan other = .ok span' → ∀ n,
      (Writes (Text.trim text.toList) .minutes n →
        Writes (Text.trim other.toList) .seconds (60 * n) → span = span') ∧
      (Writes (Text.trim text.toList) .seconds n →
        Writes (Text.trim other.toList) .millis (1000 * n) → span = span') := by
  simp only [readSpan_eq_ok_iff, readSpan_eq_error_iff]
  refine ⟨fun span => parse?_eq_some_iff, fun span h => ?_, ?_, fun _ _ _ _ => Writes.unique,
    fun other span span' h h' n => ⟨fun writes writes' => ?_, fun writes writes' => ?_⟩⟩
  · obtain ⟨scale, n, -, admits, hspan⟩ := parse?_eq_some_iff.mp h
    exact hspan ▸ admits.mul_unit_lt
  · rw [Option.eq_none_iff_forall_ne_some, ← not_exists, not_congr]
    constructor
    · rintro ⟨span, h⟩
      obtain ⟨scale, n, writes, admits, -⟩ := parse?_eq_some_iff.mp h
      exact ⟨scale, n, writes, admits⟩
    · rintro ⟨scale, n, writes, admits⟩
      exact ⟨⟨n * scale.unit⟩, parse?_eq_some_iff.mpr ⟨scale, n, writes, admits, rfl⟩⟩
  · refine eq_of_parse? h h' writes writes' ?_
    simp only [Scale.unit]
    omega
  · refine eq_of_parse? h h' writes writes' ?_
    simp only [Scale.unit]
    omega

/-- An hour and a half in three ways. -/
theorem ninety_minutes_alike :
    (Writes (Text.trim " +90m\u2003".toList) .minutes 90 ∧
      Writes (Text.trim "005400".toList) .seconds (60 * 90) ∧
      Writes (Text.trim "5400000ms".toList) .millis (1000 * 5400)) ∧
    ∃ span, span.nanos = 5400000000000 ∧ readSpan " +90m\u2003" = .ok span ∧
      readSpan "005400" = .ok span ∧ readSpan "5400000ms" = .ok span := by
  have hminutes : Writes (Text.trim " +90m\u2003".toList) .minutes 90 :=
    ⟨"90".toList, ['m'], by decide, by decide, Or.inr (by decide)⟩
  have hseconds : Writes (Text.trim "005400".toList) .seconds (60 * 90) :=
    ⟨"005400".toList, [], by decide, by decide, Or.inl (by decide)⟩
  have hmillis : Writes (Text.trim "5400000ms".toList) .millis (1000 * 5400) :=
    ⟨"5400000".toList, ['m', 's'], by decide, by decide, Or.inl (by decide)⟩
  refine ⟨⟨hminutes, hseconds, hmillis⟩, ?_⟩
  have hread : readSpan " +90m\u2003" = .ok ⟨90 * Scale.unit .minutes⟩ :=
    ((readSpan_exact _).1 _).mpr ⟨.minutes, 90, hminutes, by decide, rfl⟩
  obtain ⟨seconds, hread'⟩ : ∃ span, readSpan "005400" = .ok span :=
    ⟨_, ((readSpan_exact _).1 ⟨_⟩).mpr ⟨.seconds, _, hseconds, by decide, rfl⟩⟩
  obtain ⟨millis, hread''⟩ : ∃ span, readSpan "5400000ms" = .ok span :=
    ⟨_, ((readSpan_exact _).1 ⟨_⟩).mpr ⟨.millis, _, hmillis, by decide, rfl⟩⟩
  obtain rfl : ⟨90 * Scale.unit .minutes⟩ = seconds :=
    ((readSpan_exact _).2.2.2.2 _ _ _ hread hread' 90).1 hminutes hseconds
  obtain rfl : ⟨90 * Scale.unit .minutes⟩ = millis :=
    ((readSpan_exact _).2.2.2.2 _ _ _ hread' hread'' 5400).2 hseconds hmillis
  exact ⟨_, rfl, hread, hread', hread''⟩

end Settings

end Span

end HealthMonitor
