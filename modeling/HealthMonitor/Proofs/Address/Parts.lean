import HealthMonitor.Proofs.Address.Listed
import HealthMonitor.Proofs.Checks
import HealthMonitor.Proofs.Text.Numerals

/-!
# The parts of a host list

A part of a host list can be spelled in six ways: its host stands plain or in brackets, and behind
it there is nothing, a colon, or a colon and a port (`Spelling`). No part has two of these spellings
(`Spelling.write_injective`), and a part that is read gives the host and the port that its spelling
shows, or the port of the scheme where no port is written.

Brackets alone leave a gap. What stands between the closing one and the end of the part need not be
a port: a tail that does not start with a colon is `Loose`. Such a part has none of the spellings,
but it is read all the same, without its tail (`parseUrl_eq_ok_iff`).
-/

namespace HealthMonitor

namespace Address

/-! ### Ports -/

/-- A text writes a port: the digits of its number, with a plus sign in front at most, and blanks
around it. -/
def WritesPort (text : List Char) (port : UInt16) : Prop :=
  port ≠ 0 ∧ ∃ digits, (Text.trim text = digits ∨ Text.trim text = '+' :: digits) ∧ digits ≠ [] ∧
    (∀ c ∈ digits, c.isDigit) ∧ Nat.ofDigitChars 10 digits 0 = port.toNat

theorem port?_eq_some_iff {text : List Char} {port : UInt16} :
    port? text = some port ↔ WritesPort text port := by
  have hnatural : port? text = some port ↔
      port ≠ 0 ∧ Text.natural? 65536 (Text.trim text) = some port.toNat := by
    unfold port?
    cases hn : Text.natural? 65536 (Text.trim text) with
    | none => simp
    | some n =>
      have hlt : n < 65536 := (Text.natural?_eq_some_iff.mp hn).1
      have htoNat : (UInt16.ofNat n).toNat = n := UInt16.toNat_ofNat_of_lt hlt
      simp only [Option.ite_none_left_eq_some, Option.some.injEq, ← UInt16.toNat_inj, htoNat, Ne]
      constructor
      · rintro ⟨hne, rfl⟩
        exact ⟨hne, rfl⟩
      · rintro ⟨hne, rfl⟩
        exact ⟨hne, rfl⟩
  rw [hnatural, Text.natural?_eq_some_iff, and_iff_right port.toNat_lt]
  rfl

/-- The port behind a host: the one that is written, or another where nothing is. -/
def GivesPort (fallback : UInt16) (text : Option (List Char)) (port : UInt16) : Prop :=
  match text with
  | none | some [] => port = fallback
  | some text => WritesPort text port

/-! ### Spellings -/

/-- How a part is spelled: its host plain or in brackets, and what stands behind a colon, if there
is one. -/
structure Spelling where
  bracketed : Bool
  port : Option (List Char)

namespace Spelling

/-- A host with what is around it. -/
def write (s : Spelling) (host : List Char) : List Char :=
  (if s.bracketed then '[' :: host ++ [']'] else host) ++ (s.port.map (':' :: ·)).getD []

/-- A host and a port keep clear of the marks of a spelling. -/
def Fits (s : Spelling) (host : List Char) : Prop :=
  match s with
  | ⟨true, _⟩ => ']' ∉ host
  | ⟨false, none⟩ => host.head? ≠ some '[' ∧ host.count ':' ≠ 1
  | ⟨false, some text⟩ => host.head? ≠ some '[' ∧ ':' ∉ host ∧ ':' ∉ text

end Spelling

/-- A part with its host in brackets, and behind them a text that is no port. -/
def Loose (part host : List Char) : Prop :=
  ']' ∉ host ∧ ∃ c tail, c ≠ ':' ∧ part = '[' :: (host ++ ']' :: c :: tail)

namespace Spelling

/-- A text that is moved on by one character does not meet another one. -/
theorem append_cons_ne {a b : Char} (h : a ≠ b) (host text rest : List Char) :
    host ++ a :: text ≠ b :: (host ++ rest) := by
  intro heq
  induction host generalizing b with
  | nil => exact h (List.cons.inj heq).1
  | cons c host ih =>
    obtain ⟨rfl, htail⟩ := List.cons.inj heq
    exact ih h htail

/-- A plain host never looks like one in brackets. -/
theorem write_plain_ne (port : Option (List Char)) (host rest : List Char) :
    write ⟨false, port⟩ host ≠ '[' :: (host ++ ']' :: rest) := by
  cases port with
  | none =>
    intro heq
    have hlength := congrArg List.length heq
    simp [write] at hlength
    omega
  | some text => simpa [write] using append_cons_ne (by decide) host text (']' :: rest)

theorem write_bracketed (port : Option (List Char)) (host : List Char) :
    write ⟨true, port⟩ host = '[' :: (host ++ ']' :: (port.map (':' :: ·)).getD []) := by
  simp [write]

theorem tail_inj {p q : Option (List Char)}
    (h : (p.map (':' :: ·)).getD [] = (q.map (':' :: ·)).getD []) : p = q := by
  cases p <;> cases q <;> simp_all

/-- **No part is spelled in two ways.** -/
theorem write_injective (host : List Char) : Function.Injective (write · host) := by
  rintro ⟨bracketed, p⟩ ⟨bracketed', q⟩ (h : write _ host = write _ host)
  cases bracketed with
  | false =>
    cases bracketed' with
    | false =>
      obtain rfl : p = q := tail_inj (by simpa [write] using h)
      rfl
    | true =>
      rw [write_bracketed] at h
      exact absurd h (write_plain_ne p host _)
  | true =>
    rw [write_bracketed] at h
    cases bracketed' with
    | false => exact absurd h.symm (write_plain_ne q host _)
    | true =>
      rw [write_bracketed] at h
      obtain rfl : p = q := tail_inj (by simpa using h)
      rfl

/-- **A part with a loose tail has no spelling.** -/
theorem write_ne_of_loose {part host : List Char} (loose : Loose part host) (s : Spelling) :
    s.write host ≠ part := by
  obtain ⟨-, c, tail, hc, rfl⟩ := loose
  obtain ⟨bracketed, port⟩ := s
  cases bracketed with
  | false => exact write_plain_ne port host _
  | true =>
    rw [write_bracketed]
    intro h
    have htail := (List.cons.inj (List.append_cancel_left (List.cons.inj h).2)).2
    cases port with
    | none => cases htail
    | some text => exact hc (List.cons.inj htail).1.symm

/-! ### Reading a part -/

/-- A spelling is read back. -/
theorem splitPart?_write {s : Spelling} {host : List Char} (fits : s.Fits host) :
    splitPart? (s.write host) = some (host, s.port) := by
  obtain ⟨bracketed, port⟩ := s
  cases bracketed with
  | true =>
    rw [write_bracketed, splitPart?, Text.cut_append fits]
    cases port <;> rfl
  | false =>
    cases port with
    | none =>
      obtain ⟨hopen, hcount⟩ := fits
      have hpart : ∀ rest, host ≠ '[' :: rest := by
        rintro rest rfl
        exact hopen rfl
      simp only [write, Bool.false_eq_true, if_false, Option.map_none, Option.getD_none,
        List.append_nil]
      rw [splitPart?_of_unbracketed hpart]
      cases hcut : Text.cut ':' host with
      | none => rfl
      | some p =>
        obtain ⟨before, after⟩ := p
        obtain ⟨rfl, hbefore⟩ := Text.cut_eq_some hcut
        have hafter : after.contains ':' = true := by
          by_contra hnone
          have hno : ':' ∉ after := by simpa using hnone
          refine hcount ?_
          rw [List.count_append, List.count_cons_self, List.count_eq_zero.mpr hbefore,
            List.count_eq_zero.mpr hno]
        simp only [hafter, if_true]
    | some text =>
      obtain ⟨hopen, hhost, htext⟩ := fits
      have hpart : ∀ rest, host ++ ':' :: text ≠ '[' :: rest := by
        intro rest hrest
        cases host with
        | nil => exact absurd (List.cons.inj hrest).1 (by decide)
        | cons c host => exact hopen (congrArg some (List.cons.inj hrest).1)
      have hwrite : write ⟨false, some text⟩ host = host ++ ':' :: text := rfl
      rw [hwrite, splitPart?_of_unbracketed hpart, Text.cut_append hhost]
      simp [htext]

end Spelling

theorem splitPart?_of_loose {part host : List Char} (loose : Loose part host) :
    splitPart? part = some (host, none) := by
  obtain ⟨hclose, c, tail, hc, rfl⟩ := loose
  rw [splitPart?, Text.cut_append hclose, Option.map_some]
  split
  next text htail => exact absurd (List.cons.inj htail).1 hc
  next => rfl

/-- A part that is cut behind brackets. -/
theorem spelling_of_bracketed {rest host : List Char} {port : Option (List Char)}
    (h : splitPart? ('[' :: rest) = some (host, port)) :
    (∃ s : Spelling, s.port = port ∧ s.Fits host ∧ s.write host = '[' :: rest) ∨
      port = none ∧ Loose ('[' :: rest) host := by
  obtain ⟨⟨before, tail⟩, hcut, hport⟩ := Option.map_eq_some_iff.mp h
  obtain ⟨rfl, hclose⟩ := Text.cut_eq_some hcut
  split at hport
  next text htail =>
    obtain rfl : tail = ':' :: text := htail
    cases hport
    exact Or.inl ⟨⟨true, some text⟩, rfl, hclose, Spelling.write_bracketed _ _⟩
  next hcolon =>
    cases hport
    cases tail with
    | nil => exact Or.inl ⟨⟨true, none⟩, rfl, hclose, Spelling.write_bracketed _ _⟩
    | cons c tail => exact Or.inr ⟨rfl, hclose, c, tail, fun hc => hcolon tail (hc ▸ rfl), rfl⟩

/-- A part that is cut at its only colon, or not at all. -/
theorem spelling_of_unbracketed {part host : List Char} {port : Option (List Char)}
    (hopen : ∀ rest, part ≠ '[' :: rest) (h : splitPart? part = some (host, port)) :
    ∃ s : Spelling, s.port = port ∧ s.Fits host ∧ s.write host = part := by
  have hhead : part.head? ≠ some '[' := by
    intro hhead
    obtain ⟨rest, rfl⟩ := List.head?_eq_some_iff.mp hhead
    exact hopen rest rfl
  rw [splitPart?_of_unbracketed hopen] at h
  split at h
  next before after hcut =>
    obtain ⟨rfl, hbefore⟩ := Text.cut_eq_some hcut
    split at h
    next hmany =>
      cases h
      refine ⟨⟨false, none⟩, rfl, ⟨hhead, ?_⟩, by simp [Spelling.write]⟩
      have hpos : 0 < after.count ':' := List.count_pos_iff.mpr (by simpa using hmany)
      rw [List.count_append, List.count_cons_self]
      omega
    next hone =>
      cases h
      refine ⟨⟨false, some after⟩, rfl, ⟨?_, hbefore, by simpa using hone⟩, rfl⟩
      cases host with
      | nil => simp
      | cons c host => exact hhead
  next hcut =>
    cases h
    refine ⟨⟨false, none⟩, rfl, ⟨hhead, ?_⟩, by simp [Spelling.write]⟩
    rw [List.count_eq_zero.mpr (Text.cut_eq_none.mp hcut)]
    decide

/-- **A part is cut at the marks of its spelling**, or its tail is loose. -/
theorem splitPart?_eq_some_iff {part host : List Char} {port : Option (List Char)} :
    splitPart? part = some (host, port) ↔
      (∃ s : Spelling, s.port = port ∧ s.Fits host ∧ s.write host = part) ∨
        port = none ∧ Loose part host := by
  constructor
  · intro h
    by_cases hopen : ∀ rest, part ≠ '[' :: rest
    · exact Or.inl (spelling_of_unbracketed hopen h)
    · obtain ⟨rest, rfl⟩ := not_forall_not.mp hopen
      exact spelling_of_bracketed h
  · rintro (⟨s, rfl, fits, rfl⟩ | ⟨rfl, loose⟩)
    · exact Spelling.splitPart?_write fits
    · exact splitPart?_of_loose loose

/-- What a part can be read as: the host and the port of its spelling, or the host of its brackets
and a port that it does not give. -/
inductive Reads (fallback : UInt16) (part : List Char) (host : String) (port : UInt16) : Prop where
  | spelled (s : Spelling) (written : s.write host.toList = part) (fits : s.Fits host.toList)
    (gives : GivesPort fallback s.port port)
  | loose (tail : Loose part host.toList) (left : port = fallback)

/-- Behind a host that is not empty the port is read. -/
theorem hostPort_of_split {fallback port : UInt16} {part before : List Char} {host : String}
    {text : Option (List Char)} (hsplit : splitPart? part = some (before, text))
    (hne : before ≠ []) :
    hostPort fallback part = .ok (host, port) ↔
      String.ofList before = host ∧ GivesPort fallback text port := by
  have hempty : before.isEmpty = false := by simpa using hne
  have hok (port' : UInt16) :
      (Except.ok (String.ofList before, port') : Except HostFault _) = .ok (host, port) ↔
        String.ofList before = host ∧ port = port' := by
    simp [@eq_comm _ port]
  simp only [hostPort, hsplit, hempty, Bool.false_eq_true, if_false]
  rcases text with _ | _ | ⟨d, text⟩
  · exact hok fallback
  · exact hok fallback
  · change _ ↔ _ ∧ WritesPort (d :: text) port
    rw [← port?_eq_some_iff]
    cases hread : port? (d :: text) with
    | none => simp [hread]
    | some port' => simp [hread, hok, @eq_comm _ port]

theorem hostPort_eq_ok_iff_split {fallback port : UInt16} {part : List Char} {host : String} :
    hostPort fallback part = .ok (host, port) ↔
      host.toList ≠ [] ∧
        ∃ text, splitPart? part = some (host.toList, text) ∧ GivesPort fallback text port := by
  cases hsplit : splitPart? part with
  | none => simp [hostPort, hsplit]
  | some p =>
    obtain ⟨before, text⟩ := p
    have hhost : String.ofList before = host ↔ before = host.toList := by
      rw [← String.toList_inj, String.toList_ofList]
    by_cases hne : before = []
    · subst hne
      have hempty : hostPort fallback part ≠ .ok (host, port) := by simp [hostPort, hsplit]
      refine iff_of_false hempty ?_
      rintro ⟨hne, _, heq, -⟩
      exact hne (Prod.mk.inj (Option.some.inj heq)).1.symm
    · rw [hostPort_of_split hsplit hne, hhost]
      constructor
      · rintro ⟨rfl, gives⟩
        exact ⟨hne, text, rfl, gives⟩
      · rintro ⟨-, _, heq, gives⟩
        obtain ⟨rfl, rfl⟩ := Prod.mk.inj (Option.some.inj heq)
        exact ⟨rfl, gives⟩

/-- **What a part is read as.** -/
theorem hostPort_eq_ok_iff {fallback port : UInt16} {part : List Char} {host : String} :
    hostPort fallback part = .ok (host, port) ↔
      host.toList ≠ [] ∧ Reads fallback part host port := by
  rw [hostPort_eq_ok_iff_split]
  refine and_congr_right fun _ => ?_
  simp only [splitPart?_eq_some_iff]
  constructor
  · rintro ⟨text, ⟨s, rfl, fits, written⟩ | ⟨rfl, loose⟩, gives⟩
    · exact .spelled s written fits gives
    · exact .loose loose gives
  · rintro (⟨s, written, fits, gives⟩ | ⟨loose, left⟩)
    · exact ⟨s.port, Or.inl ⟨s, rfl, fits, written⟩, gives⟩
    · exact ⟨none, Or.inr ⟨rfl, loose⟩, left⟩

/-! ### Reading a URL -/

/-- A part of a URL stands for a target. -/
def StandsFor (fallback : UInt16) (kind : Kind) (part : List Char) (t : Target) : Prop :=
  t.kind = kind ∧ t.host.toList ≠ [] ∧ Reads fallback part t.host t.port

theorem standsFor_iff {fallback : UInt16} {kind : Kind} {part : List Char} {t : Target} :
    ((hostPort fallback part).map fun p => Target.mk p.1 p.2 kind).mapError UrlFault.host = .ok t ↔
      StandsFor fallback kind part t := by
  rw [Checks.mapError_eq_ok_iff, Checks.map_eq_ok_iff, StandsFor, ← hostPort_eq_ok_iff]
  constructor
  · rintro ⟨p, hread, rfl⟩
    exact ⟨rfl, hread⟩
  · rintro ⟨rfl, hread⟩
    exact ⟨_, hread, rfl⟩

/-- A URL with a known scheme is read when all its parts are, and there is one. -/
theorem targets_eq_ok_iff_of_cut {raw scheme rest : List Char} {fallback : UInt16} {kind : Kind}
    {ts : List Target} (hcut : Text.cutAt schemeMark raw = some (scheme, rest))
    (hscheme : schemeDefaults? (String.ofList (Text.lower scheme)) = some (fallback, kind)) :
    targets raw = .ok ts ↔ hostParts (hostList rest) ≠ [] ∧
      List.Forall₂ (StandsFor fallback kind) (hostParts (hostList rest)) ts := by
  have hraw : ¬ raw.isEmpty := by
    cases raw with
    | nil => cases hcut
    | cons c raw => exact Bool.false_ne_true
  have hne : ¬ scheme.isEmpty := by
    have hlower := (colon_notMem_of_schemeDefaults? hscheme).1
    simpa [Text.lower] using hlower
  rw [targets, Checks.guard_eq_ok_iff, hcut]
  dsimp only
  rw [Checks.guard_eq_ok_iff, hscheme]
  dsimp only
  rw [Checks.bind_eq_ok_iff, and_iff_right hraw, and_iff_right hne]
  simp only [Checks.mapM_eq_ok_iff, standsFor_iff, Checks.guard_eq_ok_iff, List.isEmpty_iff]
  constructor
  · rintro ⟨found, hfound, hne, hts⟩
    obtain rfl : found = ts := Except.ok.inj hts
    exact ⟨fun hnil => hne (List.forall₂_nil_left_iff.mp (hnil ▸ hfound)), hfound⟩
  · rintro ⟨hne, hfound⟩
    exact ⟨ts, hfound, fun hnil => hne (List.forall₂_nil_right_iff.mp (hnil ▸ hfound)), rfl⟩

/-- A URL without a known scheme is not read. -/
theorem exists_scheme_of_targets {raw : List Char} {ts : List Target} (h : targets raw = .ok ts) :
    ∃ scheme rest fallback kind,
      Text.cutAt schemeMark raw = some (scheme, rest) ∧
        schemeDefaults? (String.ofList (Text.lower scheme)) = some (fallback, kind) := by
  rw [targets, Checks.guard_eq_ok_iff] at h
  cases hcut : Text.cutAt schemeMark raw with
  | none =>
    rw [hcut] at h
    cases h.2
  | some p =>
    obtain ⟨scheme, rest⟩ := p
    rw [hcut] at h
    dsimp only at h
    rw [Checks.guard_eq_ok_iff] at h
    cases hscheme : schemeDefaults? (String.ofList (Text.lower scheme)) with
    | none =>
      rw [hscheme] at h
      cases h.2.2
    | some d => exact ⟨scheme, rest, d.1, d.2, rfl, hscheme⟩

/-- **A part has one spelling**, unless its tail is loose. -/
theorem StandsFor.existsUnique_iff {fallback : UInt16} {kind : Kind} {part : List Char} {t : Target}
    (h : StandsFor fallback kind part t) :
    (∃! s : Spelling, s.write t.host.toList = part ∧ GivesPort fallback s.port t.port) ↔
      ¬ Loose part t.host.toList := by
  constructor
  · rintro ⟨s, ⟨written, -⟩, -⟩ loose
    exact s.write_ne_of_loose loose written
  · intro tight
    cases h.2.2 with
    | loose tail => exact absurd tail tight
    | spelled s written fits gives =>
      refine ⟨s, ⟨written, gives⟩, fun s' ⟨written', _⟩ => ?_⟩
      exact Spelling.write_injective t.host.toList (written'.trans written.symm)

/-- **Of a host list nothing is ignored but loose tails.** A URL is read when its scheme is known
and each part of its host list stands for a target, and those targets are the result. A part has
exactly one of the six spellings, with the host and the port of its target, unless there is a loose
tail behind its brackets; then it has none. -/
theorem parseUrl_eq_ok_iff (raw : String) (ts : List Target) :
    (parseUrl raw = .ok ts ↔
      ∃ scheme rest fallback kind,
        Text.cutAt schemeMark raw.toList = some (scheme, rest) ∧
          schemeDefaults? (String.ofList (Text.lower scheme)) = some (fallback, kind) ∧
          hostParts (hostList rest) ≠ [] ∧
          List.Forall₂ (StandsFor fallback kind) (hostParts (hostList rest)) ts) ∧
      ∀ fallback kind part t, StandsFor fallback kind part t →
        ((∃! s : Spelling, s.write t.host.toList = part ∧ GivesPort fallback s.port t.port) ↔
          ¬ Loose part t.host.toList) := by
  refine ⟨?_, fun _ _ _ _ h => h.existsUnique_iff⟩
  rw [parseUrl, Checks.mapError_eq_ok_iff]
  constructor
  · intro h
    obtain ⟨scheme, rest, fallback, kind, hcut, hscheme⟩ := exists_scheme_of_targets h
    exact ⟨scheme, rest, fallback, kind, hcut, hscheme,
      (targets_eq_ok_iff_of_cut hcut hscheme).mp h⟩
  · rintro ⟨scheme, rest, fallback, kind, hcut, hscheme, h⟩
    exact (targets_eq_ok_iff_of_cut hcut hscheme).mpr h

/-- Behind the brackets of an address a port can be lost. -/
theorem loose_port_ignored :
    ¬ ∀ raw ts scheme rest, parseUrl raw = .ok ts →
      Text.cutAt schemeMark raw.toList = some (scheme, rest) →
      List.Forall₂ (fun part t => ∃ s : Spelling, s.write t.host.toList = part)
        (hostParts (hostList rest)) ts := by
  intro accounted
  have hforms := accounted "redis://[::1]x:80" [⟨"::1", 6379, .redis⟩] "redis".toList
    "[::1]x:80".toList (by decide +kernel) (by decide +kernel)
  have hparts : hostParts (hostList "[::1]x:80".toList) = ["[::1]x:80".toList] := by
    decide +kernel
  rw [hparts] at hforms
  obtain ⟨⟨s, written⟩, -⟩ := List.forall₂_cons.mp hforms
  exact s.write_ne_of_loose ⟨by decide, 'x', ":80".toList, by decide, rfl⟩ written

end Address

end HealthMonitor
