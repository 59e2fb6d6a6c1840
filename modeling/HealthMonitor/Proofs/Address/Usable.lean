import HealthMonitor.Proofs.Address.ConnectionStrings

/-!
# Usable endpoints

An endpoint can be dialled if it has a host and a port from 1 to 65535. The readers of addresses
return such endpoints, with one gap (`endpoints_usable`). In a URL the host is looked at as it is
returned, without its brackets. In a connection string and in a host that is given on its own it is
looked at first, and cut at a comma or taken out of brackets afterwards, and nothing may be left of
it then (`IsHollow`).
-/

namespace HealthMonitor.Address

/-! ### Ports -/

/-- A port from 1 to 65535. -/
def IsPort (port : UInt16) : Prop :=
  1 ≤ port.toNat ∧ port.toNat ≤ 65535

theorem isPort_of_ne_zero {port : UInt16} (h : port ≠ 0) : IsPort port := by
  have hne : port.toNat ≠ 0 := fun hzero => h (UInt16.toNat_inj.mp hzero)
  have hlt : port.toNat < 65536 := port.toNat_lt
  exact ⟨by omega, by omega⟩

theorem isPort_of_port? {text : List Char} {port : UInt16} (h : port? text = some port) :
    IsPort port :=
  isPort_of_ne_zero (port?_eq_some_iff.mp h).1

theorem isPort_of_schemeDefaults? {scheme : String} {port : UInt16} {kind : Kind}
    (h : schemeDefaults? scheme = some (port, kind)) : IsPort port := by
  refine isPort_of_ne_zero ?_
  unfold schemeDefaults? at h
  split at h <;> cases h <;> decide

theorem GivesPort.isPort {fallback port : UInt16} {text : Option (List Char)}
    (h : GivesPort fallback text port) (hfallback : IsPort fallback) : IsPort port := by
  rcases text with _ | _ | ⟨d, text⟩
  · exact h ▸ hfallback
  · exact h ▸ hfallback
  · exact isPort_of_ne_zero h.1

theorem Reads.isPort {fallback port : UInt16} {part : List Char} {host : String}
    (h : Reads fallback part host port) (hfallback : IsPort fallback) : IsPort port := by
  cases h with
  | spelled s written fits gives => exact gives.isPort hfallback
  | loose tail left => exact left ▸ hfallback

/-! ### URLs -/

/-- Endpoints of a URL that can be dialled: one at least, each with a host and a port. -/
def AreUsable (ts : List Target) : Prop :=
  ts ≠ [] ∧ ∀ t ∈ ts, t.host ≠ "" ∧ IsPort t.port

/-- What a part stands for can be dialled. -/
theorem StandsFor.usable {fallback : UInt16} {kind : Kind} {part : List Char} {t : Target}
    (h : StandsFor fallback kind part t) (hfallback : IsPort fallback) :
    t.host ≠ "" ∧ IsPort t.port := by
  obtain ⟨-, hhost, hreads⟩ := h
  refine ⟨fun hempty => hhost ?_, hreads.isPort hfallback⟩
  rw [hempty]
  rfl

theorem usable_of_forall₂ {fallback : UInt16} {kind : Kind} {parts : List (List Char)}
    {ts : List Target} (h : List.Forall₂ (StandsFor fallback kind) parts ts)
    (hfallback : IsPort fallback) : ∀ t ∈ ts, t.host ≠ "" ∧ IsPort t.port := by
  induction h with
  | nil => exact nofun
  | cons hpart _ ih => exact List.forall_mem_cons.mpr ⟨hpart.usable hfallback, ih⟩

/-- **The endpoints of a URL are usable.** -/
theorem areUsable_of_targets {raw : List Char} {ts : List Target} (h : targets raw = .ok ts) :
    AreUsable ts := by
  obtain ⟨scheme, rest, fallback, kind, hcut, hscheme⟩ := exists_scheme_of_targets h
  obtain ⟨hne, hparts⟩ := (targets_eq_ok_iff_of_cut hcut hscheme).mp h
  exact ⟨fun hnil => hne (List.forall₂_nil_right_iff.mp (hnil ▸ hparts)),
    usable_of_forall₂ hparts (isPort_of_schemeDefaults? hscheme)⟩

/-- A JDBC URL is read as the first endpoint of the URL in it. -/
theorem exists_targets_of_jdbcTargets {raw : List Char} {ts : List Target}
    (h : jdbcTargets raw = .ok ts) :
    ∃ us, targets (raw.drop jdbcMark.length) = .ok us ∧ ts = us.take 1 := by
  simp only [jdbcTargets, Checks.guard_eq_ok_iff, Checks.bind_eq_ok_iff] at h
  obtain ⟨-, -, us, hus, hts⟩ := h
  exact ⟨us, hus, (Except.ok.inj hts).symm⟩

theorem AreUsable.take_one {ts : List Target} (h : AreUsable ts) : AreUsable (ts.take 1) := by
  obtain ⟨t, rest, rfl⟩ := List.exists_cons_of_ne_nil h.1
  exact ⟨List.cons_ne_nil _ _, fun u hu => h.2 u (List.mem_of_mem_take hu)⟩

theorem areUsable_of_jdbcTargets {raw : List Char} {ts : List Target}
    (h : jdbcTargets raw = .ok ts) : AreUsable ts := by
  obtain ⟨us, hus, rfl⟩ := exists_targets_of_jdbcTargets h
  exact (areUsable_of_targets hus).take_one

/-! ### Hosts with nothing in them -/

/-- Whether nothing is left of a host: it is no text at all, or a pair of brackets. -/
def IsHollow (host : List Char) : Prop :=
  host = [] ∨ host = ['[', ']']

theorem stripBrackets_eq_nil_iff {host : List Char} : stripBrackets host = [] ↔ IsHollow host := by
  by_cases hopen : host.head? = some '['
  · obtain ⟨rest, rfl⟩ := List.head?_eq_some_iff.mp hopen
    rw [stripBrackets, IsHollow]
    cases rest with
    | nil => simp
    | cons c rest =>
      cases rest with
      | nil => simp
      | cons d rest => split <;> simp
  · rw [stripBrackets_of_head hopen]
    refine (or_iff_left ?_).symm
    rintro rfl
    exact hopen rfl

theorem ofList_stripBrackets_eq_empty_iff {host : List Char} :
    String.ofList (stripBrackets host) = "" ↔ IsHollow host := by
  rw [← stripBrackets_eq_nil_iff, ← String.toList_inj, String.toList_ofList]
  rfl

/-- A host as it is written, without a port behind a comma. The comma does not count where the port
has a key of its own. -/
def bareHost (written : List Char) : Option (List Char) → List Char
  | some _ => written
  | none =>
    match Text.cut ',' written with
    | some (host, _) => Text.trim host
    | none => written

/-- A host that is found in front of a colon has something in it. -/
theorem not_isHollow_of_hostPort {fallback port : UInt16} {part : List Char} {host : String}
    (h : hostPort fallback part = .ok (host, port)) : ¬ IsHollow host.toList := by
  obtain ⟨hne, hreads⟩ := hostPort_eq_ok_iff.mp h
  rintro (hnil | hbrackets)
  · exact hne hnil
  · have hclose : ']' ∈ host.toList := by simp [hbrackets]
    have hopen : host.toList.head? = some '[' := by simp [hbrackets]
    cases hreads with
    | spelled s written fits gives =>
      obtain ⟨bracketed, text⟩ := s
      cases bracketed with
      | true => exact fits hclose
      | false => cases text <;> exact fits.1 hopen
    | loose tail left => exact tail.1 hclose

/-- **What is left of a host.** -/
theorem isHollow_placed_iff {written : List Char} (port : Option (List Char)) :
    IsHollow (placed written port).1 ↔ IsHollow (bareHost written port) := by
  cases port with
  | some text => rfl
  | none =>
    rw [placed, splitHost, bareHost]
    cases Text.cut ',' written with
    | some p => rfl
    | none =>
      dsimp only
      split
      next hcolon =>
        -- no hollow host has a colon
        have hwritten : ¬ IsHollow written := by
          rintro (rfl | rfl) <;> cases hcolon
        split
        next host p hread =>
          split
          next => rfl
          next => exact iff_of_false (not_isHollow_of_hostPort hread) hwritten
        next => rfl
      next => rfl

/-- What is located has the host without its brackets, and a port if there is a text for one. -/
theorem usable_of_located {cs : List Char} {text : Option (List Char)} {host : String}
    {port : Option UInt16} (h : located cs text = .ok (host, port)) :
    (∀ p ∈ port, IsPort p) ∧ (host = "" ↔ IsHollow cs) := by
  cases text with
  | none =>
    obtain ⟨rfl, rfl⟩ := Prod.mk.inj (Except.ok.inj h)
    exact ⟨nofun, ofList_stripBrackets_eq_empty_iff⟩
  | some text =>
    rw [located] at h
    cases hread : port? text with
    | none =>
      rw [hread] at h
      cases h
    | some p =>
      rw [hread] at h
      obtain ⟨rfl, rfl⟩ := Prod.mk.inj (Except.ok.inj h)
      refine ⟨fun q hq => ?_, ofList_stripBrackets_eq_empty_iff⟩
      obtain rfl : p = q := Option.some.inj hq
      exact isPort_of_port? hread

/-- **The endpoint of a connection string**: its port is one, and its host is empty just if nothing
is written for it. -/
theorem usable_of_connection {raw : List Char} {host : String} {port : Option UInt16}
    (h : connection raw = .ok (host, port)) :
    (∀ p ∈ port, IsPort p) ∧ ∃ written, writtenHost? (pairs raw) = some written ∧
      (host = "" ↔ IsHollow (bareHost written (valueOf? (pairs raw) portKey))) := by
  rw [connection_eq] at h
  split at h
  next => cases h
  next =>
    rw [readPairs] at h
    cases hwritten : writtenHost? (pairs raw) with
    | none =>
      rw [hwritten] at h
      cases h
    | some written =>
      rw [hwritten] at h
      obtain ⟨hport, hhost⟩ := usable_of_located h
      exact ⟨hport, written, rfl, hhost.trans (isHollow_placed_iff _)⟩

/-- **The endpoint of a host and a port**: the port is one, and the host is empty just if it is
written as brackets around nothing. -/
theorem usable_of_parseParams {host port : String} {e : Endpoint}
    (h : parseParams host port = .ok e) : IsPort e.port ∧ (e.host = "" ↔ host = "[]") := by
  simp only [parseParams, Checks.guard_eq_ok_iff, Checks.bind_eq_ok_iff] at h
  obtain ⟨hne, p, hport, he⟩ := h
  obtain rfl := Except.ok.inj he
  constructor
  · rw [parsePort] at hport
    cases hread : port? port.toList with
    | none =>
      rw [hread] at hport
      cases hport
    | some q =>
      rw [hread] at hport
      obtain rfl : q = p := Except.ok.inj hport
      exact isPort_of_port? hread
  · have hbrackets : host.toList = ['[', ']'] ↔ host = "[]" := by
      rw [← String.toList_inj]
      rfl
    -- a host that is empty from the start is refused, so only brackets are left
    have hnil : host.toList ≠ [] := by
      simpa [String.isEmpty_iff] using hne
    exact (ofList_stripBrackets_eq_empty_iff.trans (or_iff_right hnil)).trans hbrackets

/-- **The endpoints of addresses are usable, but for hollow hosts.** A URL is read as one endpoint
at least, a JDBC URL too, each with a host that is not empty and a port from 1 to 65535. So is a
connection string, whose port may be missing, and a host with a port in two texts, unless brackets
stand around nothing in place of the host, or nothing in front of a comma; just then the host that
is returned is empty. -/
theorem endpoints_usable (raw host port : String) :
    (∀ ts, parseUrl raw = .ok ts ∨ parseJdbc raw = .ok ts → AreUsable ts) ∧
      (∀ target, parseConnectionString raw = .ok target →
        (∀ p ∈ target.2, IsPort p) ∧ ∃ written, writtenHost? (pairs raw.toList) = some written ∧
          (target.1 = "" ↔
            IsHollow (bareHost written (valueOf? (pairs raw.toList) portKey)))) ∧
      ∀ e, parseParams host port = .ok e → IsPort e.port ∧ (e.host = "" ↔ host = "[]") := by
  refine ⟨fun ts h => ?_, fun target h => ?_, fun e h => usable_of_parseParams h⟩
  · rcases h with h | h
    · exact areUsable_of_targets (Checks.mapError_eq_ok_iff.mp h)
    · exact areUsable_of_jdbcTargets (Checks.mapError_eq_ok_iff.mp h)
  · exact usable_of_connection (Checks.mapError_eq_ok_iff.mp h)

/-- A URL of two brokers, a JDBC URL, and two texts with nothing in place of the host. -/
theorem brokers_and_hollows_read :
    (parseUrl "kafka://b0:9093,[::1]" = .ok [⟨"b0", 9093, .kafka⟩, ⟨"::1", 9092, .kafka⟩] ∧
      AreUsable [⟨"b0", 9093, .kafka⟩, ⟨"::1", 9092, .kafka⟩]) ∧
    (parseJdbc "jdbc:mysql://my.svc/app" = .ok [⟨"my.svc", 3306, .mysql⟩] ∧
      AreUsable [⟨"my.svc", 3306, .mysql⟩]) ∧
    (parseConnectionString "Server=,1433" = .ok ("", some 1433) ∧ IsPort 1433 ∧
      ∃ written, writtenHost? (pairs "Server=,1433".toList) = some written ∧
        IsHollow (bareHost written (valueOf? (pairs "Server=,1433".toList) portKey))) ∧
    parseParams "[]" "80" = .ok (Endpoint.plain "" 80) ∧ IsPort 80 := by
  have hurl : parseUrl "kafka://b0:9093,[::1]" =
      .ok [⟨"b0", 9093, .kafka⟩, ⟨"::1", 9092, .kafka⟩] := by decide +kernel
  have hjdbc : parseJdbc "jdbc:mysql://my.svc/app" = .ok [⟨"my.svc", 3306, .mysql⟩] := by
    decide +kernel
  have hstring : parseConnectionString "Server=,1433" = .ok ("", some 1433) := by decide +kernel
  have hparams : parseParams "[]" "80" = .ok (Endpoint.plain "" 80) := by decide +kernel
  obtain ⟨hport, written, hwritten, hhollow⟩ := (endpoints_usable _ "" "").2.1 _ hstring
  exact ⟨⟨hurl, (endpoints_usable _ "" "").1 _ (Or.inl hurl)⟩,
    ⟨hjdbc, (endpoints_usable _ "" "").1 _ (Or.inr hjdbc)⟩,
    ⟨hstring, hport _ rfl, written, hwritten, hhollow.mp rfl⟩, hparams,
    ((endpoints_usable "" _ _).2.2 _ hparams).1⟩

/-- Brackets around nothing, and nothing in front of a comma, are taken for hosts. -/
theorem hollow_hosts_returned :
    (¬ ∀ host port e, parseParams host port = .ok e → e.host ≠ "") ∧
      ¬ ∀ raw host port, parseConnectionString raw = .ok (host, port) → host ≠ "" := by
  have hparams : parseParams "[]" "80" = .ok (Endpoint.plain "" 80) := by decide +kernel
  have hstring : parseConnectionString "Server=,1433" = .ok ("", some 1433) := by decide +kernel
  exact ⟨fun h => h _ _ _ hparams rfl, fun h => h _ _ _ hstring rfl⟩

end HealthMonitor.Address
