import HealthMonitor.Address.Url
import HealthMonitor.Proofs.Text.Blanks
import Mathlib.Data.List.Basic

/-!
# URLs that list endpoints

A URL can be written from endpoints: their addresses between commas, behind the scheme and perhaps
some user info, and in front of a path, a query or a fragment. An endpoint may leave its port to the
scheme. Reading such a URL gives the endpoints back in their order, whatever stands around them
(`parseUrl_url`), provided that their hosts are such as a list can have (`IsHost`): every cut that
the reader makes falls at a mark that no host holds, except the colon, and a host with a colon is
bracketed.
-/

namespace HealthMonitor

namespace Text

/-- A word is found where its first character occurs for the first time. -/
theorem cutAt_append {c : Char} {before : List Char} (h : c ∉ before) (word after : List Char) :
    cutAt (c :: word) (before ++ c :: word ++ after) = some (before, after) := by
  induction before with
  | nil =>
    have hword : (c :: word).isPrefixOf? (c :: word ++ after) = some after :=
      List.isPrefixOf?_eq_some_iff_append_eq.mpr rfl
    rw [List.nil_append, List.cons_append, cutAt]
    rw [List.cons_append] at hword
    rw [hword]
  | cons d rest ih =>
    obtain ⟨hcd, hrest⟩ := not_or.mp (mt List.mem_cons.mpr h)
    have hne : (c == d) = false := beq_eq_false_iff_ne.mpr hcd
    have hnone : (c :: word).isPrefixOf? (d :: (rest ++ c :: word ++ after)) = none := by
      rw [List.isPrefixOf?, hne]
      rfl
    rw [List.cons_append, List.cons_append, cutAt, hnone, ih hrest]
    rfl

end Text

namespace Address

/-! ### Endpoints in a list -/

/-- Whether a character of a part is none that ends the part, and no blank. -/
def IsInner (c : Char) : Prop :=
  c ≠ ',' ∧ c ≠ '@' ∧ endsAuthority c = false ∧ Text.isBlank c = false

instance (c : Char) : Decidable (IsInner c) :=
  inferInstanceAs (Decidable (_ ∧ _))

/-- Whether a text can be a host of a list: it is not empty, and has neither brackets nor marks that
end a part. It may have colons. -/
def IsHost (host : String) : Prop :=
  host.toList ≠ [] ∧ ∀ c ∈ host.toList, IsInner c ∧ c ≠ '[' ∧ c ≠ ']'

instance (host : String) : Decidable (IsHost host) :=
  @instDecidableAnd _ _ inferInstance (List.decidableBAll _ _)

/-- An endpoint of a URL, with its port written or left to the scheme. -/
structure Listed where
  endpoint : Endpoint
  withPort : Bool

namespace Listed

/-- A host alone, in brackets when it has colons. -/
def hostText (host : String) : String :=
  if host.toList.contains ':' then "[" ++ host ++ "]" else host

/-- An endpoint as it is written. -/
def text (l : Listed) : String :=
  if l.withPort then l.endpoint.address else hostText l.endpoint.host

/-- What an endpoint stands for in a URL of some kind. -/
def target (fallback : UInt16) (kind : Kind) (l : Listed) : Target :=
  ⟨l.endpoint.host, if l.withPort then l.endpoint.port else fallback, kind⟩

/-- Whether an endpoint can be listed. -/
def Valid (l : Listed) : Prop :=
  IsHost l.endpoint.host ∧ l.endpoint.port ≠ 0

instance (l : Listed) : Decidable l.Valid :=
  inferInstanceAs (Decidable (_ ∧ _))

/-- The digits of the port, if it is written. -/
def portText (l : Listed) : Option (List Char) :=
  if l.withPort then some (Text.digitsOf l.endpoint.port.toNat) else none

theorem toList_text (l : Listed) :
    l.text.toList =
      (hostText l.endpoint.host).toList ++ (l.portText.map (':' :: ·)).getD [] := by
  obtain ⟨e, withPort⟩ := l
  cases withPort with
  | false => simp [text, portText]
  | true =>
    simp only [text, portText, Endpoint.address, Endpoint.addressOf, hostText, if_true]
    split <;> simp [Text.digitsOf]

end Listed

/-! ### Parts -/

section Parts

theorem isInner_of_isDigit {c : Char} (h : c.isDigit = true) : IsInner c := by
  have hrange := Text.toNat_of_isDigit h
  have hne : ∀ d : Char, d.isDigit = false → c ≠ d := fun _ => Text.ne_of_class h
  refine ⟨hne _ (by decide), hne _ (by decide), ?_, ?_⟩
  · simp [endsAuthority, hne '/' (by decide), hne '?' (by decide), hne '#' (by decide)]
  · simp only [Text.isBlank, Bool.or_eq_false_iff, Bool.and_eq_false_iff, decide_eq_false_iff_not,
      beq_eq_false_iff_ne]
    omega

theorem isInner_of_mem_hostText {host : String} (h : IsHost host) {c : Char}
    (hc : c ∈ (Listed.hostText host).toList) : IsInner c := by
  unfold Listed.hostText at hc
  split at hc
  · simp only [String.toList_append, List.mem_append] at hc
    rcases hc with (hc | hc) | hc
    · obtain rfl : c = '[' := by simpa using hc
      decide
    · exact (h.2 c hc).1
    · obtain rfl : c = ']' := by simpa using hc
      decide
  · exact (h.2 c hc).1

theorem isInner_of_mem_text {l : Listed} (h : l.Valid) {c : Char} (hc : c ∈ l.text.toList) :
    IsInner c := by
  rw [Listed.toList_text, List.mem_append] at hc
  rcases hc with hc | hc
  · exact isInner_of_mem_hostText h.1 hc
  · unfold Listed.portText at hc
    split at hc
    · rcases List.mem_cons.mp hc with rfl | hc
      · decide
      · exact isInner_of_isDigit (Text.isDigit_of_mem_digitsOf hc)
    · cases hc

theorem toList_text_ne_nil {l : Listed} (h : l.Valid) : l.text.toList ≠ [] := by
  rw [Listed.toList_text]
  unfold Listed.hostText
  split
  · simp
  · simp [h.1.1]

/-- A text without blanks has none to be trimmed. -/
theorem trim_of_inner {cs : List Char} (h : ∀ c ∈ cs, IsInner c) : Text.trim cs = cs :=
  Text.trim_of_not_blank fun c hc => (h c hc).2.2.2

/-- A part without brackets is cut at its only colon. -/
theorem splitPart?_of_unbracketed {part : List Char} (h : ∀ rest, part ≠ '[' :: rest) :
    splitPart? part =
      match Text.cut ':' part with
      | some (host, port) =>
        if port.contains ':' then some (part, none) else some (host, some port)
      | none => some (part, none) := by
  unfold splitPart?
  split
  next rest => exact absurd rfl (h rest)
  next => rfl

/-- **A part is cut behind its host**, and in front of its port if it has one. -/
theorem splitPart?_hostText {host : String} (h : IsHost host) {port : Option (List Char)}
    (hport : ∀ p ∈ port, ':' ∉ p) :
    splitPart? ((Listed.hostText host).toList ++ (port.map (':' :: ·)).getD []) =
      some (host.toList, port) := by
  have hopen : ∀ rest, host.toList ≠ '[' :: rest := fun rest hrest =>
    (h.2 '[' (hrest ▸ List.mem_cons_self)).2.1 rfl
  have hclose : ']' ∉ host.toList := fun hmem => (h.2 ']' hmem).2.2 rfl
  by_cases hcolon : ':' ∈ host.toList
  · have htext : (Listed.hostText host).toList = '[' :: (host.toList ++ [']']) := by
      simp [Listed.hostText, hcolon]
    rw [htext, List.cons_append, List.append_assoc, splitPart?, List.cons_append,
      List.nil_append, Text.cut_append hclose]
    cases port <;> rfl
  · have htext : (Listed.hostText host).toList = host.toList := by
      simp [Listed.hostText, hcolon]
    rw [htext]
    have hunbracketed : ∀ tail rest, host.toList ++ tail ≠ '[' :: rest := by
      intro tail rest hrest
      obtain ⟨c, cs, hhost⟩ := List.exists_cons_of_ne_nil h.1
      rw [hhost, List.cons_append] at hrest
      exact hopen cs (hhost.trans (congrArg (· :: cs) (List.cons.inj hrest).1))
    rw [splitPart?_of_unbracketed (hunbracketed _)]
    cases port with
    | none =>
      rw [Option.map_none, Option.getD_none, List.append_nil, Text.cut_eq_none.mpr hcolon]
    | some p =>
      rw [Option.map_some, Option.getD_some, Text.cut_append hcolon]
      simp [hport p rfl]

/-- A port is read from its digits. -/
theorem port?_digitsOf {p : UInt16} (h : p ≠ 0) : port? (Text.digitsOf p.toNat) = some p := by
  have htrim : Text.trim (Text.digitsOf p.toNat) = Text.digitsOf p.toNat :=
    trim_of_inner fun c hc => isInner_of_isDigit (Text.isDigit_of_mem_digitsOf hc)
  have hne : p.toNat ≠ 0 := by
    intro hzero
    exact h (UInt16.toNat_inj.mp hzero)
  rw [port?, htrim, Text.natural?_digitsOf p.toNat_lt]
  simp [hne]

/-- **A listed endpoint is read as what it stands for.** -/
theorem hostPort_text {l : Listed} (h : l.Valid) (fallback : UInt16) :
    hostPort fallback l.text.toList =
      .ok (l.endpoint.host, if l.withPort then l.endpoint.port else fallback) := by
  have hport : ∀ p ∈ l.portText, ':' ∉ p := by
    intro p hp hmem
    unfold Listed.portText at hp
    split at hp
    · obtain rfl := Option.some.inj hp
      exact absurd (Text.isDigit_of_mem_digitsOf hmem) (by decide)
    · cases hp
  have hhost : l.endpoint.host.toList.isEmpty = false := by
    rw [List.isEmpty_eq_false_iff]
    exact h.1.1
  rw [hostPort, Listed.toList_text, splitPart?_hostText h.1 hport]
  simp only [hhost, Bool.false_eq_true, if_false, String.ofList_toList]
  cases hwith : l.withPort with
  | false => simp [Listed.portText, hwith]
  | true =>
    obtain ⟨d, ds, hdigits⟩ :=
      List.exists_cons_of_ne_nil (Text.digitsOf_ne_nil l.endpoint.port.toNat)
    have hread := port?_digitsOf h.2
    rw [hdigits] at hread
    simp [Listed.portText, hwith, hdigits, hread]

end Parts

/-! ### Lists -/

/-- The part of a URL between scheme and path. -/
def authority (userInfo : Option String) (listed : List Listed) : String :=
  (userInfo.map (· ++ "@")).getD "" ++ ",".intercalate (listed.map Listed.text)

/-- A URL that lists endpoints. -/
def url (scheme : String) (userInfo : Option String) (listed : List Listed) (suffix : String) :
    String :=
  scheme ++ "://" ++ authority userInfo listed ++ suffix

/-- What may stand behind the endpoints: nothing, or a text that ends the authority. -/
def IsSuffix (suffix : String) : Prop :=
  ∀ c ∈ suffix.toList.head?, endsAuthority c = true

instance (suffix : String) : Decidable (IsSuffix suffix) :=
  Option.decidableForallMem suffix.toList.head?

/-- What may stand in front of the endpoints. -/
def IsUserInfo (userInfo : Option String) : Prop :=
  ∀ u ∈ userInfo, ∀ c ∈ u.toList, endsAuthority c = false

instance (userInfo : Option String) : Decidable (IsUserInfo userInfo) :=
  @Option.decidableForallMem _ _ (fun _ => List.decidableBAll _ _) userInfo

section Lists

variable {scheme suffix : String} {userInfo : Option String} {listed : List Listed}

/-- The characters of a joined text are those of its parts, and the mark between them if there are
two. -/
theorem mem_intercalate_iff {sep c : Char} {parts : List (List Char)} :
    c ∈ [sep].intercalate parts ↔
      (c = sep ∧ 1 < parts.length) ∨ ∃ part ∈ parts, c ∈ part := by
  induction parts with
  | nil => simp
  | cons first rest ih =>
    cases rest with
    | nil => simp
    | cons second rest =>
      have hlength : 1 < (first :: second :: rest).length := by simp
      rw [List.intercalate_cons_cons, List.mem_append, List.mem_append, List.mem_singleton, ih,
        @List.exists_mem_cons_iff _ (c ∈ ·) first]
      constructor
      · rintro ((hc | hc) | ⟨hc, -⟩ | hc)
        · exact Or.inr (Or.inl hc)
        · exact Or.inl ⟨hc, hlength⟩
        · exact Or.inl ⟨hc, hlength⟩
        · exact Or.inr (Or.inr hc)
      · rintro (⟨hc, -⟩ | hc | hc)
        · exact Or.inl (Or.inr hc)
        · exact Or.inl (Or.inl hc)
        · exact Or.inr (Or.inr hc)

/-- No endpoint ends the authority or the user info. -/
theorem of_mem_hosts (hlisted : ∀ l ∈ listed, l.Valid) {c : Char}
    (hc : c ∈ [','].intercalate (listed.map fun l => l.text.toList)) :
    c ≠ '@' ∧ endsAuthority c = false := by
  rcases mem_intercalate_iff.mp hc with ⟨rfl, -⟩ | ⟨p, hp, hcp⟩
  · decide
  · obtain ⟨l, hl, rfl⟩ := List.mem_map.mp hp
    obtain ⟨-, hat, hends, -⟩ := isInner_of_mem_text (hlisted l hl) hcp
    exact ⟨hat, hends⟩

theorem toList_authority :
    (authority userInfo listed).toList =
      (userInfo.map fun u => u.toList ++ ['@']).getD [] ++
        [','].intercalate (listed.map fun l => l.text.toList) := by
  cases userInfo <;> simp [authority, Function.comp_def]

/-- **The host list is what stands behind the user info.** -/
theorem hostList_authority (huser : IsUserInfo userInfo) (hlisted : ∀ l ∈ listed, l.Valid)
    (hsuffix : IsSuffix suffix) :
    hostList ((authority userInfo listed).toList ++ suffix.toList) =
      [','].intercalate (listed.map fun l => l.text.toList) := by
  have hinside : ∀ c ∈ (authority userInfo listed).toList, (!endsAuthority c) = true := by
    intro c hc
    rw [toList_authority, List.mem_append] at hc
    rcases hc with hc | hc
    · cases userInfo with
      | none => cases hc
      | some u =>
        rcases List.mem_append.mp hc with hc | hc
        · simp [huser u rfl c hc]
        · obtain rfl := List.mem_singleton.mp hc
          decide
    · simp [(of_mem_hosts hlisted hc).2]
  have hstop : suffix.toList.takeWhile (fun c => !endsAuthority c) = [] := by
    cases htext : suffix.toList with
    | nil => rfl
    | cons c rest =>
      have hc : endsAuthority c = true := hsuffix c (by rw [htext]; rfl)
      simp [hc]
  have hnoat : '@' ∉ [','].intercalate (listed.map fun l => l.text.toList) := fun hmem =>
    (of_mem_hosts hlisted hmem).1 rfl
  rw [hostList, List.takeWhile_append_of_pos hinside, hstop, List.append_nil, toList_authority]
  cases userInfo with
  | none => simp [Text.cutLast_eq_none.mpr hnoat]
  | some u =>
    rw [Option.map_some, Option.getD_some, List.append_assoc, List.singleton_append,
      Text.cutLast_append hnoat]

/-- **The parts of a host list are the endpoints.** -/
theorem hostParts_intercalate (hne : listed ≠ []) (hlisted : ∀ l ∈ listed, l.Valid) :
    hostParts ([','].intercalate (listed.map fun l => l.text.toList)) =
      listed.map fun l => l.text.toList := by
  have hcomma : ∀ p ∈ listed.map (fun l => l.text.toList), ',' ∉ p := by
    intro p hp hmem
    obtain ⟨l, hl, rfl⟩ := List.mem_map.mp hp
    exact (isInner_of_mem_text (hlisted l hl) hmem).1 rfl
  have htrim : (listed.map fun l => l.text.toList).map Text.trim =
      listed.map fun l => l.text.toList := by
    rw [List.map_map]
    refine List.map_congr_left fun l hl => ?_
    exact trim_of_inner fun c hc => isInner_of_mem_text (hlisted l hl) hc
  rw [hostParts, List.splitOn_intercalate ',' hcomma (by simpa using hne), htrim,
    List.filter_eq_self]
  intro p hp
  obtain ⟨l, hl, rfl⟩ := List.mem_map.mp hp
  simpa using toList_text_ne_nil (hlisted l hl)

/-- The endpoints of a list are read one after another. -/
theorem mapM_hostPort (hlisted : ∀ l ∈ listed, l.Valid) (fallback : UInt16) (kind : Kind) :
    (listed.map fun l => l.text.toList).mapM (fun part =>
      ((hostPort fallback part).map fun p => Target.mk p.1 p.2 kind).mapError UrlFault.host) =
      .ok (listed.map (Listed.target fallback kind)) := by
  induction listed with
  | nil => rfl
  | cons l listed ih =>
    obtain ⟨hl, hrest⟩ := List.forall_mem_cons.mp hlisted
    rw [List.map_cons, List.mapM_cons, hostPort_text hl, ih hrest]
    rfl

/-! ### Schemes -/

/-- A scheme has no colon. -/
theorem colon_notMem_of_schemeDefaults? {s : String} {d : UInt16 × Kind}
    (h : schemeDefaults? s = some d) : s.toList ≠ [] ∧ ':' ∉ s.toList := by
  unfold schemeDefaults? at h
  split at h <;> cases h <;> decide

theorem scheme_of_lower {d : UInt16 × Kind}
    (h : schemeDefaults? (String.ofList (Text.lower scheme.toList)) = some d) :
    scheme.toList ≠ [] ∧ ':' ∉ scheme.toList := by
  obtain ⟨hne, hcolon⟩ := colon_notMem_of_schemeDefaults? h
  rw [String.toList_ofList] at hne hcolon
  refine ⟨fun hnil => hne (by rw [hnil]; rfl), fun hmem => hcolon ?_⟩
  exact List.mem_map.mpr ⟨':', hmem, rfl⟩

theorem cutAt_url (h : ':' ∉ scheme.toList) :
    Text.cutAt schemeMark (url scheme userInfo listed suffix).toList =
      some (scheme.toList, (authority userInfo listed).toList ++ suffix.toList) := by
  have hurl : (url scheme userInfo listed suffix).toList =
      scheme.toList ++ schemeMark ++ ((authority userInfo listed).toList ++ suffix.toList) := by
    simp [url, schemeMark]
  rw [hurl]
  exact Text.cutAt_append h ['/', '/'] _

/-- **A URL of endpoints is read as these endpoints.** -/
theorem targets_url {fallback : UInt16} {kind : Kind}
    (hscheme : schemeDefaults? (String.ofList (Text.lower scheme.toList)) = some (fallback, kind))
    (huser : IsUserInfo userInfo) (hne : listed ≠ []) (hlisted : ∀ l ∈ listed, l.Valid)
    (hsuffix : IsSuffix suffix) :
    targets (url scheme userInfo listed suffix).toList =
      .ok (listed.map (Listed.target fallback kind)) := by
  obtain ⟨hempty, hcolon⟩ := scheme_of_lower hscheme
  have hread := mapM_hostPort hlisted fallback kind
  rw [← hostParts_intercalate hne hlisted, ← hostList_authority huser hlisted hsuffix] at hread
  have hurl : (url scheme userInfo listed suffix).toList.isEmpty = false := by
    simp [url, hempty]
  have hscheme' : scheme.toList.isEmpty = false := by simpa using hempty
  have hfound : (listed.map (Listed.target fallback kind)).isEmpty = false := by simpa using hne
  simp only [targets, hurl, cutAt_url hcolon, hscheme', hscheme, hread, hfound, bind, Except.bind]
  rfl

/-- **Behind the word for it, a URL of one of two databases is read as its first endpoint.** -/
theorem jdbcTargets_url {fallback : UInt16} {kind : Kind}
    (hscheme : schemeDefaults? (String.ofList (Text.lower scheme.toList)) = some (fallback, kind))
    (huser : IsUserInfo userInfo) (hne : listed ≠ []) (hlisted : ∀ l ∈ listed, l.Valid)
    (hsuffix : IsSuffix suffix)
    (hdatabase : String.ofList (Text.lower scheme.toList) ∈ ["postgresql", "mysql"]) :
    jdbcTargets (jdbcMark ++ (url scheme userInfo listed suffix).toList) =
      .ok [(listed.head hne).target fallback kind] := by
  have hcut : Text.cutAt schemeMark (url scheme userInfo listed suffix).toList = _ :=
    cutAt_url (scheme_of_lower hscheme).2
  have hread := targets_url hscheme huser hne hlisted hsuffix
  have hmark : Text.lower jdbcMark = jdbcMark := rfl
  have hsupported : (String.ofList (Text.lower scheme.toList) != "postgresql" &&
      String.ofList (Text.lower scheme.toList) != "mysql") = false := by
    rcases List.mem_pair.mp hdatabase with h | h <;> rw [h] <;> rfl
  obtain ⟨l, rest, rfl⟩ := List.exists_cons_of_ne_nil hne
  simp only [jdbcTargets, List.take_left, List.drop_left, hmark, hcut, hread, hsupported, bind,
    Except.bind, bne_self_eq_false]
  rfl

end Lists

/-- **URLs undo the writing of endpoints.** A URL with a known scheme in any case lists endpoints,
each with its port or without, behind any user info and in front of any path, query or fragment. It
is read as these endpoints in their order, of the kind of the scheme, those without a port at the
port of the scheme. Behind `jdbc:` the URL of either database is read as the first of them. -/
theorem parseUrl_url {scheme suffix : String} {userInfo : Option String} {listed : List Listed}
    {fallback : UInt16} {kind : Kind}
    (hscheme : schemeDefaults? (String.ofList (Text.lower scheme.toList)) = some (fallback, kind))
    (huser : IsUserInfo userInfo) (hne : listed ≠ []) (hlisted : ∀ l ∈ listed, l.Valid)
    (hsuffix : IsSuffix suffix) :
    parseUrl (url scheme userInfo listed suffix) =
        .ok (listed.map (Listed.target fallback kind)) ∧
      (String.ofList (Text.lower scheme.toList) ∈ ["postgresql", "mysql"] →
        parseJdbc ("jdbc:" ++ url scheme userInfo listed suffix) =
          .ok [(listed.head hne).target fallback kind]) := by
  constructor
  · rw [parseUrl, targets_url hscheme huser hne hlisted hsuffix]
    rfl
  · intro hdatabase
    have hjdbc : ("jdbc:" ++ url scheme userInfo listed suffix).toList =
        jdbcMark ++ (url scheme userInfo listed suffix).toList :=
      String.toList_append
    rw [parseJdbc, hjdbc, jdbcTargets_url hscheme huser hne hlisted hsuffix hdatabase]
    rfl

/-- The replicas of a database, one of them by an address with colons, behind a user info that looks
like a host list of its own. -/
def replicas : List Listed :=
  [⟨Endpoint.plain "pg-0" 6432, true⟩, ⟨Endpoint.plain "fe80::1" 5433, true⟩,
    ⟨Endpoint.plain "::1" 1, false⟩]

theorem replicas_read :
    ((schemeDefaults? (String.ofList (Text.lower "PostgreSQL".toList)) =
          some (5432, .postgres) ∧ IsUserInfo (some "me:p@h,[x]") ∧ replicas ≠ []) ∧
        (∀ l ∈ replicas, l.Valid) ∧ IsSuffix "/orders?x=@h") ∧
      url "PostgreSQL" (some "me:p@h,[x]") replicas "/orders?x=@h" =
        "PostgreSQL://me:p@h,[x]@pg-0:6432,[fe80::1]:5433,[::1]/orders?x=@h" ∧
      parseUrl (url "PostgreSQL" (some "me:p@h,[x]") replicas "/orders?x=@h") =
        .ok [⟨"pg-0", 6432, .postgres⟩, ⟨"fe80::1", 5433, .postgres⟩, ⟨"::1", 5432, .postgres⟩] ∧
      parseJdbc ("jdbc:" ++ url "PostgreSQL" (some "me:p@h,[x]") replicas "/orders?x=@h") =
        .ok [⟨"pg-0", 6432, .postgres⟩] := by
  have hscheme : schemeDefaults? (String.ofList (Text.lower "PostgreSQL".toList)) =
      some (5432, .postgres) := by decide
  have huser : IsUserInfo (some "me:p@h,[x]") := by decide
  have hne : replicas ≠ [] := nofun
  have hlisted : ∀ l ∈ replicas, l.Valid := by decide
  have hsuffix : IsSuffix "/orders?x=@h" := by decide
  obtain ⟨hurl, hjdbc⟩ := parseUrl_url hscheme huser hne hlisted hsuffix
  exact ⟨⟨⟨hscheme, huser, hne⟩, hlisted, hsuffix⟩, by decide, hurl, hjdbc (by decide)⟩

end Address

end HealthMonitor
