import HealthMonitor.Address.ConnectionString
import HealthMonitor.Proofs.Address.Parts

/-!
# Connection strings

What a connection string is read as depends on three things: whether it is blank, the value under
the first of the host keys that has one, and the value under the port key (`connection_eq`). The
pairs of a string that is joined from parts are those that its parts spell (`pairs_joined`).

A host and a port can be written in three ways (`PortPlace`). A port is read the same in each of
them (`spellings_read`). A text that is no port is refused under its own key and behind a comma.
Behind a colon it is taken for a part of the host, and the port counts as not given.
-/

namespace HealthMonitor.Address

/-! ### Pairs -/

section Pairs

variable {key : List Char} {parts : List (List Char)}

/-- The text of some parts. -/
def joined (parts : List (List Char)) : List Char :=
  [';'].intercalate parts

/-- **The pairs of a text are those of its parts.** -/
theorem pairs_joined (hne : parts ≠ []) (hparts : ∀ part ∈ parts, ';' ∉ part) :
    pairs (joined parts) = parts.filterMap pair? := by
  rw [pairs, joined, List.splitOn_intercalate ';' hparts hne]

/-- A key and a value behind it make a pair. -/
theorem pair?_append (h : '=' ∉ key) (value : List Char) :
    pair? (key ++ '=' :: value) = some ⟨Text.lower (Text.trim key), Text.trim value⟩ := by
  rw [pair?, Text.cut_append h, Option.map_some]

@[simp] theorem valueOf?_nil (k : String) : valueOf? [] k = none := rfl

@[simp] theorem valueOf?_cons (p : Pair) (ps : List Pair) (k : String) :
    valueOf? (p :: ps) k =
      if p.key = k.toList ∧ p.value ≠ [] then some p.value else valueOf? ps k := by
  by_cases h : p.key = k.toList ∧ p.value ≠ []
  · simp [valueOf?, h]
  · rw [if_neg h, valueOf?, List.find?_cons_of_neg]
    · rfl
    · simpa using h

end Pairs

/-! ### Reading -/

/-- The value that names the host. -/
def writtenHost? (ps : List Pair) : Option (List Char) :=
  hostKeys.findSome? (valueOf? ps)

/-- A host and the text of its port: the value under the port key, or else what the host itself
says. -/
def placed (written : List Char) : Option (List Char) → List Char × Option (List Char)
  | some port => (written, some port)
  | none => splitHost written

/-- A host without its brackets, and its port read. -/
def located (host : List Char) : Option (List Char) →
    Except ConnectionStringFault (String × Option UInt16)
  | none => .ok (String.ofList (stripBrackets host), none)
  | some text =>
    match port? text with
    | some p => .ok (String.ofList (stripBrackets host), some p)
    | none => .error (.port (String.ofList text))

/-- What the pairs of a text are read as. -/
def readPairs (ps : List Pair) : Except ConnectionStringFault (String × Option UInt16) :=
  match writtenHost? ps with
  | none => .error .missingHost
  | some written =>
    let target := placed written (valueOf? ps portKey)
    located target.1 target.2

/-- **A text that is not blank is read by its pairs.** -/
theorem connection_eq (raw : List Char) :
    connection raw = if Text.trim raw = [] then .error .empty else readPairs (pairs raw) := by
  unfold connection readPairs writtenHost?
  by_cases hblank : Text.trim raw = []
  · rw [if_pos hblank, if_pos (List.isEmpty_iff.mpr hblank)]
    rfl
  · rw [if_neg hblank, if_neg (mt List.isEmpty_iff.mp hblank)]
    dsimp only
    cases hostKeys.findSome? (valueOf? (pairs raw)) with
    | none => rfl
    | some written =>
      cases valueOf? (pairs raw) portKey with
      | some port =>
        dsimp only [placed, located]
        cases port? port <;> rfl
      | none =>
        -- without a key of its own the port is what the host says
        dsimp only [placed]
        cases splitHost written with
        | mk host port =>
          cases port with
          | none => rfl
          | some text =>
            dsimp only [located]
            cases port? text <;> rfl

/-- A text of parts that is not blank is read by the pairs of its parts. -/
theorem connection_joined {parts : List (List Char)} (hparts : ∀ part ∈ parts, ';' ∉ part)
    {c : Char} (hc : c ∈ joined parts) (hblank : Text.isBlank c = false) :
    connection (joined parts) = readPairs (parts.filterMap pair?) := by
  have hne : parts ≠ [] := by
    rintro rfl
    cases hc
  have htrim : Text.trim (joined parts) ≠ [] := by
    intro htrim
    rw [Text.trim_eq_nil_iff.mp htrim c hc] at hblank
    cases hblank
  rw [connection_eq, if_neg htrim, pairs_joined hne hparts]

/-- A pair as a part of a text. -/
def Pair.part (p : Pair) : List Char :=
  p.key ++ '=' :: p.value

/-- A pair with its key as it is read. -/
def Pair.lowered (p : Pair) : Pair :=
  ⟨Text.lower (Text.trim p.key), p.value⟩

/-- **A text of pairs is read by them**, if no value has blanks. -/
theorem connection_written {ps : List Pair} (hne : ps ≠ [])
    (hkeys : ∀ p ∈ ps, '=' ∉ p.key ∧ ';' ∉ p.key)
    (hvalues : ∀ p ∈ ps, ∀ c ∈ p.value, c ≠ ';' ∧ Text.isBlank c = false) :
    connection (joined (ps.map Pair.part)) = readPairs (ps.map Pair.lowered) := by
  have hparts : ∀ part ∈ ps.map Pair.part, ';' ∉ part := by
    simp only [List.forall_mem_map, Pair.part, List.mem_append, List.mem_cons, not_or]
    exact fun p hp => ⟨(hkeys p hp).2, by decide, fun h => (hvalues p hp _ h).1 rfl⟩
  obtain ⟨p, rest, rfl⟩ := List.exists_cons_of_ne_nil hne
  -- the text is not blank, since every pair has an equals sign
  have hequals : '=' ∈ joined ((p :: rest).map Pair.part) :=
    mem_intercalate_iff.mpr (Or.inr ⟨p.part, List.mem_cons_self, by simp [Pair.part]⟩)
  rw [connection_joined hparts hequals (by decide), List.filterMap_map]
  congr 1
  rw [← List.filterMap_eq_map]
  refine List.filterMap_congr fun q hq => ?_
  rw [Function.comp, Pair.part, pair?_append (hkeys q hq).1,
    Text.trim_of_not_blank fun c hc => (hvalues q hq c hc).2]
  rfl

/-! ### Three places for a port -/

/-- Where the port of a connection string is written: under a key of its own, or behind a comma or
a colon in the host. -/
inductive PortPlace where
  | key
  | comma
  | colon
  deriving DecidableEq, Repr

/-- A host and a port in a connection string. -/
def PortPlace.write (place : PortPlace) (host port : String) : String :=
  match place with
  | .key => "Host=" ++ host ++ ";Port=" ++ port
  | .comma => "Server=" ++ host ++ "," ++ port
  | .colon => "Host=" ++ host ++ ":" ++ port

/-- Whether a text can be a host in all three places. -/
def IsPlainHost (host : String) : Prop :=
  host.toList ≠ [] ∧
    ∀ c ∈ host.toList, c ∉ [';', ',', ':', '=', '[', ']'] ∧ Text.isBlank c = false

instance (host : String) : Decidable (IsPlainHost host) :=
  @instDecidableAnd _ _ inferInstance (List.decidableBAll _ _)

/-- Whether a text can stand for a port in all three places. -/
def IsPortText (port : String) : Prop :=
  port.toList ≠ [] ∧ ∀ c ∈ port.toList, c ∉ [';', ',', ':'] ∧ Text.isBlank c = false

instance (port : String) : Decidable (IsPortText port) :=
  @instDecidableAnd _ _ inferInstance (List.decidableBAll _ _)

section Places

variable {host port : List Char}

theorem stripBrackets_of_head (h : host.head? ≠ some '[') : stripBrackets host = host := by
  cases host with
  | nil => rfl
  | cons c rest =>
    unfold stripBrackets
    split
    next heq => exact absurd (congrArg List.head? heq) h
    next => rfl

/-- A comma in a host ends it. -/
theorem splitHost_comma (h : ',' ∉ host) (port : List Char) :
    splitHost (host ++ ',' :: port) = (Text.trim host, some (Text.trim port)) := by
  rw [splitHost, Text.cut_append h]

/-- The port behind the only colon of a part. -/
theorem hostPort_colon (hne : host ≠ []) (hopen : host.head? ≠ some '[') (hhost : ':' ∉ host)
    (hport : port ≠ []) (hcolon : ':' ∉ port) (fallback : UInt16) :
    hostPort fallback (host ++ ':' :: port) =
      match port? port with
      | some p => .ok (String.ofList host, p)
      | none => .error (.port (String.ofList port)) := by
  have hsplit : splitPart? (host ++ ':' :: port) = some (host, some port) :=
    Spelling.splitPart?_write (s := ⟨false, some port⟩) ⟨hopen, hhost, hcolon⟩
  obtain ⟨d, rest, rfl⟩ := List.exists_cons_of_ne_nil hport
  cases hread : port? (d :: rest) <;> simp [hostPort, hsplit, hne, hread]

/-- A colon in a host ends it, if there is a port behind it. -/
theorem splitHost_colon (hne : host ≠ []) (hopen : host.head? ≠ some '[') (hhost : ':' ∉ host)
    (hport : port ≠ []) (hcolon : ':' ∉ port) (hcomma : ',' ∉ host ++ ':' :: port) :
    splitHost (host ++ ':' :: port) =
      match port? port with
      | some p => (host, some (Text.digitsOf p.toNat))
      | none => (host ++ ':' :: port, none) := by
  have hcontains : (host ++ ':' :: port).contains ':' = true := by simp
  rw [splitHost, Text.cut_eq_none.mpr hcomma]
  dsimp only
  rw [if_pos hcontains, hostPort_colon hne hopen hhost hport hcolon]
  cases hread : port? port with
  | none => rfl
  | some p =>
    -- the reader takes 0 for a port that is missing, but no port is 0
    have hp : p ≠ 0 := (port?_eq_some_iff.mp hread).1
    dsimp only
    rw [if_neg hp, String.toList_ofList]

end Places

/-- The pairs that are written in each place. -/
def PortPlace.written (place : PortPlace) (host port : List Char) : List Pair :=
  match place with
  | .key => [⟨"Host".toList, host⟩, ⟨"Port".toList, port⟩]
  | .comma => [⟨"Server".toList, host ++ ',' :: port⟩]
  | .colon => [⟨"Host".toList, host ++ ':' :: port⟩]

theorem PortPlace.toList_write (place : PortPlace) (host port : String) :
    (place.write host port).toList =
      joined ((place.written host.toList port.toList).map Pair.part) := by
  cases place <;> simp [PortPlace.write, PortPlace.written, Pair.part, joined]

/-- **A host and a port are found where they are written.** -/
theorem connection_write {host port : String} (hhost : IsPlainHost host) (hport : IsPortText port)
    (place : PortPlace) :
    connection (place.write host port).toList =
      readPairs ((place.written host.toList port.toList).map Pair.lowered) := by
  have hhost' : ∀ c ∈ host.toList, c ≠ ';' ∧ Text.isBlank c = false := fun c hc =>
    ⟨List.ne_of_not_mem_cons (hhost.2 c hc).1, (hhost.2 c hc).2⟩
  have hport' : ∀ c ∈ port.toList, c ≠ ';' ∧ Text.isBlank c = false := fun c hc =>
    ⟨List.ne_of_not_mem_cons (hport.2 c hc).1, (hport.2 c hc).2⟩
  have hvalue : ∀ mark, mark ≠ ';' ∧ Text.isBlank mark = false →
      ∀ c ∈ host.toList ++ mark :: port.toList, c ≠ ';' ∧ Text.isBlank c = false := by
    simp only [List.forall_mem_append, List.forall_mem_cons]
    exact fun mark hmark => ⟨hhost', hmark, hport'⟩
  rw [PortPlace.toList_write]
  refine connection_written ?_ ?_ ?_
  · cases place <;> exact List.cons_ne_nil _ _
  · cases place <;> simp [PortPlace.written]
  · cases place with
    | key => simpa [PortPlace.written] using ⟨hhost', hport'⟩
    | comma => simpa [PortPlace.written] using hvalue ',' (by decide)
    | colon => simpa [PortPlace.written] using hvalue ':' (by decide)

/-- What the host and the port of each place are made of. -/
def PortPlace.found (place : PortPlace) (host port : List Char) :
    List Char × Option (List Char) :=
  match place with
  | .key => (host, some port)
  | .comma => splitHost (host ++ ',' :: port)
  | .colon => splitHost (host ++ ':' :: port)

theorem readPairs_written {host port : List Char} (hhost : host ≠ []) (hport : port ≠ [])
    (place : PortPlace) :
    readPairs ((place.written host port).map Pair.lowered) =
      located (place.found host port).1 (place.found host port).2 := by
  have hhostKey : Text.lower (Text.trim ['H', 'o', 's', 't']) = ['h', 'o', 's', 't'] := by decide
  have hportKey : Text.lower (Text.trim ['P', 'o', 'r', 't']) = ['p', 'o', 'r', 't'] := by decide
  have hserverKey : Text.lower (Text.trim ['S', 'e', 'r', 'v', 'e', 'r']) =
      ['s', 'e', 'r', 'v', 'e', 'r'] := by decide
  cases place <;>
    simp [PortPlace.written, PortPlace.found, Pair.lowered, readPairs, writtenHost?, hostKeys,
      portKey, placed, hhostKey, hportKey, hserverKey, hhost, hport]

/-- A port is read the same in each place. -/
theorem located_found {host port : String} (hhost : IsPlainHost host) (hport : IsPortText port)
    (place : PortPlace) :
    located (place.found host.toList port.toList).1 (place.found host.toList port.toList).2 =
      match port? port.toList with
      | some p => .ok (host, some p)
      | none =>
        if place = .colon then .ok (host ++ ":" ++ port, none) else .error (.port port) := by
  have hmarks : ∀ mark ∈ [';', ',', ':', '=', '[', ']'], mark ∉ host.toList :=
    fun mark hmark h => (hhost.2 mark h).1 hmark
  have hopen : host.toList.head? ≠ some '[' := fun h =>
    hmarks '[' (by decide) (List.mem_of_mem_head? h)
  have hstrip : stripBrackets host.toList = host.toList := stripBrackets_of_head hopen
  cases place with
  | key =>
    simp only [PortPlace.found, located, hstrip, String.ofList_toList]
    cases port? port.toList <;> rfl
  | comma =>
    have htrim : Text.trim host.toList = host.toList ∧ Text.trim port.toList = port.toList :=
      ⟨Text.trim_of_not_blank fun c hc => (hhost.2 c hc).2,
        Text.trim_of_not_blank fun c hc => (hport.2 c hc).2⟩
    simp only [PortPlace.found, splitHost_comma (hmarks ',' (by decide)), htrim, located, hstrip,
      String.ofList_toList]
    cases port? port.toList <;> rfl
  | colon =>
    have hcolon : ':' ∉ port.toList := fun h => (hport.2 _ h).1 (by decide)
    have hcomma : ',' ∉ host.toList ++ ':' :: port.toList := by
      simp only [List.mem_append, List.mem_cons, not_or]
      exact ⟨hmarks ',' (by decide), by decide, fun h => (hport.2 _ h).1 (by decide)⟩
    rw [PortPlace.found,
      splitHost_colon hhost.1 hopen (hmarks ':' (by decide)) hport.1 hcolon hcomma]
    cases hread : port? port.toList with
    | some p =>
      -- the port that was found is written out and read again
      have hp : p ≠ 0 := (port?_eq_some_iff.mp hread).1
      simp [located, hstrip, port?_digitsOf hp]
    | none =>
      -- nothing is cut off, so all of the text is the host
      have hopen' : (host.toList ++ ':' :: port.toList).head? ≠ some '[' := by
        obtain ⟨c, rest, hcons⟩ := List.exists_cons_of_ne_nil hhost.1
        rwa [hcons] at hopen ⊢
      have hwhole : String.ofList (host.toList ++ ':' :: port.toList) = host ++ ":" ++ port := by
        rw [← String.toList_inj]
        simp
      simp [located, stripBrackets_of_head hopen', hwhole]

/-- **A port is read the same in each place**; a text that is no port is refused under its own key
and behind a comma, and behind a colon it stays with the host, which then has no port. -/
theorem spellings_read {host port : String} (hhost : IsPlainHost host) (hport : IsPortText port)
    (place : PortPlace) :
    (∀ n, WritesPort port.toList n →
        parseConnectionString (place.write host port) = .ok (host, some n)) ∧
      ((∀ n, ¬ WritesPort port.toList n) →
        parseConnectionString (place.write host port) =
          if place = .colon then .ok (host ++ ":" ++ port, none)
          else .error (.invalidConnectionString (.port port))) := by
  rw [parseConnectionString, connection_write hhost hport, readPairs_written hhost.1 hport.1,
    located_found hhost hport]
  constructor
  · intro n hn
    rw [port?_eq_some_iff.mpr hn]
    rfl
  · intro hnone
    have hread : port? port.toList = none :=
      Option.eq_none_iff_forall_ne_some.mpr fun n h => hnone n (port?_eq_some_iff.mp h)
    rw [hread]
    dsimp only
    split <;> rfl

/-- A port with a sign and a zero in front, and one that is too great. -/
theorem signed_and_great_read :
    (IsPlainHost "pg.svc" ∧ IsPortText "+05433" ∧ IsPortText "65536") ∧
      WritesPort "+05433".toList 5433 ∧
      (∀ place, parseConnectionString (PortPlace.write place "pg.svc" "+05433") =
        .ok ("pg.svc", some 5433)) ∧
      (∀ n, ¬ WritesPort "65536".toList n) ∧
      parseConnectionString "Host=pg.svc;Port=65536" =
        .error (.invalidConnectionString (.port "65536")) ∧
      parseConnectionString "Server=pg.svc,65536" =
        .error (.invalidConnectionString (.port "65536")) ∧
      parseConnectionString "Host=pg.svc:65536" = .ok ("pg.svc:65536", none) := by
  have hhost : IsPlainHost "pg.svc" := by decide
  have hsigned : IsPortText "+05433" := by decide
  have hgreat : IsPortText "65536" := by decide
  have hwrites : WritesPort "+05433".toList 5433 := port?_eq_some_iff.mp (by decide)
  have hnone : ∀ n, ¬ WritesPort "65536".toList n := fun n hn => by
    have hread : port? "65536".toList = none := by decide
    rw [port?_eq_some_iff.mpr hn] at hread
    cases hread
  exact ⟨⟨hhost, hsigned, hgreat⟩, hwrites,
    fun place => (spellings_read hhost hsigned place).1 5433 hwrites, hnone,
    (spellings_read hhost hgreat .key).2 hnone, (spellings_read hhost hgreat .comma).2 hnone,
    (spellings_read hhost hgreat .colon).2 hnone⟩

/-- Behind a colon a bad port is not refused. -/
theorem colon_port_swallowed :
    ¬ ∀ host port, IsPlainHost host → IsPortText port →
      (∃ n, ∀ place, parseConnectionString (PortPlace.write place host port) =
        .ok (host, some n)) ∨
        ∀ place, (parseConnectionString (PortPlace.write place host port)).isOk = false := by
  intro agree
  have hcolon : parseConnectionString "Host=pg.svc:99999" = .ok ("pg.svc:99999", none) := by
    decide +kernel
  rcases agree "pg.svc" "99999" (by decide) (by decide) with ⟨n, hread⟩ | hrefused
  · have hhost : "pg.svc:99999" = "pg.svc" :=
      (Prod.mk.inj (Except.ok.inj (hcolon.symm.trans (hread .colon)))).1
    exact absurd hhost (by decide)
  · have hrefused' : (parseConnectionString "Host=pg.svc:99999").isOk = false := hrefused .colon
    rw [hcolon] at hrefused'
    cases hrefused'

end HealthMonitor.Address
