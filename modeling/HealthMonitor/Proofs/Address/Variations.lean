import HealthMonitor.Proofs.Address.ConnectionStrings
import HealthMonitor.Proofs.Text.Case
import Mathlib.Data.List.Nodup
import Mathlib.Data.List.Perm.Basic
import Mathlib.Logic.Relation

/-!
# Variations of a connection string

The parts of a connection string can be written in another order, their keys in another case, with
blanks around keys and values, and parts that nobody reads can be put between them (`Variation`).
None of these changes what the text is read as (`parseConnectionString_of_variations`): each leaves
the pairs under the keys that are read as they are, up to their order (`Variation.perm`), and where
no key comes twice the order does not count (`valueOf?_of_perm`).
-/

namespace HealthMonitor

namespace Text

/-! ### Case -/

theorem isBlank_eq_false_of_range {c : Char} (hleast : 65 ≤ c.toNat) (hgreatest : c.toNat ≤ 122) :
    isBlank c = false := by
  simp only [isBlank, Bool.or_eq_false_iff, Bool.and_eq_false_iff, decide_eq_false_iff_not,
    beq_eq_false_iff_ne]
  omega

/-- **Case does not count for blanks.** -/
theorem isBlank_toLower (c : Char) : isBlank c.toLower = isBlank c := by
  cases hc : c.isUpper with
  | false => rw [toLower_of_not_isUpper hc]
  | true =>
    obtain ⟨hleast, hgreatest, hlower⟩ := toNat_toLower_of_isUpper hc
    rw [isBlank_eq_false_of_range (by omega) (by omega),
      isBlank_eq_false_of_range hleast (by omega)]

theorem trim_lower (cs : List Char) : trim (lower cs) = lower (trim cs) := by
  have hblank : isBlank ∘ Char.toLower = isBlank := funext isBlank_toLower
  simp only [trim, trimStart, trimEnd, lower, List.dropWhile_map, ← List.map_reverse, hblank]

/-- A character in front of the letters is the same in either case. -/
theorem mem_lower_iff {c : Char} (h : c.toNat < 65) {cs : List Char} : c ∈ lower cs ↔ c ∈ cs := by
  have hcase : ∀ d : Char, d.toLower = c ↔ d = c := by
    intro d
    cases hd : d.isUpper with
    | false => rw [toLower_of_not_isUpper hd]
    | true =>
      obtain ⟨hleast, -, hlower⟩ := toNat_toLower_of_isUpper hd
      constructor
      · rintro rfl
        omega
      · rintro rfl
        omega
  simp [lower, hcase]

end Text

namespace Address

/-! ### Values under distinct keys -/

section Values

variable {ps qs : List Pair}

/-- Where no key comes twice, a value is found just if it is there. -/
theorem valueOf?_eq_some_iff (hdistinct : (ps.map Pair.key).Nodup) {k : String}
    {value : List Char} :
    valueOf? ps k = some value ↔ value ≠ [] ∧ ⟨k.toList, value⟩ ∈ ps := by
  induction ps generalizing value with
  | nil => simp
  | cons p ps ih =>
    obtain ⟨hfresh, hrest⟩ := List.nodup_cons.mp hdistinct
    have hpair : (⟨k.toList, value⟩ : Pair) = p ↔ p.key = k.toList ∧ p.value = value := by
      obtain ⟨key, value'⟩ := p
      simp [eq_comm]
    rw [valueOf?_cons, List.mem_cons, hpair]
    by_cases hkey : p.key = k.toList
    · -- no other pair has this key
      have habsent : ∀ v, (⟨k.toList, v⟩ : Pair) ∉ ps := fun v hmem =>
        hfresh (hkey ▸ List.mem_map_of_mem hmem)
      have hnone : valueOf? ps k = none :=
        Option.eq_none_iff_forall_ne_some.mpr fun v hv => habsent v ((ih hrest).mp hv).2
      simp only [hkey, true_and, hnone, habsent, or_false, Option.ite_none_right_eq_some,
        Option.some.injEq]
      refine and_congr_left ?_
      rintro rfl
      rfl
    · simp [hkey, ih hrest]

/-- Where no key comes twice, their order does not count. -/
theorem valueOf?_of_perm (hperm : ps.Perm qs) (hdistinct : (ps.map Pair.key).Nodup) (k : String) :
    valueOf? ps k = valueOf? qs k := by
  have hdistinct' : (qs.map Pair.key).Nodup := (hperm.map Pair.key).nodup_iff.mp hdistinct
  ext value
  rw [valueOf?_eq_some_iff hdistinct, valueOf?_eq_some_iff hdistinct', hperm.mem_iff]

/-- The keys that are read. -/
def readKeys : List String :=
  portKey :: hostKeys

theorem readPairs_congr (h : ∀ k ∈ readKeys, valueOf? ps k = valueOf? qs k) :
    readPairs ps = readPairs qs := by
  obtain ⟨hport, hhosts⟩ := List.forall_mem_cons.mp h
  -- the host keys are tried in their own order, whatever that of the pairs is
  have hwritten : writtenHost? ps = writtenHost? qs := by
    rw [writtenHost?, writtenHost?, ← List.head?_filterMap, ← List.head?_filterMap,
      List.filterMap_congr hhosts]
  rw [readPairs, readPairs, hwritten, hport]

/-- Whether a key is read. -/
def IsRead (key : List Char) : Prop :=
  key ∈ readKeys.map String.toList

instance (key : List Char) : Decidable (IsRead key) :=
  inferInstanceAs (Decidable (_ ∈ _))

/-- The pairs under the keys that are read. -/
def readable (ps : List Pair) : List Pair :=
  ps.filter fun p => IsRead p.key

theorem valueOf?_readable (ps : List Pair) {k : String} (h : k ∈ readKeys) :
    valueOf? (readable ps) k = valueOf? ps k := by
  rw [valueOf?, valueOf?, readable, List.find?_filter]
  congr 2
  funext p
  -- what is looked for is not filtered out
  have hread : IsRead k.toList := List.mem_map_of_mem h
  rw [Bool.eq_iff_iff]
  by_cases hkey : p.key = k.toList <;> simp [hkey, hread]

/-- **Only the pairs under the keys that are read count, and not their order.** -/
theorem readPairs_of_perm (hperm : (readable ps).Perm (readable qs))
    (hdistinct : (ps.map Pair.key).Nodup) : readPairs ps = readPairs qs := by
  refine readPairs_congr fun k hk => ?_
  rw [← valueOf?_readable ps hk, ← valueOf?_readable qs hk]
  exact valueOf?_of_perm hperm (hdistinct.sublist (List.filter_sublist.map Pair.key)) k

end Values

/-! ### Variations -/

/-- Whether a part is not read: it has no equals sign, or another key. -/
def Unread (part : List Char) : Prop :=
  '=' ∉ part ∨ ∃ key value, part = key ++ '=' :: value ∧ '=' ∉ key ∧
    ¬ IsRead (Text.lower (Text.trim key))

/-- A text of parts is written in another way. -/
inductive Variation : List (List Char) → List (List Char) → Prop where
  /-- In another order. -/
  | reordered {ps qs : List (List Char)} (perm : ps.Perm qs) : Variation ps qs
  /-- With a key in another case. -/
  | recased {before after : List (List Char)} {key key' value : List Char} (plain : '=' ∉ key)
      (case : Text.lower key' = Text.lower key) :
      Variation (before ++ (key ++ '=' :: value) :: after)
        (before ++ (key' ++ '=' :: value) :: after)
  /-- With blanks around a key and its value. -/
  | padded {before after : List (List Char)} {key value v w x y : List Char} (plain : '=' ∉ key)
      (blank : ∀ pad ∈ [v, w, x, y], ∀ c ∈ pad, Text.isBlank c = true) :
      Variation (before ++ (key ++ '=' :: value) :: after)
        (before ++ ((v ++ key ++ w) ++ '=' :: (x ++ value ++ y)) :: after)
  /-- With another part in between that is not read. -/
  | inserted {before after : List (List Char)} {part : List Char} (whole : ';' ∉ part)
      (unread : Unread part) : Variation (before ++ after) (before ++ part :: after)

section Variations

variable {ps qs : List (List Char)}

/-- The pairs of some parts that are read. -/
def readableOf (parts : List (List Char)) : List Pair :=
  readable (parts.filterMap pair?)

/-- A part that is not read has no pair that is. -/
theorem readableOf_unread {part : List Char} (h : Unread part) : readableOf [part] = [] := by
  rcases h with hequals | ⟨key, value, rfl, hplain, hother⟩
  · have hnone : pair? part = none := by rw [pair?, Text.cut_eq_none.mpr hequals, Option.map_none]
    simp [readableOf, readable, hnone]
  · simp [readableOf, readable, pair?_append hplain, hother]

theorem readableOf_append (before after : List (List Char)) :
    readableOf (before ++ after) = readableOf before ++ readableOf after := by
  simp [readableOf, readable]

/-- A key in another case makes the same pair. -/
theorem pair?_recased {key key' : List Char} (plain : '=' ∉ key)
    (case : Text.lower key' = Text.lower key) (value : List Char) :
    pair? (key' ++ '=' :: value) = pair? (key ++ '=' :: value) := by
  have plain' : '=' ∉ key' := by
    rwa [← Text.mem_lower_iff (by decide), case, Text.mem_lower_iff (by decide)]
  rw [pair?_append plain, pair?_append plain', ← Text.trim_lower, ← Text.trim_lower, case]

/-- A key and a value between blanks make the same pair. -/
theorem pair?_padded {key value v w x y : List Char} (plain : '=' ∉ key)
    (blank : ∀ pad ∈ [v, w, x, y], ∀ c ∈ pad, Text.isBlank c = true) :
    pair? ((v ++ key ++ w) ++ '=' :: (x ++ value ++ y)) = pair? (key ++ '=' :: value) := by
  have hmark : ∀ pad ∈ [v, w, x, y], '=' ∉ pad := fun pad hpad hmem =>
    absurd (blank pad hpad _ hmem) (by decide)
  have plain' : '=' ∉ v ++ key ++ w := by
    simp [hmark, plain]
  have hkey : Text.trim (v ++ key ++ w) = Text.trim key :=
    Text.trim_append_of_blank (blank v (by simp)) (blank w (by simp))
  have hvalue : Text.trim (x ++ value ++ y) = Text.trim value :=
    Text.trim_append_of_blank (blank x (by simp)) (blank y (by simp))
  rw [pair?_append plain', pair?_append plain, hkey, hvalue]

/-- A part can be replaced by one that makes the same pair. -/
theorem readableOf_replace {part part' : List Char} (h : pair? part' = pair? part)
    (before after : List (List Char)) :
    readableOf (before ++ part' :: after) = readableOf (before ++ part :: after) := by
  simp [readableOf, List.filterMap_cons, h]

/-- **A variation leaves the pairs that are read**, up to their order. -/
theorem Variation.perm (h : Variation ps qs) : (readableOf ps).Perm (readableOf qs) := by
  cases h with
  | reordered perm => exact (perm.filterMap pair?).filter _
  | recased plain case => rw [readableOf_replace (pair?_recased plain case _)]
  | padded plain blank => rw [readableOf_replace (pair?_padded plain blank)]
  | inserted whole unread =>
    rw [← List.singleton_append, readableOf_append, readableOf_append, readableOf_append,
      readableOf_unread unread, List.nil_append]

/-- Parts of a text: no semicolon is in one of them, and the text is not blank. -/
structure IsText (parts : List (List Char)) : Prop where
  whole : ∀ part ∈ parts, ';' ∉ part
  visible : ∃ c ∈ joined parts, Text.isBlank c = false

/-- A part can be replaced by one with an equals sign and without a semicolon. -/
theorem IsText.replace {before after : List (List Char)} {part part' : List Char}
    (text : IsText (before ++ part :: after)) (hequals : '=' ∈ part')
    (hwhole : ';' ∉ part → ';' ∉ part') : IsText (before ++ part' :: after) where
  whole := by
    have whole := text.whole
    rw [List.forall_mem_append, List.forall_mem_cons] at whole ⊢
    exact ⟨whole.1, hwhole whole.2.1, whole.2.2⟩
  visible := ⟨'=', mem_intercalate_iff.mpr (Or.inr ⟨part', by simp, hequals⟩), by decide⟩

theorem semicolon_recased {key key' value : List Char} (case : Text.lower key' = Text.lower key)
    (h : ';' ∉ key ++ '=' :: value) : ';' ∉ key' ++ '=' :: value := by
  have hkey : ';' ∈ key' ↔ ';' ∈ key := by
    rw [← Text.mem_lower_iff (by decide), case, Text.mem_lower_iff (by decide)]
  simpa [hkey] using h

theorem semicolon_padded {key value v w x y : List Char}
    (blank : ∀ pad ∈ [v, w, x, y], ∀ c ∈ pad, Text.isBlank c = true)
    (h : ';' ∉ key ++ '=' :: value) : ';' ∉ (v ++ key ++ w) ++ '=' :: (x ++ value ++ y) := by
  have hmark : ∀ pad ∈ [v, w, x, y], ';' ∉ pad := fun pad hpad hmem =>
    absurd (blank pad hpad _ hmem) (by decide)
  simp only [List.mem_append, List.mem_cons, not_or] at h
  simp [hmark, h]

/-- **A variation of a text is a text.** -/
theorem Variation.isText (h : Variation ps qs) (text : IsText ps) : IsText qs := by
  cases h with
  | reordered perm =>
    obtain ⟨whole, c, hc, hblank⟩ := text
    refine ⟨fun part hpart => whole part (perm.mem_iff.mpr hpart), c, ?_, hblank⟩
    rw [joined, mem_intercalate_iff] at hc ⊢
    simpa only [perm.length_eq, perm.mem_iff] using hc
  | recased plain case => exact text.replace (by simp) (semicolon_recased case)
  | padded plain blank => exact text.replace (by simp) (semicolon_padded blank)
  | inserted hpart unread =>
    obtain ⟨whole, c, hc, hblank⟩ := text
    refine ⟨?_, c, ?_, hblank⟩
    · rw [List.forall_mem_append] at whole
      rw [List.forall_mem_append, List.forall_mem_cons]
      exact ⟨whole.1, hpart, whole.2⟩
    · -- what could be seen before is still there
      rw [joined, mem_intercalate_iff] at hc ⊢
      rcases hc with ⟨hsemicolon, hlength⟩ | ⟨p, hp, hc⟩
      · refine Or.inl ⟨hsemicolon, ?_⟩
        rw [List.length_append] at hlength
        rw [List.length_append, List.length_cons]
        omega
      · exact Or.inr ⟨p, by simpa [or_left_comm] using Or.inr (List.mem_append.mp hp), hc⟩

/-- **Any number of variations** of a text leave it a text, and the pairs that are read in it. -/
theorem kept_of_variations (text : IsText ps) (variations : Relation.ReflTransGen Variation ps qs) :
    IsText qs ∧ (readableOf ps).Perm (readableOf qs) := by
  induction variations with
  | refl => exact ⟨text, .refl _⟩
  | tail _ variation ih => exact ⟨variation.isText ih.1, ih.2.trans variation.perm⟩

theorem IsText.connection_eq (text : IsText ps) :
    connection (joined ps) = readPairs (ps.filterMap pair?) := by
  obtain ⟨c, hc, hblank⟩ := text.visible
  exact connection_joined text.whole hc hblank

/-- **Variations do not change what a text is read as.** The parts of a text that is not blank are
put in another order, their keys are written in another case, blanks are put around keys and values,
and parts without an equals sign or under other keys are put between them, all this any number of
times. Where no key comes twice, the host and the port stay the same, or the error. -/
theorem parseConnectionString_of_variations (text : IsText ps)
    (distinct : ((ps.filterMap pair?).map Pair.key).Nodup)
    (variations : Relation.ReflTransGen Variation ps qs) :
    parseConnectionString (String.ofList (joined qs)) =
      parseConnectionString (String.ofList (joined ps)) := by
  obtain ⟨text', perm⟩ := kept_of_variations text variations
  rw [parseConnectionString, parseConnectionString, String.toList_ofList, String.toList_ofList,
    text.connection_eq, text'.connection_eq, readPairs_of_perm perm distinct]

end Variations

/-- A host and a port, and then the port first, in capitals and with blanks, in front of two parts
more. -/
theorem shuffled_read :
    (IsText ["Host=pg.svc".toList, "Port=5433".toList] ∧
      ((["Host=pg.svc".toList, "Port=5433".toList].filterMap pair?).map Pair.key).Nodup ∧
      Relation.ReflTransGen Variation ["Host=pg.svc".toList, "Port=5433".toList]
        [" PORT\t=5433 ".toList, "trusted".toList, "User Id=sa".toList, "Host=pg.svc".toList]) ∧
      parseConnectionString " PORT\t=5433 ;trusted;User Id=sa;Host=pg.svc" =
        parseConnectionString "Host=pg.svc;Port=5433" := by
  have htext : IsText ["Host=pg.svc".toList, "Port=5433".toList] :=
    ⟨by decide, '=', by decide, by decide⟩
  have hdistinct :
      ((["Host=pg.svc".toList, "Port=5433".toList].filterMap pair?).map Pair.key).Nodup := by
    decide
  have hreordered : Variation ["Host=pg.svc".toList, "Port=5433".toList]
      ["Port=5433".toList, "Host=pg.svc".toList] := .reordered (.swap _ _ _)
  have hrecased : Variation ["Port=5433".toList, "Host=pg.svc".toList]
      ["PORT=5433".toList, "Host=pg.svc".toList] :=
    @Variation.recased [] _ "Port".toList "PORT".toList "5433".toList (by decide) (by decide)
  have hpadded : Variation ["PORT=5433".toList, "Host=pg.svc".toList]
      [" PORT\t=5433 ".toList, "Host=pg.svc".toList] :=
    @Variation.padded [] _ "PORT".toList "5433".toList [' '] ['\t'] [] [' '] (by decide)
      (by simp [Text.isBlank])
  have hinserted : Variation [" PORT\t=5433 ".toList, "Host=pg.svc".toList]
      [" PORT\t=5433 ".toList, "User Id=sa".toList, "Host=pg.svc".toList] :=
    @Variation.inserted [_] _ _ (by decide)
      (Or.inr ⟨"User Id".toList, "sa".toList, by decide, by decide, by decide⟩)
  have hinserted' : Variation [" PORT\t=5433 ".toList, "User Id=sa".toList, "Host=pg.svc".toList]
      [" PORT\t=5433 ".toList, "trusted".toList, "User Id=sa".toList, "Host=pg.svc".toList] :=
    @Variation.inserted [_] _ _ (by decide) (Or.inl (by decide))
  have hvariations :=
    ((((Relation.ReflTransGen.single hreordered).tail hrecased).tail hpadded).tail hinserted).tail
      hinserted'
  have hread := parseConnectionString_of_variations htext hdistinct hvariations
  have hplain : String.ofList (joined ["Host=pg.svc".toList, "Port=5433".toList]) =
      "Host=pg.svc;Port=5433" := by decide
  have hvaried : String.ofList (joined [" PORT\t=5433 ".toList, "trusted".toList,
      "User Id=sa".toList, "Host=pg.svc".toList]) =
      " PORT\t=5433 ;trusted;User Id=sa;Host=pg.svc" := by decide
  rw [hplain, hvaried] at hread
  exact ⟨⟨htext, hdistinct, hvariations⟩, hread⟩

end Address

end HealthMonitor
