import HealthMonitor.Proofs.Dependency.Valid
import HealthMonitor.Proofs.Lookup
import HealthMonitor.Proofs.Monitor.Precedence
import HealthMonitor.Proofs.Text.Case

/-!
# Whose variable it is

The variables of a dependency start with its name and end with the word for its criticality, or with
the word for labels and a label. Names can be told from each other in upper case too, but nothing
says where the name of a dependency ends: `DEPWATCH_CACHE_LABEL_TIER_CRITICAL` is the criticality of
`cache-label-tier`, and a label of `cache`. `variables_apart` says that this is the only way in
which two dependencies come to share a variable: one name goes on with `-label` where the other ends
(`Environment.Continues`). Dependencies of other names are out of reach of each other's variables.
-/

namespace HealthMonitor

theorem IsName.letters {name : String} (h : IsName name) :
    ∀ c ∈ name.toList, isNameLetter c = true := by
  obtain ⟨c, rest, spelled, lower, letters⟩ := h.spelling
  rw [spelled, List.forall_mem_cons]
  exact ⟨by simp [isNameLetter, lower], letters⟩

namespace Environment

/-! ### Names in upper case -/

/-- The character of a name that one in the names of its variables stands for. -/
def nameLetter (c : Char) : Char :=
  if c = '_' then '-' else c.toLower

/-- The letter of a name is known from that of its variables, a hyphen from an underscore. -/
theorem nameLetter_wordLetter {c : Char} (h : isNameLetter c = true) :
    nameLetter (wordLetter c) = c := by
  by_cases hyphen : c = '-'
  · rw [hyphen]
    decide
  have hletter : c.isLower = true ∨ c.isDigit = true := by simpa [isNameLetter, hyphen] using h
  have hback : c.toUpper ≠ '_' ∧ c.toUpper.toLower = c := by
    rcases hletter with lower | digit
    · obtain ⟨-, hgreatest, hupper⟩ := Text.toNat_toUpper_of_isLower lower
      refine ⟨fun h => ?_, Text.toLower_toUpper_of_isLower lower⟩
      have hunderscore : c.toUpper.toNat = 95 := congrArg Char.toNat h
      omega
    · have hdigit : c.toNat ≤ 57 := (Char.isDigit_iff_toNat.mp digit).2
      have hlower : c.isLower = false :=
        Bool.eq_false_iff.mpr fun h => absurd (Text.isLower_iff_toNat.mp h).1 (by omega)
      have hupper : c.isUpper = false :=
        Bool.eq_false_iff.mpr fun h => absurd (Text.isUpper_iff_toNat.mp h).1 (by omega)
      rw [Text.toUpper_of_not_isLower hlower]
      refine ⟨fun h => ?_, Text.toLower_of_not_isUpper hupper⟩
      have hunderscore : c.toNat = 95 := congrArg Char.toNat h
      omega
  rw [wordLetter, if_neg hyphen, nameLetter, if_neg hback.1, hback.2]

/-- A name in the names of its variables. -/
def word (cs : List Char) : List Char :=
  cs.map wordLetter

theorem word_append (cs ds : List Char) : word (cs ++ ds) = word cs ++ word ds :=
  List.map_append

theorem map_nameLetter_word {cs : List Char} (h : ∀ c ∈ cs, isNameLetter c = true) :
    (word cs).map nameLetter = cs := by
  rw [word, List.map_map]
  exact (List.map_congr_left fun c hc => nameLetter_wordLetter (h c hc)).trans (List.map_id cs)

/-- **Names can be told apart in upper case**, and so can their starts. -/
theorem word_prefix_iff {cs ds : List Char} (hcs : ∀ c ∈ cs, isNameLetter c = true)
    (hds : ∀ c ∈ ds, isNameLetter c = true) : word cs <+: word ds ↔ cs <+: ds := by
  refine ⟨fun h => ?_, fun h => h.map wordLetter⟩
  have hback := h.map nameLetter
  rwa [map_nameLetter_word hcs, map_nameLetter_word hds] at hback

/-- Different names have different words. -/
theorem word_injective {cs ds : List Char} (hcs : ∀ c ∈ cs, isNameLetter c = true)
    (hds : ∀ c ∈ ds, isNameLetter c = true) (h : word cs = word ds) : cs = ds := by
  rw [← map_nameLetter_word hcs, h, map_nameLetter_word hds]

/-! ### What stands behind a name -/

/-- What stands behind the name of a dependency in the names of its variables. -/
inductive Ending : List Char → Prop where
  | critical : Ending "_CRITICAL".toList
  | label (key : List Char) (h : key ≠ []) : Ending ("_LABEL_".toList ++ key)

theorem Ending.exists_cons {t : List Char} (h : Ending t) : ∃ s, t = '_' :: s ∧ s ≠ [] := by
  cases h with
  | critical => exact ⟨_, rfl, by decide⟩
  | label key h => exact ⟨"LABEL_".toList ++ key, rfl, by simp⟩

/-- Of two places of a character in a text the first is not behind the other. -/
private theorem first_prefix {c : Char} {first before rest rest' : List Char} (hfirst : c ∉ first)
    (h : before ++ c :: rest = first ++ c :: rest') : first ++ [c] <+: before ++ [c] := by
  have hlength : first.length ≤ before.length := by
    by_contra hshort
    have hget : (first ++ c :: rest')[before.length]? = some c := by
      rw [← h, List.getElem?_append_right (Nat.le_refl _), Nat.sub_self, List.getElem?_cons_zero]
    rw [List.getElem?_append_left (Nat.lt_of_not_le hshort)] at hget
    exact hfirst (List.mem_of_getElem? hget)
  have hprefix : first ++ [c] <+: before ++ c :: rest :=
    ⟨rest', by rw [h, List.append_assoc, List.singleton_append]⟩
  have hprefix' : before ++ [c] <+: before ++ c :: rest :=
    ⟨rest, by rw [List.append_assoc, List.singleton_append]⟩
  exact List.prefix_of_prefix_length_le hprefix hprefix' (by simpa using hlength)

/-- **Where an ending ends in an ending,** what stands in front is the word for labels, or starts
with it: an underscore comes behind it, and the words have none inside. -/
theorem Ending.label_prefix {front t : List Char} (whole : Ending (front ++ t)) (rest : Ending t)
    (hfront : front ≠ []) : "_LABEL_".toList <+: front ++ ['_'] := by
  obtain ⟨s, rfl, -⟩ := rest.exists_cons
  obtain ⟨c, front, rfl⟩ := List.exists_cons_of_ne_nil hfront
  generalize hsplit : c :: front ++ '_' :: s = t at whole
  cases whole with
  | critical =>
    have htail : front ++ '_' :: s = "CRITICAL".toList := (List.cons.inj hsplit).2
    have hmem : '_' ∈ "CRITICAL".toList := htail ▸ List.mem_append_right front List.mem_cons_self
    exact absurd hmem (by decide)
  | label key =>
    obtain ⟨rfl, htail⟩ : c = '_' ∧ front ++ '_' :: s = "LABEL".toList ++ '_' :: key :=
      List.cons.inj hsplit
    exact List.cons_prefix_cons.mpr ⟨rfl, first_prefix (by decide) htail⟩

/-! ### Variables that are read -/

/-- Whether a variable is read for a dependency: for its criticality, or for a label. -/
def reads (dependency name : String) : Bool :=
  name == criticalVariable dependency || (labelOf? dependency name).isSome

/-- The variables that are read for a dependency are its word with an ending. -/
theorem reads_iff {dependency name : String} :
    reads dependency name = true ↔
      ∃ t, Ending t ∧ name.toList = root ++ word dependency.toList ++ t := by
  have hlabel : (labelOf? dependency name).isSome = true ↔
      ∃ key : List Char, key ≠ [] ∧ name = String.ofList (labelRoot dependency ++ key) := by
    simp only [Option.isSome_iff_exists, labelOf?_eq_some_iff]
    exact ⟨fun ⟨_, key, h, _, hname⟩ => ⟨key, h, hname⟩,
      fun ⟨key, h, hname⟩ => ⟨_, key, h, rfl, hname⟩⟩
  rw [reads, Bool.or_eq_true, beq_iff_eq, hlabel]
  constructor
  · rintro (rfl | ⟨key, h, rfl⟩)
    · exact ⟨_, .critical, String.toList_ofList⟩
    · exact ⟨_, .label key h, by simp [labelRoot, dependencyRoot, word]⟩
  · rintro ⟨t, ending, hname⟩
    have hof : name = String.ofList (root ++ word dependency.toList ++ t) := by
      rw [← hname, String.ofList_toList]
    cases ending with
    | critical => exact Or.inl hof
    | label key h =>
      refine Or.inr ⟨key, h, hof.trans (congrArg String.ofList ?_)⟩
      simp [labelRoot, dependencyRoot, word]

/-- One name goes on with `-label` where another ends, and ends there too or goes on with a
hyphen. -/
def Continues (a b : String) : Prop :=
  a.toList ++ "-label-".toList <+: b.toList ++ ['-']

instance (a b : String) : Decidable (Continues a b) := inferInstanceAs (Decidable (_ <+: _))

/-- One name goes on where another ends just if their words say so. -/
theorem continues_iff {a b : String} (ha : IsName a) (hb : IsName b) :
    Continues a b ↔ word a.toList ++ "_LABEL_".toList <+: word b.toList ++ ['_'] := by
  -- what is put behind the names is spelled like a name as well
  have hword {name : String} (h : IsName name) {behind : List Char}
      (hbehind : behind.all isNameLetter = true) :
      ∀ c ∈ name.toList ++ behind, isNameLetter c = true := fun c hc =>
    (List.mem_append.mp hc).elim (h.letters c) (List.all_eq_true.mp hbehind c)
  rw [Continues, ← word_prefix_iff (hword ha rfl) (hword hb rfl), word_append, word_append]
  rfl

/-- Then all its variables are labels of the other. -/
theorem reads_of_continues {a b name : String} (ha : IsName a) (hb : IsName b)
    (continues : Continues a b) (h : reads b name = true) : reads a name = true := by
  obtain ⟨t, ending, hname⟩ := reads_iff.mp h
  obtain ⟨s, rfl, hs⟩ := ending.exists_cons
  obtain ⟨between, hbetween⟩ := (continues_iff ha hb).mp continues
  refine reads_iff.mpr ⟨_, .label (between ++ s) (by simp [hs]), ?_⟩
  calc name.toList = root ++ (word b.toList ++ ['_']) ++ s := by rw [hname]; simp
    _ = root ++ (word a.toList ++ "_LABEL_".toList ++ between) ++ s := by rw [hbetween]
    _ = root ++ word a.toList ++ ("_LABEL_".toList ++ (between ++ s)) := by
      simp only [List.append_assoc]

/-- If the word of `b` is that of `a` with a front behind it, and an ending is this front with
another ending, then `b` goes on where `a` ends. -/
theorem continues_of_append {a b : String} {front t : List Char} (ha : IsName a) (hb : IsName b)
    (distinct : a ≠ b) (hword : word b.toList = word a.toList ++ front)
    (whole : Ending (front ++ t)) (rest : Ending t) : Continues a b := by
  rw [continues_iff ha hb, hword, List.append_assoc, List.prefix_append_right_inj]
  refine whole.label_prefix rest ?_
  rintro rfl
  rw [List.append_nil] at hword
  exact distinct (String.toList_inj.mp (word_injective hb.letters ha.letters hword)).symm

/-- **Two names share a variable** only if one goes on where the other ends. -/
theorem continues_of_reads {a b name : String} (ha : IsName a) (hb : IsName b) (distinct : a ≠ b)
    (hreads : reads a name = true) (hreads' : reads b name = true) :
    Continues a b ∨ Continues b a := by
  obtain ⟨t, ending, hname⟩ := reads_iff.mp hreads
  obtain ⟨t', ending', hname'⟩ := reads_iff.mp hreads'
  have hsame : word a.toList ++ t = word b.toList ++ t' := by
    rw [hname, List.append_assoc, List.append_assoc] at hname'
    exact List.append_cancel_left hname'
  rcases List.append_eq_append_iff.mp hsame with ⟨front, hword, rfl⟩ | ⟨front, hword, rfl⟩
  · exact Or.inl (continues_of_append ha hb distinct hword ending ending')
  · exact Or.inr (continues_of_append hb ha distinct.symm hword ending' ending)

/-! ### What a dependency is told -/

/-- The variables of an environment that are read for a dependency. -/
def readFor (env : Environment) (dependency : String) : List (String × String) :=
  env.entries.filter fun v => reads dependency v.1

/-- The other variables. -/
def besides (env : Environment) (dependency : String) : List (String × String) :=
  env.entries.filter fun v => !reads dependency v.1

/-- The labels of a dependency are among the variables that are read for it. -/
theorem labels_eq_readFor (env : Environment) (dependency : String) :
    env.labels dependency =
      (env.readFor dependency).filterMap fun v =>
        (labelOf? dependency v.1).map fun label => (label, v.2) := by
  rw [readFor, List.filterMap_filter, labels]
  refine List.filterMap_congr fun v _ => ?_
  cases hlabel : labelOf? dependency v.1 with
  | none => simp
  | some label => simp [reads, hlabel]

/-- The criticality of a dependency is among the variables that are read for it. -/
theorem critical?_eq_readFor (env : Environment) (dependency : String) :
    env.critical? dependency = (Environment.mk (env.readFor dependency)).critical? dependency := by
  have hreads : reads dependency (criticalVariable dependency) = true := by simp [reads]
  rw [critical?, critical?, value?, value?, readFor, lookup_filter hreads]

/-- Where two dependencies share no variable, those of one are among those besides the other's. -/
theorem readFor_eq_besides {a b : String}
    (apart : ∀ name, ¬ (reads a name = true ∧ reads b name = true)) (env : Environment) :
    env.readFor b = (env.besides a).filter fun v => reads b v.1 := by
  rw [readFor, besides, List.filter_filter]
  refine List.filter_congr fun v _ => ?_
  cases hb : reads b v.1 with
  | false => rfl
  | true =>
    have ha : reads a v.1 = false := Bool.eq_false_iff.mpr fun ha => apart v.1 ⟨ha, hb⟩
    rw [ha]
    rfl

end Environment

namespace Blueprint

open Environment

variable {P : Type}

/-- The blueprint in another environment. -/
def amid (b : Blueprint P) (env : Environment) : Blueprint P :=
  { b with environment := env }

/-- An environment matters for a spec by the criticality and the labels that it gives. -/
theorem resolveSpec_amid {b : Blueprint P} {env : Environment} {s : DependencySpec P}
    (critical : env.critical? s.name = b.environment.critical? s.name)
    (labels : s.allLabels env = s.allLabels b.environment) (serial : Nat) :
    (b.amid env).resolveSpec serial s = b.resolveSpec serial s := by
  simp only [resolveSpec, amid, DependencySpec.prepare, critical, labels]

/-- So only the variables matter that are read for it. -/
theorem resolveSpec_of_readFor {b : Blueprint P} {env : Environment} {s : DependencySpec P}
    (h : env.readFor s.name = b.environment.readFor s.name) (serial : Nat) :
    (b.amid env).resolveSpec serial s = b.resolveSpec serial s := by
  refine resolveSpec_amid ?_ ?_ serial
  · rw [critical?_eq_readFor, h, ← critical?_eq_readFor]
  · rw [DependencySpec.allLabels, labels_eq_readFor, h, ← labels_eq_readFor]
    rfl

/-- **Each dependency has variables of its own,** as far as names allow it. Two dependencies share a
variable just if one name goes on with `-label` where the other ends. If neither does, whatever the
environment says in the variables of the one, a spec of the other is resolved alike. -/
theorem variables_apart {a b : String} (ha : IsName a) (hb : IsName b) (distinct : a ≠ b) :
    ((∃ name, reads a name = true ∧ reads b name = true) ↔ Continues a b ∨ Continues b a) ∧
      (¬ Continues a b → ¬ Continues b a →
        ∀ (blueprint : Blueprint P) (env : Environment) (serial : Nat) (s : DependencySpec P),
          s.name = b → env.besides a = blueprint.environment.besides a →
          (blueprint.amid env).resolveSpec serial s = blueprint.resolveSpec serial s) := by
  have hcritical (d : String) : reads d (criticalVariable d) = true := by simp [reads]
  have shared : (∃ name, reads a name = true ∧ reads b name = true) ↔
      Continues a b ∨ Continues b a := by
    constructor
    · rintro ⟨name, hreads, hreads'⟩
      exact continues_of_reads ha hb distinct hreads hreads'
    · rintro (h | h)
      · exact ⟨_, reads_of_continues ha hb h (hcritical b), hcritical b⟩
      · exact ⟨_, hcritical a, reads_of_continues hb ha h (hcritical a)⟩
  refine ⟨shared, fun hab hba blueprint env serial s hname hbesides => ?_⟩
  have apart : ∀ name, ¬ (reads a name = true ∧ reads b name = true) := fun name h =>
    (shared.mp ⟨name, h⟩).elim hab hba
  refine resolveSpec_of_readFor ?_ serial
  rw [hname, readFor_eq_besides apart, hbesides, ← readFor_eq_besides apart]

/-! ### A cache, a database and a tier -/

/-- A critical dependency at one place, without labels of its own. -/
def bareSpec (name : String) : DependencySpec Unit where
  name := name
  kind := .tcp
  source := some (.listed [Endpoint.plain "a" 1])
  critical := some true
  labels := Dictionary.empty
  check := CheckOverrides.none
  settings := ProbeSettings.none
  probe := some ()

/-- Dependencies that the environment says something about. -/
def surrounded (entries : List (String × String)) : Blueprint Unit :=
  plain none ProbeRegistry.empty ⟨entries⟩

/-- What the environment says about a cache is nothing to a database. -/
theorem database_apart : IsName "cache" ∧ IsName "db" ∧
    (¬ ∃ name, reads "cache" name = true ∧ reads "db" name = true) ∧
    (surrounded [("DEPWATCH_CACHE_CRITICAL", "no"), ("DEPWATCH_DB_LABEL_ZONE", "east"),
      ("DEPWATCH_CACHE_LABEL_ZONE", "west")]).resolveSpec 0 (bareSpec "db") =
    (surrounded [("DEPWATCH_DB_LABEL_ZONE", "east")]).resolveSpec 0 (bareSpec "db") := by
  have hcache : IsName "cache" := (nameFault?_eq_none_iff _).mp rfl
  have hdb : IsName "db" := (nameFault?_eq_none_iff _).mp rfl
  obtain ⟨shared, apart⟩ := variables_apart (P := Unit) hcache hdb (by decide)
  have hcontinues : ¬ Continues "cache" "db" := by decide
  have hcontinued : ¬ Continues "db" "cache" := by decide
  refine ⟨hcache, hdb, fun h => (shared.mp h).elim hcontinues hcontinued, ?_⟩
  exact apart hcontinues hcontinued
    (surrounded [("DEPWATCH_DB_LABEL_ZONE", "east")]) _ 0 (bareSpec "db") rfl (by decide)

/-- The criticality of a dependency whose name goes on with `-label` is a label of the other. -/
theorem tier_shared : IsName "cache" ∧ IsName "cache-label-tier" ∧
    reads "cache" "DEPWATCH_CACHE_LABEL_TIER_CRITICAL" = true ∧
    reads "cache-label-tier" "DEPWATCH_CACHE_LABEL_TIER_CRITICAL" = true ∧
    (∃ r, ((surrounded []).resolveSpec 0 (bareSpec "cache")).result = .ok r ∧
      r.dependency.endpoints.map (fun e => e.labels.entries) = [[]]) ∧
    ∃ r, ((surrounded [("DEPWATCH_CACHE_LABEL_TIER_CRITICAL", "yes")]).resolveSpec 0
        (bareSpec "cache")).result = .ok r ∧
      r.dependency.endpoints.map (fun e => e.labels.entries) = [[("tier_critical", "yes")]] :=
  ⟨(nameFault?_eq_none_iff _).mp rfl, (nameFault?_eq_none_iff _).mp rfl, by decide, by decide,
    ⟨_, rfl, rfl⟩, ⟨_, rfl, rfl⟩⟩

end Blueprint

end HealthMonitor
