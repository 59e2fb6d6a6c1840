import HealthMonitor.Probe.Verdict
import Mathlib.Data.List.Basic
import Mathlib.Tactic.MkIffOfInductiveProp

/-!
# The tag of a failure

A failure carries at most one other, as the payload of an operation or at the root of a report. So
all that it carries stands in a row, `Failure.carried`, and a classified failure can only be the
last of it. The verdict of that one is the tag of the failure (`Failure.tag?`).

An observer does not see the whole row. The payload of an operation is passed over, and so is the
root of a report without context lines that is itself carried. `Failure.Shows` says what is left to
be seen, and `Failure.mem_seen_iff` that the causes of a failure have just that. A tag that is shown
wins over everything else; one that is not has no influence at all (`shown_tag_wins`).
-/

namespace HealthMonitor

mutual

/-- What a failure carries, however deeply, the outermost first. -/
def Failure.carried : Failure → List Failure
  | .io cause => cause.carried
  | .wrapped root _ => root.carried
  | .classified .. => []
  | .timeout => []
  | .refused => []
  | .unhealthy _ => []
  | .deadline _ => []
  | .dns .. => []
  | .tls _ => []
  | .panicked _ => []

/-- What a failed operation carries: its payload, and what that carries. -/
def IoFailure.carried : IoFailure → List Failure
  | .bare _ => []
  | .told .. => []
  | .carrying _ payload => payload :: payload.carried

/-- What a root cause carries: the failure that it is, and what that carries. -/
def RootCause.carried : RootCause → List Failure
  | .note _ => []
  | .io cause => cause.carried
  | .elapsed => []
  | .failure cause => cause :: cause.carried

end

namespace Failure

/-- A failure and what it carries, the outermost first. -/
def nested (f : Failure) : List Failure :=
  f :: f.carried

/-- The tag of a failure: the verdict of the outermost classified one in it. -/
def tag? (f : Failure) : Option Verdict :=
  f.nested.findSome? Verdict.ofTag?

/-- The failures among the causes of a failure. -/
def seen (f : Failure) : List Failure :=
  f.causes.filterMap Cause.failure?

/-- Among some failures there is a report of another that has a context line. -/
def LinesAbove (fs : List Failure) (t : Failure) : Prop :=
  ∃ line contexts, wrapped (.failure t) (line :: contexts) ∈ fs

/-- A failure shows another: itself, the root that it reports, or one deeper in it. -/
@[mk_iff]
inductive Shows (f t : Failure) : Prop where
  | own (same : f = t)
  | reported (contexts : List String) (report : f = wrapped (.failure t) contexts)
  /-- A report that is itself carried shows its root only under a context line. -/
  | deeper (lined : LinesAbove f.carried t)

/-- A failure shows its tag. -/
def ShowsTag (f : Failure) : Prop :=
  ∃ category detail message, f.Shows (classified category detail message)

end Failure

open Failure

/-! ### What is seen -/

/-- Context lines are texts, so no failure is seen among them. -/
@[simp] theorem filterMap_contextCauses (contexts : List String) :
    (contextCauses contexts).filterMap Cause.failure? = [] := by
  simp [contextCauses, Cause.failure?]

/-- The first of the causes of a root is the root itself. -/
theorem RootCause.mem_causes {r : RootCause} {t : Failure} :
    t ∈ r.causes.filterMap Cause.failure? ↔
      r = .failure t ∨ t ∈ r.causes.tail.filterMap Cause.failure? := by
  cases r <;> simp [RootCause.causes, Cause.failure?, eq_comm]

/-- Behind a report, context lines leave its root to be seen. -/
theorem Failure.mem_behind_wrapped {root : RootCause} {contexts : List String} {t : Failure} :
    t ∈ (wrapped root contexts).behind.filterMap Cause.failure? ↔
      root = .failure t ∧ contexts ≠ [] ∨ t ∈ root.causes.tail.filterMap Cause.failure? := by
  rw [behind]
  cases hlines : contextCauses contexts with
  | nil =>
    obtain rfl : contexts = [] := by simpa [contextCauses] using hlines
    simp
  | cons c cs =>
    have hne : contexts ≠ [] := by
      rintro rfl
      simp [contextCauses] at hlines
    have htexts : cs.filterMap Cause.failure? = [] := by
      have hall := filterMap_contextCauses contexts
      rw [hlines, List.filterMap_cons] at hall
      split at hall
      · exact hall
      · cases hall
    simpa [htexts, hne] using RootCause.mem_causes

/-- A report in front of what its root carries counts for a root that is shown under its lines. -/
theorem Failure.linesAbove_wrapped {root : RootCause} {contexts : List String} {t : Failure} :
    LinesAbove (wrapped root contexts).nested t ↔
      root = .failure t ∧ contexts ≠ [] ∨ LinesAbove root.carried t := by
  have hlines : (∃ line rest, contexts = line :: rest) ↔ contexts ≠ [] :=
    List.ne_nil_iff_exists_cons.symm
  simp only [LinesAbove, nested, carried, List.mem_cons, wrapped.injEq, exists_or, ← hlines,
    @eq_comm _ (RootCause.failure t), @eq_comm _ (_ :: _) contexts, exists_and_left]

-- The causes of a root begin with the root itself, which is behind a report only if a line stands
-- in front of it. So the case of a root is about the others.
mutual

/-- Behind a failure another is seen just if a report shows it under a context line. -/
theorem Failure.mem_behind {t : Failure} : (f : Failure) →
    (t ∈ f.behind.filterMap Cause.failure? ↔ LinesAbove f.nested t)
  | .io cause => by
    rw [Failure.behind, IoFailure.mem_behind cause]
    simp [LinesAbove, nested, carried]
  | .wrapped root contexts => by
    rw [mem_behind_wrapped, linesAbove_wrapped, RootCause.mem_tail root]
  | .classified .. | .timeout | .refused | .unhealthy _ | .deadline _ | .dns .. | .tls _
  | .panicked _ => by simp [Failure.behind, LinesAbove, nested, carried]

/-- Behind an operation stands what is behind its payload, the payload itself passed over. -/
theorem IoFailure.mem_behind {t : Failure} : (e : IoFailure) →
    (t ∈ e.behind.filterMap Cause.failure? ↔ LinesAbove e.carried t)
  | .bare _ | .told .. => by simp [IoFailure.behind, LinesAbove, IoFailure.carried]
  | .carrying _ payload => Failure.mem_behind payload

/-- Behind a root that is itself a failure stands what is behind that failure. -/
theorem RootCause.mem_tail {t : Failure} : (r : RootCause) →
    (t ∈ r.causes.tail.filterMap Cause.failure? ↔ LinesAbove r.carried t)
  | .note _ | .elapsed => by simp [RootCause.causes, LinesAbove, RootCause.carried]
  | .io cause => IoFailure.mem_behind cause
  | .failure cause => Failure.mem_behind cause

end

/-- **What an observer sees of the tags in a failure.** -/
theorem Failure.mem_seen_iff {f : Failure} {category : Category} {detail message : String} :
    classified category detail message ∈ f.seen ↔
      f.Shows (classified category detail message) := by
  rw [shows_iff]
  -- of a report the first cause is its root, which is seen whether or not there are lines above
  cases f with
  | wrapped root contexts =>
    have hroot : (∃ lines, wrapped root contexts =
        wrapped (.failure (classified category detail message)) lines) ↔
        root = .failure (classified category detail message) := by simp
    rw [hroot, carried, seen, causes, List.filterMap_append, filterMap_contextCauses,
      List.nil_append, RootCause.mem_causes, RootCause.mem_tail]
    simp
  | io cause =>
    rw [carried, ← IoFailure.mem_behind]
    simp [seen, causes, Cause.failure?]
  | classified | timeout | refused | unhealthy | deadline | dns | tls | panicked =>
    simp [seen, causes, behind, carried, Cause.failure?, LinesAbove, eq_comm]

/-! ### One tag at most -/

mutual

/-- What a carried failure carries is carried as well. -/
theorem Failure.carried_trans {g t : Failure} (carries : t ∈ g.carried) :
    (f : Failure) → g ∈ f.carried → t ∈ f.carried
  | .io cause, hg => IoFailure.carried_trans carries cause hg
  | .wrapped root _, hg => RootCause.carried_trans carries root hg
  | .classified .., hg | .timeout, hg | .refused, hg | .unhealthy _, hg | .deadline _, hg
  | .dns .., hg | .tls _, hg | .panicked _, hg => by simp [Failure.carried] at hg

/-- What a failure carried by an operation carries is carried by the operation. -/
theorem IoFailure.carried_trans {g t : Failure} (carries : t ∈ g.carried) :
    (e : IoFailure) → g ∈ e.carried → t ∈ e.carried
  | .bare _, hg | .told .., hg => by simp [IoFailure.carried] at hg
  | .carrying _ payload, hg => by
    rcases List.mem_cons.1 hg with rfl | deeper
    · exact List.mem_cons_of_mem _ carries
    · exact List.mem_cons_of_mem _ (Failure.carried_trans carries payload deeper)

/-- What a failure carried by a root carries is carried by the root. -/
theorem RootCause.carried_trans {g t : Failure} (carries : t ∈ g.carried) :
    (r : RootCause) → g ∈ r.carried → t ∈ r.carried
  | .note _, hg | .elapsed, hg => by simp [RootCause.carried] at hg
  | .io cause, hg => IoFailure.carried_trans carries cause hg
  | .failure cause, hg => by
    rcases List.mem_cons.1 hg with rfl | deeper
    · exact List.mem_cons_of_mem _ carries
    · exact List.mem_cons_of_mem _ (Failure.carried_trans carries cause deeper)

end

/-- Whatever a failure shows is in it. -/
theorem Failure.Shows.mem_nested {f t : Failure} (shows : f.Shows t) : t ∈ f.nested := by
  cases shows with
  | own same => exact same ▸ List.mem_cons_self
  | reported contexts report =>
    subst report
    simp [nested, carried, RootCause.carried]
  | deeper lined =>
    obtain ⟨line, contexts, report⟩ := lined
    have carries : t ∈ (wrapped (.failure t) (line :: contexts)).carried := by
      simp [carried, RootCause.carried]
    exact List.mem_cons_of_mem _ (carried_trans carries f report)

mutual

/-- A failure with a tag in it has no other. -/
theorem Failure.findSome?_nested {t : Failure} {v : Verdict} (tag : Verdict.ofTag? t = some v) :
    (f : Failure) → t ∈ f.nested → f.nested.findSome? Verdict.ofTag? = some v
  | .io cause, ht => by
    rcases List.mem_cons.1 ht with rfl | deeper
    · cases tag
    · exact IoFailure.findSome?_carried tag cause deeper
  | .wrapped root _, ht => by
    rcases List.mem_cons.1 ht with rfl | deeper
    · cases tag
    · exact RootCause.findSome?_carried tag root deeper
  | .classified .., ht | .timeout, ht | .refused, ht | .unhealthy _, ht | .deadline _, ht
  | .dns .., ht | .tls _, ht | .panicked _, ht => by
    obtain rfl : t = _ := List.mem_singleton.1 ht
    simp [nested, carried, tag]

theorem IoFailure.findSome?_carried {t : Failure} {v : Verdict} (tag : Verdict.ofTag? t = some v) :
    (e : IoFailure) → t ∈ e.carried → e.carried.findSome? Verdict.ofTag? = some v
  | .bare _, ht | .told .., ht => by simp [IoFailure.carried] at ht
  | .carrying _ payload, ht => Failure.findSome?_nested tag payload ht

theorem RootCause.findSome?_carried {t : Failure} {v : Verdict} (tag : Verdict.ofTag? t = some v) :
    (r : RootCause) → t ∈ r.carried → r.carried.findSome? Verdict.ofTag? = some v
  | .note _, ht | .elapsed, ht => by simp [RootCause.carried] at ht
  | .io cause, ht => IoFailure.findSome?_carried tag cause ht
  | .failure cause, ht => Failure.findSome?_nested tag cause ht

end

/-- The tag that a failure shows is its verdict. -/
theorem Failure.Shows.verdict {f : Failure} {category : Category} {detail message : String}
    (shows : f.Shows (classified category detail message)) :
    Verdict.ofFailure f = ⟨category, detail⟩ := by
  have hfound : (f.seen.findSome? Verdict.ofTag?).isSome :=
    List.findSome?_isSome_iff.2 ⟨_, mem_seen_iff.2 shows, rfl⟩
  obtain ⟨v, hv⟩ := Option.isSome_iff_exists.1 hfound
  obtain ⟨t, ht, tag⟩ := List.exists_of_findSome?_eq_some hv
  have hverdict : Verdict.ofFailure f = v := by
    rw [Verdict.ofFailure]
    simp only [seen] at hv
    simp [hv]
  obtain ⟨category', detail', message'⟩ := t <;> try cases tag
  -- the one that is found first need not be the one that is shown, but there are not two
  have hfirst := findSome?_nested rfl f (mem_seen_iff.1 ht).mem_nested
  rw [findSome?_nested rfl f shows.mem_nested] at hfirst
  rw [hverdict, Option.some_inj.1 hfirst]

/-- Nothing that is seen of a failure without a shown tag has a tag. -/
theorem Failure.ofTag?_of_hidden {f t : Failure} (hidden : ¬ f.ShowsTag) (ht : t ∈ f.seen) :
    Verdict.ofTag? t = none := by
  cases t with
  | classified category detail message =>
    exact absurd ⟨category, detail, message, mem_seen_iff.1 ht⟩ hidden
  | timeout | refused | unhealthy | deadline | dns | tls | io | panicked | wrapped => rfl

/-! ### Another tag -/

mutual

/-- A failure with another tag in the place of its own. -/
def Failure.retagged (w : Verdict) : Failure → Failure
  | .classified _ _ message => .classified w.category w.detail message
  | .io cause => .io (cause.retagged w)
  | .wrapped root contexts => .wrapped (root.retagged w) contexts
  | .timeout => .timeout
  | .refused => .refused
  | .unhealthy message => .unhealthy message
  | .deadline limit => .deadline limit
  | .dns host message => .dns host message
  | .tls message => .tls message
  | .panicked message => .panicked message

def IoFailure.retagged (w : Verdict) : IoFailure → IoFailure
  | .bare kind => .bare kind
  | .told kind message => .told kind message
  | .carrying kind payload => .carrying kind (payload.retagged w)

def RootCause.retagged (w : Verdict) : RootCause → RootCause
  | .note text => .note text
  | .io cause => .io (cause.retagged w)
  | .elapsed => .elapsed
  | .failure cause => .failure (cause.retagged w)

end

/-- A cause with another tag in the place of its own. -/
def Cause.retagged (w : Verdict) : Cause → Cause
  | .failure f => .failure (f.retagged w)
  | .io e => .io (e.retagged w)
  | .text s => .text s
  | .elapsed => .elapsed

section Retagged

variable (w : Verdict)

mutual

/-- A tag is not in the words of a failure. -/
@[simp] theorem Failure.message_retagged : (f : Failure) → (f.retagged w).message = f.message
  | .io cause => IoFailure.message_retagged cause
  | .wrapped root contexts => congrArg contexts.getLast?.getD (RootCause.message_retagged root)
  | .classified .. | .timeout | .refused | .unhealthy _ | .deadline _ | .dns .. | .tls _
  | .panicked _ => rfl

/-- A tag is not in the words of an operation either, which are those of its payload. -/
@[simp] theorem IoFailure.message_retagged : (e : IoFailure) → (e.retagged w).message = e.message
  | .bare _ | .told .. => rfl
  | .carrying _ payload => Failure.message_retagged payload

@[simp] theorem RootCause.message_retagged : (r : RootCause) → (r.retagged w).message = r.message
  | .note _ | .elapsed => rfl
  | .io cause => IoFailure.message_retagged cause
  | .failure cause => Failure.message_retagged cause

end

@[simp] theorem map_retagged_contextCauses (contexts : List String) :
    (contextCauses contexts).map (Cause.retagged w) = contextCauses contexts := by
  simp [contextCauses, Cause.retagged]

mutual

/-- What is behind a failure changes with its tag, and in nothing else. -/
theorem Failure.behind_retagged : (f : Failure) →
    (f.retagged w).behind = f.behind.map (Cause.retagged w)
  | .io cause => by simp [Failure.retagged, Failure.behind, IoFailure.behind_retagged cause]
  | .wrapped root _ => by
    rw [Failure.retagged, Failure.behind, Failure.behind, RootCause.causes_retagged root,
      List.map_drop, List.map_append, map_retagged_contextCauses]
  | .classified .. | .timeout | .refused | .unhealthy _ | .deadline _ | .dns .. | .tls _
  | .panicked _ => rfl

/-- What is behind an operation changes with the tag in its payload only. -/
theorem IoFailure.behind_retagged : (e : IoFailure) →
    (e.retagged w).behind = e.behind.map (Cause.retagged w)
  | .bare _ | .told .. => rfl
  | .carrying _ payload => by
    simp [IoFailure.retagged, IoFailure.behind, Failure.behind_retagged payload]

/-- The causes of a root change with the tag in it only. -/
theorem RootCause.causes_retagged : (r : RootCause) →
    (r.retagged w).causes = r.causes.map (Cause.retagged w)
  | .note _ | .elapsed => rfl
  | .io cause => by
    simp [RootCause.retagged, RootCause.causes, Cause.retagged, IoFailure.behind_retagged cause]
  | .failure cause => by
    simp [RootCause.retagged, RootCause.causes, Cause.retagged, Failure.behind_retagged cause]

end

/-- Another tag changes no cause but the one that it stands in. -/
theorem Failure.causes_retagged (f : Failure) :
    (f.retagged w).causes = f.causes.map (Cause.retagged w) := by
  cases f with
  | io cause =>
    simp [retagged, causes, Cause.retagged, IoFailure.behind_retagged]
  | wrapped root contexts => simp [retagged, causes, RootCause.causes_retagged]
  | classified | timeout | refused | unhealthy | deadline | dns | tls | panicked => rfl

/-- With another tag, a failure that had one has the other. -/
theorem Verdict.ofTag?_comp_retagged :
    ofTag? ∘ Failure.retagged w = (Option.map fun _ => w) ∘ ofTag? := by
  funext f
  cases f <;> rfl

/-- What is seen of a failure is seen with another tag as well. -/
theorem Failure.seen_retagged (f : Failure) :
    (f.retagged w).seen = f.seen.map (Failure.retagged w) := by
  have hcause (c : Cause) : (c.retagged w).failure? = c.failure?.map (Failure.retagged w) := by
    cases c <;> rfl
  rw [seen, causes_retagged, List.filterMap_map, seen, List.map_filterMap]
  exact List.filterMap_congr fun c _ => hcause c

/-- No rule but the one for tags looks at a tag. -/
theorem Verdict.ofTypedCauses_retagged (causes : List Cause) :
    ofTypedCauses (causes.map (Cause.retagged w)) = ofTypedCauses causes := by
  have hkind (c : Cause) : (c.retagged w).ioKind? = c.ioKind? := by
    have hio (e : IoFailure) : (e.retagged w).kind = e.kind := by cases e <;> rfl
    rcases c with ⟨_ | _⟩ | e | _ | _ <;>
      simp [Cause.retagged, Failure.retagged, Cause.ioKind?, hio]
  have hdeadline (c : Cause) : (c.retagged w).isDeadline = c.isDeadline := by
    rcases c with ⟨_ | _⟩ | _ | _ | _ <;> rfl
  have hdns (c : Cause) : (c.retagged w).isDns = c.isDns := by
    rcases c with ⟨_ | _⟩ | _ | _ | _ <;> rfl
  have htls (c : Cause) : (c.retagged w).isTls = c.isTls := by
    rcases c with ⟨_ | _⟩ | _ | _ | _ <;> rfl
  have hmessage (c : Cause) : (c.retagged w).message = c.message := by
    cases c <;> simp [Cause.retagged, Cause.message]
  simp only [ofTypedCauses, List.any_map, Function.comp_def, hkind, hdeadline, hdns, htls, hmessage]

end Retagged

/-- A failure that shows no tag has the same verdict whatever tag it hides. -/
theorem Verdict.ofFailure_hidden {f : Failure} (hidden : ¬ f.ShowsTag) (w : Verdict) :
    ofFailure (f.retagged w) = ofFailure f := by
  have hsymptom (t : Failure) : ofSymptom? (t.retagged w) = ofSymptom? t := by cases t <;> rfl
  have hnone : f.seen.findSome? ofTag? = none :=
    List.findSome?_eq_none_iff.2 fun t ht => ofTag?_of_hidden hidden ht
  have hnone' : (f.retagged w).seen.findSome? ofTag? = none := by
    rw [seen_retagged, List.findSome?_map, ofTag?_comp_retagged, ← List.map_findSome?, hnone,
      Option.map_none]
  have hsymptoms : (f.retagged w).seen.findSome? ofSymptom? = f.seen.findSome? ofSymptom? := by
    rw [seen_retagged, List.findSome?_map]
    exact congrArg (List.findSome? · f.seen) (funext hsymptom)
  simp only [seen] at hnone hnone' hsymptoms
  simp only [ofFailure, hnone, hnone', hsymptoms]
  rw [causes_retagged, ofTypedCauses_retagged]

mutual

/-- Another tag changes what a failure carries at the tag only. -/
theorem Failure.carried_retagged (w : Verdict) : (f : Failure) →
    (f.retagged w).carried = f.carried.map (Failure.retagged w)
  | .io cause => IoFailure.carried_retagged w cause
  | .wrapped root _ => RootCause.carried_retagged w root
  | .classified .. | .timeout | .refused | .unhealthy _ | .deadline _ | .dns .. | .tls _
  | .panicked _ => rfl

theorem IoFailure.carried_retagged (w : Verdict) : (e : IoFailure) →
    (e.retagged w).carried = e.carried.map (Failure.retagged w)
  | .bare _ | .told .. => rfl
  | .carrying _ payload => congrArg (payload.retagged w :: ·) (Failure.carried_retagged w payload)

theorem RootCause.carried_retagged (w : Verdict) : (r : RootCause) →
    (r.retagged w).carried = r.carried.map (Failure.retagged w)
  | .note _ | .elapsed => rfl
  | .io cause => IoFailure.carried_retagged w cause
  | .failure cause => congrArg (cause.retagged w :: ·) (Failure.carried_retagged w cause)

end

/-- A failure with a tag has the other tag in its place, and one without has none. -/
theorem Failure.tag?_retagged (w : Verdict) (f : Failure) :
    (f.retagged w).tag? = f.tag?.map fun _ => w := by
  have hnested : (f.retagged w).nested = f.nested.map (retagged w) := by
    rw [nested, carried_retagged, nested, List.map_cons]
  rw [tag?, hnested, List.findSome?_map, Verdict.ofTag?_comp_retagged, ← List.map_findSome?, tag?]

/-- **A tag that is shown wins.** Whatever stands around it, the verdict on a failure that shows its
tag is that tag. A tag that is not shown has no part in the verdict: with any other in its place it
would be the same. -/
theorem shown_tag_wins {f : Failure} {v : Verdict} (tagged : f.tag? = some v) :
    (f.ShowsTag → Verdict.ofOutcome (.error f) = v) ∧
      (¬ f.ShowsTag → ∀ w, (f.retagged w).tag? = some w ∧
        Verdict.ofOutcome (.error (f.retagged w)) = Verdict.ofOutcome (.error f)) := by
  constructor
  · rintro ⟨category, detail, message, shows⟩
    rw [Failure.tag?, Failure.findSome?_nested rfl f shows.mem_nested] at tagged
    exact shows.verdict.trans (Option.some_inj.1 tagged)
  · intro hidden w
    refine ⟨?_, Verdict.ofFailure_hidden hidden w⟩
    rw [Failure.tag?_retagged, tagged, Option.map_some]

namespace Failure

/-- A failure that says by itself how to report it. -/
def denied : Failure :=
  classified .authError "auth_error" "denied"

/-- The payload of a refused connection, reported under a context line and carried once more. -/
def deniedUnderLine : Failure :=
  io (.carrying .refused (wrapped (.failure denied) ["log in"]))

end Failure

/-- The tag of a report under a line is shown, even where the report is itself carried. -/
theorem deniedUnderLine_verdict :
    deniedUnderLine.tag? = some ⟨.authError, "auth_error"⟩ ∧ deniedUnderLine.ShowsTag ∧
      Verdict.ofOutcome (.error deniedUnderLine) = ⟨.authError, "auth_error"⟩ := by
  have shows : deniedUnderLine.ShowsTag :=
    ⟨.authError, "auth_error", "denied", .deeper ⟨"log in", [], List.mem_cons_self⟩⟩
  exact ⟨rfl, shows, (shown_tag_wins rfl).1 shows⟩

/-- Reported twice without a context line, a tag is passed over. -/
theorem bare_nesting_hides_tag :
    ¬ ∀ f v, Failure.tag? f = some v → Verdict.ofOutcome (.error f) = v := by
  intro wins
  have hverdict := wins (wrapped (.failure (wrapped (.failure denied) [])) [])
    ⟨.authError, "auth_error"⟩ rfl
  have hpassed : Verdict.ofOutcome (.error (wrapped (.failure (wrapped (.failure denied) [])) [])) =
      Verdict.error := by decide +kernel
  rw [hpassed] at hverdict
  cases hverdict

end HealthMonitor
