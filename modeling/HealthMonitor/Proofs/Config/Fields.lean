import HealthMonitor.Config
import HealthMonitor.Proofs.Lookup
import HealthMonitor.Proofs.Toml.Documents

/-!
# Fields read back

A record is written as an object with named members, and a document that says it gives the same
members under the same names, in another order and without those that are null
(`fields?_said`). A value is `Legible` if reading gives back what was written; then a field that
holds it is read back, whether it is required, can be null or is left out.
-/

namespace HealthMonitor

open Toml

/-! ### Members of an object that was read -/

/-- What a document says of a member; nothing if that is null. -/
def said? : Json → Option Json
  | .null => none
  | j => some (said j)

/-- Every member that is not null is said. -/
theorem said?_of_ne_null {j : Json} (h : j ≠ .null) : said? j = some (said j) := by
  cases j with
  | null => exact absurd rfl h
  | bool | number | string | array | object => rfl

section Plain

variable {j : Json} (h : IsPlain j)

include h

theorem said_of_isPlain : said j = j := by
  cases h <;> rfl

theorem isSection_of_isPlain : isSection j = false := by
  cases h <;> rfl

theorem writable_of_isPlain (depth : Nat) : Writable depth j := by
  cases h with
  | text s => exact .text s
  | nat hn => exact .nat hn
  | bool b => exact .bool b
  | empty => exact .inl rfl

end Plain

/-- The members that a document gives for the members of an object. -/
def given (members : List (String × Json)) : List (String × Json) :=
  let all := shown (members.map fun m => (some m.1, m.2))
  plainMembers all ++ (all.filter fun m => isSection m.2).map fun m => (m.1, said m.2)

/-- Of each section a document says what the section says. -/
theorem saidSections_eq (members : List (Option String × Json)) :
    saidSections members =
      (sectionMembers members).map fun m => (some m.1, said m.2) := by
  induction members with
  | nil => rfl
  | cons m rest ih =>
    obtain ⟨name, j⟩ := m
    rw [saidSections, sectionMembers_cons]
    split
    · rw [ih, List.map_cons]
    · exact ih

/-- A document says the plain members of an object first and then its sections. -/
theorem said_obj (members : List (String × Json)) :
    said (Json.obj members) = Json.obj (given members) := by
  rw [Json.obj, Json.obj, said, saidSections_eq, given, List.map_append, List.map_map]
  rfl

/-- All members are shown but those that are null. -/
theorem mem_shown_obj {members : List (String × Json)} {m : String × Json} :
    m ∈ shown (members.map fun m => (some m.1, m.2)) ↔ m ∈ members ∧ m.2 ≠ .null := by
  obtain ⟨k, j⟩ := m
  simp [mem_shown]

/-- The names of the members that are shown stand in their order. -/
theorem shown_obj_names (members : List (String × Json)) :
    ((shown (members.map fun m => (some m.1, m.2))).map Prod.fst).Sublist
      (members.map Prod.fst) := by
  induction members with
  | nil => exact .slnil
  | cons m rest ih =>
    obtain ⟨k, j⟩ := m
    cases j with
    | null => exact ih.cons k
    | bool | number | string | array | object => exact ih.cons_cons k

/-- An object of plain values is said as it is. -/
theorem said_obj_of_isPlain {members : List (String × Json)}
    (h : ∀ m ∈ members, IsPlain m.2) : said (Json.obj members) = Json.obj members := by
  have hshown : shown (members.map fun m => (some m.1, m.2)) = members := by
    induction members with
    | nil => rfl
    | cons m rest ih =>
      obtain ⟨k, j⟩ := m
      obtain ⟨hj, hrest⟩ := List.forall_mem_cons.mp h
      cases hj <;> exact congrArg (List.cons _) (ih hrest)
  have hplain : plainMembers members = members := by
    rw [plainMembers, List.filter_eq_self]
    exact fun m hm => by simp [isSection_of_isPlain (h m hm)]
  have hnone : (members.filter fun m => isSection m.2) = [] := by
    rw [List.filter_eq_nil_iff]
    exact fun m hm => by simp [isSection_of_isPlain (h m hm)]
  rw [said_obj, given]
  simp only [hshown, hplain, hnone, List.map_nil, List.append_nil]

/-- An object can be written if its names differ and its members can be written one table further
down. -/
theorem writable_obj {members : List (String × Json)} {depth : Nat} (hdepth : depth < depthLimit)
    (hnodup : (members.map Prod.fst).Nodup) (h : ∀ m ∈ members, Writable (depth + 1) m.2) :
    Writable depth (Json.obj members) := by
  refine ⟨hdepth, (shown_obj_names members).nodup hnodup, ?_⟩
  induction members with
  | nil => trivial
  | cons m rest ih =>
    obtain ⟨hm, hrest⟩ := List.forall_mem_cons.mp h
    exact ⟨hm, ih (List.nodup_cons.mp hnodup).2 hrest⟩

/-- A row of objects is written as tables, one header for each. -/
theorem isSection_row {js : List Json} (hne : js ≠ []) (hobject : ∀ j ∈ js, ∃ ms, j = .object ms) :
    isSection (.array js) = true := by
  rw [isSection, Bool.and_eq_true, List.all_eq_true]
  refine ⟨by simpa using hne, fun j hj => ?_⟩
  obtain ⟨ms, rfl⟩ := hobject j hj
  rfl

/-- A row of objects can be written if each of them can; an empty one is a plain value. -/
theorem writable_row {js : List Json} {depth : Nat} (hobject : ∀ j ∈ js, ∃ ms, j = .object ms)
    (h : ∀ j ∈ js, Writable depth j) : Writable depth (.array js) := by
  have hitems : WritableItems depth js := by
    clear hobject
    induction js with
    | nil => trivial
    | cons j js ih =>
      obtain ⟨hj, hjs⟩ := List.forall_mem_cons.mp h
      exact ⟨hj, ih hjs⟩
  cases js with
  | nil => exact .inl rfl
  | cons j js => exact .inr ⟨isSection_row (List.cons_ne_nil j js) hobject, hitems⟩

/-- Of each item of a row a document says what the item says. -/
theorem saidItems_eq (js : List Json) : saidItems js = js.map said := by
  induction js with
  | nil => rfl
  | cons j js ih => rw [saidItems, ih, List.map_cons]

/-- A value that may be missing is null or can be written like any other. -/
theorem writable_option {α : Type} {write : α → Json} {depth : Nat}
    (h : ∀ a, Writable depth (write a)) (o : Option α) :
    Writable depth (Json.option write o) := by
  cases o with
  | none => trivial
  | some a => exact h a

section Given

variable {members : List (String × Json)} {depth : Nat}

/-- The members are put in another order, which lets no name stand twice. -/
theorem given_nodup (hnodup : (members.map Prod.fst).Nodup) :
    ((given members).map Prod.fst).Nodup := by
  have hall := nodup_sorted ((shown_obj_names members).nodup hnodup)
  simpa [given, Function.comp_def] using hall

/-- **A document gives what is said of the members**, and nothing else. -/
theorem mem_given (hw : Writable depth (Json.obj members)) {key : String} {v : Json} :
    (key, v) ∈ given members ↔ ∃ j, (key, j) ∈ members ∧ said? j = some v := by
  have hplain : ∀ j, (key, j) ∈ plainMembers (shown (members.map fun m => (some m.1, m.2))) →
      said j = j := fun j hmem => said_of_isPlain (isPlain_of_mem_plainMembers hw.2.2 hmem)
  rw [given, List.mem_append]
  constructor
  · rintro (hmem | hmem)
    · obtain ⟨hin, hnull⟩ := mem_shown_obj.mp (List.mem_filter.mp hmem).1
      exact ⟨v, hin, by rw [said?_of_ne_null hnull, hplain v hmem]⟩
    · obtain ⟨⟨k, j⟩, hj, heq⟩ := List.mem_map.mp hmem
      cases heq
      obtain ⟨hin, hnull⟩ := mem_shown_obj.mp (List.mem_filter.mp hj).1
      exact ⟨j, hin, said?_of_ne_null hnull⟩
  · rintro ⟨j, hin, hsaid⟩
    have hnull : j ≠ .null := fun h => by rw [h] at hsaid; cases hsaid
    have hshown : (key, j) ∈ shown (members.map fun m => (some m.1, m.2)) :=
      mem_shown_obj.mpr ⟨hin, hnull⟩
    rw [said?_of_ne_null hnull] at hsaid
    cases hsaid
    cases hsection : isSection j with
    | true => exact .inr (List.mem_map.mpr ⟨(key, j), List.mem_filter.mpr ⟨hshown, hsection⟩, rfl⟩)
    | false =>
      have hmem : (key, j) ∈ plainMembers (shown (members.map fun m => (some m.1, m.2))) :=
        List.mem_filter.mpr ⟨hshown, by simp [hsection]⟩
      rw [hplain j hmem]
      exact .inl hmem

/-- Under a name a document gives what is said of the member of that name. -/
theorem lookup_given (hnodup : (members.map Prod.fst).Nodup)
    (hw : Writable depth (Json.obj members)) (key : String) :
    (given members).lookup key = (members.lookup key).bind said? := by
  refine Option.ext fun v => ?_
  rw [lookup_eq_some_iff (given_nodup hnodup), mem_given hw, Option.bind_eq_some_iff]
  exact exists_congr fun j => and_congr_left fun _ => (lookup_eq_some_iff hnodup).symm

/-- Names that differ pass the check for repeated fields. -/
theorem hasRepeat_eq_false {names : List String} (h : names.Nodup) :
    Json.hasRepeat names = false := by
  induction names with
  | nil => rfl
  | cons name rest ih =>
    obtain ⟨hname, hrest⟩ := List.nodup_cons.mp h
    simp [Json.hasRepeat, hname, ih hrest]

/-- If reading undoes writing for each item, it does so for a row. -/
theorem mapM_map_eq_some {α β : Type} {f : α → β} {g : β → Option α} (h : ∀ a, g (f a) = some a)
    (as : List α) : (as.map f).mapM g = some as := by
  induction as with
  | nil => rfl
  | cons a as ih => simp [List.mapM_cons, h, ih]

/-- **An object that was read gives its fields.** -/
theorem fields?_said {names : List String} (hnodup : (members.map Prod.fst).Nodup)
    (hknown : ∀ name ∈ members.map Prod.fst, name ∈ names)
    (hw : Writable depth (Json.obj members)) :
    Json.fields? .ignored names (said (Json.obj members)) = some ⟨given members, false⟩ := by
  have hall : (given members).filter (fun m => names.contains m.1) = given members := by
    rw [List.filter_eq_self]
    rintro ⟨key, v⟩ hmem
    obtain ⟨j, hin, -⟩ := (mem_given hw).mp hmem
    have hname : key ∈ names := hknown key (List.mem_map.mpr ⟨_, hin, rfl⟩)
    simpa using hname
  have hnamed := mapM_map_eq_some (f := fun m : String × Json => (some m.1, m.2))
    (g := fun m => m.1.map fun name => (name, m.2)) (fun _ => rfl) (given members)
  rw [said_obj]
  simp only [Json.fields?, Json.obj, hnamed, Option.bind_eq_bind, Option.bind_some, hall,
    hasRepeat_eq_false (given_nodup hnodup), Bool.false_eq_true, if_false]

end Given

/-! ### Fields -/

/-- Reading gives back what was written, once a document has said it. -/
structure Legible {α : Type} (write : α → Json) (read : Json → Option α) : Prop where
  back : ∀ a, read (said (write a)) = some a
  null : read .null = none

namespace Legible

variable {α : Type} {write : α → Json} {read : Json → Option α}
  {fields members : List (String × Json)} {name : String}

/-- What can be read back is not null, so a document says it. -/
theorem said?_write (h : Legible write read) (a : α) :
    said? (write a) = some (said (write a)) := by
  refine said?_of_ne_null fun hnull => ?_
  have hback := h.back a
  rw [hnull] at hback
  cases h.null.symm.trans hback

/-- A value that may be missing is said if it is there. -/
theorem said?_option (h : Legible write read) (o : Option α) :
    said? (Json.option write o) = o.map fun a => said (write a) := by
  cases o with
  | none => rfl
  | some a => exact h.said?_write a

/-- A field that may be null is read whether its value is set or not. -/
theorem nullable?_eq (h : Legible write read) {o : Option α}
    (hfield : fields.lookup name = o.map fun a => said (write a)) :
    (⟨fields, false⟩ : Json.Fields).nullable? name read = some o := by
  cases o with
  | none => simp [Json.Fields.nullable?, hfield]
  | some a =>
    have hback := h.back a
    rw [Json.Fields.nullable?, hfield, Option.map_some]
    split
    next heq =>
      rw [Option.some.inj heq, h.null] at hback
      cases hback
    next j _ heq => rw [← Option.some.inj heq, hback, Option.map_some]
    next heq => cases heq

/-- A field that may be null is read back from a member that always stands there. -/
theorem nullable? (h : Legible write read)
    (hfield : fields.lookup name = (members.lookup name).bind said?) {o : Option α}
    (hmember : members.lookup name = some (Json.option write o)) :
    (⟨fields, false⟩ : Json.Fields).nullable? name read = some o := by
  refine h.nullable?_eq ?_
  rw [hfield, hmember, Option.bind_some, h.said?_option]

/-- A field that may be left out is read back from a member that stands there only if it is set. -/
theorem optional? (h : Legible write read)
    (hfield : fields.lookup name = (members.lookup name).bind said?) {o : Option α}
    (hmember : members.lookup name = o.map write) :
    (⟨fields, false⟩ : Json.Fields).optional? name read = some o := by
  have hsame : (⟨fields, false⟩ : Json.Fields).optional? name read =
      (⟨fields, false⟩ : Json.Fields).nullable? name read := rfl
  rw [hsame]
  refine h.nullable?_eq ?_
  rw [hfield, hmember]
  cases o with
  | none => rfl
  | some a => exact h.said?_write a

/-- A field that must be there is read back. -/
theorem required? (h : Legible write read)
    (hfield : fields.lookup name = (members.lookup name).bind said?) {a : α}
    (hmember : members.lookup name = some (write a)) :
    (⟨fields, false⟩ : Json.Fields).required? name read = some a := by
  rw [Json.Fields.required?, hfield, hmember, Option.bind_some, h.said?_write, Option.bind_some,
    h.back]

/-- A field with a default is read back, also if it has the default and its member is left out. -/
theorem withDefault? (h : Legible write read)
    (hfield : fields.lookup name = (members.lookup name).bind said?) {a : α} (default : α)
    (hmember : members.lookup name = some (write a) ∨ members.lookup name = none ∧ a = default) :
    (⟨fields, false⟩ : Json.Fields).withDefault? name default read = some a := by
  rcases hmember with hset | ⟨hunset, rfl⟩
  · rw [Json.Fields.withDefault?, hfield, hset, Option.bind_some, h.said?_write]
    exact h.back a
  · rw [Json.Fields.withDefault?, hfield, hunset]
    rfl

end Legible

end HealthMonitor
