/-!
# Dictionaries

A `Dictionary` holds values under distinct keys in rising order of the keys, so two dictionaries
that answer every look-up alike are equal (`Dictionary.ext_get?`), whatever the order in which their
entries arrived. `insert` replaces the value under a key that is there already.
-/

namespace HealthMonitor

/-- Values by key, in rising order of the keys. -/
structure Dictionary (κ α : Type) [LT κ] where
  entries : List (κ × α)
  sorted : entries.Pairwise fun a b => a.1 < b.1

namespace Dictionary

variable {κ α β : Type} [LT κ] [DecidableLT κ] [DecidableEq κ]

instance [DecidableEq α] : DecidableEq (Dictionary κ α) := fun a b =>
  if h : a.entries = b.entries then
    isTrue (by cases a; cases b; cases h; rfl)
  else isFalse fun hab => h (hab ▸ rfl)

instance [Repr κ] [Repr α] : Repr (Dictionary κ α) := ⟨fun d n => reprPrec d.entries n⟩

/-- Puts an entry at its place in a rising list, over an entry of the same key. -/
def insertEntry (key : κ) (value : α) : List (κ × α) → List (κ × α)
  | [] => [(key, value)]
  | e :: rest =>
    if key < e.1 then (key, value) :: e :: rest
    else if key = e.1 then (key, value) :: rest
    else e :: insertEntry key value rest

/-- An insertion brings in no entry but its own. -/
theorem mem_insertEntry {key : κ} {value : α} {es : List (κ × α)} {e : κ × α}
    (h : e ∈ insertEntry key value es) : e = (key, value) ∨ e ∈ es := by
  induction es with
  | nil => simpa [insertEntry] using h
  | cons f rest ih =>
    unfold insertEntry at h
    split at h
    · simpa using h
    · split at h
      · rcases List.mem_cons.1 h with h | h <;> simp [h]
      · rcases List.mem_cons.1 h with h | h
        · simp [h]
        · rcases ih h with h | h <;> simp [h]

section Order

variable [LE κ] [Std.IsLinearOrder κ] [Std.LawfulOrderLT κ]

/-- An insertion keeps the keys rising. -/
theorem pairwise_insertEntry {key : κ} {value : α} {es : List (κ × α)}
    (h : es.Pairwise fun a b => a.1 < b.1) :
    (insertEntry key value es).Pairwise fun a b => a.1 < b.1 := by
  induction es with
  | nil => simp [insertEntry]
  | cons e rest ih =>
    obtain ⟨hhead, hrest⟩ := List.pairwise_cons.1 h
    unfold insertEntry
    split
    next hlt =>
      refine List.pairwise_cons.2 ⟨fun f hf => ?_, h⟩
      rcases List.mem_cons.1 hf with rfl | hf
      · exact hlt
      · exact Std.lt_trans hlt (hhead f hf)
    next hnot =>
      split
      next heq => exact List.pairwise_cons.2 ⟨fun f hf => heq ▸ hhead f hf, hrest⟩
      next hne =>
        have hgt : e.1 < key := Std.lt_of_le_of_ne (Std.not_lt.1 hnot) (Ne.symm hne)
        refine List.pairwise_cons.2 ⟨fun f hf => ?_, ih hrest⟩
        rcases mem_insertEntry hf with rfl | hf
        · exact hgt
        · exact hhead f hf

end Order

def empty : Dictionary κ α := ⟨[], List.Pairwise.nil⟩

instance : Inhabited (Dictionary κ α) := ⟨empty⟩

/-- The value of the first entry of a key. -/
def lookup (key : κ) : List (κ × α) → Option α
  | [] => none
  | e :: rest => if key = e.1 then some e.2 else lookup key rest

/-- The value under a key. -/
def get? (d : Dictionary κ α) (key : κ) : Option α :=
  lookup key d.entries

def contains (d : Dictionary κ α) (key : κ) : Bool :=
  (d.get? key).isSome

def isEmpty (d : Dictionary κ α) : Bool :=
  d.entries.isEmpty

def size (d : Dictionary κ α) : Nat :=
  d.entries.length

/-- The keys that have a value, in rising order. -/
def keys (d : Dictionary κ α) : List κ :=
  d.entries.map Prod.fst

/-- Takes the value under a key away. -/
def erase (d : Dictionary κ α) (key : κ) : Dictionary κ α :=
  ⟨d.entries.filter fun e => e.1 ≠ key, d.sorted.filter _⟩

section Insertion

variable [LE κ] [Std.IsLinearOrder κ] [Std.LawfulOrderLT κ]

def insert (d : Dictionary κ α) (key : κ) (value : α) : Dictionary κ α :=
  ⟨insertEntry key value d.entries, pairwise_insertEntry d.sorted⟩

/-- Adds entries one after another; of two under one key the later wins. -/
def insertAll (d : Dictionary κ α) (es : List (κ × α)) : Dictionary κ α :=
  es.foldl (fun acc e => acc.insert e.1 e.2) d

/-- The dictionary of a list of entries; of two under one key the later wins. -/
def ofList (es : List (κ × α)) : Dictionary κ α :=
  empty.insertAll es

/-- Adds an entry unless its key has a value already. -/
def insertNew (d : Dictionary κ α) (key : κ) (value : α) : Dictionary κ α :=
  if d.contains key then d else d.insert key value

end Insertion

/-! ### Look-up -/

/-- After an insertion its key has its value, and every other key what it had. -/
theorem lookup_insertEntry (key : κ) (value : α) (es : List (κ × α)) (k : κ) :
    lookup k (insertEntry key value es) = if k = key then some value else lookup k es := by
  induction es with
  | nil => simp [insertEntry, lookup]
  | cons e rest ih =>
    unfold insertEntry
    split
    · simp [lookup]
    · split
      next heq => by_cases h : k = key <;> simp_all [lookup]
      next hne =>
        by_cases h : k = e.1
        · simp [lookup, h, Ne.symm hne]
        · simp [lookup, h, ih]

omit [LT κ] [DecidableLT κ] in
/-- Without the entries of a key, the key has no value and the others what they had. -/
theorem lookup_filter_ne (key : κ) (es : List (κ × α)) (k : κ) :
    lookup k (es.filter fun e => e.1 ≠ key) = if k = key then none else lookup k es := by
  induction es with
  | nil => simp [lookup]
  | cons e rest ih =>
    by_cases he : e.1 = key
    · have : (k = e.1) = (k = key) := by rw [he]
      rw [List.filter_cons_of_neg (by simp [he]), ih, lookup]
      by_cases hk : k = key <;> simp [he, hk]
    · rw [List.filter_cons_of_pos (by simp [he]), lookup, lookup, ih]
      by_cases hk : k = e.1
      · simp [hk, he]
      · simp [hk]

omit [LT κ] [DecidableLT κ] in
/-- What a look-up finds is an entry. -/
theorem mem_of_lookup {key : κ} {value : α} {es : List (κ × α)} (h : lookup key es = some value) :
    (key, value) ∈ es := by
  induction es with
  | nil => cases h
  | cons e rest ih =>
    unfold lookup at h
    split at h
    next heq =>
      cases h
      exact heq ▸ List.mem_cons_self
    next => exact List.mem_cons_of_mem _ (ih h)

omit [LT κ] [DecidableLT κ] in
/-- A look-up fails just when the key has no entry. -/
theorem lookup_eq_none_iff {key : κ} {es : List (κ × α)} :
    lookup key es = none ↔ ∀ value, (key, value) ∉ es := by
  induction es with
  | nil => simp [lookup]
  | cons e rest ih =>
    by_cases hk : key = e.1
    · rw [lookup, if_pos hk]
      exact ⟨nofun, fun h => absurd (hk ▸ List.mem_cons_self) (h e.2)⟩
    · rw [lookup, if_neg hk, ih]
      refine forall_congr' fun value => not_congr ?_
      rw [List.mem_cons, or_iff_right]
      rintro rfl
      exact hk rfl

omit [DecidableLT κ] in
theorem mem_of_get? {d : Dictionary κ α} {key : κ} {value : α} (h : d.get? key = some value) :
    (key, value) ∈ d.entries :=
  mem_of_lookup h

omit [DecidableLT κ] in
@[simp] theorem get?_empty (k : κ) : (empty : Dictionary κ α).get? k = none := rfl

omit [DecidableLT κ] in
@[simp] theorem get?_erase (d : Dictionary κ α) (key k : κ) :
    (d.erase key).get? k = if k = key then none else d.get? k :=
  lookup_filter_ne key d.entries k

section Order

variable [LE κ] [Std.IsLinearOrder κ] [Std.LawfulOrderLT κ]

@[simp] theorem get?_insert (d : Dictionary κ α) (key : κ) (value : α) (k : κ) :
    (d.insert key value).get? k = if k = key then some value else d.get? k :=
  lookup_insertEntry key value d.entries k

omit [DecidableLT κ] [Std.IsLinearOrder κ] in
/-- A key below all entries has no value. -/
theorem lookup_eq_none_of_lt {es : List (κ × α)} {k : κ}
    (h : ∀ e ∈ es, k < e.1) : lookup k es = none := by
  induction es with
  | nil => rfl
  | cons e rest ih =>
    have hk : k ≠ e.1 := fun hk => Std.lt_irrefl (hk ▸ h e (by simp))
    rw [lookup, if_neg hk]
    exact ih fun f hf => h f (by simp [hf])

omit [DecidableLT κ] in
/-- In a rising list it is enough that the key is below the first entry. -/
theorem lookup_eq_none_of_lt_head {e : κ × α} {es : List (κ × α)} {k : κ}
    (hes : (e :: es).Pairwise fun a b => a.1 < b.1) (hk : k < e.1) : lookup k (e :: es) = none :=
  lookup_eq_none_of_lt fun f hf => by
    rcases List.mem_cons.1 hf with rfl | hf
    · exact hk
    · exact Std.lt_trans hk ((List.pairwise_cons.1 hes).1 f hf)

omit [DecidableLT κ] in
/-- Rising lists that answer every look-up alike are equal: the first key of either is in the other.
-/
theorem eq_of_lookup_eq {es fs : List (κ × α)} (he : es.Pairwise fun a b => a.1 < b.1)
    (hf : fs.Pairwise fun a b => a.1 < b.1) (h : ∀ k, lookup k es = lookup k fs) : es = fs := by
  induction es generalizing fs with
  | nil =>
    cases fs with
    | nil => rfl
    | cons f rest =>
      have := h f.1
      simp [lookup] at this
  | cons e es ih =>
    cases fs with
    | nil =>
      have := h e.1
      simp [lookup] at this
    | cons f fs =>
      have hkey : e.1 = f.1 := by
        by_cases heq : e.1 = f.1
        · exact heq
        · rcases Std.le_total (a := e.1) (b := f.1) with hle | hle
          · have hnone := lookup_eq_none_of_lt_head hf (Std.lt_of_le_of_ne hle heq)
            have := h e.1
            rw [hnone] at this
            simp [lookup] at this
          · have hnone := lookup_eq_none_of_lt_head he (Std.lt_of_le_of_ne hle (Ne.symm heq))
            have := h f.1
            rw [hnone] at this
            simp [lookup] at this
      obtain ⟨he1, he2⟩ := List.pairwise_cons.1 he
      obtain ⟨hf1, hf2⟩ := List.pairwise_cons.1 hf
      have hvalue : e.2 = f.2 := by
        have := h e.1
        simpa [lookup, hkey] using this
      have hrest : es = fs := by
        refine ih he2 hf2 fun k => ?_
        by_cases hk : k = e.1
        · subst hk
          rw [lookup_eq_none_of_lt he1, lookup_eq_none_of_lt fun g hg => hkey ▸ hf1 g hg]
        · have := h k
          simpa [lookup, hk, hkey ▸ hk] using this
      rw [hrest, Prod.ext hkey hvalue]

omit [DecidableLT κ] in
/-- Dictionaries that answer every look-up alike are equal. -/
theorem ext_get? {c d : Dictionary κ α} (h : ∀ k, c.get? k = d.get? k) : c = d := by
  obtain ⟨es, he⟩ := c
  obtain ⟨fs, hf⟩ := d
  have : es = fs := eq_of_lookup_eq he hf h
  subst this
  rfl

omit [DecidableLT κ] [Std.IsLinearOrder κ] in
theorem get?_of_mem {d : Dictionary κ α} {key : κ} {value : α} (h : (key, value) ∈ d.entries) :
    d.get? key = some value := by
  obtain ⟨es, hes⟩ := d
  change lookup key es = some value
  replace h : (key, value) ∈ es := h
  induction es with
  | nil => cases h
  | cons e rest ih =>
    obtain ⟨hhead, hrest⟩ := List.pairwise_cons.1 hes
    rcases List.mem_cons.1 h with rfl | h
    · simp [lookup]
    · have hne : key ≠ e.1 := fun hk => Std.lt_irrefl (hk ▸ hhead _ h)
      rw [lookup, if_neg hne, ih hrest h]

omit [DecidableLT κ] [Std.IsLinearOrder κ] in
/-- The entries are what look-ups find. -/
theorem mem_entries_iff {d : Dictionary κ α} {key : κ} {value : α} :
    (key, value) ∈ d.entries ↔ d.get? key = some value :=
  ⟨get?_of_mem, mem_of_get?⟩

/-- Adding entries brings in no others. -/
theorem mem_insertAll {d : Dictionary κ α} {es : List (κ × α)} {e : κ × α}
    (h : e ∈ (d.insertAll es).entries) : e ∈ es ∨ e ∈ d.entries := by
  induction es generalizing d with
  | nil => exact Or.inr h
  | cons f es ih =>
    rcases ih h with h | h
    · exact Or.inl (List.mem_cons_of_mem _ h)
    · rcases mem_insertEntry h with rfl | h
      · exact Or.inl List.mem_cons_self
      · exact Or.inr h

/-- The dictionary of a list has no other entries. -/
theorem mem_of_mem_ofList {es : List (κ × α)} {e : κ × α} (h : e ∈ (ofList es).entries) :
    e ∈ es :=
  (mem_insertAll h).resolve_right nofun

/-- Of added entries under one key the last counts, and before them what was there. -/
theorem get?_insertAll (d : Dictionary κ α) (es : List (κ × α)) (k : κ) :
    (d.insertAll es).get? k =
      ((es.filter fun e => e.1 = k).getLast?.map Prod.snd).or (d.get? k) := by
  induction es generalizing d with
  | nil => rfl
  | cons e es ih =>
    change ((d.insert e.1 e.2).insertAll es).get? k = _
    rw [ih, get?_insert]
    by_cases hk : e.1 = k
    · rw [List.filter_cons_of_pos (by simpa using hk), List.getLast?_cons, if_pos hk.symm]
      cases (es.filter fun e => e.1 = k).getLast? <;> rfl
    · rw [List.filter_cons_of_neg (by simpa using hk), if_neg (Ne.symm hk)]

/-- Of the entries of a list under one key its dictionary has the last. -/
theorem get?_ofList (es : List (κ × α)) (k : κ) :
    (ofList es).get? k = (es.filter fun e => e.1 = k).getLast?.map Prod.snd := by
  rw [ofList, get?_insertAll, get?_empty, Option.or_none]

omit [DecidableLT κ] [Std.IsLinearOrder κ] in
/-- In a rising list there is one entry under a key at most. -/
theorem filter_eq_lookup {es : List (κ × α)} (h : es.Pairwise fun a b => a.1 < b.1) (k : κ) :
    es.filter (fun e => e.1 = k) = ((lookup k es).map (Prod.mk k)).toList := by
  induction es with
  | nil => rfl
  | cons e rest ih =>
    obtain ⟨hhead, hrest⟩ := List.pairwise_cons.1 h
    by_cases hk : e.1 = k
    · have hnone : rest.filter (fun e => e.1 = k) = [] := by
        rw [List.filter_eq_nil_iff]
        intro f hf hfk
        have hfk : f.1 = k := of_decide_eq_true hfk
        exact Std.lt_irrefl (hk.trans hfk.symm ▸ hhead f hf)
      rw [List.filter_cons_of_pos (by simpa using hk), hnone, lookup, if_pos hk.symm, ← hk]
      rfl
    · rw [List.filter_cons_of_neg (by simpa using hk), ih hrest, lookup, if_neg (Ne.symm hk)]

omit [DecidableLT κ] [Std.IsLinearOrder κ] in
/-- The entries under a key are the one that a look-up finds, or none. -/
theorem filter_entries (d : Dictionary κ α) (k : κ) :
    d.entries.filter (fun e => e.1 = k) = ((d.get? k).map (Prod.mk k)).toList :=
  filter_eq_lookup d.sorted k

omit [DecidableLT κ] [Std.IsLinearOrder κ] in
theorem getLast?_filter_eq_lookup {es : List (κ × α)} (h : es.Pairwise fun a b => a.1 < b.1)
    (k : κ) : (es.filter fun e => e.1 = k).getLast?.map Prod.snd = lookup k es := by
  rw [filter_eq_lookup h]
  cases lookup k es <;> rfl

/-- The entries of another dictionary replace those of the same key. -/
theorem get?_insertAll_entries (d d' : Dictionary κ α) (k : κ) :
    (d.insertAll d'.entries).get? k = (d'.get? k).or (d.get? k) := by
  rw [get?_insertAll, getLast?_filter_eq_lookup d'.sorted]
  rfl

/-- A value that is there already stays. -/
@[simp] theorem get?_insertNew (d : Dictionary κ α) (key : κ) (value : α) (k : κ) :
    (d.insertNew key value).get? k = (d.get? k).or (if k = key then some value else none) := by
  unfold insertNew contains
  split
  next h =>
    obtain ⟨v, hv⟩ := Option.isSome_iff_exists.mp h
    by_cases hk : k = key <;> simp [hk, hv]
  next h =>
    have hnone : d.get? key = none := by simpa using h
    by_cases hk : k = key <;> simp [hk, hnone]

/-- Of new entries under one key the first counts. -/
theorem get?_foldl_insertNew (d : Dictionary κ α) (es : List (κ × α)) (k : κ) :
    (es.foldl (fun d e => d.insertNew e.1 e.2) d).get? k = (d.get? k).or (lookup k es) := by
  induction es generalizing d with
  | nil => simp [lookup]
  | cons e rest ih =>
    rw [List.foldl_cons, ih, get?_insertNew, Option.or_assoc, lookup]
    congr 1
    split <;> rfl

/-- An insertion makes no difference between a key taken away and one replaced. -/
theorem insert_erase_self (d : Dictionary κ α) (key : κ) (value : α) :
    (d.erase key).insert key value = d.insert key value :=
  ext_get? fun k => by by_cases h : k = key <;> simp [h]

end Order

end Dictionary

end HealthMonitor
