import HealthMonitor.Bytes.Utf8
import Mathlib.Tactic.Convert

/-!
# Decoding undoes encoding

Bytes spell a character in one way only: one byte below 128, or a leading byte, a second one in a
range that depends on the first, and tails (`Spells`). The encoder writes just these bytes
(`spells_encodeChar`, `Spells.encodeChar`), and the reader takes just these for a character
(`Spells.pieces`). So bytes decode to a text exactly when they are its encoding
(`decode?_eq_some_iff`): neither longer spellings of a character nor halves of surrogate pairs are
read.
-/

namespace HealthMonitor.Utf8

/-! ### Leading bytes -/

/-- A leading byte says how many bytes its character has, and in which range the second of them is:
a narrower one where shorter spellings, surrogates or numbers out of range would be read otherwise.
-/
theorem lead?_eq_some_iff {a : UInt8} {l : Lead} : lead? a = some l ↔
    (0xC2 ≤ a.toNat ∧ a.toNat ≤ 0xDF) ∧ l = ⟨2, 0x80, 0xBF⟩ ∨
    (0xE0 ≤ a.toNat ∧ a.toNat ≤ 0xEF) ∧
      l = ⟨3, if a.toNat = 0xE0 then 0xA0 else 0x80, if a.toNat = 0xED then 0x9F else 0xBF⟩ ∨
    (0xF0 ≤ a.toNat ∧ a.toNat ≤ 0xF4) ∧
      l = ⟨4, if a.toNat = 0xF0 then 0x90 else 0x80, if a.toNat = 0xF4 then 0x8F else 0xBF⟩ := by
  simp only [lead?, UInt8.le_iff_toNat_le, ← UInt8.toNat_inj, Bool.and_eq_true, decide_eq_true_eq,
    UInt8.reduceToNat]
  grind

/-- Whether byte `b` goes on with a character of `size` bytes that `a` starts. -/
def Leads (a b : UInt8) (size : Nat) : Prop :=
  ∃ l, lead? a = some l ∧ l.size = size ∧ l.low ≤ b ∧ b ≤ l.high

section Ranges

variable {a b : UInt8}

theorem leads_two_iff :
    Leads a b 2 ↔
      (0xC2 ≤ a.toNat ∧ a.toNat ≤ 0xDF) ∧ 0x80 ≤ b.toNat ∧ b.toNat ≤ 0xBF := by
  simp [Leads, lead?_eq_some_iff, or_and_right, exists_or, and_assoc, UInt8.le_iff_toNat_le]

/-- The second of three bytes is not so low that two would do, nor that of a surrogate. -/
theorem leads_three_iff :
    Leads a b 3 ↔
      (0xE0 ≤ a.toNat ∧ a.toNat ≤ 0xEF) ∧ (0x80 ≤ b.toNat ∧ b.toNat ≤ 0xBF) ∧
        (a.toNat = 0xE0 → 0xA0 ≤ b.toNat) ∧ (a.toNat = 0xED → b.toNat ≤ 0x9F) := by
  constructor
  · rintro ⟨l, hl, hsize, hb⟩
    obtain ⟨-, rfl⟩ | ⟨ha, rfl⟩ | ⟨-, rfl⟩ := lead?_eq_some_iff.mp hl
    · cases hsize
    · simp only [UInt8.le_iff_toNat_le, apply_ite UInt8.toNat, UInt8.reduceToNat] at hb
      grind
    · cases hsize
  · rintro ⟨ha, hb, hlow, hhigh⟩
    refine ⟨_, lead?_eq_some_iff.mpr (Or.inr (Or.inl ⟨ha, rfl⟩)), rfl, ?_⟩
    simp only [UInt8.le_iff_toNat_le, apply_ite UInt8.toNat, UInt8.reduceToNat]
    grind

/-- The second of four bytes is not so low that three would do, nor beyond the last character. -/
theorem leads_four_iff :
    Leads a b 4 ↔
      (0xF0 ≤ a.toNat ∧ a.toNat ≤ 0xF4) ∧ (0x80 ≤ b.toNat ∧ b.toNat ≤ 0xBF) ∧
        (a.toNat = 0xF0 → 0x90 ≤ b.toNat) ∧ (a.toNat = 0xF4 → b.toNat ≤ 0x8F) := by
  constructor
  · rintro ⟨l, hl, hsize, hb⟩
    obtain ⟨-, rfl⟩ | ⟨-, rfl⟩ | ⟨ha, rfl⟩ := lead?_eq_some_iff.mp hl
    · cases hsize
    · cases hsize
    · simp only [UInt8.le_iff_toNat_le, apply_ite UInt8.toNat, UInt8.reduceToNat] at hb
      grind
  · rintro ⟨ha, hb, hlow, hhigh⟩
    refine ⟨_, lead?_eq_some_iff.mpr (Or.inr (Or.inr ⟨ha, rfl⟩)), rfl, ?_⟩
    simp only [UInt8.le_iff_toNat_le, apply_ite UInt8.toNat, UInt8.reduceToNat]
    grind

theorem isTail_iff : isTail b = true ↔ 0x80 ≤ b.toNat ∧ b.toNat ≤ 0xBF := by
  simp [isTail, UInt8.le_iff_toNat_le]

theorem size_of_lead? {l : Lead} (h : lead? a = some l) :
    l.size = 2 ∨ l.size = 3 ∨ l.size = 4 := by
  obtain ⟨-, rfl⟩ | ⟨-, rfl⟩ | ⟨-, rfl⟩ := lead?_eq_some_iff.mp h <;> simp

theorem toNat_of_lead? {l : Lead} (h : lead? a = some l) : 0x80 ≤ a.toNat := by
  rw [lead?_eq_some_iff] at h
  omega

end Ranges

/-! ### Spellings -/

/-- The bytes that spell the character of a number. -/
inductive Spells : List UInt8 → Nat → Prop where
  | one {a : UInt8} (ha : a.toNat < 0x80) : Spells [a] a.toNat
  | two {a b : UInt8} (lead : Leads a b 2) : Spells [a, b] (addTail (a.toNat - 0xC0) b)
  | three {a b c : UInt8} (lead : Leads a b 3) (hc : isTail c = true) :
    Spells [a, b, c] (addTail (addTail (a.toNat - 0xE0) b) c)
  | four {a b c d : UInt8} (lead : Leads a b 4) (hc : isTail c = true) (hd : isTail d = true) :
    Spells [a, b, c, d] (addTail (addTail (addTail (a.toNat - 0xF0) b) c) d)

theorem addTail_eq (m : Nat) (b : UInt8) : addTail m b = 64 * m + (b.toNat - 0x80) := rfl

private theorem toNat_ofNat {n : Nat} (h : n < 256) : (UInt8.ofNat n).toNat = n :=
  UInt8.toNat_ofNat_of_lt' h

private theorem ofNat_eq {n : Nat} {b : UInt8} (h : n = b.toNat) : UInt8.ofNat n = b := by
  rw [h, UInt8.ofNat_toNat]

private theorem val_ofNat {n : Nat} (h : n.isValidChar) : (Char.ofNat n).val.toNat = n := by
  rw [Char.ofNat, dif_pos h]
  rfl

/-- **Bytes that spell a character are its encoding.** -/
theorem Spells.encodeChar {bytes : List UInt8} {n : Nat} (h : Spells bytes n) :
    String.utf8EncodeChar (Char.ofNat n) = bytes := by
  cases h with
  | @one a ha =>
    have hvalid : a.toNat.isValidChar := Or.inl (by omega)
    simp only [String.utf8EncodeChar, val_ofNat hvalid]
    rw [if_pos (by omega), UInt8.ofNat_toNat]
  | @two a b lead =>
    rw [leads_two_iff] at lead
    have hn := addTail_eq (a.toNat - 0xC0) b
    generalize addTail (a.toNat - 0xC0) b = n at hn ⊢
    have hvalid : n.isValidChar := Or.inl (by omega)
    simp only [String.utf8EncodeChar, val_ofNat hvalid]
    rw [if_neg (by omega), if_pos (by omega), ofNat_eq (b := a) (by omega),
      ofNat_eq (b := b) (by omega)]
  | @three a b c lead hc =>
    rw [leads_three_iff] at lead
    rw [isTail_iff] at hc
    have hm := addTail_eq (a.toNat - 0xE0) b
    have hn := addTail_eq (addTail (a.toNat - 0xE0) b) c
    generalize addTail (addTail (a.toNat - 0xE0) b) c = n at hn ⊢
    have hvalid : n.isValidChar := by
      unfold Nat.isValidChar
      omega
    simp only [String.utf8EncodeChar, val_ofNat hvalid]
    rw [if_neg (by omega), if_neg (by omega), if_pos (by omega), ofNat_eq (b := a) (by omega),
      ofNat_eq (b := b) (by omega), ofNat_eq (b := c) (by omega)]
  | @four a b c d lead hc hd =>
    rw [leads_four_iff] at lead
    rw [isTail_iff] at hc hd
    have hk := addTail_eq (a.toNat - 0xF0) b
    have hm := addTail_eq (addTail (a.toNat - 0xF0) b) c
    have hn := addTail_eq (addTail (addTail (a.toNat - 0xF0) b) c) d
    generalize addTail (addTail (addTail (a.toNat - 0xF0) b) c) d = n at hn ⊢
    have hvalid : n.isValidChar := by
      unfold Nat.isValidChar
      omega
    simp only [String.utf8EncodeChar, val_ofNat hvalid]
    rw [if_neg (by omega), if_neg (by omega), if_neg (by omega), ofNat_eq (b := a) (by omega),
      ofNat_eq (b := b) (by omega), ofNat_eq (b := c) (by omega), ofNat_eq (b := d) (by omega)]

/-- A tail that is written is read. -/
private theorem addTail_ofNat (m : Nat) {k : Nat} (h : k < 64) :
    addTail m (UInt8.ofNat (k + 128)) = 64 * m + k := by
  have hb : (UInt8.ofNat (k + 128)).toNat = k + 128 := toNat_ofNat (by omega)
  have hadd := addTail_eq m (UInt8.ofNat (k + 128))
  omega

private theorem isTail_ofNat {k : Nat} (h : k < 64) :
    isTail (UInt8.ofNat (k + 128)) = true := by
  rw [isTail_iff, toNat_ofNat (by omega)]
  omega

/-- **The encoding of a character spells it.** -/
theorem spells_encodeChar (c : Char) : Spells (String.utf8EncodeChar c) c.toNat := by
  have hvalid : c.toNat.isValidChar := c.valid
  have hval : c.val.toNat = c.toNat := rfl
  simp only [String.utf8EncodeChar, hval]
  generalize c.toNat = n at hvalid
  unfold Nat.isValidChar at hvalid
  have hlast : isTail (UInt8.ofNat (n % 64 + 128)) = true := isTail_ofNat (by omega)
  have hsecond : isTail (UInt8.ofNat (n / 64 % 64 + 128)) = true := isTail_ofNat (by omega)
  split
  next h =>
    have hone := Spells.one (a := UInt8.ofNat n) (by rw [toNat_ofNat] <;> omega)
    rwa [toNat_ofNat (by omega)] at hone
  next =>
  split
  next h =>
    have ha : (UInt8.ofNat (n / 64 % 32 + 192)).toNat = _ := toNat_ofNat (by omega)
    have lead : Leads (UInt8.ofNat (n / 64 % 32 + 192)) (UInt8.ofNat (n % 64 + 128)) 2 := by
      rw [leads_two_iff, ← isTail_iff]
      exact ⟨by omega, hlast⟩
    convert Spells.two lead using 1
    rw [addTail_ofNat _ (by omega), ha]
    omega
  next =>
  split
  next h =>
    have ha : (UInt8.ofNat (n / 4096 % 16 + 224)).toNat = _ := toNat_ofNat (by omega)
    have hb : (UInt8.ofNat (n / 64 % 64 + 128)).toNat = _ := toNat_ofNat (by omega)
    have lead :
        Leads (UInt8.ofNat (n / 4096 % 16 + 224)) (UInt8.ofNat (n / 64 % 64 + 128)) 3 := by
      rw [leads_three_iff]
      omega
    convert Spells.three lead hlast using 1
    rw [addTail_ofNat _ (by omega), addTail_ofNat _ (by omega), ha]
    omega
  next =>
    have ha : (UInt8.ofNat (n / 262144 % 8 + 240)).toNat = _ := toNat_ofNat (by omega)
    have hb : (UInt8.ofNat (n / 4096 % 64 + 128)).toNat = _ := toNat_ofNat (by omega)
    have lead :
        Leads (UInt8.ofNat (n / 262144 % 8 + 240)) (UInt8.ofNat (n / 4096 % 64 + 128)) 4 := by
      rw [leads_four_iff]
      omega
    convert Spells.four lead hsecond hlast using 1
    rw [addTail_ofNat _ (by omega), addTail_ofNat _ (by omega), addTail_ofNat _ (by omega), ha]
    omega

/-- A byte below 128 is a character of its own. -/
theorem Spells.eq_of_mem {bytes : List UInt8} {n : Nat} (h : Spells bytes n) {b : UInt8}
    (hb : b ∈ bytes) (hascii : b.toNat < 0x80) : n = b.toNat := by
  cases h with
  | one => rw [List.mem_singleton.mp hb]
  | two lead =>
    rw [leads_two_iff] at lead
    simp only [List.mem_cons, List.not_mem_nil, or_false] at hb
    rcases hb with rfl | rfl <;> omega
  | three lead hc =>
    rw [leads_three_iff] at lead
    rw [isTail_iff] at hc
    simp only [List.mem_cons, List.not_mem_nil, or_false] at hb
    rcases hb with rfl | rfl | rfl <;> omega
  | four lead hc hd =>
    rw [leads_four_iff] at lead
    rw [isTail_iff] at hc hd
    simp only [List.mem_cons, List.not_mem_nil, or_false] at hb
    rcases hb with rfl | rfl | rfl | rfl <;> omega

/-- A byte of ASCII occurs where its character does, and nowhere else. -/
theorem mem_encode_iff {cs : List Char} {b : UInt8} (hascii : b.toNat < 0x80) :
    b ∈ encode cs ↔ Char.ofNat b.toNat ∈ cs := by
  have hvalid : b.toNat.isValidChar := Or.inl (by omega)
  rw [encode, List.mem_flatMap]
  constructor
  · rintro ⟨c, hc, hb⟩
    rwa [← (spells_encodeChar c).eq_of_mem hb hascii, Char.ofNat_toNat]
  · refine fun hmem => ⟨_, hmem, ?_⟩
    simp only [String.utf8EncodeChar, val_ofNat hvalid]
    rw [if_pos (by omega), UInt8.ofNat_toNat]
    exact List.mem_singleton_self b

/-- A character of ASCII is one byte. -/
theorem length_encode_of_ascii {cs : List Char} (h : ∀ c ∈ cs, c.toNat < 0x80) :
    (encode cs).length = cs.length := by
  induction cs with
  | nil => rfl
  | cons c cs ih =>
    obtain ⟨hc, hcs⟩ := List.forall_mem_cons.mp h
    have hone : String.utf8EncodeChar c = [UInt8.ofNat c.toNat] :=
      if_pos (Nat.le_of_lt_succ hc)
    rw [encode, List.flatMap_cons, hone, List.length_append, ← encode, ih hcs,
      List.length_singleton, List.length_cons, Nat.add_comm]

/-! ### Reading -/

/-- The character that a piece is. -/
def Piece.char? : Piece → Option Char
  | .char c _ => some c
  | _ => none

theorem decode?_eq (bytes : List UInt8) : decode? bytes = (pieces bytes).mapM Piece.char? := rfl

/-- **What spells a character is one piece.** -/
theorem Spells.pieces {bytes : List UInt8} {n : Nat} (h : Spells bytes n) (rest : List UInt8) :
    Utf8.pieces (bytes ++ rest) = .char (Char.ofNat n) bytes.length :: Utf8.pieces rest := by
  cases h with
  | @one a ha =>
    rw [List.singleton_append, Utf8.pieces, if_pos (UInt8.lt_iff_toNat_lt.mpr ha)]
    rfl
  | @two a b lead =>
    obtain ⟨l, hlead, hsize, hb⟩ := lead
    have hlarge : ¬ a < 0x80 := by simpa [UInt8.lt_iff_toNat_lt] using toNat_of_lead? hlead
    simp [Utf8.pieces, hlarge, hlead, hsize, hb]
  | @three a b c lead hc =>
    obtain ⟨l, hlead, hsize, hb⟩ := lead
    have hlarge : ¬ a < 0x80 := by simpa [UInt8.lt_iff_toNat_lt] using toNat_of_lead? hlead
    simp [Utf8.pieces, hlarge, hlead, hsize, hb, hc]
  | @four a b c d lead hc hd =>
    obtain ⟨l, hlead, hsize, hb⟩ := lead
    have hlarge : ¬ a < 0x80 := by simpa [UInt8.lt_iff_toNat_lt] using toNat_of_lead? hlead
    simp [Utf8.pieces, hlarge, hlead, hsize, hb, hc, hd]

/-- What has been encoded is decoded. -/
theorem decode?_encode (cs : List Char) : decode? (encode cs) = some cs := by
  induction cs with
  | nil => rfl
  | cons c cs ih =>
    have hpieces := (spells_encodeChar c).pieces (encode cs)
    rw [Char.ofNat_toNat] at hpieces
    have hcons : encode (c :: cs) = String.utf8EncodeChar c ++ encode cs := List.flatMap_cons
    rw [decode?_eq] at ih ⊢
    rw [hcons, hpieces, List.mapM_cons, ih]
    rfl

/-- The bytes of a character in front of those of a text. -/
private theorem encode_of_mapM_cons {n size : Nat} {ps : List Piece} {bytes rest : List UInt8}
    {cs : List Char} (spells : Spells bytes n)
    (h : (Piece.char (Char.ofNat n) size :: ps).mapM Piece.char? = some cs)
    (ih : ∀ {cs}, ps.mapM Piece.char? = some cs → encode cs = rest) :
    encode cs = bytes ++ rest := by
  rw [List.mapM_cons] at h
  obtain ⟨c, hc, hrest⟩ := Option.bind_eq_some_iff.mp h
  obtain ⟨tail, htail, hcs⟩ := Option.bind_eq_some_iff.mp hrest
  obtain rfl : Char.ofNat n = c := Option.some.inj hc
  obtain rfl : Char.ofNat n :: tail = cs := Option.some.inj hcs
  rw [← ih htail, ← spells.encodeChar]
  exact List.flatMap_cons

/-- Bytes that decode to a text are the encoding of it. -/
theorem encode_of_decode? {bytes : List UInt8} {cs : List Char} (h : decode? bytes = some cs) :
    encode cs = bytes := by
  rw [decode?_eq] at h
  fun_induction Utf8.pieces bytes generalizing cs with
  | case1 =>
    obtain rfl : [] = cs := by simpa using h
    rfl
  | case2 a rest ha ih =>
    exact encode_of_mapM_cons (.one (UInt8.lt_iff_toNat_lt.mp ha)) h ih
  | case6 a ha l hl b rest hb hsize ih =>
    exact encode_of_mapM_cons (.two ⟨l, hl, hsize, by simpa using hb⟩) h ih
  | case9 a ha l hl b hb h2 c rest hc hsize ih =>
    exact encode_of_mapM_cons
      (.three ⟨l, hl, hsize, by simpa using hb⟩ (by simpa using hc)) h ih
  | case12 a ha l hl b hb h2 c hc h3 d rest hd n =>
    rename_i ih
    have hsize : l.size = 4 := (size_of_lead? hl).resolve_left h2 |>.resolve_left h3
    exact encode_of_mapM_cons
      (.four ⟨l, hl, hsize, by simpa using hb⟩ (by simpa using hc) (by simpa using hd)) h ih
  | _ => simp [Piece.char?] at h

/-- **Bytes decode to a text exactly when they are its encoding.** -/
theorem decode?_eq_some_iff {bytes : List UInt8} {cs : List Char} :
    decode? bytes = some cs ↔ encode cs = bytes :=
  ⟨encode_of_decode?, fun h => h ▸ decode?_encode cs⟩

theorem encode_injective {cs ds : List Char} (h : encode cs = encode ds) : cs = ds :=
  Option.some.inj ((decode?_encode cs).symm.trans (decode?_eq_some_iff.mpr h.symm))

theorem bytesOf_injective {s t : String} (h : bytesOf s = bytesOf t) : s = t :=
  String.toList_injective (encode_injective h)

end HealthMonitor.Utf8
