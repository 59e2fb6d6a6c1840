import HealthMonitor.Bytes.Utf8
import HealthMonitor.Metrics.LabelValues

/-!
# Series keys

A family finds its series by a word: the 64-bit FNV-1a hash of the bytes of the label values, one
value after another with nothing in between. So values that run together to the same text have one
key (`LabelValues.key_eq_of_text`), and a series does not tell them apart.
-/

namespace HealthMonitor

/-- The word under which a family keeps a series. -/
structure SeriesKey where
  word : UInt64
  deriving DecidableEq, Repr

namespace SeriesKey

instance : LT SeriesKey := ⟨fun a b => a.word.toNat < b.word.toNat⟩

instance : LE SeriesKey := ⟨fun a b => a.word.toNat ≤ b.word.toNat⟩

instance : DecidableLT SeriesKey := fun a b => Nat.decLt a.word.toNat b.word.toNat

instance : DecidableLE SeriesKey := fun a b => Nat.decLe a.word.toNat b.word.toNat

/-! ### The hash -/

/-- The key of no bytes. -/
def start : SeriesKey := ⟨0xCBF29CE484222325⟩

/-- What a key is multiplied by after each byte. -/
def factor : UInt64 := 0x100000001B3

/-- The key after one more byte. -/
def absorb (k : SeriesKey) (b : UInt8) : SeriesKey :=
  ⟨(k.word ^^^ b.toUInt64) * factor⟩

/-- The key of a row of bytes. -/
def ofBytes (bs : List UInt8) : SeriesKey :=
  bs.foldl absorb start

/-! ### The order -/

theorem eq_of_toNat {a b : SeriesKey} (h : a.word.toNat = b.word.toNat) : a = b := by
  cases a
  cases b
  exact congrArg SeriesKey.mk (UInt64.toNat_inj.1 h)

end SeriesKey

instance : Std.IsLinearOrder SeriesKey where
  le_refl a := Nat.le_refl a.word.toNat
  le_trans a b c := @Nat.le_trans a.word.toNat b.word.toNat c.word.toNat
  le_antisymm _ _ hab hba := SeriesKey.eq_of_toNat (Nat.le_antisymm hab hba)
  le_total a b := Nat.le_total a.word.toNat b.word.toNat

instance : Std.LawfulOrderLT SeriesKey where
  lt_iff _ _ := Nat.lt_iff_le_and_not_ge

namespace LabelValues

/-- The bytes of the values, one value after another. -/
def bytes (v : LabelValues) : List UInt8 :=
  v.texts.flatMap Utf8.bytesOf

/-- The key of the series of some label values. -/
def key (v : LabelValues) : SeriesKey :=
  SeriesKey.ofBytes v.bytes

/-- The bytes are those of the text to which the values run together. -/
theorem bytes_eq (v : LabelValues) : v.bytes = Utf8.encode (v.texts.flatMap String.toList) := by
  rw [bytes, Utf8.encode, List.flatMap_assoc]
  rfl

/-- **Values that run together to one text have one key**, wherever one value ends and the next
begins. -/
theorem key_eq_of_text {v w : LabelValues}
    (same : v.texts.flatMap String.toList = w.texts.flatMap String.toList) : v.key = w.key := by
  rw [key, key, bytes_eq, bytes_eq, same]

/-- Host and port of `h1:1` and `h:11` run together. -/
example : key ⟨["h1", "1"]⟩ = key ⟨["h", "11"]⟩ := by decide

end LabelValues

end HealthMonitor
