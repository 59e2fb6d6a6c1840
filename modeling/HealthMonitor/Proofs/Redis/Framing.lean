import HealthMonitor.Proofs.Redis.Lines

/-!
# The framing of commands

A command says how many arguments it has, and each argument how many bytes, so none of the bytes of
an argument is ever looked at to find its end. Whatever follows a command, a reader that takes the
header and then as many bulk strings as it announces gets the arguments back and stops right behind
them (`reads_back`), and bytes that start with a command start with no other
(`encode_append_inj`). `encode_framed` is both.
-/

namespace HealthMonitor.Redis

/-! ### Headers -/

/-- What a machine word counts to. -/
def wordLimit : Nat := Nat.pow 2 64

/-- The header of an array or of a bulk string: a mark and a number. -/
def header (mark : Char) (n : Nat) : List Char :=
  mark :: Text.digitsOf n

/-- The marks of headers: ASCII, and no part of the end of a line. -/
def IsMark (mark : Char) : Prop :=
  mark.toNat < 0x80 ∧ mark ≠ '\r' ∧ mark ≠ '\n'

instance (mark : Char) : Decidable (IsMark mark) :=
  inferInstanceAs (Decidable (_ ∧ _))

section Headers

variable {mark : Char} {n : Nat}

/-- Lists that are cut at the first `a` have equal parts when they are equal. -/
private theorem eq_of_append_cons_eq {α : Type} {a : α} {u v x y : List α} (hu : a ∉ u)
    (hv : a ∉ v) (h : u ++ a :: x = v ++ a :: y) : u = v ∧ x = y := by
  induction u generalizing v with
  | nil =>
    cases v with
    | nil => exact ⟨rfl, (List.cons.inj h).2⟩
    | cons b v => exact absurd (List.cons.inj h).1 (List.ne_of_not_mem_cons hv)
  | cons b u ih =>
    cases v with
    | nil => exact absurd (List.cons.inj h).1.symm (List.ne_of_not_mem_cons hu)
    | cons c v =>
      obtain ⟨rfl, htail⟩ := List.cons.inj h
      obtain ⟨rfl, hxy⟩ :=
        ih (List.not_mem_of_not_mem_cons hu) (List.not_mem_of_not_mem_cons hv) htail
      exact ⟨rfl, hxy⟩

theorem isMark_of_isDigit {c : Char} (h : c.isDigit = true) : IsMark c := by
  have hrange := Text.toNat_of_isDigit h
  exact ⟨by omega, Text.ne_of_class h (by decide), Text.ne_of_class h (by decide)⟩

theorem isMark_of_mem_header (hmark : IsMark mark) {c : Char} (hc : c ∈ header mark n) :
    IsMark c := by
  rcases List.mem_cons.mp hc with rfl | hc
  · exact hmark
  · exact isMark_of_isDigit (Text.isDigit_of_mem_digitsOf hc)

theorem ascii_of_mem_header (hmark : IsMark mark) : ∀ c ∈ header mark n, c.toNat < 0x80 :=
  fun _ hc => (isMark_of_mem_header hmark hc).1

theorem return_notMem_header (hmark : IsMark mark) :
    carriageReturn ∉ Utf8.encode (header mark n) := fun hb =>
  (isMark_of_mem_header hmark ((Utf8.mem_encode_iff (by decide)).mp hb)).2.1 rfl

/-- A header ends where its line does, and tells its number. -/
theorem header_append_inj (hmark : IsMark mark) {m : Nat} {x y : List UInt8}
    (h : line (header mark m) ++ x = line (header mark n) ++ y) : m = n ∧ x = y := by
  simp only [line, List.append_assoc, List.cons_append, List.nil_append] at h
  obtain ⟨hheader, hrest⟩ :=
    eq_of_append_cons_eq (return_notMem_header hmark) (return_notMem_header hmark) h
  have hdigits := (List.cons.inj (Utf8.encode_injective hheader)).2
  exact ⟨Text.digitsOf_inj.mp hdigits, (List.cons.inj hrest).2⟩

end Headers

/-- A header is read as a line, whatever follows. -/
theorem readLine_header (mark : Char) (hmark : IsMark mark) {n : Nat} (hn : n < wordLimit)
    (rest : List UInt8) :
    readLine (line (header mark n) ++ rest) = .ok (String.ofList (header mark n), rest) := by
  have hdigits : (Text.digitsOf n).length ≤ 20 :=
    (Nat.length_toDigits_le_iff (by decide) (by decide)).mpr (Nat.lt_of_lt_of_le hn (by decide))
  have hlength := Utf8.length_encode_of_ascii (ascii_of_mem_header hmark (n := n))
  refine readLine_eq_ok_iff.mpr ?_
  rw [String.toList_ofList]
  refine ⟨rfl, fun hmem => (isMark_of_mem_header hmark hmem).2.2 rfl, ?_⟩
  rw [line, List.length_append, hlength, header, List.length_cons, maxLine]
  simp only [List.length_cons, List.length_nil]
  omega

/-! ### Reading back -/

/-- Reads replies one after another, and leaves the bytes behind them. -/
def readReplies : Nat → List UInt8 → Except Failure (List Reply × List UInt8)
  | 0, bytes => .ok ([], bytes)
  | count + 1, bytes => do
    let (reply, bytes) ← readReply bytes
    let (replies, bytes) ← readReplies count bytes
    return (reply :: replies, bytes)

/-- An argument as the reply that a reader takes it for. -/
def asReply (part : String) : Reply :=
  .bulk (some (Utf8.bytesOf part))

/-- An argument in front of any bytes is its header and as many bytes as that says. -/
theorem encodeBulk_append (part : String) (rest : List UInt8) :
    encodeBulk part ++ rest = line (header '$' (Utf8.bytesOf part).length) ++
      (Utf8.bytesOf part ++ carriageReturn :: lineFeed :: rest) := by
  simp [encodeBulk, header]

theorem encode_append (parts : Command) (rest : List UInt8) :
    encode parts ++ rest =
      line (header '*' parts.length) ++ (parts.flatMap encodeBulk ++ rest) := by
  simp [encode, header]

/-- A bulk string is taken by its length, whatever its bytes are. -/
theorem readReply_encodeBulk {part : String} (hsmall : (Utf8.bytesOf part).length ≤ maxLine)
    (rest : List UInt8) :
    readReply (encodeBulk part ++ rest) = .ok (asReply part, rest) := by
  have hint : Text.integer? integerLimit (Text.digitsOf (Utf8.bytesOf part).length) =
      some ((Utf8.bytesOf part).length : Int) :=
    Text.integer?_digitsOf (Nat.lt_of_le_of_lt hsmall (by decide))
  have hheader := readLine_header '$' (by decide) (Nat.lt_of_le_of_lt hsmall (by decide))
    (Utf8.bytesOf part ++ carriageReturn :: lineFeed :: rest)
  rw [encodeBulk_append, readReply, hheader]
  simp only [bind, Except.bind, String.toList_ofList, header, hint, Int.toNat_natCast]
  have hpositive : ¬ ((Utf8.bytesOf part).length : Int) < 0 := by omega
  have henough : ¬ (Utf8.bytesOf part ++ carriageReturn :: lineFeed :: rest).length <
      (Utf8.bytesOf part).length + 2 := by
    simp only [List.length_append, List.length_cons]
    omega
  rw [if_neg hpositive, if_neg (Nat.not_lt.mpr hsmall), if_neg henough, List.take_left' rfl,
    List.drop_append, List.drop_of_length_le (by omega)]
  simp [asReply, pure, Except.pure]

/-- **A reader of as many replies as there are arguments gets the arguments back**, and leaves what
follows the command. -/
theorem reads_back {parts : Command}
    (hsmall : ∀ p ∈ parts, (Utf8.bytesOf p).length ≤ maxLine) (rest : List UInt8) :
    readReplies parts.length (parts.flatMap encodeBulk ++ rest) =
      .ok (parts.map asReply, rest) := by
  induction parts with
  | nil => rfl
  | cons part parts ih =>
    obtain ⟨hpart, hparts⟩ := List.forall_mem_cons.mp hsmall
    rw [List.flatMap_cons, List.append_assoc, List.length_cons, readReplies,
      readReply_encodeBulk hpart]
    simp only [bind, Except.bind, ih hparts]
    rfl

/-! ### One command for some bytes -/

/-- Two arguments that start the same bytes are one, since the header says where they end. -/
theorem encodeBulk_append_inj {p q : String} {x y : List UInt8}
    (h : encodeBulk p ++ x = encodeBulk q ++ y) : p = q ∧ x = y := by
  rw [encodeBulk_append, encodeBulk_append] at h
  obtain ⟨hlength, hrest⟩ := header_append_inj (by decide) h
  obtain ⟨hbytes, hend⟩ := List.append_inj hrest hlength
  exact ⟨Utf8.bytesOf_injective hbytes, (List.cons.inj (List.cons.inj hend).2).2⟩

/-- As many arguments that start the same bytes are the same. -/
theorem flatMap_encodeBulk_append_inj {ps qs : Command} {x y : List UInt8}
    (hlength : ps.length = qs.length)
    (h : ps.flatMap encodeBulk ++ x = qs.flatMap encodeBulk ++ y) : ps = qs ∧ x = y := by
  induction ps generalizing qs with
  | nil =>
    obtain rfl := List.length_eq_zero_iff.mp hlength.symm
    exact ⟨rfl, h⟩
  | cons p ps ih =>
    obtain ⟨q, qs, rfl⟩ := List.exists_cons_of_length_eq_add_one hlength.symm
    rw [List.flatMap_cons, List.flatMap_cons, List.append_assoc, List.append_assoc] at h
    obtain ⟨rfl, htail⟩ := encodeBulk_append_inj h
    obtain ⟨rfl, hxy⟩ := ih (Nat.succ.inj hlength) htail
    exact ⟨rfl, hxy⟩

/-- **Bytes that start with a command start with no other.** -/
theorem encode_append_inj {ps qs : Command} {x y : List UInt8}
    (h : encode ps ++ x = encode qs ++ y) : ps = qs ∧ x = y := by
  rw [encode_append, encode_append] at h
  obtain ⟨hlength, hrest⟩ := header_append_inj (by decide) h
  exact flatMap_encodeBulk_append_inj hlength hrest

/-- **Commands are framed.** A command of arguments that are no longer than a reader takes, and of
no more of them than a machine word counts, is read back in front of any bytes: its header is the
line `*n`, and `n` replies are its arguments. No other command is the start of it, nor is it the
start of another. -/
theorem encode_framed {parts : Command} (hcount : parts.length < wordLimit)
    (hsmall : ∀ p ∈ parts, (Utf8.bytesOf p).length ≤ maxLine) :
    (∀ rest, ∃ body,
      readLine (encode parts ++ rest) = .ok ("*" ++ toString parts.length, body) ∧
      readReplies parts.length body =
        .ok (parts.map fun p => .bulk (some (Utf8.bytesOf p)), rest)) ∧
    ∀ other, encode parts <+: encode other ∨ encode other <+: encode parts → other = parts := by
  refine ⟨fun rest => ⟨parts.flatMap encodeBulk ++ rest, ?_, reads_back hsmall rest⟩,
    fun other h => ?_⟩
  · have hheader : String.ofList (header '*' parts.length) = "*" ++ toString parts.length := by
      refine String.toList_injective ?_
      simp [header, Text.digitsOf]
    rw [encode_append, readLine_header '*' (by decide) hcount, hheader]
  · rcases h with ⟨rest, h⟩ | ⟨rest, h⟩
    · exact (encode_append_inj (h.trans (List.append_nil _).symm)).1.symm
    · exact (encode_append_inj (h.trans (List.append_nil _).symm)).1

/-- A password that spells a command of its own. -/
theorem smuggled_ping_framed :
    (["AUTH", "x\r\n*1\r\n$4\r\nPING"].length < wordLimit ∧
      ∀ p ∈ ["AUTH", "x\r\n*1\r\n$4\r\nPING"], (Utf8.bytesOf p).length ≤ maxLine) ∧
    ∃ body, readLine (encode ["AUTH", "x\r\n*1\r\n$4\r\nPING"]) = .ok ("*2", body) ∧
      readReplies 2 body = .ok
        ([.bulk (some (Utf8.bytesOf "AUTH")),
          .bulk (some (Utf8.bytesOf "x\r\n*1\r\n$4\r\nPING"))], []) := by
  have hcount : ["AUTH", "x\r\n*1\r\n$4\r\nPING"].length < wordLimit := by decide
  have hsmall : ∀ p ∈ ["AUTH", "x\r\n*1\r\n$4\r\nPING"], (Utf8.bytesOf p).length ≤ maxLine := by
    decide
  refine ⟨⟨hcount, hsmall⟩, ?_⟩
  obtain ⟨body, hline, hreplies⟩ := (encode_framed hcount hsmall).1 []
  rw [List.append_nil] at hline
  exact ⟨body, hline, hreplies⟩

end HealthMonitor.Redis
