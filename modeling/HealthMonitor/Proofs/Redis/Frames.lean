import HealthMonitor.Proofs.Redis.Replies
import HealthMonitor.Proofs.Text.Numerals

/-!
# Frames of replies

A reply of the protocol is a line behind its mark, and for a bulk string the announced bytes and one
more end of a line (`Frame`). Every frame that is not too long is read, and nothing behind it.

The reader takes more than these. It does not look at the two bytes behind a bulk string, it takes a
sign in front of a length, and every negative length for the one that stands for no string. Such
bytes are `Loose`: they are no frame of any reply (`Loose.not_frame`), but one is read from them all
the same. Nothing else is (`readReply_framed`).
-/

namespace HealthMonitor.Redis

/-! ### Replies of the protocol -/

/-- Whether a number fits into an integer reply. -/
def InRange (n : Int) : Prop :=
  -integerLimit ≤ n ∧ n < integerLimit

/-- The bytes that the protocol has for a reply, as long as no line and no string is too long. -/
inductive Frame : Reply → List UInt8 → Prop where
  | simple {text : String} (fits : FitsLine ('+' :: text.toList)) :
    Frame (.simple text) (line ('+' :: text.toList))
  | error {text : String} (fits : FitsLine ('-' :: text.toList)) :
    Frame (.error text) (line ('-' :: text.toList))
  | integer {cs : List Char} {n : Int} (written : Text.IsSigned cs n) (range : InRange n)
    (fits : FitsLine (':' :: cs)) : Frame (.integer n) (line (':' :: cs))
  | null : Frame (.bulk none) (line ['$', '-', '1'])
  | bulk {cs : List Char} {data : List UInt8} (written : Text.IsDecimal cs data.length)
    (small : data.length ≤ maxLine) (fits : FitsLine ('$' :: cs)) :
    Frame (.bulk (some data)) (line ('$' :: cs) ++ data ++ [carriageReturn, lineFeed])

/-- Bytes that are read as a bulk string although the protocol has no such reply. -/
inductive Loose : Reply → List UInt8 → Prop where
  /-- Another negative length for no string, or -1 spelled in another way. -/
  | null {cs : List Char} {n : Int} (written : Text.IsSigned cs n) (range : InRange n)
    (negative : n < 0) (other : cs ≠ ['-', '1']) (fits : FitsLine ('$' :: cs)) :
    Loose (.bulk none) (line ('$' :: cs))
  /-- A length with a sign, or any two bytes for the end of the string. -/
  | bulk {cs : List Char} {data tail : List UInt8} (written : Text.IsSigned cs data.length)
    (small : data.length ≤ maxLine) (fits : FitsLine ('$' :: cs)) (two : tail.length = 2)
    (other : (∃ c ∈ cs, c.isDigit = false) ∨ tail ≠ [carriageReturn, lineFeed]) :
    Loose (.bulk (some data)) (line ('$' :: cs) ++ data ++ tail)

/-! ### What each reply is read from -/

section Reading

variable {behind rest : List UInt8} {cs : List Char}

theorem integer?_eq_some_iff {n : Int} :
    Text.integer? integerLimit cs = some n ↔ Text.IsSigned cs n ∧ InRange n :=
  Text.integer?_eq_some_iff (by decide)

theorem reads_integer_iff {n : Int} :
    Reads behind cs (.integer n) rest ↔
      ∃ body, cs = ':' :: body ∧ Text.IsSigned body n ∧ InRange n ∧ rest = behind := by
  constructor
  · intro reads
    cases reads with
    | integer written =>
      obtain ⟨written, range⟩ := integer?_eq_some_iff.mp written
      exact ⟨_, rfl, written, range, rfl⟩
  · rintro ⟨body, rfl, written, range, rfl⟩
    exact .integer (integer?_eq_some_iff.mpr ⟨written, range⟩)

theorem reads_null_iff :
    Reads behind cs (.bulk none) rest ↔
      ∃ body n, cs = '$' :: body ∧ Text.IsSigned body n ∧ InRange n ∧ n < 0 ∧ rest = behind := by
  constructor
  · intro reads
    cases reads with
    | null written negative =>
      obtain ⟨written, range⟩ := integer?_eq_some_iff.mp written
      exact ⟨_, _, rfl, written, range, negative, rfl⟩
  · rintro ⟨body, n, rfl, written, range, negative, rfl⟩
    exact .null (integer?_eq_some_iff.mpr ⟨written, range⟩) negative

/-- A bulk string is as many bytes as its line says, and two more are taken with it. -/
theorem reads_bulk_iff {data : List UInt8} :
    Reads behind cs (.bulk (some data)) rest ↔
      ∃ body tail, cs = '$' :: body ∧ Text.IsSigned body data.length ∧ data.length ≤ maxLine ∧
        tail.length = 2 ∧ behind = data ++ tail ++ rest := by
  constructor
  · intro reads
    cases reads with
    | @bulk body n written positive small enough =>
      have hlength : (behind.take n.toNat).length = n.toNat := List.length_take_of_le (by omega)
      have hn : ((behind.take n.toNat).length : Int) = n := by omega
      refine ⟨body, (behind.drop n.toNat).take 2, rfl, ?_, by omega, ?_, ?_⟩
      · rw [hn]
        exact (integer?_eq_some_iff.mp written).1
      · rw [List.length_take, List.length_drop]
        omega
      · rw [List.append_assoc, ← List.drop_drop, List.take_append_drop, List.take_append_drop]
  · rintro ⟨body, tail, rfl, written, small, two, rfl⟩
    have hlimit : (maxLine : Int) < integerLimit := by decide
    have range : InRange data.length := ⟨by omega, by omega⟩
    have reads : Reads (data ++ tail ++ rest) ('$' :: body) _ _ :=
      .bulk (integer?_eq_some_iff.mpr ⟨written, range⟩) (by omega) (by simpa using small)
        (by simp [two])
    have htail : data.length + 2 = (data ++ tail).length := by rw [List.length_append, two]
    rwa [Int.toNat_natCast, List.append_assoc data, List.take_left, ← List.append_assoc, htail,
      List.drop_left] at reads

end Reading

/-! ### Reading frames -/

section Frames

variable {reply : Reply} {taken rest : List UInt8}

/-- A line ends where it says. -/
theorem line_append_inj {cs ds : List Char} {x y : List UInt8} (hcs : FitsLine cs)
    (hds : FitsLine ds) (h : line cs ++ x = line ds ++ y) : cs = ds ∧ x = y := by
  have hread {es : List Char} {z : List UInt8} (hes : FitsLine es) :
      readLine (line es ++ z) = .ok (String.ofList es, z) := by
    rw [readLine_eq_ok_iff, String.toList_ofList]
    exact ⟨rfl, hes⟩
  have hsame := hread hcs (z := x)
  rw [h, hread hds] at hsame
  obtain ⟨hlines, hrest⟩ := Prod.mk.inj (Except.ok.inj hsame)
  exact ⟨(String.ofList_injective hlines).symm, hrest.symm⟩

/-- **A frame is read, and nothing behind it.** -/
theorem Frame.read (frame : Frame reply taken) (rest : List UInt8) :
    readReply (taken ++ rest) = .ok (reply, rest) := by
  cases frame with
  | simple fits => exact readReply_simple_iff.mpr ⟨rfl, fits⟩
  | error fits => exact readReply_error_iff.mpr ⟨rfl, fits⟩
  | integer written range fits =>
    exact readReply_eq_ok_iff_line.mpr
      ⟨_, rest, rfl, fits, reads_integer_iff.mpr ⟨_, rfl, written, range, rfl⟩⟩
  | null =>
    have written : Text.IsSigned ['-', '1'] (-(1 : Nat)) := .minus (by decide)
    exact readReply_eq_ok_iff_line.mpr ⟨_, rest, rfl, by decide,
      reads_null_iff.mpr ⟨_, _, rfl, written, ⟨by decide, by decide⟩, by decide, rfl⟩⟩
  | @bulk cs data written small fits =>
    refine readReply_eq_ok_iff_line.mpr
      ⟨_, data ++ [carriageReturn, lineFeed] ++ rest, by simp only [List.append_assoc], fits, ?_⟩
    exact reads_bulk_iff.mpr ⟨cs, _, rfl, .plain written, small, rfl, rfl⟩

/-- Loose bytes are read just as frames are. -/
theorem Loose.read (loose : Loose reply taken) (rest : List UInt8) :
    readReply (taken ++ rest) = .ok (reply, rest) := by
  cases loose with
  | null written range negative other fits =>
    exact readReply_eq_ok_iff_line.mpr
      ⟨_, rest, rfl, fits, reads_null_iff.mpr ⟨_, _, rfl, written, range, negative, rfl⟩⟩
  | @bulk cs data tail written small fits two other =>
    refine readReply_eq_ok_iff_line.mpr
      ⟨_, data ++ tail ++ rest, by simp only [List.append_assoc], fits, ?_⟩
    exact reads_bulk_iff.mpr ⟨cs, tail, rfl, written, small, two, rfl⟩

/-- **What is read is a frame, or loose.** -/
theorem exists_taken_of_readReply {bytes : List UInt8} (h : readReply bytes = .ok (reply, rest)) :
    ∃ taken, bytes = taken ++ rest ∧ (Frame reply taken ∨ Loose reply taken) := by
  obtain ⟨cs, behind, rfl, fits, reads⟩ := readReply_eq_ok_iff_line.mp h
  cases reply with
  | simple text =>
    obtain ⟨rfl, rfl⟩ := reads_simple_iff.mp reads
    exact ⟨_, rfl, Or.inl (.simple fits)⟩
  | error text =>
    obtain ⟨rfl, rfl⟩ := reads_error_iff.mp reads
    exact ⟨_, rfl, Or.inl (.error fits)⟩
  | integer n =>
    obtain ⟨body, rfl, written, range, rfl⟩ := reads_integer_iff.mp reads
    exact ⟨_, rfl, Or.inl (.integer written range fits)⟩
  | bulk data =>
    cases data with
    | none =>
      obtain ⟨body, n, rfl, written, range, negative, rfl⟩ := reads_null_iff.mp reads
      by_cases hone : body = ['-', '1']
      · exact ⟨_, rfl, Or.inl (hone ▸ .null)⟩
      · exact ⟨_, rfl, Or.inr (.null written range negative hone fits)⟩
    | some data =>
      obtain ⟨body, tail, rfl, written, small, two, rfl⟩ := reads_bulk_iff.mp reads
      refine ⟨line ('$' :: body) ++ data ++ tail, by simp only [List.append_assoc], ?_⟩
      by_cases hsign : ∃ c ∈ body, c.isDigit = false
      · exact Or.inr (.bulk written small fits two (Or.inl hsign))
      · have digits : ∀ c ∈ body, c.isDigit := by simpa using hsign
        by_cases hend : tail = [carriageReturn, lineFeed]
        · exact Or.inl (hend ▸ .bulk (written.isDecimal digits) small fits)
        · exact Or.inr (.bulk written small fits two (Or.inr hend))

/-- **Loose bytes are no frame of any reply.** -/
theorem Loose.not_frame (loose : Loose reply taken) (reply' : Reply) : ¬ Frame reply' taken := by
  intro frame
  obtain rfl : reply = reply' := by
    have hread := loose.read []
    rw [frame.read []] at hread
    exact (Prod.mk.inj (Except.ok.inj hread)).1.symm
  cases loose with
  | @null cs n written range negative other fits =>
    generalize htaken : line ('$' :: cs) = taken at frame
    cases frame with
    | null =>
      obtain ⟨hcs, -⟩ := line_append_inj fits (by decide) (congrArg (· ++ []) htaken)
      exact other (List.cons.inj hcs).2
  | @bulk cs data tail written small fits two other =>
    generalize htaken : line ('$' :: cs) ++ data ++ tail = taken at frame
    cases frame with
    | @bulk cs' _ written' small' fits' =>
      simp only [List.append_assoc] at htaken
      obtain ⟨hcs, hdata⟩ := line_append_inj fits fits' htaken
      rcases other with ⟨c, hc, hno⟩ | hend
      · have hc' : c ∈ cs' := (List.cons.inj hcs).2 ▸ hc
        exact absurd (written'.2.1 c hc') (by simp [hno])
      · exact hend (List.append_cancel_left hdata)

/-- **Replies are read from frames and from loose bytes, and from nothing else.** A reply is read
just if the bytes start with a frame of it, or with loose bytes in the place of one, and then these
are taken and all that follows is left. On any other bytes reading fails. Loose bytes are none that
the protocol has for a reply. -/
theorem readReply_framed (bytes : List UInt8) :
    (∀ reply rest, readReply bytes = .ok (reply, rest) ↔
      ∃ taken, bytes = taken ++ rest ∧ (Frame reply taken ∨ Loose reply taken)) ∧
    ((∃ f, readReply bytes = .error f) ↔
      ∀ reply taken, Frame reply taken ∨ Loose reply taken → ¬ taken <+: bytes) ∧
    ∀ reply taken, Loose reply taken → ∀ reply', ¬ Frame reply' taken := by
  have hread (reply : Reply) (rest : List UInt8) : readReply bytes = .ok (reply, rest) ↔
      ∃ taken, bytes = taken ++ rest ∧ (Frame reply taken ∨ Loose reply taken) := by
    refine ⟨exists_taken_of_readReply, ?_⟩
    rintro ⟨taken, rfl, frame | loose⟩
    · exact frame.read rest
    · exact loose.read rest
  refine ⟨hread, ?_, fun _ _ => Loose.not_frame⟩
  constructor
  · rintro ⟨f, hf⟩ reply taken htaken ⟨rest, rfl⟩
    rw [(hread reply rest).mpr ⟨taken, rfl, htaken⟩] at hf
    cases hf
  · intro hnone
    cases h : readReply bytes with
    | error f => exact ⟨f, rfl⟩
    | ok p =>
      obtain ⟨taken, hbytes, htaken⟩ := (hread p.1 p.2).mp h
      exact absurd ⟨p.2, hbytes.symm⟩ (hnone p.1 taken htaken)

end Frames

/-- A string with another end, in front of the next reply. -/
theorem unended_bulk_loose :
    Loose (.bulk (some (Utf8.bytesOf "abc"))) (Utf8.bytesOf "$3\r\nabcXY") ∧
      readReply (Utf8.bytesOf "$3\r\nabcXY+OK\r\n") =
        .ok (.bulk (some (Utf8.bytesOf "abc")), Utf8.bytesOf "+OK\r\n") ∧
      ∀ reply, ¬ Frame reply (Utf8.bytesOf "$3\r\nabcXY") := by
  have hbytes : line ['$', '3'] ++ Utf8.bytesOf "abc" ++ Utf8.bytesOf "XY" =
      Utf8.bytesOf "$3\r\nabcXY" := by decide
  have loose : Loose (.bulk (some (Utf8.bytesOf "abc"))) (Utf8.bytesOf "$3\r\nabcXY") :=
    hbytes ▸ .bulk (.plain (by decide)) (by decide) (by decide) (by decide) (Or.inr (by decide))
  obtain ⟨hread, -, hloose⟩ := readReply_framed (Utf8.bytesOf "$3\r\nabcXY+OK\r\n")
  exact ⟨loose, (hread _ _).mpr ⟨_, by decide, Or.inr loose⟩, hloose _ _ loose⟩

/-- A bulk string without its end, a length that is negative and one with a sign. -/
theorem unended_bulk_read :
    readReply (Utf8.bytesOf "$3\r\nabcXY") = .ok (.bulk (some (Utf8.bytesOf "abc")), []) ∧
      readReply (Utf8.bytesOf "$-5\r\n") = .ok (.bulk none, []) ∧
      readReply (Utf8.bytesOf "$+3\r\nabc\r\n") = .ok (.bulk (some (Utf8.bytesOf "abc")), []) ∧
      ¬ ∀ bytes reply rest, readReply bytes = .ok (reply, rest) →
        ∃ taken, bytes = taken ++ rest ∧ Frame reply taken := by
  refine ⟨rfl, rfl, rfl, fun framed => ?_⟩
  obtain ⟨taken, htaken, frame⟩ := framed (Utf8.bytesOf "$3\r\nabcXY")
    (.bulk (some (Utf8.bytesOf "abc"))) [] rfl
  have loose : Loose (.bulk (some (Utf8.bytesOf "abc")))
      (line ['$', '3'] ++ Utf8.bytesOf "abc" ++ Utf8.bytesOf "XY") :=
    .bulk (.plain (by decide)) (by decide) (by decide) (by decide) (Or.inr (by decide))
  rw [List.append_nil] at htaken
  exact loose.not_frame _ (htaken ▸ frame)

end HealthMonitor.Redis
