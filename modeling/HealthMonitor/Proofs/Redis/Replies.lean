import HealthMonitor.Proofs.Checks
import HealthMonitor.Proofs.Redis.Lines

/-!
# Replies of a server

The mark of a line says what the reply is, and only a bulk string takes bytes behind its line
(`Reads`). A reply is read exactly when a line is and this rule reads it (`readReply_eq_ok_iff`), so
the bytes of a simple string and of an error are known from their texts.
-/

namespace HealthMonitor.Redis

/-- What a line with some bytes behind it is read as, and which of the bytes are left. -/
inductive Reads (behind : List UInt8) : List Char → Reply → List UInt8 → Prop where
  | simple (body : List Char) : Reads behind ('+' :: body) (.simple (String.ofList body)) behind
  | error (body : List Char) : Reads behind ('-' :: body) (.error (String.ofList body)) behind
  | integer {body : List Char} {n : Int} (written : Text.integer? integerLimit body = some n) :
    Reads behind (':' :: body) (.integer n) behind
  | null {body : List Char} {n : Int} (written : Text.integer? integerLimit body = some n)
      (negative : n < 0) : Reads behind ('$' :: body) (.bulk none) behind
  | bulk {body : List Char} {n : Int} (written : Text.integer? integerLimit body = some n)
      (positive : ¬ n < 0) (small : n.toNat ≤ maxLine) (enough : n.toNat + 2 ≤ behind.length) :
    Reads behind ('$' :: body) (.bulk (some (behind.take n.toNat))) (behind.drop (n.toNat + 2))

/-- **A reply is read from a line, and from the bytes behind it.** -/
theorem readReply_eq_ok_iff {bytes rest : List UInt8} {reply : Reply} :
    readReply bytes = .ok (reply, rest) ↔
      ∃ text behind, readLine bytes = .ok (text, behind) ∧
        Reads behind text.toList reply rest := by
  rw [readReply, Checks.bind_eq_ok_iff, Prod.exists]
  refine exists_congr fun text => exists_congr fun behind => and_congr_right fun _ => ?_
  dsimp only
  constructor
  · intro h
    split at h
    next body hbody =>
      cases h
      exact hbody ▸ .simple body
    next body hbody =>
      cases h
      exact hbody ▸ .error body
    next body hbody =>
      split at h
      next n hn =>
        cases h
        exact hbody ▸ .integer hn
      next => cases h
    next body hbody =>
      split at h
      next => cases h
      next n hn =>
        split at h
        next hneg =>
          cases h
          exact hbody ▸ .null hn hneg
        next hpos =>
        split at h
        next => cases h
        next hsmall =>
        split at h
        next => cases h
        next henough =>
          cases h
          exact hbody ▸ .bulk hn hpos (by omega) (by omega)
    next => cases h
  · intro reads
    generalize text.toList = cs at reads
    cases reads with
    | simple body => rfl
    | error body => rfl
    | integer written => simp only [written, pure, Except.pure]
    | null written negative => simp only [written, if_pos negative, pure, Except.pure]
    | bulk written positive small enough =>
      simp only [written, if_neg positive, if_neg (Nat.not_lt.mpr small),
        if_neg (Nat.not_lt.mpr enough), pure, Except.pure]

/-- A reply is read from the line that the bytes start with, and from the bytes behind it. -/
theorem readReply_eq_ok_iff_line {bytes rest : List UInt8} {reply : Reply} :
    readReply bytes = .ok (reply, rest) ↔
      ∃ cs behind, bytes = line cs ++ behind ∧ FitsLine cs ∧ Reads behind cs reply rest := by
  rw [readReply_eq_ok_iff]
  constructor
  · rintro ⟨text, behind, hline, reads⟩
    obtain ⟨hbytes, fits⟩ := readLine_eq_ok_iff.mp hline
    exact ⟨text.toList, behind, hbytes, fits, reads⟩
  · rintro ⟨cs, behind, hbytes, fits, reads⟩
    refine ⟨String.ofList cs, behind, readLine_eq_ok_iff.mpr ?_, ?_⟩
    · rw [String.toList_ofList]
      exact ⟨hbytes, fits⟩
    · rwa [String.toList_ofList]

/-! ### Replies of one line -/

section Lines

variable {bytes behind rest : List UInt8} {cs : List Char} {text : String}

theorem reads_simple_iff :
    Reads behind cs (.simple text) rest ↔ cs = '+' :: text.toList ∧ rest = behind := by
  constructor
  · intro reads
    cases reads with
    | simple body => simp
  · rintro ⟨rfl, rfl⟩
    have reads : Reads rest _ (.simple _) rest := Reads.simple text.toList
    rwa [String.ofList_toList] at reads

theorem reads_error_iff :
    Reads behind cs (.error text) rest ↔ cs = '-' :: text.toList ∧ rest = behind := by
  constructor
  · intro reads
    cases reads with
    | error body => simp
  · rintro ⟨rfl, rfl⟩
    have reads : Reads rest _ (.error _) rest := Reads.error text.toList
    rwa [String.ofList_toList] at reads

/-- A line that is read alone. -/
private theorem readReply_iff_of_line {reply : Reply} {cs : List Char}
    (reads : ∀ {behind ds rest}, Reads behind ds reply rest ↔ ds = cs ∧ rest = behind) :
    readReply bytes = .ok (reply, rest) ↔ bytes = line cs ++ rest ∧ FitsLine cs := by
  simp only [readReply_eq_ok_iff_line, reads]
  constructor
  · rintro ⟨_, _, hbytes, fits, rfl, rfl⟩
    exact ⟨hbytes, fits⟩
  · rintro ⟨hbytes, fits⟩
    exact ⟨cs, rest, hbytes, fits, rfl, rfl⟩

/-- **A simple string is a line behind a plus sign.** -/
theorem readReply_simple_iff :
    readReply bytes = .ok (.simple text, rest) ↔
      bytes = line ('+' :: text.toList) ++ rest ∧ FitsLine ('+' :: text.toList) :=
  readReply_iff_of_line reads_simple_iff

/-- **An error is a line behind a minus sign.** -/
theorem readReply_error_iff :
    readReply bytes = .ok (.error text, rest) ↔
      bytes = line ('-' :: text.toList) ++ rest ∧ FitsLine ('-' :: text.toList) :=
  readReply_iff_of_line reads_error_iff

end Lines

end HealthMonitor.Redis
