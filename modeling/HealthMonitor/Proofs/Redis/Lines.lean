import HealthMonitor.Proofs.Bytes.Utf8
import HealthMonitor.Redis.Resp
import Mathlib.Data.List.Basic

/-!
# Lines of a server

A line is read exactly when the bytes start with it: the encoding of a text without a line feed, a
carriage return and a line feed, of no more bytes than a line may have (`readLine_eq_ok_iff`). What
follows is left. Bytes that end early, that go on for too long, that end a line with a line feed
alone or that are no text are no line.
-/

namespace HealthMonitor.Redis

/-- The bytes that are taken end at the first line feed. -/
theorem takeLine_append {limit : Nat} {body : List UInt8} (hfeed : lineFeed ∉ body)
    (hlength : body.length < limit) (rest : List UInt8) :
    takeLine limit (body ++ lineFeed :: rest) = (body ++ [lineFeed], rest) := by
  have htake : (body ++ lineFeed :: rest).take limit =
      body ++ lineFeed :: rest.take (limit - body.length - 1) := by
    obtain ⟨k, hk⟩ : ∃ k, limit - body.length = k + 1 := ⟨limit - body.length - 1, by omega⟩
    rw [List.take_append, List.take_of_length_le (by omega), hk, List.take_succ_cons]
    rfl
  have hall : ∀ b ∈ body, (b != lineFeed) = true := by
    intro b hb
    rw [bne_iff_ne]
    rintro rfl
    exact hfeed hb
  have hrun : ((body ++ lineFeed :: rest).take limit).takeWhile (· != lineFeed) = body := by
    rw [htake, List.takeWhile_append_of_pos hall]
    simp
  rw [takeLine, hrun, if_pos hlength]
  have hsplit : body ++ lineFeed :: rest = (body ++ [lineFeed]) ++ rest := by simp
  rw [hsplit, List.take_left' (by simp), List.drop_left' (by simp)]

/-- **What is taken ends with a line feed exactly when one comes in time.** -/
theorem takeLine_eq_iff {limit : Nat} {bytes body rest : List UInt8} :
    takeLine limit bytes = (body ++ [lineFeed], rest) ↔
      bytes = body ++ lineFeed :: rest ∧ lineFeed ∉ body ∧ body.length < limit := by
  refine ⟨fun h => ?_, fun ⟨hbytes, hfeed, hlength⟩ => hbytes ▸ takeLine_append hfeed hlength rest⟩
  unfold takeLine at h
  set run := (bytes.take limit).takeWhile (· != lineFeed) with hrun
  have hclean : lineFeed ∉ run := fun hmem =>
    absurd (List.all_eq_true.mp List.all_takeWhile lineFeed (hrun ▸ hmem)) (by decide)
  have hprefix : run <+: bytes :=
    (List.takeWhile_prefix _).trans (List.take_prefix limit bytes)
  obtain ⟨htake, hdrop⟩ := Prod.mk.inj h
  have hbytes : bytes = body ++ lineFeed :: rest := by
    rw [← List.take_append_drop _ bytes, htake, hdrop, List.append_assoc]
    rfl
  have hbody : body <+: bytes := hbytes ▸ List.prefix_append body _
  split at htake
  next hshort =>
    -- a byte more than the run is taken, so the line goes no further than the run
    have hlength : body.length ≤ run.length := by
      have := congrArg List.length htake
      simp only [List.length_take, List.length_append, List.length_singleton] at this
      omega
    have hin : body <+: run := List.prefix_of_prefix_length_le hbody hprefix hlength
    exact ⟨hbytes, fun hmem => hclean (hin.subset hmem), by omega⟩
  next hlong =>
    have hall : bytes.take run.length = run := (List.prefix_iff_eq_take.mp hprefix).symm
    exact absurd (hall ▸ htake ▸ List.mem_append_right body (List.mem_singleton_self _)) hclean

theorem dropEnd?_eq_some_iff {bytes body : List UInt8} :
    dropEnd? bytes = some body ↔ bytes = body ++ [carriageReturn, lineFeed] := by
  unfold dropEnd?
  split
  next b a rest hrev =>
    have hbytes : bytes = rest.reverse ++ [a, b] := by
      rw [← List.reverse_reverse bytes, hrev]
      simp
    rw [hbytes]
    simp only [Option.ite_none_right_eq_some, Option.some.injEq]
    constructor
    · rintro ⟨⟨rfl, rfl⟩, rfl⟩
      rfl
    · intro h
      obtain ⟨hrest, hend⟩ := List.append_inj' h rfl
      simp at hend
      exact ⟨⟨hend.2, hend.1⟩, hrest⟩
  next hnone =>
    refine ⟨nofun, ?_⟩
    rintro rfl
    exact absurd (by simp) (hnone lineFeed carriageReturn body.reverse)

/-- A line is taken, its end is dropped, and the rest is decoded. -/
theorem readLine_eq_ok_iff_taken {bytes rest : List UInt8} {text : String} :
    readLine bytes = .ok (text, rest) ↔
      ∃ body, takeLine maxLine bytes = (body ++ [carriageReturn, lineFeed], rest) ∧
        Utf8.decode? body = some text.toList := by
  unfold readLine
  cases bytes with
  | nil =>
    refine iff_of_false nofun ?_
    rintro ⟨body, htaken, -⟩
    simp [takeLine] at htaken
  | cons b bytes =>
    rw [if_neg (by simp)]
    obtain ⟨taken, left⟩ := takeLine maxLine (b :: bytes)
    simp only [Prod.mk.injEq, ← dropEnd?_eq_some_iff]
    cases dropEnd? taken with
    | none => simp
    | some body =>
      cases hdecode : Utf8.decode? body with
      | none => simp [hdecode]
      | some cs => simp [hdecode, ← String.toList_inj, and_comm]

/-- Whether a text can stand in a line. -/
def FitsLine (cs : List Char) : Prop :=
  '\n' ∉ cs ∧ (line cs).length ≤ maxLine

instance (cs : List Char) : Decidable (FitsLine cs) :=
  inferInstanceAs (Decidable (_ ∧ _))

/-- **A line is read exactly when the bytes start with it.** -/
theorem readLine_eq_ok_iff {bytes rest : List UInt8} {text : String} :
    readLine bytes = .ok (text, rest) ↔
      bytes = line text.toList ++ rest ∧ FitsLine text.toList := by
  have hline (body : List UInt8) :
      body ++ [carriageReturn, lineFeed] = (body ++ [carriageReturn]) ++ [lineFeed] := by simp
  have hfeed : lineFeed ∉ Utf8.encode text.toList ++ [carriageReturn] ↔ '\n' ∉ text.toList := by
    rw [List.mem_append, Utf8.mem_encode_iff (by decide)]
    exact not_congr (or_iff_left (by decide))
  have hlengths : (line text.toList).length =
      (Utf8.encode text.toList ++ [carriageReturn]).length + 1 := by simp [line]
  rw [readLine_eq_ok_iff_taken, FitsLine, hlengths]
  simp only [Utf8.decode?_eq_some_iff, hline, takeLine_eq_iff]
  constructor
  · rintro ⟨_, ⟨hbytes, hnot, hlength⟩, rfl⟩
    exact ⟨by simpa [line] using hbytes, hfeed.mp hnot, hlength⟩
  · rintro ⟨hbytes, hnot, hlength⟩
    exact ⟨_, ⟨by simpa [line] using hbytes, hfeed.mpr hnot, hlength⟩, rfl⟩

end HealthMonitor.Redis
