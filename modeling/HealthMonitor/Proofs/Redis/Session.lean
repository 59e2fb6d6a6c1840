import HealthMonitor.Proofs.Redis.Replies
import HealthMonitor.Proofs.Text.Words
import HealthMonitor.Redis.Session

/-!
# Sessions of the Redis probe

A step sends its command and waits for one simple string. It is taken exactly when the bytes that
are left start with that reply (`run_cons_of_awaited`, `run_cons_of_not_awaited`); anything else
ends the session. So a session goes as far as the bytes of the server follow the replies that it
waits for, and what it says of the server is told by those bytes alone (`session_exact`): it ends
well exactly when they start with all of the replies, it sends a command exactly when they start
with the replies to the commands before it, and an error in the place of a reply is a refused login
or an unhealthy server by the words of its text.
-/

namespace HealthMonitor.RedisProbe

/-! ### Steps -/

/-- The reply that a step waits for, as it is sent. -/
def Step.awaited (s : Step) : List UInt8 :=
  Redis.line ('+' :: s.expected.toList)

/-- Whether a server can send the reply that a step waits for. -/
def Step.Answerable (s : Step) : Prop :=
  Redis.FitsLine ('+' :: s.expected.toList)

section Steps

variable {s : Step} {steps : List Step} {bytes rest : List UInt8}

theorem judge_eq_ok_iff {reply : Redis.Reply} :
    judge s reply = .ok () ↔ reply = .simple s.expected := by
  cases reply with
  | error text => simp [judge]
  | simple text => simp [judge]
  | integer value => simp [judge]
  | bulk data => simp [judge]

/-- A step that is answered as expected. -/
theorem run_cons_of_awaited (answerable : s.Answerable) :
    run (s :: steps) (s.awaited ++ rest) =
      (s.command :: (run steps rest).1, (run steps rest).2) := by
  have hread : Redis.readReply (s.awaited ++ rest) = .ok (.simple s.expected, rest) :=
    Redis.readReply_simple_iff.mpr ⟨rfl, answerable⟩
  have hjudge : judge s (.simple s.expected) = .ok () := judge_eq_ok_iff.mpr rfl
  rw [run, hread]
  simp only [hjudge]

/-- A step that is not answered as expected ends the session. -/
theorem run_cons_of_not_awaited (h : ¬ s.awaited <+: bytes) :
    ∃ f, run (s :: steps) bytes = ([s.command], .error f) := by
  rw [run]
  cases hread : Redis.readReply bytes with
  | error f => exact ⟨f, rfl⟩
  | ok p =>
    obtain ⟨reply, rest⟩ := p
    cases hjudge : judge s reply with
    | error f => exact ⟨f, by simp only [hjudge]⟩
    | ok _ =>
      obtain rfl := judge_eq_ok_iff.mp hjudge
      obtain ⟨rfl, -⟩ := Redis.readReply_simple_iff.mp hread
      exact absurd (List.prefix_append _ rest) h

/-- A step that is answered by an error. -/
theorem run_cons_of_error {text : String}
    (hread : Redis.readReply bytes = .ok (.error text, rest)) :
    run (s :: steps) bytes = ([s.command], .error (errorReply text)) := by
  rw [run, hread]
  rfl

end Steps

/-! ### Runs -/

section Runs

variable {steps : List Step} {bytes : List UInt8}

/-- **Commands are sent in their order.** -/
theorem sent_prefix (answerable : ∀ s ∈ steps, s.Answerable) :
    (run steps bytes).1 <+: steps.map Step.command := by
  induction steps generalizing bytes with
  | nil => exact List.prefix_rfl
  | cons s steps ih =>
    obtain ⟨hs, hsteps⟩ := List.forall_mem_cons.mp answerable
    rw [List.map_cons]
    by_cases h : s.awaited <+: bytes
    · obtain ⟨rest, rfl⟩ := h
      rw [run_cons_of_awaited hs]
      exact List.cons_prefix_cons.mpr ⟨rfl, ih hsteps⟩
    · obtain ⟨f, hf⟩ : ∃ f, run (s :: steps) bytes = ([s.command], .error f) :=
        run_cons_of_not_awaited h
      rw [hf]
      exact List.cons_prefix_cons.mpr ⟨rfl, List.nil_prefix⟩

/-- **A run ends well exactly when the bytes start with all the replies that it waits for.** -/
theorem run_ok_iff (answerable : ∀ s ∈ steps, s.Answerable) :
    (run steps bytes).2 = .ok () ↔ steps.flatMap Step.awaited <+: bytes := by
  induction steps generalizing bytes with
  | nil => simp [run]
  | cons s steps ih =>
    obtain ⟨hs, hsteps⟩ := List.forall_mem_cons.mp answerable
    rw [List.flatMap_cons]
    by_cases h : s.awaited <+: bytes
    · obtain ⟨rest, rfl⟩ := h
      rw [run_cons_of_awaited hs, List.prefix_append_right_inj]
      exact ih hsteps
    · obtain ⟨f, hf⟩ : ∃ f, run (s :: steps) bytes = ([s.command], .error f) :=
        run_cons_of_not_awaited h
      rw [hf]
      exact iff_of_false nofun fun hall => h ((List.prefix_append _ _).trans hall)

/-- **A command is sent exactly when the bytes start with the replies to those before it.** -/
theorem lt_length_sent_iff (answerable : ∀ s ∈ steps, s.Answerable) {k : Nat} :
    k < (run steps bytes).1.length ↔
      k < steps.length ∧ (steps.take k).flatMap Step.awaited <+: bytes := by
  induction steps generalizing bytes k with
  | nil => simp [run]
  | cons s steps ih =>
    obtain ⟨hs, hsteps⟩ := List.forall_mem_cons.mp answerable
    by_cases h : s.awaited <+: bytes
    · obtain ⟨rest, rfl⟩ := h
      rw [run_cons_of_awaited hs]
      cases k with
      | zero => simp
      | succ k => simp [ih hsteps, List.prefix_append_right_inj]
    · obtain ⟨f, hf⟩ : ∃ f, run (s :: steps) bytes = ([s.command], .error f) :=
        run_cons_of_not_awaited h
      rw [hf]
      cases k with
      | zero => simp
      | succ k =>
        refine iff_of_false (by simp) fun hall => h ?_
        rw [List.take_succ_cons, List.flatMap_cons] at hall
        exact (List.prefix_append _ _).trans hall.2

/-- An error in the place of a reply. -/
theorem run_of_error {front back : List Step} {s : Step} {rest : List UInt8} {text : String}
    (answerable : ∀ s ∈ front, s.Answerable)
    (hread : Redis.readReply bytes = .ok (.error text, rest)) :
    (run (front ++ s :: back) (front.flatMap Step.awaited ++ bytes)).2 =
      .error (errorReply text) := by
  induction front with
  | nil =>
    rw [List.nil_append, List.flatMap_nil, List.nil_append, run_cons_of_error hread]
  | cons t front ih =>
    obtain ⟨ht, hfront⟩ := List.forall_mem_cons.mp answerable
    rw [List.cons_append, List.flatMap_cons, List.append_assoc, run_cons_of_awaited ht]
    exact ih hfront

end Runs

/-! ### Sessions -/

/-- What is said in a session with settings: the commands, each with the reply that it waits for. -/
def exchanges (s : ProbeSettings) : List (Redis.Command × String) :=
  (match s.redisPassword with
    | some password => if password = "" then [] else [(["AUTH", password], "+OK\r\n")]
    | none => []) ++
  (match s.redisDb with
    | some db => [(["SELECT", toString db.toNat], "+OK\r\n")]
    | none => []) ++
  [(["PING"], "+PONG\r\n")]

/-- The bytes of the first `k` replies of a session. -/
def replies (s : ProbeSettings) (k : Nat) : List UInt8 :=
  ((exchanges s).take k).flatMap fun e => Utf8.bytesOf e.2

/-- Whether an error says that the login was refused. -/
def RefusesLogin (text : String) : Prop :=
  "NOAUTH".toList <:+: text.toList ∨ "WRONGPASS".toList <:+: text.toList

theorem answerable_of_mem_steps {p : RedisProbe} {s : Step} (h : s ∈ p.steps) :
    s.Answerable := by
  have hexpected : s.expected = "OK" ∨ s.expected = "PONG" := by
    simp only [steps, List.mem_append, List.mem_map, List.mem_singleton] at h
    rcases h with (⟨_, -, rfl⟩ | ⟨_, -, rfl⟩) | rfl <;> simp
  unfold Step.Answerable
  rcases hexpected with h | h <;> rw [h] <;> decide

/-- The reply that a step waits for, as text. -/
def Step.reply (t : Step) : String :=
  "+" ++ t.expected ++ "\r\n"

theorem bytesOf_reply (t : Step) : Utf8.bytesOf t.reply = t.awaited := by
  have hend : Utf8.encode ['\r', '\n'] = [Redis.carriageReturn, Redis.lineFeed] := by decide
  have htext : t.reply.toList = ('+' :: t.expected.toList) ++ ['\r', '\n'] := by
    simp [Step.reply]
  rw [Utf8.bytesOf, htext, Utf8.encode, List.flatMap_append, ← Utf8.encode, ← Utf8.encode, hend]
  rfl

/-- The steps of a probe are what is said in its sessions. -/
theorem exchanges_eq (s : ProbeSettings) :
    exchanges s = (ofSettings s).steps.map fun t => (t.command, t.reply) := by
  have hok : "+" ++ "OK" ++ "\r\n" = "+OK\r\n" := by decide
  have hpong : "+" ++ "PONG" ++ "\r\n" = "+PONG\r\n" := by decide
  rw [exchanges, steps, List.map_append, List.map_append, List.map_map, List.map_map]
  simp only [ofSettings, List.map_cons, List.map_nil, Function.comp_def, Step.reply, hok,
    hpong]
  congr 2
  · cases s.redisPassword with
    | none => rfl
    | some password => by_cases h : password = "" <;> simp [Option.filter, h]
  · cases s.redisDb <;> rfl

theorem replies_eq (s : ProbeSettings) (k : Nat) :
    replies s k = ((ofSettings s).steps.take k).flatMap Step.awaited := by
  simp only [replies, exchanges_eq, ← List.map_take, List.flatMap_map, bytesOf_reply]

theorem verdict_errorReply (text : String) :
    (RefusesLogin text → Verdict.ofFailure (errorReply text) = ⟨.authError, "auth_error"⟩) ∧
      (¬ RefusesLogin text → Verdict.ofFailure (errorReply text) = ⟨.unhealthy, "unhealthy"⟩) := by
  have hrefuses : (refusalWords.any fun w => Text.holds w.toList text.toList) = true ↔
      RefusesLogin text := by
    simp [refusalWords, RefusesLogin, Text.holds_iff_infix]
  rw [errorReply]
  constructor
  · intro h
    rw [if_pos (hrefuses.mpr h)]
    rfl
  · intro h
    rw [if_neg (mt hrefuses.mp h)]
    rfl

/-- **What a session says of the server is told by the bytes of the server.** Whatever the settings
and whatever the bytes are, the session ends well exactly when they start with all the replies that
it waits for; it sends its commands in their order, each exactly when the bytes start with the
replies to those before it; and an error in the place of a reply, that is, a line behind a minus
sign, is reported as a refused login or as an unhealthy server, by the words of its text. -/
theorem session_exact (s : ProbeSettings) (bytes : List UInt8) :
    (((ofSettings s).session bytes).2 = .ok () ↔
        replies s (exchanges s).length <+: bytes) ∧
      ((ofSettings s).session bytes).1 <+: (exchanges s).map Prod.fst ∧
      (∀ k < (exchanges s).length,
        k < ((ofSettings s).session bytes).1.length ↔ replies s k <+: bytes) ∧
      (∀ k < (exchanges s).length, ∀ answer text rest,
        bytes = replies s k ++ answer → Redis.readReply answer = .ok (.error text, rest) →
        (RefusesLogin text →
          Verdict.ofOutcome ((ofSettings s).session bytes).2 = ⟨.authError, "auth_error"⟩) ∧
        (¬ RefusesLogin text →
          Verdict.ofOutcome ((ofSettings s).session bytes).2 = ⟨.unhealthy, "unhealthy"⟩)) ∧
      ∀ answer text rest, Redis.readReply answer = .ok (.error text, rest) ↔
        answer = Redis.line ('-' :: text.toList) ++ rest ∧
          Redis.FitsLine ('-' :: text.toList) := by
  have answerable : ∀ t ∈ (ofSettings s).steps, t.Answerable := fun _ => answerable_of_mem_steps
  have hlength : (exchanges s).length = (ofSettings s).steps.length := by
    rw [exchanges_eq, List.length_map]
  refine ⟨?_, ?_, ?_, ?_, fun _ _ _ => Redis.readReply_error_iff⟩
  · rw [session, run_ok_iff answerable, replies_eq, hlength, List.take_length]
  · have hcommands : (exchanges s).map Prod.fst = (ofSettings s).steps.map Step.command := by
      rw [exchanges_eq, List.map_map]
      rfl
    rw [hcommands]
    exact sent_prefix answerable
  · intro k hk
    rw [session, lt_length_sent_iff answerable, replies_eq, ← hlength, and_iff_right hk]
  · intro k hk answer text rest hbytes hread
    have hsplit : (ofSettings s).steps = (ofSettings s).steps.take k ++
        (ofSettings s).steps[k] :: (ofSettings s).steps.drop (k + 1) := by
      rw [← List.drop_eq_getElem_cons (hlength ▸ hk), List.take_append_drop]
    have hrun : ((ofSettings s).session bytes).2 = .error (errorReply text) := by
      rw [session, hsplit, hbytes, replies_eq]
      exact run_of_error (fun t ht => answerable t (List.mem_of_mem_take ht)) hread
    rw [hrun]
    exact verdict_errorReply text

/-- Settings with a password and a database. -/
def replicaSettings : ProbeSettings :=
  { ProbeSettings.none with redisPassword := some "hunter2", redisDb := some 3 }

/-- A server that takes the password and asks for it again when it is to select the database. -/
def forgetfulServer : List UInt8 :=
  Utf8.bytesOf "+OK\r\n-NOAUTH später\r\n+PONG\r\n"

theorem late_refusal_reported :
    (1 < (exchanges replicaSettings).length ∧ 2 < (exchanges replicaSettings).length) ∧
      (forgetfulServer =
          replies replicaSettings 1 ++ Utf8.bytesOf "-NOAUTH später\r\n+PONG\r\n" ∧
        Redis.readReply (Utf8.bytesOf "-NOAUTH später\r\n+PONG\r\n") =
          .ok (.error "NOAUTH später", Utf8.bytesOf "+PONG\r\n") ∧
        RefusesLogin "NOAUTH später") ∧
      ((ofSettings replicaSettings).session forgetfulServer).1 =
        [["AUTH", "hunter2"], ["SELECT", "3"]] ∧
      ((ofSettings replicaSettings).session forgetfulServer).2 ≠ .ok () ∧
      Verdict.ofOutcome ((ofSettings replicaSettings).session forgetfulServer).2 =
        ⟨.authError, "auth_error"⟩ := by
  obtain ⟨hends, hprefix, hsent, herror, hread⟩ := session_exact replicaSettings forgetfulServer
  have hmany : 1 < (exchanges replicaSettings).length ∧
      2 < (exchanges replicaSettings).length := by decide
  have hbytes : forgetfulServer =
      replies replicaSettings 1 ++ Utf8.bytesOf "-NOAUTH später\r\n+PONG\r\n" := by decide
  have hreply : Redis.readReply (Utf8.bytesOf "-NOAUTH später\r\n+PONG\r\n") =
      .ok (.error "NOAUTH später", Utf8.bytesOf "+PONG\r\n") :=
    (hread _ _ _).mpr ⟨by decide, by decide⟩
  have hrefuses : RefusesLogin "NOAUTH später" := by
    unfold RefusesLogin
    decide
  have htwo : ((ofSettings replicaSettings).session forgetfulServer).1.length = 2 := by
    have hsecond := (hsent 1 hmany.1).mpr (hbytes ▸ List.prefix_append _ _)
    have hthird := (hsent 2 hmany.2).not.mpr (by decide)
    omega
  refine ⟨hmany, ⟨hbytes, hreply, hrefuses⟩, ?_, fun hok => ?_, ?_⟩
  · rw [List.prefix_iff_eq_take.mp hprefix, htwo]
    decide
  · exact absurd (hends.mp hok) (by decide)
  · exact (herror 1 hmany.1 _ _ _ hbytes hreply).1 hrefuses

end HealthMonitor.RedisProbe
