import HealthMonitor.Proofs.Scheduler.Clearing

/-!
# A call in flight, followed

Calls in flight are told apart by their places, and the place of a call moves forward when one in
front of it returns. `Scheduler.placeIn` follows a call through a run: it is the place where the
call is then, and none once it has returned. `Scheduler.Onward` says once what a move makes of a
call in flight.

A call returns only when it has done what it is there for. Every loop that it waits for is over by
then (`awaited_run`), and every place that it is to clear has been cleared (`ahead_run`).
-/

namespace HealthMonitor

namespace Scheduler

variable {P : Type}

/-- The place of a call in flight after a move, if it does not return by it. -/
def placeAfter (s : Scheduler P) (j : Nat) : Move P → Option Nat
  | .call k =>
    match s.calls[k]?.bind s.advance with
    | some (_, none) => if k = j then none else some (if k < j then j - 1 else j)
    | _ => some j
  | _ => some j

/-- The place of a call in flight after a run, if it has not returned. -/
def placeIn (s : Scheduler P) (j : Nat) : List (Move P) → Option Nat
  | [] => some j
  | m :: ms => (s.placeAfter j m).bind fun j' => (s.move m).placeIn j' ms

/-- What a move makes of the call in flight at a place. -/
inductive Onward (s : Scheduler P) (j : Nat) (c : Call) (m : Move P) : Prop where
  /-- The call waits, and may move up. -/
  | waits (j' : Nat) (place : s.placeAfter j m = some j') (call : (s.move m).calls[j']? = some c)
  | goes (s' : Scheduler P) (c' : Call) (driven : m = .call j)
      (place : s.placeAfter j m = some j) (call : (s.move m).calls[j]? = some c')
      (advance : Advance s c s' (some c'))
  | returns (s' : Scheduler P) (driven : m = .call j) (place : s.placeAfter j m = none)
      (advance : Advance s c s' none)

/-- The return of a call moves those behind it up. -/
private theorem getElem?_eraseIdx_of_ne {calls : List Call} {k j : Nat} (hk : k ≠ j) :
    (calls.eraseIdx k)[if k < j then j - 1 else j]? = calls[j]? := by
  rw [List.getElem?_eraseIdx]
  split
  next hlt =>
    have hnot : ¬ j - 1 < k := by omega
    have hback : j - 1 + 1 = j := by omega
    rw [if_neg hnot, hback]
  next hge =>
    have hlt : j < k := by omega
    rw [if_pos hlt]

/-- **What becomes of a call in flight.** -/
theorem onward {s : Scheduler P} {j : Nat} {c : Call} (hc : s.calls[j]? = some c) (m : Move P) :
    Onward s j c m := by
  by_cases hcall : ∃ k, m = .call k
  · obtain ⟨k, rfl⟩ := hcall
    by_cases hwait : ∀ c, s.calls[k]? = some c → s.advance c = none
    · have hplace : s.placeAfter j (.call k) = some j := by
        have hnone : s.calls[k]?.bind s.advance = none := Option.bind_eq_none_iff.mpr hwait
        rw [placeAfter, hnone]
      exact .waits j hplace (by rwa [move_call_of_waiting hwait])
    · push Not at hwait
      obtain ⟨d, hd, ha⟩ := hwait
      obtain ⟨⟨s', after⟩, ha⟩ := Option.ne_none_iff_exists'.mp ha
      have hbind : s.calls[k]?.bind s.advance = some (s', after) := by rw [hd, Option.bind_some, ha]
      have hcalls : (s.move (.call k)).calls = callsAfter s.calls k after := by
        rw [move_call hd ha]
      by_cases hkj : k = j
      · subst hkj
        obtain rfl := Option.some.inj (hd.symm.trans hc)
        cases after with
        | none =>
          exact .returns s' rfl (by rw [placeAfter, hbind]; exact if_pos rfl) (advance_some ha)
        | some c' =>
          exact .goes s' c' rfl (by rw [placeAfter, hbind]) (getElem?_move_call hc ha)
            (advance_some ha)
      · cases after with
        | none =>
          refine .waits _ (by rw [placeAfter, hbind]; exact if_neg hkj) ?_
          rw [hcalls]
          exact (getElem?_eraseIdx_of_ne hkj).trans hc
        | some c' =>
          refine .waits j (by rw [placeAfter, hbind]) ?_
          rw [hcalls]
          exact (List.getElem?_set_ne hkj).trans hc
  · push Not at hcall
    obtain ⟨made, hmade⟩ := calls_of_not_driven (effect_move s m) hcall
    have hplace : s.placeAfter j m = some j := by
      cases m with
      | call k => exact absurd rfl (hcall k)
      | _ => rfl
    refine .waits j hplace ?_
    rw [hmade, List.getElem?_append_left (List.getElem?_eq_some_iff.mp hc).1]
    exact hc

/-- The call that has been at a place before a run is in flight after it. -/
def CallIn (s : Scheduler P) (j : Nat) (ms : List (Move P)) (c : Call) : Prop :=
  ∃ j', s.placeIn j ms = some j' ∧ (s.run ms).calls[j']? = some c

theorem CallIn.cons {s : Scheduler P} {j j' : Nat} {m : Move P} {ms : List (Move P)} {c : Call}
    (place : s.placeAfter j m = some j') (h : (s.move m).CallIn j' ms c) :
    s.CallIn j (m :: ms) c := by
  obtain ⟨k, hk, hc⟩ := h
  exact ⟨k, by rw [placeIn, place, Option.bind_some, hk], hc⟩

/-- The call that has been at a place before a run clears a place of the exporter by one of the
moves. -/
def ClearsIn (s : Scheduler P) (j : Nat) (ms : List (Move P)) (p : Nat × Exporter.Removal) : Prop :=
  ∃ ns k, ns ++ [.call k] <+: ms ∧ s.placeIn j ns = some k ∧ p ∈ (s.run ns).carriedOut (.call k)

theorem placeIn_append (s : Scheduler P) (j : Nat) (ms ns : List (Move P)) :
    s.placeIn j (ms ++ ns) = (s.placeIn j ms).bind fun k => (s.run ms).placeIn k ns := by
  induction ms generalizing s j with
  | nil => rfl
  | cons m ms ih =>
    simp only [List.cons_append, placeIn, run_cons, Option.bind_assoc]
    exact congrArg _ (funext fun k => ih (s.move m) k)

theorem ClearsIn.append {s : Scheduler P} {j k : Nat} {ms ns : List (Move P)}
    {p : Nat × Exporter.Removal} (place : s.placeIn j ms = some k)
    (h : (s.run ms).ClearsIn k ns p) : s.ClearsIn j (ms ++ ns) p := by
  obtain ⟨before, k', hbefore, hk', hp⟩ := h
  refine ⟨ms ++ before, k', ?_, ?_, by rwa [run_append]⟩
  · rw [List.append_assoc]
    exact (List.prefix_append_right_inj ms).mpr hbefore
  · rw [placeIn_append, place, Option.bind_some, hk']

/-- Nothing is left of a call that has returned. -/
theorem not_callIn {s : Scheduler P} {j : Nat} {ms : List (Move P)} {c : Call}
    (returned : s.placeIn j ms = none) : ¬ s.CallIn j ms c := by
  rintro ⟨j', hj', -⟩
  simp [returned] at hj'

theorem isDone_run {s : Scheduler P} {i : Nat} (hi : i < s.loops.length)
    (done : s.isDone i = true) (ms : List (Move P)) : (s.run ms).isDone i = true :=
  isDone_of_goOn (loopsGoOn_run s ms) hi done

/-- **A call waits for a loop until it is over.** -/
theorem awaited_run {s : Scheduler P} (hs : Owned s) {j i : Nat} {c : Call}
    (hc : s.calls[j]? = some c) (hi : i ∈ c.awaited) (ms : List (Move P)) :
    (s.run ms).isDone i = true ∨ ∃ c', s.CallIn j ms c' ∧ i ∈ c'.awaited := by
  induction ms generalizing s j c with
  | nil => exact Or.inr ⟨c, ⟨j, rfl, hc⟩, hi⟩
  | cons m ms ih =>
    have hmem : c ∈ s.calls := List.mem_of_getElem? hc
    have hs' : Owned (s.move m) := owned_move hs (effect_move s m)
    have further {j' : Nat} {c' : Call} (place : s.placeAfter j m = some j')
        (call : (s.move m).calls[j']? = some c') (hi' : i ∈ c'.awaited) :
        (s.run (m :: ms)).isDone i = true ∨ ∃ c', s.CallIn j (m :: ms) c' ∧ i ∈ c'.awaited :=
      (ih hs' call hi').imp_right fun ⟨c', hc', hi'⟩ => ⟨c', hc'.cons place, hi'⟩
    cases hdone : s.isDone i with
    | true => exact Or.inl (isDone_run (hs.held c hmem i hi) hdone (m :: ms))
    | false =>
      cases onward hc m with
      | waits j' place call => exact further place call hi
      | goes s' c' _ place call advance =>
        obtain ⟨c'', h, -, hi'⟩ := advance_awaited hs hmem advance hi hdone
        exact further place call (Option.some.inj h ▸ hi')
      | returns s' _ _ advance =>
        obtain ⟨c', h, -⟩ := advance_awaited hs hmem advance hi hdone
        cases h

/-- **A call has a place ahead until it clears it.** -/
theorem ahead_run {s : Scheduler P} {j : Nat} {c : Call} {p : Nat × Exporter.Removal}
    (hc : s.calls[j]? = some c) (hp : p ∈ c.ahead) (ms : List (Move P)) :
    s.ClearsIn j ms p ∨ ∃ c', s.CallIn j ms c' ∧ p ∈ c'.ahead := by
  induction ms generalizing s j c with
  | nil => exact Or.inr ⟨c, ⟨j, rfl, hc⟩, hp⟩
  | cons m ms ih =>
    have further {j' : Nat} {c' : Call} (place : s.placeAfter j m = some j')
        (call : (s.move m).calls[j']? = some c') (hp' : p ∈ c'.ahead) :
        s.ClearsIn j (m :: ms) p ∨ ∃ c', s.CallIn j (m :: ms) c' ∧ p ∈ c'.ahead := by
      have single : s.placeIn j [m] = some j' := by rw [placeIn, place, Option.bind_some, placeIn]
      exact (ih call hp').imp (ClearsIn.append single)
        fun ⟨c', hc', hp'⟩ => ⟨c', hc'.cons place, hp'⟩
    -- what the step of the call clears is what the move carries out
    have cleared {s' : Scheduler P} {after : Option Call} (driven : m = .call j)
        (advance : Advance s c s' after) :
        s.ClearsIn j (m :: ms) p ∨ p ∈ after.toList.flatMap Call.ahead := by
      have hmem := (advance_ahead advance).subset (List.mem_append_left _ hp)
      refine (List.mem_append.mp hmem).imp_left fun h => ⟨[], j, ?_, rfl, ?_⟩
      · rw [driven, List.nil_append]
        exact List.cons_prefix_cons.mpr ⟨rfl, List.nil_prefix⟩
      · rwa [run_nil, carriedOut_call hc]
    cases onward hc m with
    | waits j' place call => exact further place call hp
    | goes s' c' driven place call advance =>
      rcases cleared driven advance with h | h
      · exact Or.inl h
      · exact further place call (by simpa using h)
    | returns s' driven _ advance =>
      rcases cleared driven advance with h | h
      · exact Or.inl h
      · cases h

/-- **When a call has returned, the loops that it has waited for are over.** -/
theorem isDone_of_returned {s : Scheduler P} (hs : Owned s) {j i : Nat} {c : Call}
    (hc : s.calls[j]? = some c) (hi : i ∈ c.awaited) {ms : List (Move P)}
    (returned : s.placeIn j ms = none) : (s.run ms).isDone i = true :=
  (awaited_run hs hc hi ms).resolve_right fun ⟨_, hc', _⟩ => not_callIn returned hc'

/-- **When a call has returned, the places that it had ahead have been cleared.** -/
theorem clearsIn_of_returned {s : Scheduler P} {j : Nat} {c : Call} {p : Nat × Exporter.Removal}
    (hc : s.calls[j]? = some c) (hp : p ∈ c.ahead) {ms : List (Move P)}
    (returned : s.placeIn j ms = none) : s.ClearsIn j ms p :=
  (ahead_run hc hp ms).resolve_right fun ⟨_, hc', _⟩ => not_callIn returned hc'

/-- **A call that has not returned is in flight**, and waits for no more loops than at first. -/
theorem call_of_placeIn {s : Scheduler P} {j j' : Nat} {c : Call} (hc : s.calls[j]? = some c)
    {ms : List (Move P)} (place : s.placeIn j ms = some j') :
    ∃ c', (s.run ms).calls[j']? = some c' ∧ c'.awaited ⊆ c.awaited := by
  induction ms generalizing s j c with
  | nil =>
    obtain rfl := Option.some.inj place
    exact ⟨c, hc, List.Subset.refl _⟩
  | cons m ms ih =>
    rw [placeIn] at place
    cases onward hc m with
    | waits k first call =>
      rw [first, Option.bind_some] at place
      exact ih call place
    | goes s' c' _ first call advance =>
      rw [first, Option.bind_some] at place
      obtain ⟨c'', hc'', hfewer⟩ := ih call place
      exact ⟨c'', hc'', fun i hi => awaited_of_advance advance (hfewer hi)⟩
    | returns _ _ first => simp [first] at place

/-- **What turns out to be left when a call clears a place** is cleared before it returns. -/
theorem found_of_returned {s : Scheduler P} {j : Nat} {c : Call} (hc : s.calls[j]? = some c)
    {ms : List (Move P)} {i : Nat} {a : Exporter.Removal} (h : s.ClearsIn j ms (i, a))
    (returned : s.placeIn j ms = none) :
    ∃ ns k, ns ++ [.call k] <+: ms ∧ (i, a) ∈ (s.run ns).carriedOut (.call k) ∧
      ∀ b ∈ ((s.run ns).clearPlace i a).2, s.ClearsIn j ms (i, b) := by
  obtain ⟨ns, k, ⟨rest, rfl⟩, place, hp⟩ := h
  refine ⟨ns, k, List.prefix_append .., hp, fun b hb => ?_⟩
  obtain ⟨c', hc', -⟩ := call_of_placeIn hc place
  rw [carriedOut_call hc'] at hp
  unfold Call.clearing at hp
  split at hp
  next r removed _ left report =>
    cases List.mem_singleton.mp hp
    have hmove : ((s.run ns).move (.call k)).calls[k]? = some (.retiring (r :: removed)
        (.clear (((s.run ns).clearPlace r.loop a).2 ++ left)) report) :=
      getElem?_move_call hc' rfl
    have hplace : s.placeIn j (ns ++ [.call k]) = some k := by
      rw [placeIn_append, place, Option.bind_some, placeIn, placeAfter, hc', Option.bind_some]
      rfl
    refine ClearsIn.append hplace ?_
    rw [run_concat]
    refine clearsIn_of_returned hmove ?_ ?_
    · exact List.mem_append_left _ (List.mem_map_of_mem (List.mem_append_left _ hb))
    · rwa [placeIn_append, hplace, Option.bind_some, run_concat] at returned
  next => cases hp

end Scheduler

end HealthMonitor
