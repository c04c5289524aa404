import OsLabs.Lab11.History

/-!
# Whom a Sweep Removes

The keepalive thread of lab11 is to remove the clients that have gone silent, and
no others. A slot holds two numbers for that: when its client was last heard, set
by the main thread, and how many sweeps in a row have found it silent, counted by
the keepalive thread and set back by the main thread.

What they come to is said here without the two numbers, by what has been heard
and by the sweeps made, however these follow each other and whatever the clock
shows. A client goes with the sweep that is the `MAX_INACTIVE_COUNT`-th since its
last datagram to find it silent, or with an earlier one that finds it silent and
cannot send to it; each of those earlier ones sends it one request, and no other
sweep sends it any.

## Main definitions

* `RemovesSilent`: What a sweep does for a client, by the log.

## Theorems

* `removesSilent_of_judged`: A slot that agrees with the log is judged by it.
* `sweep_removes_silent`: Every sweep, in every state reached.
* `sweep_removes_silent_run`: The third sweep after a registration.
-/

namespace OsLabs

namespace Lab11

open Chat

/-- What a sweep at the time `now` does for the client in a slot, before and
    after the sweep, and what it sends to it. -/
structure RemovesSilent (log : List Entry) (now : TimeT) (c c' : ServerClient)
    (alive : List Datagram) : Prop where
  /-- It is silent, and has been too often or cannot be sent to. -/
  removed : c'.is_active = false ↔ silentAt now c.client_id.str log = true ∧
    ((silentSweeps c.client_id.str (.swept now :: log) : Int) = MAX_INACTIVE_COUNT ∨
      (silentSweeps c.client_id.str (.swept now :: log) : Int) < MAX_INACTIVE_COUNT ∧
        ∃ d ∈ alive, d.result ≤ 0)
  /-- While it has not been silent too often it gets one request. -/
  reminded : silentAt now c.client_id.str log = true →
    (silentSweeps c.client_id.str (.swept now :: log) : Int) ≠ MAX_INACTIVE_COUNT →
      ∃ d, alive = [d] ∧ d.message.type = MessageType.MSG_ALIVE.code ∧
        d.message.recipient_id.str = c.client_id.str ∧ d.dest = c.addr
  /-- If it is removed for its silence, or not silent, it gets none. -/
  unasked : silentAt now c.client_id.str log = false ∨
    (silentSweeps c.client_id.str (.swept now :: log) : Int) = MAX_INACTIVE_COUNT → alive = []

section Judging

variable {log : List Entry} {input : SweepInput} {c c' : ServerClient} {alive : List Datagram}

/-- A sweep does nothing for a slot without a client. -/
theorem judged_absent (hjudged : Judged input c c' alive) (hinactive : c.is_active = false) :
    c' = c ∧ alive = [] := by
  have hno : ¬ c.is_active = true := Bool.eq_false_iff.mp hinactive
  cases hjudged with
  | absent => exact ⟨rfl, rfl⟩
  | present hactive => exact absurd hactive hno
  | timeout hactive => exact absurd hactive hno
  | reminded hactive => exact absurd hactive hno
  | unreachable hactive => exact absurd hactive hno

/-- The count in a slot is one behind the log when a sweep finds it silent. -/
theorem silentSweeps_missed (h : Agrees log c) (hactive : c.is_active = true) {now : TimeT}
    (hsilent : silent now c = true) :
    (silentSweeps c.client_id.str (.swept now :: log) : Int) = (missed c).inactive_count := by
  rw [silentSweeps, silentAt_eq h hactive, hsilent]
  change _ = c.inactive_count + 1
  rw [(h hactive).2]
  rfl

/-- A slot that agrees with the log is judged by it. -/
theorem removesSilent_of_judged (h : Agrees log c) (hactive : c.is_active = true)
    (hlow : c.inactive_count < MAX_INACTIVE_COUNT)
    (hname : c.client_id.str.take (MAX_CLIENT_NAME - 1) = c.client_id.str)
    (hjudged : Judged input c c' alive) : RemovesSilent log input.now c c' alive := by
  have hclock := silentAt_eq h hactive input.now
  cases hjudged with
  | absent hinactive =>
      rw [hinactive] at hactive
      cases hactive
  | present _ hheard =>
      rw [hheard] at hclock
      refine ⟨?_, ?_, fun _ => rfl⟩
      · rw [hactive, hclock]
        simp only [Bool.false_eq_true, false_and, reduceCtorEq]
      · intro hsilent
        rw [hclock] at hsilent
        cases hsilent
  | timeout _ hsilent hcount _ hgone =>
      have hnth := silentSweeps_missed h hactive hsilent
      have hlast : (missed c).inactive_count = MAX_INACTIVE_COUNT := by
        change c.inactive_count + 1 = _
        change c.inactive_count + 1 ≥ _ at hcount
        omega
      rw [hlast] at hnth
      refine ⟨?_, fun _ hne => absurd hnth hne, fun _ => rfl⟩
      rw [hgone, hclock, hsilent]
      exact ⟨fun _ => ⟨rfl, Or.inl hnth⟩, fun _ => rfl⟩
  | reminded _ hsilent hcount d hreminds hsent =>
      have hnth := silentSweeps_missed h hactive hsilent
      rw [← hnth] at hcount
      refine ⟨?_, ?_, ?_⟩
      · change c.is_active = false ↔ _
        rw [hactive]
        refine ⟨(nomatch ·), fun ⟨_, hcase⟩ => ?_⟩
        -- It has not been silent too often, and its request has been sent.
        rcases hcase with heq | ⟨_, d', hd', hfailed⟩
        · omega
        · rw [List.mem_singleton.mp hd'] at hfailed
          exact absurd hfailed hsent
      · exact fun _ _ => ⟨d, rfl, hreminds.type, hreminds.recipient.trans hname, hreminds.dest⟩
      · rw [hclock, hsilent]
        rintro (hfalse | heq)
        · cases hfalse
        · omega
  | unreachable _ hsilent hcount d hreminds hfailed _ hgone =>
      have hnth := silentSweeps_missed h hactive hsilent
      rw [← hnth] at hcount
      refine ⟨?_, ?_, ?_⟩
      · rw [hgone, hclock, hsilent]
        exact ⟨fun _ => ⟨rfl, Or.inr ⟨hcount, d, List.mem_singleton_self d, hfailed⟩⟩,
          fun _ => rfl⟩
      · exact fun _ _ => ⟨d, rfl, hreminds.type, hreminds.recipient.trans hname, hreminds.dest⟩
      · rw [hclock, hsilent]
        rintro (hfalse | heq)
        · cases hfalse
        · omega

end Judging

/-- In every state reached from the start of the server, by any interleaving of
    datagrams and sweeps and whatever the clock shows, the next sweep does for
    each client what the log says, and nothing for a slot without one. What it
    sends is what it sends for each slot, in their order. -/
theorem sweep_removes_silent (port : Int) (fd : Nat) (others : Int → Bool) (s t t' : State)
    (log : List Entry) (hstart : start port fd others = some s)
    (hreach : Reachable logged (s, []) (t, log)) (input : SweepInput)
    (hsweep : step t (.sweep input) = some t') :
    ∃ alive : Fin MAX_CLIENTS → List Datagram,
      sent t (.sweep input) = (List.finRange MAX_CLIENTS).flatMap alive ∧
      ∀ i, ((t.host.server.clients i).is_active = true →
          RemovesSilent log input.now (t.host.server.clients i) (t'.host.server.clients i)
            (alive i)) ∧
        ((t.host.server.clients i).is_active = false →
          t'.host.server.clients i = t.host.server.clients i ∧ alive i = []) := by
  have h := chronicle_of_reaches hstart hreach
  rcases sweep_judges input t.host with ⟨alive, hsent, hall⟩
  rw [step, Option.some.injEq] at hsweep
  subst hsweep
  rw [sent]
  generalize sweep input t.host = result at hsent hall ⊢
  refine ⟨alive, hsent, fun i => ⟨fun hactive => ?_, fun hinactive => ?_⟩⟩
  · exact removesSilent_of_judged (h.agrees i) hactive (h.sound.count i hactive).2
      (take_name h.sound hactive) (hall i)
  · exact judged_absent (hall i) hinactive

/-- A sweep at this time whose requests are all sent. -/
def sweepAt (now : TimeT) : SweepInput :=
  { now := now, stamp := now, results := fun _ => some SIZEOF_MESSAGE }

/-- A client registers and is found silent twice. -/
def foundSilentTwice : List Event :=
  claims .MSG_LIST "ann" { sin_addr := 1, sin_port := 2 } ++
    [.sweep (sweepAt 31), .sweep (sweepAt 62)]

/-- The third sweep that finds the client silent removes it without a request. -/
theorem sweep_removes_silent_run :
    ∃ s t t' log, start 5000 3 (fun _ => false) = some s ∧
      run logged (s, []) foundSilentTwice = some (t, log) ∧
      step t (.sweep (sweepAt 93)) = some t' ∧
      (t'.host.server.clients ⟨0, by decide⟩).is_active = false := by
  have hend : ((start 5000 3 fun _ => false).bind fun s =>
      run logged (s, []) foundSilentTwice).map (fun l =>
        let c := l.1.host.server.clients ⟨0, by decide⟩
        (c.is_active, silentAt 93 c.client_id.str l.2,
          decide ((silentSweeps c.client_id.str (.swept 93 :: l.2) : Int) = MAX_INACTIVE_COUNT)))
        = some (true, true, true) := by decide +kernel
  rcases Option.map_eq_some_iff.mp hend with ⟨⟨t, log⟩, hbind, htriple⟩
  rcases Option.bind_eq_some_iff.mp hbind with ⟨s, hstart, hrun⟩
  rcases Prod.mk.inj htriple with ⟨hactive, hpair⟩
  rcases Prod.mk.inj hpair with ⟨hsilent, hcount⟩
  rcases sweep_removes_silent 5000 3 _ s t _ log hstart (reachable_of_run hrun) (sweepAt 93) rfl
    with ⟨alive, _, hall⟩
  exact ⟨s, t, _, log, hstart, hrun, rfl, ((hall ⟨0, by decide⟩).1 hactive).removed.mpr
    ⟨hsilent, Or.inl (of_decide_eq_true hcount)⟩⟩

end Lab11

end OsLabs
