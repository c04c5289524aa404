import OsLabs.Chat.Headcount
import OsLabs.Lab10.Server

/-!
# The Count of Clients of the TCP Server

Handlers, the main thread and the keepalive thread change the flags of the table
with `add_client` and `remove_client` only, and so they change the count along
with them. `server_stop` clears the flags itself and leaves the count.

So the count is right until `server_stop` finds somebody in the table, and it is
never right again afterwards.

## Main definitions

* `StopsEmpty`: `server_stop` finds nobody in the table.

## Theorems

* `excess_sweep`: A sweep leaves the excess alone.
* `stopAll_clears`: What the loop of `server_stop` leaves behind.
* `excess_step`: All steps but that one leave the excess alone.
* `countAgrees_step`: When a step keeps the count right.
-/

namespace OsLabs

namespace Lab10

open Chat

/-- The section of `server_stop` finds no client in the table. -/
def StopsEmpty (s : State) : Event → Prop
  | .stop (.notify _ _) => ∀ i, (s.host.server.clients i).is_active = false
  | _ => True

instance (s : State) : ∀ e, Decidable (StopsEmpty s e)
  | .stop (.notify _ _) =>
    inferInstanceAs (Decidable (∀ i, (s.host.server.clients i).is_active = false))
  | .stop .signal => isTrue trivial
  | .stop .close => isTrue trivial
  | .stop .join => isTrue trivial
  | .handler _ _ => isTrue trivial
  | .main _ => isTrue trivial
  | .keepalive _ => isTrue trivial

section Sections

theorem excess_sweepSlot (input : SweepInput) (acc : Host × List Delivery) (i : Fin MAX_CLIENTS) :
    excess (sweepSlot input acc i).1.server = excess acc.1.server := by
  have hcounted := excess_setSlot acc.1.server i (missed (acc.1.server.clients i)) rfl
  have hremoved := (excess_remove_client
    (acc.1.server.setSlot i (missed (acc.1.server.clients i))) i).trans hcounted
  rcases sweepSlot_cases input acc i with hsame | ⟨c, counted, rfl, -, -, rfl, hdone⟩
  · rw [hsame]
  · rcases hdone with hdone | ⟨d, -, -, hreminded⟩
    · rw [hdone]
      exact hremoved
    · rw [hreminded]
      exact hcounted

theorem excess_sweep (input : SweepInput) (host : Host) :
    excess (sweep input host).1.server = excess host.server := by
  have hall : ∀ acc : Host × List Delivery, excess acc.1.server = excess host.server →
      excess ((List.finRange MAX_CLIENTS).foldl (sweepSlot input) acc).1.server
        = excess host.server :=
    foldl_preserves (fun acc i hacc => (excess_sweepSlot input acc i).trans hacc) _
  rw [sweep]
  exact hall _ rfl

theorem hangsUp_stopSlot (now : TimeT) (oks : Fin MAX_CLIENTS → Bool) (acc : Host × List Delivery)
    (i : Fin MAX_CLIENTS) : HangsUp i acc.1.server (stopSlot now oks acc i).1.server := by
  unfold stopSlot
  by_cases hactive : (acc.1.server.clients i).is_active = true
  · rw [if_pos hactive]
    exact hangsUp_setSlot acc.1.server i (stopped (acc.1.server.clients i)) rfl
  · rw [if_neg hactive]
    exact hangsUp_inactive (Bool.eq_false_iff.mpr hactive)

/-- `server_stop` clears all flags, and does not touch the count. -/
theorem stopAll_clears (now : TimeT) (oks : Fin MAX_CLIENTS → Bool) (host : Host) :
    (stopAll now oks host).1.server.client_count = host.server.client_count ∧
      ∀ i, ((stopAll now oks host).1.server.clients i).is_active = false := by
  rw [stopAll]
  exact hangsUp_foldl (fun acc : Host × List Delivery => acc.1.server)
    (hangsUp_stopSlot now oks) (host, [])

end Sections

section Steps

variable {s s' : State}

theorem excess_handlerStep {t : Nat} {h : Handler} {e : HandlerEvent}
    (hstep : handlerStep s t h e = some s') :
    excess s'.host.server = excess s.host.server := by
  rcases handlerStep_host hstep with hsame | ⟨i, now, hnoted⟩ | ⟨_, i, _, hremoved⟩
  · rw [hsame]
  · rw [hnoted]
    exact excess_setSlot s.host.server i (refreshed now (s.host.server.clients i)) rfl
  · rw [hremoved]
    exact excess_remove_client s.host.server i

theorem excess_register (a : Accepted) (id_msg : Message) (now : TimeT) (created : Bool) :
    excess (register s a id_msg now created).host.server = excess s.host.server := by
  rcases register_cases a id_msg now created with
    ⟨err_msg, hs'⟩ | ⟨i, _, hfree, _, _, hs'⟩
  · rw [hs']
  · have henrolled : ∀ thread_id,
        excess (enrolled s.host.server a id_msg.sender_id.bytes now i thread_id)
          = excess s.host.server := fun _ => excess_filled hfree _ rfl
    rw [hs']
    -- Without a thread the client that was just counted is removed again.
    cases created with
    | true => exact henrolled _
    | false => exact (excess_remove_client _ i).trans (henrolled 0)

theorem excess_mainStep {e : MainEvent} (hstep : mainStep s e = some s') :
    excess s'.host.server = excess s.host.server := by
  rcases mainStep_host hstep with
    ⟨hclients, hcount⟩ | ⟨a, id_msg, now, created, _, _, rfl⟩ | ⟨i, hcleared⟩
  · unfold excess activeCount
    rw [hclients, hcount]
  · exact excess_register a id_msg now created
  · rw [hcleared]
    exact excess_setSlot s.host.server i { s.host.server.clients i with thread_id := 0 } rfl

/-- All steps but the section of `server_stop` leave the excess alone. -/
theorem excess_step {e : Event} (hother : ∀ now oks, e ≠ .stop (.notify now oks))
    (hstep : step s e = some s') : excess s'.host.server = excess s.host.server := by
  cases e with
  | handler t e =>
      rcases Option.bind_eq_some_iff.mp hstep with ⟨h, _, hmove⟩
      exact excess_handlerStep hmove
  | main e => exact excess_mainStep hstep
  | keepalive e =>
      cases e with
      | test => rw [keepaliveStep_test hstep]
      | sweep input =>
          have hsweep := excess_sweep input s.host
          rw [(keepaliveStep_sweep hstep).2]
          generalize sweep input s.host = result at hsweep ⊢
          exact hsweep
  | stop e =>
      cases e with
      | signal =>
          rcases stopStep_signal hstep with rfl | rfl
          · rfl
          · rfl
      | close => rw [stopStep_close hstep]; rfl
      | notify now oks => exact absurd rfl (hother now oks)
      | join => rw [stopStep_join hstep]

/-- A step keeps the count right exactly when it is not `server_stop` with
    somebody in the table, and never lets it fall short. -/
theorem countAgrees_step {e : Event} (h : 0 ≤ excess s.host.server) (hstep : step s e = some s') :
    0 ≤ excess s'.host.server ∧
      (CountAgrees s'.host.server ↔ CountAgrees s.host.server ∧ StopsEmpty s e) := by
  by_cases hnotify : ∃ now oks, e = .stop (.notify now oks)
  · -- The count becomes the excess, which is what it was if nobody was there.
    rcases hnotify with ⟨now, oks, rfl⟩
    have hclears := stopAll_clears now oks s.host
    rw [(stopStep_notify hstep).2]
    generalize stopAll now oks s.host = result at hclears ⊢
    exact countAgrees_stopping hclears.1 hclears.2 h
  · have hsame := excess_step (fun now oks heq => hnotify ⟨now, oks, heq⟩) hstep
    have hok : StopsEmpty s e := by
      unfold StopsEmpty
      split
      · exact absurd ⟨_, _, rfl⟩ hnotify
      · trivial
    rw [countAgrees_iff, countAgrees_iff, hsame]
    exact ⟨h, (and_iff_left hok).symm⟩

/-- After a run the count is right exactly when `server_stop`, if it ran, found
    nobody in the table. -/
theorem run_countAgrees_iff {port server_socket : Int} {t : State} {events : List Event}
    (hstart : start port server_socket = some s) (hrun : run step s events = some t) :
    CountAgrees t.host.server ↔ Meets step StopsEmpty s events := by
  have hfirst : excess s.host.server = 0 := by
    rcases Option.map_eq_some_iff.mp hstart with ⟨server, hinit, rfl⟩
    exact excess_init hinit
  have hiff := @run_iff _ _ step StopsEmpty (fun v => 0 ≤ excess v.host.server)
    (fun v => CountAgrees v.host.server) (fun _ _ _ hv hstep => (countAgrees_step hv hstep).1)
    (fun _ _ _ hv hstep => (countAgrees_step hv hstep).2) events s t hfirst.ge hrun
  rw [hiff, countAgrees_iff]
  exact and_iff_right hfirst

end Steps

end Lab10

end OsLabs
