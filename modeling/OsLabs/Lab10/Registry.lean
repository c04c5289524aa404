import OsLabs.Lab10.Server

/-!
# The Registry of the TCP Server over Whole Runs

The registry of the TCP server is sound in every state the server can reach,
however handlers, sweeps, a stop and the clean-up interleave. Handlers and the
main thread write into slots that may not be theirs any more, but what they
write is the time, the count and the thread, never the name, and the count they
write is zero.

New names come from the main thread alone. It looks a name up and adds it in one
section, and a valid name fits into its slot whole.

## Theorems

* `registryInv_sweep`, `registryInv_stopAll`: The two loops over the table.
* `registryInv_register`: A registration.
* `registryInv_step`: Every step keeps the registry sound.
* `registryInv_of_reaches`: So does a run.
-/

namespace OsLabs

namespace Lab10

open Chat

section Sections

variable {host : Host}

theorem registryInv_sweepSlot (input : SweepInput) (acc : Host × List Delivery)
    (i : Fin MAX_CLIENTS) (h : RegistryInv acc.1.server) :
    RegistryInv (sweepSlot input acc i).1.server := by
  rcases sweepSlot_cases input acc i with hsame | ⟨c, counted, rfl, hactive, -, rfl, hdone⟩
  · rw [hsame]
    exact h
  · rcases hdone with hremoved | ⟨d, hlow, -, hreminded⟩
    · -- The miss counted before a removal is gone with the slot.
      rw [hremoved]
      change RegistryInv (Chat.remove_client _ i).1
      rw [remove_client_missed i hactive]
      exact registryInv_remove h i
    · have hmissed : 0 ≤ (missed (acc.1.server.clients i)).inactive_count := by
        have hzero := (h.count i hactive).1
        change 0 ≤ (acc.1.server.clients i).inactive_count + 1
        omega
      rw [hreminded]
      exact registryInv_touch h i (missed (acc.1.server.clients i)) rfl
        fun _ => ⟨hactive, hmissed, by omega⟩

/-- A loop over the slots keeps the registry sound if its body does. -/
theorem registryInv_foldl {f : Host × List Delivery → Fin MAX_CLIENTS → Host × List Delivery}
    (hf : ∀ acc i, RegistryInv acc.1.server → RegistryInv (f acc i).1.server)
    (h : RegistryInv host.server) (l : List (Fin MAX_CLIENTS)) (sent : List Delivery) :
    RegistryInv (l.foldl f (host, sent)).1.server := by
  have hall : ∀ acc : Host × List Delivery, RegistryInv acc.1.server →
      RegistryInv (l.foldl f acc).1.server := foldl_preserves hf l
  exact hall (host, sent) h

theorem registryInv_sweep (input : SweepInput) (h : RegistryInv host.server) :
    RegistryInv (sweep input host).1.server := by
  rw [sweep]
  exact registryInv_foldl (registryInv_sweepSlot input) h _ _

/-- A stopped slot keeps its name and is not active. -/
theorem registryInv_stopSlot (now : TimeT) (oks : Fin MAX_CLIENTS → Bool)
    (acc : Host × List Delivery) (i : Fin MAX_CLIENTS) (h : RegistryInv acc.1.server) :
    RegistryInv (stopSlot now oks acc i).1.server := by
  unfold stopSlot
  by_cases hactive : (acc.1.server.clients i).is_active = true
  · rw [if_pos hactive]
    exact registryInv_touch h i (stopped (acc.1.server.clients i)) rfl
      fun hc => absurd hc Bool.false_ne_true
  · rw [if_neg hactive]
    exact h

theorem registryInv_stopAll (now : TimeT) (oks : Fin MAX_CLIENTS → Bool)
    (h : RegistryInv host.server) : RegistryInv (stopAll now oks host).1.server := by
  rw [stopAll]
  exact registryInv_foldl (registryInv_stopSlot now oks) h _ _

end Sections

section Steps

variable {s s' : State}

/-- Noting when a client was heard from keeps the registry sound, whoever has
    the slot. -/
theorem registryInv_refreshed {server : Server} (h : RegistryInv server) (i : Fin MAX_CLIENTS)
    (now : TimeT) : RegistryInv (server.setSlot i (refreshed now (server.clients i))) := by
  have hzero : (0 : Int) ≤ 0 ∧ (0 : Int) < MAX_INACTIVE_COUNT := by decide
  exact registryInv_touch h i _ rfl fun hactive => ⟨hactive, hzero⟩

theorem registryInv_handlerStep (h : RegistryInv s.host.server) {t : Nat} {handler : Handler}
    {e : HandlerEvent} (hstep : handlerStep s t handler e = some s') :
    RegistryInv s'.host.server := by
  rcases handlerStep_host hstep with hsame | ⟨i, now, hnoted⟩ | ⟨_, i, _, hremoved⟩
  · rw [hsame]
    exact h
  · rw [hnoted]
    exact registryInv_refreshed h i now
  · rw [hremoved]
    exact registryInv_remove h i

/-- A slot filled in for a valid and unused name, whatever thread is recorded
    in it. -/
theorem registryInv_enrolled {server : Server} (h : RegistryInv server) (a : Accepted)
    (client_id : List UInt8) (now : TimeT) {i : Fin MAX_CLIENTS} (thread_id : Nat)
    (hfree : freeSlot server = some i) (hvalid : validate_client_id client_id = true)
    (hnew : find_client_by_id server client_id = none) :
    RegistryInv (enrolled server a client_id now i thread_id) := by
  have hfill := registryInv_fillSlot h a.client_socket a.client_addr client_id now hvalid hnew
  simp only [fillSlot, hfree] at hfill
  have hzero : (0 : Int) ≤ 0 ∧ (0 : Int) < MAX_INACTIVE_COUNT := by decide
  have htouch := registryInv_touch hfill i
    { filled (server.clients i) a.client_socket a.client_addr client_id now with
      thread_id := thread_id }
    (by simp only [Server.setSlot, Function.update_self])
    fun _ => ⟨by simp only [Server.setSlot, Function.update_self, filled], hzero⟩
  -- Writing the slot a second time is all that counts.
  simp only [Server.setSlot, Function.update_idem] at htouch
  exact htouch

theorem registryInv_register (h : RegistryInv s.host.server) (a : Accepted) (id_msg : Message)
    (now : TimeT) (created : Bool) :
    RegistryInv (register s a id_msg now created).host.server := by
  rcases register_cases a id_msg now created with
    ⟨err_msg, hs'⟩ | ⟨i, _, hfree, hvalid, hnew, hs'⟩
  · rw [hs']
    exact h
  · rw [hs']
    cases created with
    | true => exact registryInv_enrolled h a _ now _ hfree hvalid hnew
    | false =>
        exact registryInv_remove (registryInv_enrolled h a _ now 0 hfree hvalid hnew) i

/-- Soundness is about the table only. -/
theorem registryInv_clients {server server' : Server} (h : RegistryInv server)
    (hclients : server'.clients = server.clients) : RegistryInv server' := by
  constructor
  · rw [hclients]
    exact h.distinct
  · rw [hclients]
    exact h.valid
  · rw [hclients]
    exact h.count

theorem registryInv_mainStep (h : RegistryInv s.host.server) {e : MainEvent}
    (hstep : mainStep s e = some s') : RegistryInv s'.host.server := by
  rcases mainStep_host hstep with
    ⟨hclients, _⟩ | ⟨a, id_msg, now, created, _, _, rfl⟩ | ⟨i, hcleared⟩
  · exact registryInv_clients h hclients
  · exact registryInv_register h a id_msg now created
  · rw [hcleared]
    exact registryInv_touch h i { s.host.server.clients i with thread_id := 0 } rfl
      fun hactive => ⟨hactive, h.count i hactive⟩

/-- Every step of the server keeps the registry sound. -/
theorem registryInv_step (h : RegistryInv s.host.server) {e : Event}
    (hstep : step s e = some s') : RegistryInv s'.host.server := by
  cases e with
  | handler t e =>
      rcases Option.bind_eq_some_iff.mp hstep with ⟨handler, _, hhandler⟩
      exact registryInv_handlerStep h hhandler
  | main e => exact registryInv_mainStep h hstep
  | keepalive e =>
      cases e with
      | test => rw [keepaliveStep_test hstep]; exact h
      | sweep input =>
          have hsweep := registryInv_sweep input h
          rcases keepaliveStep_sweep hstep with ⟨_, rfl⟩
          generalize sweep input s.host = result at hsweep ⊢
          exact hsweep
  | stop e =>
      cases e with
      | signal =>
          rcases stopStep_signal hstep with rfl | rfl
          · exact h
          · exact registryInv_clients h rfl
      | close =>
          rw [stopStep_close hstep]
          exact registryInv_clients h rfl
      | notify now oks =>
          have hstop := registryInv_stopAll now oks h
          rcases stopStep_notify hstep with ⟨_, rfl⟩
          generalize stopAll now oks s.host = result at hstop ⊢
          exact hstop
      | join => rw [stopStep_join hstep]; exact h

theorem registryInv_of_reaches {port server_socket : Int}
    (hstart : start port server_socket = some s) (hreach : Reachable step s s') :
    RegistryInv s'.host.server := by
  have hfirst : RegistryInv s.host.server := by
    rcases Option.map_eq_some_iff.mp hstart with ⟨server, hinit, rfl⟩
    exact registryInv_init hinit
  have hall : ∀ v e w, RegistryInv v.host.server → True → step v e = some w →
      RegistryInv w.host.server := fun _ _ _ hv _ hstep => registryInv_step hv hstep
  exact hreach.invariant hfirst hall

end Steps

end Lab10

end OsLabs
