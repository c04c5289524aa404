import OsLabs.Chat.Registry

/-!
# The Count of Clients

`client_count` says again what the flags of the slots say. Adding a client to a
free slot and removing one from an active slot change both by one, and rewriting
a slot changes neither. So it is the difference of the two, `excess`, that these
operations leave alone.

The loop of `server_stop` clears flags and does not touch the count. What it
leaves behind is an excess as large as the count was.

## Main definitions

* `activeCount`: The number of active slots.
* `CountAgrees`: The count is that number.
* `excess`: By how much it is larger.
* `HangsUp`: The flag of a slot is cleared, and the count is not touched.

## Theorems

* `excess_setSlot`, `excess_fillSlot`, `excess_remove_client`: What leaves the
  excess alone.
* `activeCount_eq_zero_iff`: When no slot is active.
* `hangsUp_foldl`: A loop over the slots that clears their flags clears all.
* `countAgrees_stopping`: What such a loop leaves behind.
-/

namespace OsLabs

namespace Chat

/-- What a slot contributes to the number of active ones. -/
def ServerClient.weight (c : ServerClient) : Nat := if c.is_active then 1 else 0

/-- The number of active slots. -/
def activeCount (server : Server) : Nat := total ServerClient.weight server.clients

/-- The count agrees with the table. -/
def CountAgrees (server : Server) : Prop := server.client_count = activeCount server

/-- By how much the count is larger than the number of active slots. -/
def excess (server : Server) : Int := server.client_count - activeCount server

theorem countAgrees_iff {server : Server} : CountAgrees server ↔ excess server = 0 := by
  unfold CountAgrees excess
  omega

theorem weight_of_active {c : ServerClient} (h : c.is_active = true) : c.weight = 1 := if_pos h

theorem weight_of_inactive {c : ServerClient} (h : c.is_active = false) : c.weight = 0 :=
  if_neg (Bool.eq_false_iff.mp h)

theorem activeCount_setSlot (server : Server) (i : Fin MAX_CLIENTS) (c : ServerClient) :
    activeCount (server.setSlot i c) + (server.clients i).weight = activeCount server + c.weight :=
  total_update ServerClient.weight server.clients i c

theorem activeCount_eq_zero_iff {server : Server} :
    activeCount server = 0 ↔ ∀ i, (server.clients i).is_active = false := by
  constructor
  · intro hzero i
    -- One active slot alone would make the sum positive.
    by_contra hactive
    have hone := weight_of_active (Bool.not_eq_false _ ▸ hactive)
    have hle := le_total ServerClient.weight server.clients i
    unfold activeCount at hzero
    omega
  · exact fun hall => total_eq_zero _ fun i => weight_of_inactive (hall i)

/-- Rewriting a slot without touching its flag. -/
theorem excess_setSlot (server : Server) (i : Fin MAX_CLIENTS) (c : ServerClient)
    (hactive : c.is_active = (server.clients i).is_active) :
    excess (server.setSlot i c) = excess server := by
  have hcount := activeCount_setSlot server i c
  have hweight : c.weight = (server.clients i).weight := by
    unfold ServerClient.weight
    rw [hactive]
  unfold excess
  change server.client_count - _ = _
  omega

/-- A free slot is filled in and counted, whatever thread is recorded in it. -/
theorem excess_filled {server : Server} {i : Fin MAX_CLIENTS} (hfree : freeSlot server = some i)
    (c : ServerClient) (hactive : c.is_active = true) :
    excess { server.setSlot i c with client_count := server.client_count + 1 }
      = excess server := by
  have hcount := activeCount_setSlot server i c
  have hwas := firstSlot_some hfree
  rw [Bool.not_eq_true'] at hwas
  rw [weight_of_inactive hwas, weight_of_active hactive] at hcount
  change server.client_count + 1 - (activeCount (server.setSlot i c) : Int) = _
  unfold excess
  omega

theorem excess_fillSlot (server : Server) (fd : Int) (client_addr : SockAddrIn)
    (client_id : List UInt8) (now : TimeT) :
    excess (fillSlot server fd client_addr client_id now).1 = excess server := by
  unfold fillSlot
  cases hfree : freeSlot server with
  | none => rfl
  | some i => exact excess_filled hfree _ rfl

theorem excess_remove_client (server : Server) (i : Fin MAX_CLIENTS) :
    excess (remove_client server i).1 = excess server := by
  rw [remove_client]
  by_cases hactive : (server.clients i).is_active = true
  · have hcount := activeCount_setSlot server i (cleared (server.clients i))
    rw [weight_of_active hactive, weight_of_inactive rfl] at hcount
    rw [if_pos hactive]
    change server.client_count - 1 - (activeCount (server.setSlot i _) : Int) = _
    unfold excess
    omega
  · rw [if_neg hactive]

/-- After `server_init` there is nobody, and nobody is counted. -/
theorem excess_init {port : Int} {mutex : Bool} {fd : Int} {server : Server}
    (h : server_init port mutex fd = some server) : excess server = 0 := by
  have hnone : activeCount server = 0 := by
    rw [activeCount_eq_zero_iff, server_init_some h]
    exact fun _ => rfl
  unfold excess
  rw [hnone, server_init_some h]
  rfl

/-- The flag of a slot is cleared behind the count's back. -/
structure HangsUp (i : Fin MAX_CLIENTS) (server server' : Server) : Prop where
  count : server'.client_count = server.client_count
  cleared : (server'.clients i).is_active = false
  other : ∀ j, j ≠ i → (server'.clients j).is_active = (server.clients j).is_active

theorem hangsUp_setSlot (server : Server) (i : Fin MAX_CLIENTS) (c : ServerClient)
    (hc : c.is_active = false) : HangsUp i server (server.setSlot i c) where
  count := rfl
  cleared := by
    rw [setSlot_self]
    exact hc
  other j hj := by rw [setSlot_other server c hj]

theorem hangsUp_inactive {server : Server} {i : Fin MAX_CLIENTS}
    (h : (server.clients i).is_active = false) : HangsUp i server server :=
  ⟨rfl, h, fun _ _ => rfl⟩

/-- A loop whose body does this for each slot in turn does it for all. -/
theorem hangsUp_foldl {σ : Type*} {f : σ → Fin MAX_CLIENTS → σ} (view : σ → Server)
    (hf : ∀ acc i, HangsUp i (view acc) (view (f acc i))) (acc : σ) :
    (view ((List.finRange MAX_CLIENTS).foldl f acc)).client_count = (view acc).client_count ∧
      ∀ i, ((view ((List.finRange MAX_CLIENTS).foldl f acc)).clients i).is_active = false := by
  constructor
  · exact @foldl_preserves _ _ f (fun acc' => (view acc').client_count = (view acc).client_count)
      (fun acc' i h => (hf acc' i).count.trans h) _ acc rfl
  · intro i
    refine foldl_establishes (P := fun i acc => ((view acc).clients i).is_active = false) _
      (fun i _ acc => (hf acc i).cleared) (fun i _ j acc h => ?_) acc i (List.mem_finRange i)
    -- A later visit may be to the same slot, and leaves it cleared too.
    by_cases hji : j = i
    · rw [hji]
      exact (hf acc i).cleared
    · exact ((hf acc i).other j hji).trans h

/-- A step that leaves the count and clears every flag leaves the count right
    if it was, and nobody was there. -/
theorem countAgrees_stopping {server server' : Server}
    (hcount : server'.client_count = server.client_count)
    (hall : ∀ i, (server'.clients i).is_active = false) (h : 0 ≤ excess server) :
    0 ≤ excess server' ∧
      (CountAgrees server' ↔ CountAgrees server ∧ ∀ i, (server.clients i).is_active = false) := by
  have hnone := activeCount_eq_zero_iff.mpr hall
  -- All of the count is excess now, so it is right only if it was zero, and then
  -- there was no room for active slots.
  rw [← activeCount_eq_zero_iff]
  unfold CountAgrees excess at *
  rw [hnone, hcount]
  omega

end Chat

end OsLabs
