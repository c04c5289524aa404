import OsLabs.Lab11.Server

/-!
# The Registry over Whole Runs

The registry of the UDP server is sound in every state the server can reach,
whatever datagrams arrive, wherever they come from, and however sweeps fall
between them.

Registration is implicit: any message but STOP registers its sender. What
keeps names distinct is that a name is looked up before it is registered, in
the same critical section, and that a name fits into its slot whole, a valid
name being shorter than the array that holds it. What bounds the count of
missed sweeps is that the third miss removes the client within the sweep that
notes it.

## Theorems

* `kept_registryInv`: Each change to a registry keeps it sound.
* `registry_sound`: The registry is sound in every reachable state.
* `registry_sound_run`: A registration, a sweep and a lookup.
-/

namespace OsLabs

namespace Lab11

open Chat

/-- Each change the server makes keeps the registry sound. A slot heard from
    or counted keeps its name, so it stays different from the others. -/
theorem kept_registryInv : Kept RegistryInv where
  added server client_addr client_id now hinv hvalid hnew :=
    registryInv_fillSlot hinv server.server_socket client_addr client_id now hvalid hnew
  heard server i client_addr now hinv hactive := by
    -- Hearing from a client sets its count back to zero.
    have hzero : (0 : Int) ≤ 0 ∧ (0 : Int) < MAX_INACTIVE_COUNT := by decide
    exact registryInv_touch hinv i _ rfl fun _ => ⟨hactive, hzero⟩
  missed server i hinv hactive hcount := by
    -- A miss is noted for a client that is not removed for it.
    have hlow : 0 ≤ (server.clients i).inactive_count + 1 := by
      have hzero := (hinv.count i hactive).1
      omega
    exact registryInv_touch hinv i _ rfl fun _ => ⟨hactive, hlow, hcount⟩
  removed _ i hinv := registryInv_remove hinv i

theorem registryInv_start {port : Int} {fd : Nat} {others : Int → Bool} {s : State}
    (h : start port fd others = some s) : RegistryInv s.host.server := by
  rcases Option.map_eq_some_iff.mp h with ⟨server, hinit, rfl⟩
  have hinv := registryInv_init hinit
  exact ⟨hinv.distinct, hinv.valid, hinv.count⟩

/-- In every state reached from the start of the server the names of active
    slots are distinct and valid, no active slot has missed too many sweeps,
    and a search by name finds the one active slot with that name, or nothing
    exactly when there is none. -/
theorem registry_sound (port : Int) (fd : Nat) (others : Int → Bool) (s t : State)
    (hstart : start port fd others = some s) (hreach : Reachable step s t) :
    (∀ i j, (t.host.server.clients i).is_active = true →
      (t.host.server.clients j).is_active = true →
      (t.host.server.clients i).client_id.str = (t.host.server.clients j).client_id.str →
      i = j) ∧
    (∀ i, (t.host.server.clients i).is_active = true →
      validate_client_id (t.host.server.clients i).client_id.bytes = true ∧
      0 ≤ (t.host.server.clients i).inactive_count ∧
      (t.host.server.clients i).inactive_count < MAX_INACTIVE_COUNT) ∧
    (∀ client_id i, find_client_by_id t.host.server client_id = some i ↔
      (t.host.server.clients i).is_active = true ∧
        (t.host.server.clients i).client_id.str = cstr client_id) ∧
    (∀ client_id, find_client_by_id t.host.server client_id = none ↔
      ∀ i, (t.host.server.clients i).is_active = true →
        (t.host.server.clients i).client_id.str ≠ cstr client_id) := by
  have hinv := reachable_preserves kept_registryInv (registryInv_start hstart) hreach
  exact ⟨hinv.distinct, fun i hi => ⟨hinv.valid i hi, hinv.count i hi⟩,
    find_client_by_id_eq_some_iff hinv, fun client_id => find_client_by_id_none⟩

/-- A client asks for the list, and a sweep finds it silent. -/
def registration : List Event :=
  [.receive (create_message .MSG_LIST (bytes "ann") [] [] 0) { sin_addr := 1, sin_port := 2 } 0 0
      none,
    .dispatch 0 none (fun _ => none),
    .sweep { now := 50, stamp := 50, results := fun _ => some SIZEOF_MESSAGE }]

/-- The client that asked is registered by it, survives the sweep, and is
    still the one found under its name. -/
theorem registry_sound_run :
    ∃ s t, start 5000 3 (fun _ => false) = some s ∧ run step s registration = some t ∧
      find_client_by_id t.host.server (bytes "ann") = some ⟨0, by decide⟩ := by
  have hend : ((start 5000 3 (fun _ => false)).bind fun s => run step s registration).map
      (fun t => let c := t.host.server.clients ⟨0, by decide⟩; (c.is_active, c.client_id.str))
        = some (true, cstr (bytes "ann")) := by decide +kernel
  rcases Option.map_eq_some_iff.mp hend with ⟨t, hbind, hslot⟩
  rcases Option.bind_eq_some_iff.mp hbind with ⟨s, hstart, hrun⟩
  rcases Prod.mk.inj hslot with ⟨hactive, hname⟩
  have hsound := registry_sound 5000 3 (fun _ => false) s t hstart (reachable_of_run hrun)
  exact ⟨s, t, hstart, hrun, (hsound.2.2.1 _ _).mpr ⟨hactive, hname⟩⟩

end Lab11

end OsLabs
