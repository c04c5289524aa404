import Mathlib.Logic.Function.Basic
import OsLabs.Chat.Common
import OsLabs.Core.Table

/-!
# The Client Registry

The table of clients both chat servers keep, and the functions of `server.c`
that work on it. lab10 (TCP) and lab11 (UDP) use the same record; they differ
in what the descriptor of a slot is. In lab10 it is the descriptor `accept`
returned for that client. In lab11 every slot holds a copy of the one
descriptor the server receives on.

Closing a descriptor is an effect outside the table, so a function that
closes any returns them along with the new table, and the model of the
operating system does the rest.

A registry is sound, `RegistryInv`, when the names of active slots are valid
and distinct and no active slot has been silent too often. Three operations
change the table, and each has its lemma: filling an inactive slot with a new
name, refreshing a slot, and removing one. `find_client_by_id_eq_some_iff` is
what soundness buys: a search by name finds the one active slot with that name.

## Main definitions

* `SockAddrIn`, `ServerClient`, `Server`: The records.
* `server_init`: The server's record at the start.
* `find_client_by_id`, `find_client_by_socket`: The searches.
* `add_client`, `add_client_udp`: Registration in lab10 and in lab11.
* `remove_client`: Removal.
* `silent`, `missed`: What the keepalive thread looks for and notes.
* `clientList`: The text of a client list.
* `RegistryInv`: Soundness of a registry.

## Theorems

* `find_client_by_id_some`, `find_client_by_id_none`: What a search tells.
* `find_client_by_id_eq_some_iff`: What it tells in a sound registry.
* `registryInv_init`: The registry is sound at the start.
* `registryInv_setSlot`: A slot may be given a name no other slot has.
* `registryInv_remove`: Removal preserves soundness.
-/

namespace OsLabs

namespace Chat

def MAX_INACTIVE_COUNT : Int := 3
def KEEPALIVE_INTERVAL : Int := 30

/-- An IPv4 address and a port. -/
structure SockAddrIn where
  sin_addr : BitVec 32
  sin_port : BitVec 16
  deriving DecidableEq

structure ServerClient where
  socket_fd : Int
  client_id : CharArray MAX_CLIENT_NAME
  addr : SockAddrIn
  last_seen : TimeT
  inactive_count : Int
  is_active : Bool
  /-- Zero is no thread. -/
  thread_id : Nat
  deriving DecidableEq

/-- The server's record, without its mutex and its keepalive thread, which are
    part of the systems built on it. -/
structure Server where
  server_socket : Int
  port : Int
  clients : Fin MAX_CLIENTS → ServerClient
  client_count : Int
  is_running : Bool

/-- A slot as `server_init` leaves it. -/
def freshSlot : ServerClient where
  socket_fd := -1
  client_id := CharArray.zero MAX_CLIENT_NAME
  addr := { sin_addr := 0, sin_port := 0 }
  last_seen := 0
  inactive_count := 0
  is_active := false
  thread_id := 0

/-- `server_init`, or `none` when it returns -1. Whether the mutex can be
    created is `mutex`, and `server_socket` is what `create_server_socket`
    returns. -/
def server_init (port : Int) (mutex : Bool) (server_socket : Int) : Option Server :=
  if port < PORT_MIN || port > PORT_MAX then none
  else if !mutex then none
  else if server_socket = -1 then none
  else some
    { server_socket := server_socket
      port := port
      clients := fun _ => freshSlot
      client_count := 0
      is_running := false }

/-- Change one slot of the table. -/
def Server.setSlot (server : Server) (i : Fin MAX_CLIENTS) (c : ServerClient) : Server :=
  { server with clients := Function.update server.clients i c }

/-- `find_client_by_id`, `none` being the index -1. -/
def find_client_by_id (server : Server) (client_id : List UInt8) : Option (Fin MAX_CLIENTS) :=
  firstSlot fun i =>
    (server.clients i).is_active && strcmp_eq (server.clients i).client_id.bytes client_id

/-- `find_client_by_socket`, `none` being the index -1. -/
def find_client_by_socket (server : Server) (socket : Int) : Option (Fin MAX_CLIENTS) :=
  if socket < 0 then none
  else firstSlot fun i =>
    (server.clients i).is_active && decide ((server.clients i).socket_fd = socket)

/-- The first slot that is not active. -/
def freeSlot (server : Server) : Option (Fin MAX_CLIENTS) :=
  firstSlot fun i => !(server.clients i).is_active

/-- A slot filled in for a new client. -/
def filled (c : ServerClient) (fd : Int) (client_addr : SockAddrIn) (client_id : List UInt8)
    (now : TimeT) : ServerClient where
  socket_fd := fd
  client_id := safe_strcpy c.client_id client_id MAX_CLIENT_NAME
  addr := client_addr
  last_seen := now
  inactive_count := 0
  is_active := true
  thread_id := 0

/-- The loop shared by `add_client` and `add_client_udp`: the first inactive
    slot is filled in for the client. The index returned is `none` when there
    is none. -/
def fillSlot (server : Server) (fd : Int) (client_addr : SockAddrIn) (client_id : List UInt8)
    (now : TimeT) : Server × Option (Fin MAX_CLIENTS) :=
  match freeSlot server with
  | none => (server, none)
  | some i =>
    ({ server.setSlot i (filled (server.clients i) fd client_addr client_id now) with
      client_count := server.client_count + 1 }, some i)

/-- `add_client` of lab10. -/
def add_client (server : Server) (client_socket : Int) (client_addr : SockAddrIn)
    (client_id : List UInt8) (now : TimeT) : Server × Option (Fin MAX_CLIENTS) :=
  if client_socket < 0 then (server, none)
  else fillSlot server client_socket client_addr client_id now

/-- `add_client_udp` of lab11: the slot's descriptor is the server's own. -/
def add_client_udp (server : Server) (client_addr : SockAddrIn) (client_id : List UInt8)
    (now : TimeT) : Server × Option (Fin MAX_CLIENTS) :=
  fillSlot server server.server_socket client_addr client_id now

/-- A slot as `remove_client` leaves it. -/
def cleared (c : ServerClient) : ServerClient :=
  { c with
    socket_fd := -1
    is_active := false
    inactive_count := 0
    thread_id := 0
    client_id := CharArray.zero MAX_CLIENT_NAME }

/-- `remove_client`: the new table, and the descriptors passed to `close` on
    the way. -/
def remove_client (server : Server) (i : Fin MAX_CLIENTS) : Server × List Int :=
  if (server.clients i).is_active then
    ({ server.setSlot i (cleared (server.clients i)) with
        client_count := server.client_count - 1 },
      -- `safe_close_socket`
      if (server.clients i).socket_fd = -1 then [] else [(server.clients i).socket_fd])
  else (server, [])

/-- A client has been silent for longer than the keepalive interval. -/
def silent (now : TimeT) (c : ServerClient) : Bool :=
  now.toInt - c.last_seen.toInt > KEEPALIVE_INTERVAL

/-- The slot of a client that has been silent for one more sweep. -/
def missed (c : ServerClient) : ServerClient :=
  { c with inactive_count := c.inactive_count + 1 }

/-- The text of a client list, as `handle_list_request_udp` of lab11 and
    `send_client_list` of lab10 build it: the names of the active slots in slot
    order, appended one by one to a buffer of the size of a message. -/
def clientList (server : Server) : CharArray MAX_MESSAGE_SIZE :=
  let start := safe_strcpy (CharArray.zero MAX_MESSAGE_SIZE) (bytes "Connected clients: ")
    MAX_MESSAGE_SIZE
  let listed := (List.finRange MAX_CLIENTS).foldl (fun acc i =>
    if (server.clients i).is_active then
      let text := if acc.2 then acc.1 else safe_strcat acc.1 (bytes ", ") MAX_MESSAGE_SIZE
      (safe_strcat text (server.clients i).client_id.bytes MAX_MESSAGE_SIZE, false)
    else acc) (start, true)
  if listed.2 then safe_strcpy listed.1 (bytes "No clients connected") MAX_MESSAGE_SIZE
  else listed.1

theorem setSlot_self (server : Server) (i : Fin MAX_CLIENTS) (c : ServerClient) :
    (server.setSlot i c).clients i = c := by
  simp only [Server.setSlot, Function.update_self]

theorem setSlot_other (server : Server) {i j : Fin MAX_CLIENTS} (c : ServerClient) (h : j ≠ i) :
    (server.setSlot i c).clients j = server.clients j := by
  simp only [Server.setSlot, Function.update_of_ne h]

/-- A search by name that succeeds has found an active slot with that name. -/
theorem find_client_by_id_some {server : Server} {client_id : List UInt8} {i : Fin MAX_CLIENTS}
    (h : find_client_by_id server client_id = some i) :
    (server.clients i).is_active = true ∧ (server.clients i).client_id.str = cstr client_id := by
  have hp := firstSlot_some h
  rw [Bool.and_eq_true, strcmp_eq, decide_eq_true_eq] at hp
  exact hp

/-- A search by name that fails tells that no active slot has that name. -/
theorem find_client_by_id_none {server : Server} {client_id : List UInt8} :
    find_client_by_id server client_id = none ↔
      ∀ i, (server.clients i).is_active = true →
        (server.clients i).client_id.str ≠ cstr client_id := by
  rw [find_client_by_id, firstSlot_eq_none_iff]
  refine forall_congr' fun i => ?_
  rw [Bool.eq_false_iff, Ne, Bool.and_eq_true, strcmp_eq, decide_eq_true_eq, not_and]
  rfl

/-- A search by descriptor that succeeds has found an active slot with it. -/
theorem find_client_by_socket_some {server : Server} {socket : Int} {i : Fin MAX_CLIENTS}
    (h : find_client_by_socket server socket = some i) :
    0 ≤ socket ∧ (server.clients i).is_active = true ∧ (server.clients i).socket_fd = socket := by
  unfold find_client_by_socket at h
  split_ifs at h with hneg
  have hp := firstSlot_some h
  rw [Bool.and_eq_true, decide_eq_true_eq] at hp
  exact ⟨by omega, hp⟩

/-- Removal leaves every other slot as it is. -/
theorem remove_client_other (server : Server) {i j : Fin MAX_CLIENTS} (h : j ≠ i) :
    (remove_client server i).1.clients j = server.clients j := by
  rw [remove_client]
  by_cases hactive : (server.clients i).is_active = true
  · rw [if_pos hactive]
    exact setSlot_other server _ h
  · -- Removing a slot that is not active does nothing at all.
    rw [if_neg hactive]

/-- After a removal the slot is not active, whether it was before or not. -/
theorem remove_client_inactive (server : Server) (i : Fin MAX_CLIENTS) :
    ((remove_client server i).1.clients i).is_active = false := by
  rw [remove_client]
  by_cases hactive : (server.clients i).is_active = true
  · rw [if_pos hactive]
    exact congrArg ServerClient.is_active (setSlot_self server i _)
  · rw [if_neg hactive]
    exact Bool.eq_false_iff.mpr hactive

/-- Removal does not depend on the count, which it resets. -/
theorem remove_client_missed {server : Server} (i : Fin MAX_CLIENTS)
    (hactive : (server.clients i).is_active = true) :
    remove_client (server.setSlot i (missed (server.clients i))) i
      = remove_client server i := by
  rw [remove_client, remove_client, setSlot_self, missed, if_pos hactive, if_pos hactive]
  simp only [cleared, Server.setSlot, Function.update_idem]

/-- Where a client is added it is in the first slot that was not active. -/
theorem fillSlot_some {server server' : Server} {fd : Int} {client_addr : SockAddrIn}
    {client_id : List UInt8} {now : TimeT} {i : Fin MAX_CLIENTS}
    (h : fillSlot server fd client_addr client_id now = (server', some i)) :
    freeSlot server = some i ∧
      server' = { server.setSlot i (filled (server.clients i) fd client_addr client_id now) with
        client_count := server.client_count + 1 } := by
  unfold fillSlot at h
  cases hfree : freeSlot server with
  | none => simp [hfree] at h
  | some j =>
      simp only [hfree, Prod.mk.injEq, Option.some.injEq] at h
      rcases h with ⟨rfl, rfl⟩
      exact ⟨rfl, rfl⟩

/-- `add_client` succeeds only for a descriptor that can be one. -/
theorem add_client_some {server server' : Server} {fd : Int} {client_addr : SockAddrIn}
    {client_id : List UInt8} {now : TimeT} {i : Fin MAX_CLIENTS}
    (h : add_client server fd client_addr client_id now = (server', some i)) :
    0 ≤ fd ∧ fillSlot server fd client_addr client_id now = (server', some i) := by
  unfold add_client at h
  split_ifs at h with hfd
  · exact absurd (congrArg Prod.snd h) (by simp)
  · exact ⟨by omega, h⟩

/-- Soundness of a registry. -/
structure RegistryInv (server : Server) : Prop where
  distinct : ∀ i j, (server.clients i).is_active = true → (server.clients j).is_active = true →
    (server.clients i).client_id.str = (server.clients j).client_id.str → i = j
  valid : ∀ i, (server.clients i).is_active = true →
    validate_client_id (server.clients i).client_id.bytes = true
  count : ∀ i, (server.clients i).is_active = true →
    0 ≤ (server.clients i).inactive_count ∧ (server.clients i).inactive_count < MAX_INACTIVE_COUNT

/-- In a sound registry a search by name finds the one active slot that has
    the name. -/
theorem find_client_by_id_eq_some_iff {server : Server} (hinv : RegistryInv server)
    (client_id : List UInt8) (i : Fin MAX_CLIENTS) :
    find_client_by_id server client_id = some i ↔
      (server.clients i).is_active = true ∧
        (server.clients i).client_id.str = cstr client_id := by
  refine ⟨find_client_by_id_some, fun h => ?_⟩
  cases hfound : find_client_by_id server client_id with
  | none => exact absurd h.2 (find_client_by_id_none.mp hfound i h.1)
  | some j =>
      -- Two slots with the name are the same slot.
      rcases find_client_by_id_some hfound with ⟨hactive, hname⟩
      rw [hinv.distinct i j h.1 hactive (h.2.trans hname.symm)]

/-- What `server_init` leaves when it succeeds. -/
theorem server_init_some {port : Int} {mutex : Bool} {fd : Int} {server : Server}
    (h : server_init port mutex fd = some server) :
    server = { server_socket := fd, port := port, clients := fun _ => freshSlot, client_count := 0,
               is_running := false } := by
  rw [server_init] at h
  -- Every way out but the last returns -1.
  split_ifs at h
  exact (Option.some.inj h).symm

theorem registryInv_init {port : Int} {mutex : Bool} {fd : Int} {server : Server}
    (h : server_init port mutex fd = some server) : RegistryInv server := by
  -- No slot is active yet, so nothing is asked of any.
  rw [server_init_some h]
  exact ⟨fun i j hi => absurd hi Bool.false_ne_true, fun i hi => absurd hi Bool.false_ne_true,
    fun i hi => absurd hi Bool.false_ne_true⟩

/-- A sound registry stays sound when a slot is rewritten, as long as what is
    written is active only under a valid name that no other active slot has,
    and with a count within the limit. -/
theorem registryInv_setSlot {server : Server} (hinv : RegistryInv server) (i : Fin MAX_CLIENTS)
    (c : ServerClient)
    (hc : c.is_active = true → validate_client_id c.client_id.bytes = true ∧
      (0 ≤ c.inactive_count ∧ c.inactive_count < MAX_INACTIVE_COUNT) ∧
      ∀ j, j ≠ i → (server.clients j).is_active = true →
        (server.clients j).client_id.str ≠ c.client_id.str) :
    RegistryInv (server.setSlot i c) := by
  refine ⟨?_, ?_, ?_⟩
  · -- The rewritten slot has a name of its own; the others had theirs before.
    intro j k
    by_cases hj : j = i
    · by_cases hk : k = i
      · -- There is one slot only.
        intro _ _ _
        rw [hj, hk]
      · rw [hj, setSlot_self, setSlot_other server c hk]
        intro hcactive hactive hname
        exact absurd hname.symm ((hc hcactive).2.2 k hk hactive)
    · by_cases hk : k = i
      · rw [hk, setSlot_self, setSlot_other server c hj]
        intro hactive hcactive hname
        exact absurd hname ((hc hcactive).2.2 j hj hactive)
      · rw [setSlot_other server c hj, setSlot_other server c hk]
        exact hinv.distinct j k
  · intro j
    by_cases hj : j = i
    · rw [hj, setSlot_self]
      exact fun hcactive => (hc hcactive).1
    · rw [setSlot_other server c hj]
      exact hinv.valid j
  · intro j
    by_cases hj : j = i
    · rw [hj, setSlot_self]
      exact fun hcactive => (hc hcactive).2.1
    · rw [setSlot_other server c hj]
      exact hinv.count j

/-- So it does when the slot keeps its name and is not made active. -/
theorem registryInv_touch {server : Server} (hinv : RegistryInv server) (i : Fin MAX_CLIENTS)
    (c : ServerClient) (hname : c.client_id = (server.clients i).client_id)
    (hactive : c.is_active = true → (server.clients i).is_active = true ∧
      0 ≤ c.inactive_count ∧ c.inactive_count < MAX_INACTIVE_COUNT) :
    RegistryInv (server.setSlot i c) := by
  refine registryInv_setSlot hinv i c fun hc => ?_
  rcases hactive hc with ⟨hi, hcount⟩
  -- The name was valid and the slot's own before.
  rw [hname]
  exact ⟨hinv.valid i hi, hcount, fun j hj hjactive heq => hj (hinv.distinct j i hjactive hi heq)⟩

/-- Soundness is about the table only. -/
theorem registryInv_count {server : Server} (hinv : RegistryInv server) (count : Int) :
    RegistryInv { server with client_count := count } :=
  ⟨hinv.distinct, hinv.valid, hinv.count⟩

theorem registryInv_remove {server : Server} (hinv : RegistryInv server) (i : Fin MAX_CLIENTS) :
    RegistryInv (remove_client server i).1 := by
  rw [remove_client]
  by_cases hactive : (server.clients i).is_active = true
  · rw [if_pos hactive]
    exact registryInv_count (registryInv_setSlot hinv i _
      fun hc => absurd hc Bool.false_ne_true) _
  · rw [if_neg hactive]
    exact hinv

/-- A valid name is shorter than the array, so a slot filled in for it holds all
    of it. -/
theorem filled_name (c : ServerClient) (fd : Int) (client_addr : SockAddrIn)
    {client_id : List UInt8} (now : TimeT) (hvalid : validate_client_id client_id = true) :
    (filled c fd client_addr client_id now).client_id.str = cstr client_id := by
  have hlen : (cstr client_id).length ≤ MAX_CLIENT_NAME - 1 := by
    have hlt := ((validate_client_id_iff client_id).mp hvalid).2.1
    rw [strlen] at hlt
    omega
  change (safe_strcpy c.client_id client_id MAX_CLIENT_NAME).str = cstr client_id
  rw [str_safe_strcpy _ _ (by decide) (Nat.le_refl _), List.take_of_length_le hlen]

/-- Registering a valid name that no active slot has keeps the registry
    sound. The name fits into the slot, so nothing is cut off and it stays
    different from the others. -/
theorem registryInv_fillSlot {server : Server} (hinv : RegistryInv server) (fd : Int)
    (client_addr : SockAddrIn) (client_id : List UInt8) (now : TimeT)
    (hvalid : validate_client_id client_id = true)
    (hnew : find_client_by_id server client_id = none) :
    RegistryInv (fillSlot server fd client_addr client_id now).1 := by
  rw [fillSlot]
  cases hfree : freeSlot server with
  -- Without a free slot nobody is added.
  | none => exact hinv
  | some i =>
      have hname : (safe_strcpy (server.clients i).client_id client_id MAX_CLIENT_NAME).str
          = cstr client_id := filled_name (server.clients i) fd client_addr now hvalid
      have hzero : (0 : Int) ≤ 0 ∧ (0 : Int) < MAX_INACTIVE_COUNT := by decide
      refine registryInv_count (registryInv_setSlot hinv i _ fun _ => ⟨?_, hzero, ?_⟩) _
      · -- What the slot holds denotes the name that has been judged.
        rw [← validate_client_id_cstr]
        change validate_client_id
          (safe_strcpy (server.clients i).client_id client_id MAX_CLIENT_NAME).str = true
        rw [hname, validate_client_id_cstr, hvalid]
      · -- The search that failed covers all active slots.
        intro j _ hactive
        change _ ≠ (safe_strcpy (server.clients i).client_id client_id MAX_CLIENT_NAME).str
        rw [hname]
        exact find_client_by_id_none.mp hnew j hactive

end Chat

end OsLabs
