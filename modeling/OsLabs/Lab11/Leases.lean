import OsLabs.Core.Keyed
import OsLabs.Core.Simulation
import OsLabs.Chat.ClientList
import OsLabs.Lab11.Frame
import OsLabs.Lab11.Keepalive

/-!
# The Server as a Directory of Leases

What the UDP server is for, without its table. It keeps a directory from names
to leases. A lease says where its client is, when it was heard last, and how
often it has been found silent since. Whoever sends something gets a lease or
renews it, as long as there are fewer leases than `MAX_CLIENTS`; a STOP ends a
lease; and a sweep looks at each lease by itself, ends it, keeps it, or keeps it
and reminds the client. What the server sends depends on the directory only.

There is one thing about the server that is not in this picture, the descriptor
it sends on. It is closed with the first lease that ends, and from then on nobody
can be reached. So the specification has it.

The specification is a relation. It leaves open in which order the names come in a
list, a broadcast or a sweep, and which clients a sweep reaches.

## Main definitions

* `Lease`, `Lease.swept`, `Lease.reminders`: A lease, and what a sweep makes of it.
* `Office`: The state of the specification.
* `Serves`: A step of the specification, with what is sent.
* `Holds`: A state of the server is one of the specification.
* `posts`: Where a step sends what.

## Theorems

* `enroll_moves_cases`: The ways a datagram can be taken in.
* `sweep_visits`: A sweep treats every slot by itself.
* `sweep_open_lost`: It closes the descriptor if it removes somebody.
* `serves_receive`, `serves_dispatch`, `serves_sweep`: The three kinds of steps.
* `server_refines_directory`: Every run of the server is one of the directory.
* `silent_removed_at_once`: What becomes of silent clients after a removal.
-/

namespace OsLabs

namespace Lab11

namespace Leases

open Chat

/-- What the server knows of a client. -/
structure Lease where
  addr : SockAddrIn
  last_seen : TimeT
  misses : Int
  deriving DecidableEq

/-- The client has not been heard for longer than the keepalive interval. -/
def Lease.silent (now : TimeT) (lease : Lease) : Prop :=
  now.toInt - lease.last_seen.toInt > KEEPALIVE_INTERVAL

instance decidableSilent (now : TimeT) (lease : Lease) : Decidable (lease.silent now) :=
  inferInstanceAs (Decidable (_ > _))

/-- What a sweep makes of a lease, if it can reach the client or not. -/
def Lease.swept (now : TimeT) (reached : Bool) (lease : Lease) : Option Lease :=
  if ¬ lease.silent now then some lease
  else if lease.misses + 1 ≥ MAX_INACTIVE_COUNT then none
  else if reached then some { lease with misses := lease.misses + 1 }
  else none

/-- A message and the address it is sent to. -/
abbrev Post := SockAddrIn × Message

/-- What a sweep sends for a lease. -/
def Lease.reminders (now stamp : TimeT) (name : List UInt8) (lease : Lease) : List Post :=
  if lease.silent now ∧ lease.misses + 1 < MAX_INACTIVE_COUNT then
    [(lease.addr, create_message .MSG_ALIVE serverName name [] stamp)]
  else []

/-- The directory, the datagram taken in and not yet handled, and whether the
    server's descriptor is open. -/
structure Office where
  directory : List UInt8 → Option Lease
  pending : Option (Message × SockAddrIn)
  isOpen : Bool

/-- There are as many leases as there may be. -/
def Office.Full (o : Office) : Prop := {name | o.directory name ≠ none}.ncard = MAX_CLIENTS

/-- All names of the directory, in some order. -/
def Office.Enumerated (o : Office) (names : List (List UInt8)) : Prop :=
  names.Nodup ∧ ∀ name, name ∈ names ↔ o.directory name ≠ none

/-- A lease is granted or renewed. -/
def Office.renewed (o : Office) (msg : Message) (addr : SockAddrIn) (now : TimeT) : Office :=
  { o with
    directory := Function.update o.directory msg.sender_id.str
      (some { addr := addr, last_seen := now, misses := 0 })
    pending := some (msg, addr) }

/-- A step of the server as the directory sees it, with what it sends. -/
inductive Serves (o : Office) : Event → List Post → Office → Prop
  | ignored {msg : Message} {addr : SockAddrIn} {checked now : TimeT} {result : Option Nat}
      (idle : o.pending = none) (bad : validate_message msg checked = false) :
      Serves o (.receive msg addr checked now result) [] o
  | known {msg : Message} {addr : SockAddrIn} {checked now : TimeT} {result : Option Nat}
      (idle : o.pending = none) (good : validate_message msg checked = true)
      (registered : o.directory msg.sender_id.str ≠ none) :
      Serves o (.receive msg addr checked now result) [] (o.renewed msg addr now)
  | stranger {msg : Message} {addr : SockAddrIn} {checked now : TimeT} {result : Option Nat}
      (idle : o.pending = none) (good : validate_message msg checked = true)
      (absent : o.directory msg.sender_id.str = none)
      (stop : msg.type = MessageType.MSG_STOP.code) :
      Serves o (.receive msg addr checked now result) [] { o with pending := some (msg, addr) }
  | welcome {msg : Message} {addr : SockAddrIn} {checked now : TimeT} {result : Option Nat}
      (idle : o.pending = none) (good : validate_message msg checked = true)
      (absent : o.directory msg.sender_id.str = none) (other : msg.type ≠ MessageType.MSG_STOP.code)
      (valid : validate_client_id msg.sender_id.bytes = true) (room : ¬ o.Full) :
      Serves o (.receive msg addr checked now result) [] (o.renewed msg addr now)
  | misnamed {msg : Message} {addr : SockAddrIn} {checked now : TimeT} {result : Option Nat}
      (idle : o.pending = none) (good : validate_message msg checked = true)
      (absent : o.directory msg.sender_id.str = none) (other : msg.type ≠ MessageType.MSG_STOP.code)
      (invalid : validate_client_id msg.sender_id.bytes = false) :
      Serves o (.receive msg addr checked now result)
        [(addr, create_message .MSG_ERROR serverName msg.sender_id.bytes
          (bytes "Invalid client ID format") now)] o
  | refused {msg : Message} {addr : SockAddrIn} {checked now : TimeT} {result : Option Nat}
      (idle : o.pending = none) (good : validate_message msg checked = true)
      (absent : o.directory msg.sender_id.str = none) (other : msg.type ≠ MessageType.MSG_STOP.code)
      (valid : validate_client_id msg.sender_id.bytes = true) (full : o.Full) :
      Serves o (.receive msg addr checked now result)
        [(addr, create_message .MSG_ERROR serverName msg.sender_id.bytes
          (bytes "Server full or internal error") now)] o
  | list {msg : Message} {addr : SockAddrIn} {now : TimeT} {result : Option Nat}
      {results : Fin MAX_CLIENTS → Option Nat} (pending : o.pending = some (msg, addr))
      (type : msg.type = MessageType.MSG_LIST.code) (names : List (List UInt8))
      (all : o.Enumerated names) :
      Serves o (.dispatch now result results)
        [(addr, create_message .MSG_CLIENT_LIST serverName [] (listOf names) now)]
        { o with pending := none }
  | broadcast {msg : Message} {addr : SockAddrIn} {now : TimeT} {result : Option Nat}
      {results : Fin MAX_CLIENTS → Option Nat} (pending : o.pending = some (msg, addr))
      (type : msg.type = MessageType.MSG_2ALL.code) (names : List (List UInt8))
      (all : o.Enumerated names) :
      Serves o (.dispatch now result results)
        ((names.filter fun name => name ≠ msg.sender_id.str).filterMap fun name =>
          (o.directory name).map fun lease => (lease.addr,
            create_message .MSG_BROADCAST msg.sender_id.bytes [] msg.content.bytes now))
        { o with pending := none }
  | priv {msg : Message} {addr : SockAddrIn} {now : TimeT} {result : Option Nat}
      {results : Fin MAX_CLIENTS → Option Nat} (pending : o.pending = some (msg, addr))
      (type : msg.type = MessageType.MSG_2ONE.code) :
      Serves o (.dispatch now result results)
        ((o.directory msg.recipient_id.str).map fun lease => (lease.addr,
          create_message .MSG_PRIVATE msg.sender_id.bytes msg.recipient_id.bytes
            msg.content.bytes now)).toList
        { o with pending := none }
  | goodbye {msg : Message} {addr : SockAddrIn} {now : TimeT} {result : Option Nat}
      {results : Fin MAX_CLIENTS → Option Nat} (pending : o.pending = some (msg, addr))
      (type : msg.type = MessageType.MSG_STOP.code) :
      Serves o (.dispatch now result results)
        [(addr, create_message .MSG_STOP serverName [] (bytes "Goodbye!") now)]
        { directory := Function.update o.directory msg.sender_id.str none
          pending := none
          isOpen := o.isOpen && (o.directory msg.sender_id.str).isNone }
  | nothing {msg : Message} {addr : SockAddrIn} {now : TimeT} {result : Option Nat}
      {results : Fin MAX_CLIENTS → Option Nat} (pending : o.pending = some (msg, addr))
      (type : ∀ type : MessageType, type = .MSG_LIST ∨ type = .MSG_2ALL ∨ type = .MSG_2ONE ∨
        type = .MSG_STOP → msg.type ≠ type.code) :
      Serves o (.dispatch now result results) [] { o with pending := none }
  | sweep {input : SweepInput} (reached : List UInt8 → Bool)
      (closed : o.isOpen = false → ∀ name, reached name = false) (names : List (List UInt8))
      (all : o.Enumerated names) (isOpen : Bool)
      (stays : isOpen = true ↔ o.isOpen = true ∧ ∀ name, o.directory name ≠ none →
        (o.directory name).bind (Lease.swept input.now (reached name)) ≠ none) :
      Serves o (.sweep input)
        (names.flatMap fun name =>
          (o.directory name).elim [] (Lease.reminders input.now input.stamp name))
        { o with
          directory := fun name => (o.directory name).bind (Lease.swept input.now (reached name))
          isOpen := isOpen }

/-- What a slot holds. -/
def readSlot (c : ServerClient) : Option (List UInt8 × Lease) :=
  if c.is_active then
    some (c.client_id.str,
      { addr := c.addr, last_seen := c.last_seen, misses := c.inactive_count })
  else none

/-- The state of the server is one of the specification. -/
structure Holds (fd : Nat) (s : State) (o : Office) : Prop where
  sound : RegistryInv s.host.server
  shared : SharedFd fd s.host.server
  directory : Represents readSlot s.host.server.clients o.directory
  pending : s.pending = o.pending
  isOpen : s.host.open_fds fd = o.isOpen

/-- Where a step sends what: the calls of `sendto`, whatever they return. -/
def posts (s : State) (e : Event) : List Post := (sent s e).map fun d => (d.dest, d.message)

section Slots

variable {fd : Nat} {s : State} {o : Office} {c : ServerClient} {name : List UInt8} {lease : Lease}

theorem readSlot_active (h : c.is_active = true) : readSlot c = some (c.client_id.str,
    { addr := c.addr, last_seen := c.last_seen, misses := c.inactive_count }) := if_pos h

theorem readSlot_inactive (h : c.is_active = false) : readSlot c = none :=
  if_neg (by rw [h]; decide)

theorem readSlot_eq_none_iff : readSlot c = none ↔ c.is_active = false := by
  cases h : c.is_active with
  | true => simp [readSlot_active h]
  | false => simp [readSlot_inactive h]

theorem readSlot_some (h : readSlot c = some (name, lease)) :
    c.is_active = true ∧ c.client_id.str = name ∧
      lease = ⟨c.addr, c.last_seen, c.inactive_count⟩ := by
  cases hactive : c.is_active with
  | true =>
      rw [readSlot_active hactive, Option.some.injEq, Prod.mk.injEq] at h
      exact ⟨rfl, h.1, h.2.symm⟩
  | false =>
      rw [readSlot_inactive hactive] at h
      cases h

theorem apart_of_sound {server : Server} (h : RegistryInv server) :
    Apart readSlot server.clients := by
  intro i j name a b hi hj
  rcases readSlot_some hi with ⟨hactive, hname, _⟩
  rcases readSlot_some hj with ⟨hactive', hname', _⟩
  exact h.distinct i j hactive hactive' (hname.trans hname'.symm)

/-- A name that is found has a lease, in the slot that is found. -/
theorem Holds.found (h : Holds fd s o) {id : List UInt8} {i : Fin MAX_CLIENTS}
    (hfound : find_client_by_id s.host.server id = some i) :
    ∃ lease, readSlot (s.host.server.clients i) = some (cstr id, lease) ∧
      o.directory (cstr id) = some lease := by
  rcases find_client_by_id_some hfound with ⟨hactive, hname⟩
  have hread := readSlot_active hactive
  rw [hname] at hread
  exact ⟨_, hread, (h.directory _ _).mpr ⟨i, hread⟩⟩

/-- A name that is not found has none. -/
theorem Holds.absent (h : Holds fd s o) {id : List UInt8}
    (hnone : find_client_by_id s.host.server id = none) : o.directory (cstr id) = none := by
  cases hlease : o.directory (cstr id) with
  | none => rfl
  | some lease =>
      rcases (h.directory _ _).mp hlease with ⟨i, hi⟩
      rcases readSlot_some hi with ⟨hactive, hname, _⟩
      exact absurd hname (find_client_by_id_none.mp hnone i hactive)

/-- The table is full when the directory is. -/
theorem Holds.full_iff (h : Holds fd s o) : freeSlot s.host.server = none ↔ o.Full := by
  rw [Office.Full, ← h.directory.full_iff (apart_of_sound h.sound), freeSlot, firstSlot_eq_none_iff]
  refine forall_congr' fun i => ?_
  rw [Ne, readSlot_eq_none_iff, Bool.not_eq_false', Bool.not_eq_false]

/-- The names in slot order. -/
theorem heldKeys_eq (server : Server) : heldKeys readSlot server.clients = activeIds server := by
  unfold heldKeys activeIds idsOf
  induction List.finRange MAX_CLIENTS with
  | nil => rfl
  | cons i l ih =>
      cases hactive : (server.clients i).is_active with
      | true => simp [readSlot_active hactive, hactive, ih]
      | false => simp [readSlot_inactive hactive, hactive, ih]

theorem Holds.enumerated (h : Holds fd s o) : o.Enumerated (activeIds s.host.server) := by
  rw [← heldKeys_eq]
  exact h.directory.keys (apart_of_sound h.sound)

end Slots

section Receiving

variable {host : Host} {msg : Message} {client_addr : SockAddrIn} {now : TimeT}
  {result : Option Nat}

/-- The answer of the first critical section. -/
def refusal (host : Host) (msg : Message) (client_addr : SockAddrIn) (now : TimeT)
    (result : Option Nat) (text : String) : Datagram :=
  send_message_protocol host.open_fds host.server.server_socket
    (create_message .MSG_ERROR serverName msg.sender_id.bytes (bytes text) now) client_addr result

/-- The ways a datagram can be taken in, with everything that decides between
    them. -/
theorem enroll_moves_cases (host : Host) (msg : Message) (client_addr : SockAddrIn) (now : TimeT)
    (result : Option Nat) :
    (∃ i, find_client_by_id host.server msg.sender_id.bytes = some i ∧
      enroll host msg client_addr now result = ({ host with
        server := host.server.setSlot i (heard (host.server.clients i) client_addr now) },
          none)) ∨
    find_client_by_id host.server msg.sender_id.bytes = none ∧
      (msg.type = MessageType.MSG_STOP.code ∧
          enroll host msg client_addr now result = (host, none) ∨
        msg.type ≠ MessageType.MSG_STOP.code ∧
          (validate_client_id msg.sender_id.bytes = false ∧
              enroll host msg client_addr now result
                = (host,
                    some (refusal host msg client_addr now result "Invalid client ID format")) ∨
            validate_client_id msg.sender_id.bytes = true ∧
              (freeSlot host.server = none ∧
                  enroll host msg client_addr now result = (host, some
                    (refusal host msg client_addr now result "Server full or internal error")) ∨
                ∃ i, freeSlot host.server = some i ∧
                  enroll host msg client_addr now result
                    = ({ host with server := joined host.server i msg client_addr now },
                        none)))) := by
  unfold enroll refusal
  cases hfound : find_client_by_id host.server msg.sender_id.bytes with
  | some i => exact Or.inl ⟨i, rfl, rfl⟩
  | none =>
      refine Or.inr ⟨rfl, ?_⟩
      by_cases hstop : msg.type = MessageType.MSG_STOP.code
      · exact Or.inl ⟨hstop, if_pos hstop⟩
      · refine Or.inr ⟨hstop, ?_⟩
        simp only [if_neg hstop]
        cases hvalid : validate_client_id msg.sender_id.bytes with
        | false => exact Or.inl ⟨rfl, rfl⟩
        | true =>
            refine Or.inr ⟨rfl, ?_⟩
            simp only [Bool.not_true, Bool.false_eq_true, if_false, add_client_udp, fillSlot]
            cases hfree : freeSlot host.server with
            | none => exact Or.inl ⟨rfl, rfl⟩
            | some i =>
                refine Or.inr ⟨i, rfl, ?_⟩
                -- The slot is written twice in one section.
                simp only [joined, Server.setSlot, Function.update_self, Function.update_idem]

variable {fd : Nat} {s s' : State} {o : Office} {checked : TimeT}

/-- A slot is given to the sender, or was its own. -/
theorem Holds.renewed (h : Holds fd s o) {server : Server} (hsound : RegistryInv server)
    (hshared : SharedFd fd server) {i : Fin MAX_CLIENTS} {c : ServerClient}
    (hclients : server.clients
      = Function.update s.host.server.clients i (heard c client_addr now))
    (hactive : c.is_active = true) (hname : c.client_id.str = msg.sender_id.str)
    (hslot : (∃ lease, readSlot (s.host.server.clients i) = some (msg.sender_id.str, lease)) ∨
      readSlot (s.host.server.clients i) = none ∧ o.directory msg.sender_id.str = none) :
    Holds fd { host := { s.host with server := server }, pending := some (msg, client_addr) }
      (o.renewed msg client_addr now) where
  sound := hsound
  shared := hshared
  directory := by
    change Represents readSlot server.clients _
    rw [hclients]
    refine h.directory.set (apart_of_sound h.sound) ?_ hslot
    rw [← hname]
    exact readSlot_active hactive
  pending := rfl
  isOpen := h.isOpen

theorem serves_receive (h : Holds fd s o)
    (hstep : step s (.receive msg client_addr checked now result) = some s') :
    ∃ o', Serves o (.receive msg client_addr checked now result)
      (posts s (.receive msg client_addr checked now result)) o' ∧ Holds fd s' o' := by
  have hsound := step_preserves kept_registryInv s s' _ h.sound hstep
  have hshared := step_preserves (kept_sharedFd fd) s s' _ h.shared hstep
  rcases step_receive hstep with ⟨hidle, ⟨hbad, rfl⟩ | ⟨hgood, _⟩⟩
  · -- What is not acceptable changes nothing, and is not answered.
    refine ⟨o, ?_, h⟩
    rw [posts, sent, hbad, Bool.not_false, if_pos rfl, ite_self]
    exact .ignored (h.pending.symm.trans hidle) hbad
  · have hnopending := h.pending.symm.trans hidle
    rw [step, hidle, hgood] at hstep
    rw [posts, sent, hidle, hgood]
    simp only [Option.isSome_none, Bool.not_true, Bool.false_eq_true, if_false] at hstep ⊢
    rcases enroll_moves_cases s.host msg client_addr now result with
      ⟨i, hfound, henroll⟩ | ⟨hnone, ⟨hstop, henroll⟩ | ⟨hother, ⟨hinvalid, henroll⟩ |
        ⟨hvalid, ⟨hfree, henroll⟩ | ⟨i, hfree, henroll⟩⟩⟩⟩
    all_goals
      rw [henroll] at hstep ⊢
      simp only [Option.some.injEq] at hstep
      subst hstep
    · rcases h.found hfound with ⟨lease, hread, hlease⟩
      rcases find_client_by_id_some hfound with ⟨hactive, hname⟩
      refine ⟨_, .known hnopending hgood ?_, h.renewed hsound hshared rfl hactive hname
        (Or.inl ⟨lease, hread⟩)⟩
      exact fun hnone => by cases hlease.symm.trans hnone
    · exact ⟨_, .stranger hnopending hgood (h.absent hnone) hstop,
        ⟨hsound, hshared, h.directory, rfl, h.isOpen⟩⟩
    · exact ⟨_, .misnamed hnopending hgood (h.absent hnone) hother hinvalid,
        ⟨hsound, hshared, h.directory, hnopending.symm, h.isOpen⟩⟩
    · exact ⟨_, .refused hnopending hgood (h.absent hnone) hother hvalid (h.full_iff.mp hfree),
        ⟨hsound, hshared, h.directory, hnopending.symm, h.isOpen⟩⟩
    · have hinactive : (s.host.server.clients i).is_active = false := by
        simpa only [Bool.not_eq_true'] using firstSlot_some hfree
      have hroom : ¬ o.Full := by
        intro hfull
        rw [h.full_iff.mpr hfull] at hfree
        cases hfree
      refine ⟨_, .welcome hnopending hgood (h.absent hnone) hother hvalid hroom,
        h.renewed hsound hshared rfl rfl (filled_name _ _ client_addr now hvalid)
          (Or.inr ⟨readSlot_inactive hinactive, h.absent hnone⟩)⟩

end Receiving

section Handling

variable {fd : Nat} {s s' : State} {o : Office} {host : Host} {msg : Message}
  {client_addr : SockAddrIn} {now : TimeT} {result : Option Nat}
  {results : Fin MAX_CLIENTS → Option Nat}

/-- A message depends on the strings it is made of only. -/
theorem create_message_cstr (type : MessageType) (sender recipient content : List UInt8)
    (now : TimeT) :
    create_message type sender recipient content now
      = create_message type (cstr sender) (cstr recipient) (cstr content) now := by
  simp only [create_message, CharArray.strncpy, cstr_cstr]

/-- The text of the list in a message. -/
theorem list_message (server : Server) (now : TimeT) :
    create_message .MSG_CLIENT_LIST serverName [] (clientList server).bytes now
      = create_message .MSG_CLIENT_LIST serverName [] (listOf (activeIds server)) now := by
  have htext : cstr (clientList server).bytes = listOf (activeIds server) := clientList_str server
  have hown : cstr (listOf (activeIds server)) = listOf (activeIds server) := by
    rw [← htext, cstr_cstr]
  rw [create_message_cstr _ _ _ (clientList server).bytes, htext,
    create_message_cstr _ serverName [] (listOf _), hown]

/-- A broadcast goes to the names of the directory but for the sender. -/
theorem broadcast_posts (h : Holds fd s o) :
    (handle_2all_request_udp s.host msg now results).map (fun d => (d.dest, d.message))
      = ((activeIds s.host.server).filter fun name => name ≠ msg.sender_id.str).filterMap
          fun name => (o.directory name).map fun lease => (lease.addr,
            create_message .MSG_BROADCAST msg.sender_id.bytes [] msg.content.bytes now) := by
  unfold handle_2all_request_udp activeIds idsOf
  simp only []
  induction List.finRange MAX_CLIENTS with
  | nil => rfl
  | cons i l ih =>
      cases hactive : (s.host.server.clients i).is_active with
      | false => simpa [hactive] using ih
      | true =>
          have hlease := (h.directory _ _).mpr ⟨i, readSlot_active hactive⟩
          by_cases hsame : (s.host.server.clients i).client_id.str = msg.sender_id.str
          · have hcmp : strcmp_eq (s.host.server.clients i).client_id.bytes msg.sender_id.bytes
                = true := decide_eq_true hsame
            simpa [hactive, hsame, hcmp] using ih
          · have hcmp : strcmp_eq (s.host.server.clients i).client_id.bytes msg.sender_id.bytes
                = false := decide_eq_false hsame
            simpa [hactive, hsame, hcmp, hlease, send_message_protocol] using ih

theorem serves_dispatch (h : Holds fd s o)
    (hstep : step s (.dispatch now result results) = some s') :
    ∃ o', Serves o (.dispatch now result results) (posts s (.dispatch now result results)) o' ∧
      Holds fd s' o' := by
  have hsound := step_preserves kept_registryInv s s' _ h.sound hstep
  have hshared := step_preserves (kept_sharedFd fd) s s' _ h.shared hstep
  rcases Option.map_eq_some_iff.mp hstep with ⟨⟨msg, client_addr⟩, hpending, rfl⟩
  have hp : o.pending = some (msg, client_addr) := h.pending.symm.trans hpending
  rw [posts, sent, hpending]
  simp only [] at hsound hshared ⊢
  unfold dispatch at hsound hshared ⊢
  split_ifs at hsound hshared ⊢ with hlist hall hone hstop
  · refine ⟨{ o with pending := none }, ?_, ⟨hsound, hshared, h.directory, rfl, h.isOpen⟩⟩
    have hserves : Serves o (.dispatch now result results) _ _ :=
      .list hp hlist (activeIds s.host.server) h.enumerated
    rw [← list_message] at hserves
    exact hserves
  · refine ⟨{ o with pending := none }, ?_, ⟨hsound, hshared, h.directory, rfl, h.isOpen⟩⟩
    rw [broadcast_posts h]
    exact .broadcast hp hall _ h.enumerated
  · refine ⟨{ o with pending := none }, ?_, ⟨hsound, hshared, h.directory, rfl, h.isOpen⟩⟩
    have hserves : Serves o (.dispatch now result results) _ _ := .priv hp hone
    unfold handle_2one_request_udp
    cases hfound : find_client_by_id s.host.server msg.recipient_id.bytes with
    | none =>
        rw [CharArray.str, h.absent hfound] at hserves
        exact hserves
    | some i =>
        rcases h.found hfound with ⟨lease, hread, hlease⟩
        rw [CharArray.str, hlease, (readSlot_some hread).2.2] at hserves
        exact hserves
  · have hserves : Serves o (.dispatch now result results) _ _ := .goodbye hp hstop
    have hopen := dispatch_open_iff h.shared msg client_addr now result results
    unfold handle_stop_request_udp at hsound hshared ⊢
    refine ⟨_, hserves, hsound, hshared, ?_, rfl, ?_⟩
    · cases hfound : find_client_by_id s.host.server msg.sender_id.bytes with
      | none =>
          have habsent : o.directory msg.sender_id.str = none := h.absent hfound
          simp only []
          rw [← habsent, Function.update_eq_self]
          exact h.directory
      | some i =>
          rcases h.found hfound with ⟨lease, hread, hlease⟩
          have hcleared : (s.host.remove_client i).server.clients
              = Function.update s.host.server.clients i (cleared (s.host.server.clients i)) := by
            rw [Host.remove_client, Chat.remove_client, if_pos (readSlot_some hread).1]
            rfl
          simp only []
          rw [hcleared]
          exact h.directory.clear (apart_of_sound h.sound) hread (readSlot_inactive rfl)
    · rw [Bool.eq_iff_iff, Bool.and_eq_true, Option.isNone_iff_eq_none, ← h.isOpen]
      rw [dispatch, if_neg hlist, if_neg hall, if_neg hone, if_pos hstop,
        handle_stop_request_udp] at hopen
      refine hopen.trans (and_congr_right fun _ => ?_)
      rw [forall_prop_of_true hstop]
      cases hfound : find_client_by_id s.host.server msg.sender_id.bytes with
      | none => exact iff_of_true rfl (h.absent hfound)
      | some i =>
          rcases h.found hfound with ⟨lease, hread, hlease⟩
          exact iff_of_false (by simp) fun hnone => by cases hlease.symm.trans hnone
  · refine ⟨{ o with pending := none }, .nothing hp ?_,
      ⟨hsound, hshared, h.directory, rfl, h.isOpen⟩⟩
    intro type htype hcode
    rcases htype with rfl | rfl | rfl | rfl
    · exact hlist hcode
    · exact hall hcode
    · exact hone hcode
    · exact hstop hcode

end Handling

section Sweeping

variable {fd : Nat} {s s' : State} {o : Office} {host : Host} {input : SweepInput}

/-- A sweep has treated a slot as a sweep of the directory treats its lease. -/
def Visited (input : SweepInput) (c c' : ServerClient) (given : List Datagram) : Prop :=
  ∃ reached : Bool, (reached = true → ∃ d ∈ given, 0 < d.result) ∧
    readSlot c' = (readSlot c).bind (fun p =>
      (p.2.swept input.now reached).map fun lease => (p.1, lease)) ∧
    given.map (fun d => (d.dest, d.message))
      = (readSlot c).elim [] fun p => p.2.reminders input.now input.stamp p.1

/-- A visit of the sweep does this for the slot it is at. -/
theorem sweepSlot_visits (input : SweepInput) (acc : Host × List Datagram) (i : Fin MAX_CLIENTS) :
    ∃ given, (sweepSlot input acc i).2 = acc.2 ++ given ∧
      Visited input (acc.1.server.clients i)
        ((sweepSlot input acc i).1.server.clients i) given := by
  have hremoved : ∀ host : Host, readSlot ((host.remove_client i).server.clients i) = none :=
    fun host => readSlot_inactive (remove_client_inactive host.server i)
  unfold sweepSlot Visited
  simp only []
  cases hactive : (acc.1.server.clients i).is_active with
  | false =>
      rw [if_pos (by rfl)]
      refine ⟨[], (List.append_nil _).symm, false, by simp, ?_, ?_⟩
      · rw [readSlot_inactive hactive]
        rfl
      · rw [readSlot_inactive hactive]
        rfl
  | true =>
      rw [if_neg (by decide), readSlot_active hactive]
      simp only [Option.bind_some, Option.elim_some, Lease.swept, Lease.reminders, Lease.silent]
      by_cases hsilent : silent input.now (acc.1.server.clients i) = true
      · have hlong : input.now.toInt - (acc.1.server.clients i).last_seen.toInt
            > KEEPALIVE_INTERVAL := of_decide_eq_true hsilent
        have hcount : (missed (acc.1.server.clients i)).inactive_count
            = (acc.1.server.clients i).inactive_count + 1 := rfl
        rw [if_pos hsilent]
        simp only [hlong, not_true_eq_false, if_false, true_and]
        split_ifs with hmax hresult hlow hfew
        all_goals first | omega | skip
        · exact ⟨[], (List.append_nil _).symm, false, by simp, by rw [hremoved]; simp, rfl⟩
        · -- The request could not be sent.
          refine ⟨_, rfl, false, by simp, by rw [hremoved]; simp, ?_⟩
          rw [List.map_singleton, create_message_cstr]
          rfl
        · refine ⟨_, rfl, true, fun _ => ⟨_, List.mem_singleton_self _, by omega⟩, ?_, ?_⟩
          · simp only [setSlot_self]
            exact readSlot_active hactive
          · rw [List.map_singleton, create_message_cstr]
            rfl
      · have hshort : ¬ input.now.toInt - (acc.1.server.clients i).last_seen.toInt
            > KEEPALIVE_INTERVAL := fun h => hsilent (decide_eq_true h)
        rw [if_neg hsilent]
        simp only [hshort, not_false_eq_true, if_true, false_and, if_false]
        exact ⟨[], (List.append_nil _).symm, false, by simp, readSlot_active hactive, rfl⟩

/-- A sweep treats every slot by itself. -/
theorem sweep_visits (input : SweepInput) (host : Host) :
    ∃ alive : Fin MAX_CLIENTS → List Datagram,
      (sweep input host).2 = (List.finRange MAX_CLIENTS).flatMap alive ∧
      ∀ i, Visited input (host.server.clients i) ((sweep input host).1.server.clients i)
        (alive i) := by
  have hvisits := foldl_visits (fun acc i => acc.1.server.clients i) (fun acc => acc.2)
    (fun _ => Visited input) (fun acc i => sweepSlot_visits input acc i)
    (fun acc i j hj => sweepSlot_other input acc hj) _ (List.nodup_finRange MAX_CLIENTS) (host, [])
  rw [sweep]
  generalize (List.finRange MAX_CLIENTS).foldl (sweepSlot input) (host, []) = swept at hvisits ⊢
  rcases hvisits with ⟨alive, hsent, hall, _⟩
  exact ⟨alive, hsent, fun i => hall i (List.mem_finRange i)⟩

/-- How a sweep stands when some slots have been visited: nobody has come in,
    and the descriptor is as open as before if nobody has gone. -/
structure Sweeping (fd : Nat) (host : Host) (acc : Host × List Datagram) : Prop where
  shared : SharedFd fd acc.1.server
  thinned : Thinned host.server acc.1.server
  isOpen : acc.1.open_fds fd = true ↔ host.open_fds fd = true ∧
    ∀ i, (host.server.clients i).is_active = true → (acc.1.server.clients i).is_active = true

theorem sweeping_slot {acc : Host × List Datagram} (h : Sweeping fd host acc)
    (input : SweepInput) (i : Fin MAX_CLIENTS) : Sweeping fd host (sweepSlot input acc i) := by
  rcases sweepSlot_cases input acc i with hsame | ⟨c, counted, alive, rfl, hactive, rfl, -, hdone⟩
  · rw [hsame]
    exact h
  · have hshared : SharedFd fd (acc.1.server.setSlot i (missed (acc.1.server.clients i))) :=
      sharedFd_setSlot h.shared i _ fun _ => h.shared.slots i hactive
    have hthinned := thinned_trans h.thinned (thinned_missed acc.1.server i)
    have hremoved : Sweeping fd host (Host.remove_client
        { acc.1 with server := acc.1.server.setSlot i (missed (acc.1.server.clients i)) } i,
          acc.2) := by
      have hclosed := @remove_client_open_iff fd
        { acc.1 with server := acc.1.server.setSlot i (missed (acc.1.server.clients i)) } hshared i
      have hgone := remove_client_inactive
        (acc.1.server.setSlot i (missed (acc.1.server.clients i))) i
      refine ⟨(kept_sharedFd fd).removed _ i hshared, thinned_trans hthinned (thinned_remove _ i),
        ?_⟩
      -- The client that goes was there before the sweep.
      refine iff_of_false ?_ ?_
      · rw [hclosed, setSlot_self]
        simp [missed, hactive]
      · rintro ⟨_, hall⟩
        exact Bool.noConfusion (hgone.symm.trans (hall i (h.thinned i hactive).1))
    rcases hdone with hdone | hdone | ⟨_, hdone⟩
    · rw [hdone]
      exact hremoved
    · rw [hdone]
      exact ⟨hremoved.shared, hremoved.thinned, hremoved.isOpen⟩
    · rw [hdone]
      refine ⟨hshared, hthinned, h.isOpen.trans (and_congr_right fun _ => ?_)⟩
      refine forall_congr' fun j => imp_congr_right fun _ => ?_
      by_cases hij : j = i
      · simp only [hij, setSlot_self]
        rfl
      · simp only [setSlot_other _ _ hij]

/-- A sweep closes the descriptor if it removes somebody. -/
theorem sweep_open_lost (input : SweepInput) (hshared : SharedFd fd host.server) :
    (sweep input host).1.open_fds fd = true ↔ host.open_fds fd = true ∧
      ∀ i, (host.server.clients i).is_active = true →
        ((sweep input host).1.server.clients i).is_active = true := by
  have hstart : Sweeping fd host (host, []) :=
    ⟨hshared, thinned_refl _, by simp⟩
  have hslot : ∀ (acc : Host × List Datagram) (i : Fin MAX_CLIENTS), Sweeping fd host acc →
      Sweeping fd host (sweepSlot input acc i) := fun acc i hacc => sweeping_slot hacc input i
  have hswept : Sweeping fd host (sweep input host) := by
    rw [sweep]
    exact foldl_preserves hslot _ (host, []) hstart
  exact hswept.isOpen

/-- On a closed descriptor nobody is reached. -/
theorem sweep_closed (input : SweepInput) (hshared : SharedFd fd host.server)
    (hclosed : host.open_fds fd = false) : ∀ d ∈ (sweep input host).2, d.result ≤ 0 := by
  have hslot : ∀ (acc : Host × List Datagram) (i : Fin MAX_CLIENTS),
      (SharedFd fd acc.1.server ∧ acc.1.open_fds fd = false ∧ ∀ d ∈ acc.2, d.result ≤ 0) →
        SharedFd fd (sweepSlot input acc i).1.server ∧
          (sweepSlot input acc i).1.open_fds fd = false ∧
          ∀ d ∈ (sweepSlot input acc i).2, d.result ≤ 0 := by
    rintro acc i ⟨hacc, hfd, hall⟩
    have hafter := sweepSlot_preserves (kept_sharedFd fd) input acc i hacc
    have hstill : (sweepSlot input acc i).1.open_fds fd = false := by
      rw [Bool.eq_false_iff, Ne, sweepSlot_open_iff input acc i hacc, hfd]
      simp
    refine ⟨hafter, hstill, ?_⟩
    rcases sweepSlot_cases input acc i with hsame | ⟨c, counted, alive, -, -, rfl, rfl, hdone⟩
    · rw [hsame]
      exact hall
    · have hone : ∀ d ∈ acc.2 ++ [send_message_protocol acc.1.open_fds acc.1.server.server_socket
          (create_message .MSG_ALIVE serverName c.client_id.bytes [] input.stamp) c.addr
          (input.results i)], d.result ≤ 0 := by
        intro d hd
        rcases List.mem_append.mp hd with hd | hd
        · exact hall d hd
        · rw [List.mem_singleton.mp hd, hacc.server_socket]
          unfold send_message_protocol
          simp [hfd]
      rcases hdone with hdone | hdone | ⟨_, hdone⟩
      · rw [hdone]
        exact hall
      · rw [hdone]
        exact hone
      · rw [hdone]
        exact hone
  rw [sweep]
  exact (foldl_preserves hslot _ (host, [])
    ⟨hshared, hclosed, fun d hd => absurd hd List.not_mem_nil⟩).2.2

/-- What is sent for the slots is what is sent for the names. -/
theorem sweep_posts (h : Holds fd s o) {alive : Fin MAX_CLIENTS → List Datagram}
    (hall : ∀ i, (alive i).map (fun d => (d.dest, d.message))
      = (readSlot (s.host.server.clients i)).elim [] fun p =>
        p.2.reminders input.now input.stamp p.1) :
    ((List.finRange MAX_CLIENTS).flatMap alive).map (fun d => (d.dest, d.message))
      = (activeIds s.host.server).flatMap fun name =>
        (o.directory name).elim [] (Lease.reminders input.now input.stamp name) := by
  unfold activeIds idsOf
  induction List.finRange MAX_CLIENTS with
  | nil => rfl
  | cons i l ih =>
      rw [List.flatMap_cons, List.map_append, hall i, ih]
      cases hactive : (s.host.server.clients i).is_active with
      | false => simp [readSlot_inactive hactive, hactive]
      | true =>
          have hlease := (h.directory _ _).mpr ⟨i, readSlot_active hactive⟩
          simp [readSlot_active hactive, hactive, hlease]

theorem serves_sweep (h : Holds fd s o) (hstep : step s (.sweep input) = some s') :
    ∃ o', Serves o (.sweep input) (posts s (.sweep input)) o' ∧ Holds fd s' o' := by
  classical
  have hsound := step_preserves kept_registryInv s s' _ h.sound hstep
  have hshared := step_preserves (kept_sharedFd fd) s s' _ h.shared hstep
  have hopen := sweep_open_lost input h.shared
  have hclosed := sweep_closed input h.shared
  rcases sweep_visits input s.host with ⟨alive, hsent, hall⟩
  rw [step, Option.some.injEq] at hstep
  subst hstep
  rw [posts, sent]
  simp only [] at hsound hshared
  generalize sweep input s.host = swept at hsent hall hopen hclosed hsound hshared ⊢
  choose reached hreached hslot hgiven using hall
  -- A name is reached if its slot is.
  let answers : List UInt8 → Bool := fun name =>
    decide (∃ i lease, readSlot (s.host.server.clients i) = some (name, lease) ∧ reached i = true)
  have hanswers : ∀ i name lease, readSlot (s.host.server.clients i) = some (name, lease) →
      answers name = reached i := by
    intro i name lease hread
    rw [Bool.eq_iff_iff, decide_eq_true_eq]
    constructor
    · rintro ⟨j, lease', hj, hyes⟩
      rw [apart_of_sound h.sound i j name lease lease' hread hj]
      exact hyes
    · exact fun hyes => ⟨i, lease, hread, hyes⟩
  have hdirectory : Represents readSlot swept.1.server.clients
      fun name => (o.directory name).bind (Lease.swept input.now (answers name)) := by
    refine h.directory.map (fun name => Lease.swept input.now (answers name)) fun i => ?_
    rw [hslot i]
    cases hread : readSlot (s.host.server.clients i) with
    | none => rw [Option.bind_none, Option.bind_none]
    | some p =>
        simp only [Option.bind_some]
        rw [hanswers i p.1 p.2 hread]
  refine ⟨{ o with
    directory := fun name => (o.directory name).bind (Lease.swept input.now (answers name))
    isOpen := swept.1.open_fds fd }, ?_, ⟨hsound, hshared, hdirectory, h.pending, rfl⟩⟩
  rw [hsent, sweep_posts h hgiven]
  refine .sweep answers ?_ _ h.enumerated _ ?_
  · -- Nobody is reached who has not been sent anything.
    intro hfd name
    rw [Bool.eq_false_iff, Ne, decide_eq_true_eq]
    rintro ⟨i, _, _, hyes⟩
    rcases hreached i hyes with ⟨d, hd, hpos⟩
    have hnone := hclosed (h.isOpen.trans hfd) d (by
      rw [hsent]
      exact List.mem_flatMap.mpr ⟨i, List.mem_finRange i, hd⟩)
    omega
  · rw [← h.isOpen]
    refine hopen.trans (and_congr_right fun _ => ?_)
    constructor
    · intro hkept name hname
      rcases Option.ne_none_iff_exists'.mp hname with ⟨lease, hlease⟩
      rcases (h.directory name lease).mp hlease with ⟨i, hi⟩
      have hactive := hkept i (readSlot_some hi).1
      have hread := hslot i
      rw [hi, Option.bind_some, ← hanswers i name lease hi, readSlot_active hactive] at hread
      rw [hlease, Option.bind_some]
      intro hdropped
      rw [hdropped] at hread
      cases hread
    · intro hkept i hactive
      have hread := readSlot_active hactive
      have hlease := (h.directory _ _).mpr ⟨i, hread⟩
      have hstays := hkept (s.host.server.clients i).client_id.str (by rw [hlease]; simp)
      rw [hlease, Option.bind_some, hanswers i _ _ hread] at hstays
      by_contra hgone
      have hafter := hslot i
      rw [hread, readSlot_inactive (Bool.eq_false_iff.mpr hgone), Option.bind_some] at hafter
      exact hstays (Option.map_eq_none_iff.mp hafter.symm)

end Sweeping

/-- Every step of the server is one of the directory. -/
theorem refines_directory (fd : Nat) : Refines step posts Serves (Holds fd) := by
  intro s o e s' h hstep
  cases e with
  | receive msg client_addr checked now result => exact serves_receive h hstep
  | dispatch now result results => exact serves_dispatch h hstep
  | sweep input => exact serves_sweep h hstep

/-- The directory before anybody has been heard. -/
def Office.empty : Office where
  directory _ := none
  pending := none
  isOpen := true

theorem holds_start {port : Int} {fd : Nat} {others : Int → Bool} {s : State}
    (hstart : start port fd others = some s) : Holds fd s Office.empty := by
  have hnone : ∀ i, (s.host.server.clients i).is_active = false ∧ s.pending = none := by
    rcases Option.map_eq_some_iff.mp hstart with ⟨server, hinit, rfl⟩
    rw [server_init_some hinit]
    exact fun i => ⟨rfl, rfl⟩
  refine ⟨registryInv_start hstart, sharedFd_start hstart, ?_, (hnone ⟨0, by decide⟩).2,
    open_start hstart⟩
  intro name lease
  refine iff_of_false (by simp [Office.empty]) ?_
  rintro ⟨i, hi⟩
  rw [readSlot_inactive (hnone i).1] at hi
  cases hi

/-- Every run of the server, with the messages it sends and where it sends them,
    is one of the directory of leases, and leaves in the table what the directory
    says. -/
theorem server_refines_directory (port : Int) (fd : Nat) (others : Int → Bool) (s t : State)
    (events : List Event) (hstart : start port fd others = some s)
    (hrun : run step s events = some t) :
    ∃ o, Allows Serves Office.empty events (emitted step posts s events) o ∧
      Represents readSlot t.host.server.clients o.directory ∧ t.pending = o.pending ∧
      t.host.open_fds fd = o.isOpen := by
  rcases (refines_directory fd).run events s Office.empty t (holds_start hstart) hrun with
    ⟨o, hallows, hend⟩
  exact ⟨o, hallows, hend.directory, hend.pending, hend.isOpen⟩

/-- Two clients register and are found silent, and one says goodbye. -/
theorem server_refines_directory_run :
    ∃ (s t : State) (o : Office), start 5000 3 (fun _ => false) = some s ∧
      run step s (claims .MSG_LIST "ann" { sin_addr := 1, sin_port := 2 } ++
        (claims .MSG_LIST "bob" { sin_addr := 3, sin_port := 4 } ++ .sweep (sweepAt 31) ::
          claims .MSG_STOP "ann" { sin_addr := 1, sin_port := 2 })) = some t ∧
      Represents readSlot t.host.server.clients o.directory ∧ t.host.open_fds 3 = o.isOpen := by
  have hsome : ((start 5000 3 fun _ => false).bind fun s =>
      run step s (claims .MSG_LIST "ann" { sin_addr := 1, sin_port := 2 } ++
        (claims .MSG_LIST "bob" { sin_addr := 3, sin_port := 4 } ++ .sweep (sweepAt 31) ::
          claims .MSG_STOP "ann" { sin_addr := 1, sin_port := 2 }))).isSome = true := by
    decide +kernel
  rcases Option.isSome_iff_exists.mp hsome with ⟨t, hbind⟩
  rcases Option.bind_eq_some_iff.mp hbind with ⟨s, hstart, hrun⟩
  rcases server_refines_directory 5000 3 _ s t _ hstart hrun with ⟨o, _, hdirectory, _, hopen⟩
  exact ⟨s, t, o, hstart, hrun, hdirectory, hopen⟩

/-- A lease that a sweep has kept though it could not reach the client is not a
    silent one. -/
theorem not_silent_of_swept {now : TimeT} {lease kept : Lease}
    (h : lease.swept now false = some kept) : ¬ kept.silent now := by
  unfold Lease.swept at h
  by_cases hsilent : lease.silent now
  · simp [hsilent] at h
  · rw [if_pos hsilent] at h
    rw [← Option.some.inj h]
    exact hsilent

/-- Once a client has been removed, whatever the reason was, every later sweep
    removes all clients that are silent, however seldom they have been found so
    before: the descriptor is closed, and a client that cannot be reminded is
    removed at once. -/
theorem silent_removed_at_once (port : Int) (fd : Nat) (others : Int → Bool) (s t t' : State)
    (events : List Event) (hstart : start port fd others = some s)
    (hrun : run step s events = some t) (hremoved : ¬ Meets step RemovesNobody s events)
    (input : SweepInput) (hsweep : step t (.sweep input) = some t') (i : Fin MAX_CLIENTS)
    (hactive : (t'.host.server.clients i).is_active = true) :
    silent input.now (t'.host.server.clients i) = false := by
  rcases (refines_directory fd).run events s Office.empty t (holds_start hstart) hrun with
    ⟨o, _, ho⟩
  rcases serves_sweep ho hsweep with ⟨o', hserves, ho'⟩
  have hclosed : o.isOpen = false := by
    rw [← ho.isOpen, Bool.eq_false_iff, Ne, run_open_iff events s t (sharedFd_start hstart) hrun]
    exact fun h => hremoved h.2
  have hlease := (ho'.directory _ _).mpr ⟨i, readSlot_active hactive⟩
  generalize posts t (.sweep input) = given at hserves
  cases hserves with
  | sweep reached closed names all isOpen stays =>
      rcases Option.bind_eq_some_iff.mp hlease with ⟨lease, _, hswept⟩
      rw [closed hclosed] at hswept
      exact decide_eq_false (not_silent_of_swept hswept)

/-- One client leaves, and the other is removed the first time it is silent. -/
theorem silent_removed_at_once_run :
    ∃ s t t', start 5000 3 (fun _ => false) = some s ∧
      run step s (claims .MSG_LIST "ann" { sin_addr := 1, sin_port := 2 } ++
        (claims .MSG_LIST "bob" { sin_addr := 3, sin_port := 4 } ++
          claims .MSG_STOP "ann" { sin_addr := 1, sin_port := 2 })) = some t ∧
      step t (.sweep (sweepAt 31)) = some t' ∧
      ∀ i, (t'.host.server.clients i).is_active = true →
        silent (sweepAt 31).now (t'.host.server.clients i) = false := by
  have hend : ((start 5000 3 fun _ => false).bind fun s =>
      (run step s (claims .MSG_LIST "ann" { sin_addr := 1, sin_port := 2 } ++
        (claims .MSG_LIST "bob" { sin_addr := 3, sin_port := 4 } ++
          claims .MSG_STOP "ann" { sin_addr := 1, sin_port := 2 }))).map fun t =>
            t.host.open_fds 3) = some false := by decide +kernel
  rcases Option.bind_eq_some_iff.mp hend with ⟨s, hstart, hmap⟩
  rcases Option.map_eq_some_iff.mp hmap with ⟨t, hrun, hclosed⟩
  refine ⟨s, t, _, hstart, hrun, rfl, fun i hi => ?_⟩
  refine silent_removed_at_once 5000 3 _ s t _ _ hstart hrun (fun hmeets => ?_) (sweepAt 31) rfl
    i hi
  -- The descriptor would be open if nobody had been removed.
  have hopen := (run_open_iff _ s t (sharedFd_start hstart) hrun).mpr ⟨open_start hstart, hmeets⟩
  rw [show ((3 : Nat) : Int) = 3 from rfl, hclosed] at hopen
  cases hopen

end Leases

end Lab11

end OsLabs
