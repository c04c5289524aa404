import OsLabs.Chat.Registry
import OsLabs.Core.Simulation

/-!
# The UDP Chat Server

`lab11/src/server.c` as a transition system. Two threads work on the
registry: the main thread, which receives datagrams and handles them one at a
time, and the keepalive thread, which sweeps the table. Both take
`clients_mutex` around every access, so what can interleave is whole critical
sections.

Handling a datagram is two of them. The first looks the sender up, registers
it if it is new, and notes when and from where it was heard; the second is
inside the handler for the message's type. Between the two the main thread
holds no lock, and the state records what it is about to do as `pending`.

The operating system decides which descriptors are open, which datagrams
arrive, what the clock shows and what `sendto` returns; all of that but the
first is part of the event. A call of `sendto` on a closed descriptor fails.
A `receive` event does not ask that the server's descriptor be open, so the
system has every run the program has and, once the descriptor is closed, some
more.

## Main definitions

* `Datagram`, `send_message_protocol`: One attempt to send.
* `Host`: The server's record and the open descriptors.
* `Host.remove_client`: Removal, with the descriptors it closes.
* `enroll`: The first critical section of `handle_message_directly`.
* `handle_list_request_udp`, `handle_2all_request_udp`,
  `handle_2one_request_udp`, `handle_stop_request_udp`: The handlers.
* `dispatch`: The `switch` of `handle_message_directly`.
* `handle_message_directly`: Both, one after the other.
* `sweepSlot`, `sweep`: One round of `keepalive_monitor`.
* `stopSlot`, `stopAll`: The loop of `server_stop`.
* `State`, `Event`, `step`: The transition system.
* `start`: Its state after `server_init` and the start of `server_start`.
* `Turn`, `turnStep`: The server with whole turns of its loops as steps.
* `Kept`: A property of registries that the four changes preserve.

## Theorems

* `step_handle_message_directly`: A call of the function, as steps.
* `reachable_of_turns`: A run of such calls and of sweeps.
* `sweepSlot_cases`: What a visit of the keepalive loop can do.
* `enroll_preserves`, `dispatch_preserves`, `sweep_preserves`: What the four
  changes to a registry preserve, the critical sections do.
* `step_preserves`: So does a step.
* `reachable_preserves`: So does a run.
-/

namespace OsLabs

namespace Lab11

open Chat

/-- One call of `sendto`: what is sent where, and what `send_message_protocol`
    returns for it. -/
structure Datagram where
  dest : SockAddrIn
  message : Message
  result : Int

/-- `send_message_protocol`, with an address, which every caller passes. The
    result of `sendto` is a number of bytes, or `none` for -1. -/
def send_message_protocol (open_fds : Int → Bool) (socketfd : Int) (message : Message)
    (addr : SockAddrIn) (result : Option Nat) : Datagram where
  dest := addr
  message := message
  result :=
    if socketfd < 0 then -1
    else if !open_fds socketfd then -1
    else match result with
      | none => -1
      | some bytes_sent => if bytes_sent ≠ SIZEOF_MESSAGE then -1 else bytes_sent

/-- The server's record, and which descriptors of the process are open. -/
structure Host where
  server : Server
  open_fds : Int → Bool

/-- Descriptors passed to `close` are no longer open. -/
def closeAll (open_fds : Int → Bool) (fds : List Int) : Int → Bool :=
  fun fd => open_fds fd && !fds.contains fd

/-- `remove_client`, with its effect on the descriptors. -/
def Host.remove_client (host : Host) (i : Fin MAX_CLIENTS) : Host where
  server := (Chat.remove_client host.server i).1
  open_fds := closeAll host.open_fds (Chat.remove_client host.server i).2

def serverName : List UInt8 := bytes "SERVER"

/-- The slot of a client just heard from. -/
def heard (c : ServerClient) (client_addr : SockAddrIn) (now : TimeT) : ServerClient :=
  { c with addr := client_addr, last_seen := now, inactive_count := 0 }

/-- The first critical section of `handle_message_directly`. With a reply the
    function has answered `MSG_ERROR` and returned. The clock is read more than
    once on the way, but only the last reading is kept in the slot. -/
def enroll (host : Host) (msg : Message) (client_addr : SockAddrIn) (now : TimeT)
    (result : Option Nat) : Host × Option Datagram :=
  let reply (text : String) : Datagram :=
    send_message_protocol host.open_fds host.server.server_socket
      (create_message .MSG_ERROR serverName msg.sender_id.bytes (bytes text) now) client_addr result
  let refresh (server : Server) (i : Fin MAX_CLIENTS) : Host :=
    { host with server := server.setSlot i (heard (server.clients i) client_addr now) }
  match find_client_by_id host.server msg.sender_id.bytes with
  | some i => (refresh host.server i, none)
  | none =>
    if msg.type = MessageType.MSG_STOP.code then (host, none)
    else if !validate_client_id msg.sender_id.bytes then
      (host, some (reply "Invalid client ID format"))
    else match add_client_udp host.server client_addr msg.sender_id.bytes now with
      | (server, none) => ({ host with server := server },
          some (reply "Server full or internal error"))
      | (server, some i) => (refresh server i, none)

def handle_list_request_udp (host : Host) (client_addr : SockAddrIn) (now : TimeT)
    (result : Option Nat) : Datagram :=
  send_message_protocol host.open_fds host.server.server_socket
    (create_message .MSG_CLIENT_LIST serverName [] (clientList host.server).bytes now)
    client_addr result

/-- The datagrams sent, in slot order. -/
def handle_2all_request_udp (host : Host) (msg : Message) (now : TimeT)
    (results : Fin MAX_CLIENTS → Option Nat) : List Datagram :=
  let broadcast := create_message .MSG_BROADCAST msg.sender_id.bytes [] msg.content.bytes now
  ((List.finRange MAX_CLIENTS).filter fun i =>
    (host.server.clients i).is_active &&
      !strcmp_eq (host.server.clients i).client_id.bytes msg.sender_id.bytes).map fun i =>
    send_message_protocol host.open_fds host.server.server_socket broadcast
      (host.server.clients i).addr (results i)

/-- The datagram sent, if the recipient is registered. -/
def handle_2one_request_udp (host : Host) (msg : Message) (now : TimeT) (result : Option Nat) :
    Option Datagram :=
  let priv := create_message .MSG_PRIVATE msg.sender_id.bytes msg.recipient_id.bytes
    msg.content.bytes now
  (find_client_by_id host.server msg.recipient_id.bytes).map fun i =>
    send_message_protocol host.open_fds host.server.server_socket priv
      (host.server.clients i).addr result

/-- The goodbye, and the host after the removal. -/
def handle_stop_request_udp (host : Host) (client_addr : SockAddrIn) (client_id : List UInt8)
    (now : TimeT) (result : Option Nat) : Host × Datagram :=
  let response := create_message .MSG_STOP serverName [] (bytes "Goodbye!") now
  (match find_client_by_id host.server client_id with
    | none => host
    | some i => host.remove_client i,
    send_message_protocol host.open_fds host.server.server_socket response client_addr result)

/-- The `switch` of `handle_message_directly`: the host afterwards and the
    datagrams sent. `result` is for a single send, `results` for those of a
    broadcast. -/
def dispatch (host : Host) (msg : Message) (client_addr : SockAddrIn) (now : TimeT)
    (result : Option Nat) (results : Fin MAX_CLIENTS → Option Nat) : Host × List Datagram :=
  if msg.type = MessageType.MSG_LIST.code then
    (host, [handle_list_request_udp host client_addr now result])
  else if msg.type = MessageType.MSG_2ALL.code then
    (host, handle_2all_request_udp host msg now results)
  else if msg.type = MessageType.MSG_2ONE.code then
    (host, (handle_2one_request_udp host msg now result).toList)
  else if msg.type = MessageType.MSG_STOP.code then
    ((handle_stop_request_udp host client_addr msg.sender_id.bytes now result).1,
      [(handle_stop_request_udp host client_addr msg.sender_id.bytes now result).2])
  else (host, [])

/-- `handle_message_directly` when nothing comes between its two critical
    sections: the host afterwards and the datagrams sent. -/
def handle_message_directly (host : Host) (msg : Message) (client_addr : SockAddrIn)
    (now : TimeT) (result : Option Nat) (results : Fin MAX_CLIENTS → Option Nat) :
    Host × List Datagram :=
  match enroll host msg client_addr now result with
  | (host', some reply) => (host', [reply])
  | (host', none) => dispatch host' msg client_addr now result results

/-- What a sweep reads and what `sendto` returns to it: the time it compares
    with, the time in the messages it builds, and a result for each slot. -/
structure SweepInput where
  now : TimeT
  stamp : TimeT
  results : Fin MAX_CLIENTS → Option Nat

/-- The body of the loop of `keepalive_monitor` for one slot, with the
    datagrams sent so far. -/
def sweepSlot (input : SweepInput) (acc : Host × List Datagram) (i : Fin MAX_CLIENTS) :
    Host × List Datagram :=
  let c := acc.1.server.clients i
  if !c.is_active then acc
  else if silent input.now c then
    let counted : Host := { acc.1 with server := acc.1.server.setSlot i (missed c) }
    if (missed c).inactive_count ≥ MAX_INACTIVE_COUNT then (counted.remove_client i, acc.2)
    else
      let alive := send_message_protocol counted.open_fds counted.server.server_socket
        (create_message .MSG_ALIVE serverName c.client_id.bytes [] input.stamp) c.addr
        (input.results i)
      (if alive.result ≤ 0 then counted.remove_client i else counted, acc.2 ++ [alive])
  else acc

/-- One round of `keepalive_monitor`, between taking and releasing the
    mutex. -/
def sweep (input : SweepInput) (host : Host) : Host × List Datagram :=
  (List.finRange MAX_CLIENTS).foldl (sweepSlot input) (host, [])

/-- A slot as `server_stop` leaves it. -/
def stopped (c : ServerClient) : ServerClient :=
  { c with socket_fd := -1, is_active := false }

/-- The body of the loop of `server_stop` for one slot. The message goes to the
    descriptor in the slot. -/
def stopSlot (now : TimeT) (results : Fin MAX_CLIENTS → Option Nat) (acc : Host × List Datagram)
    (i : Fin MAX_CLIENTS) : Host × List Datagram :=
  let c := acc.1.server.clients i
  if c.is_active then
    ({ server := acc.1.server.setSlot i (stopped c)
       open_fds := closeAll acc.1.open_fds [c.socket_fd] },
      acc.2 ++ [send_message_protocol acc.1.open_fds c.socket_fd
        (create_message .MSG_STOP serverName c.client_id.bytes (bytes "Server shutting down") now)
        c.addr (results i)])
  else acc

/-- The section of `server_stop`. -/
def stopAll (now : TimeT) (results : Fin MAX_CLIENTS → Option Nat) (host : Host) :
    Host × List Datagram :=
  (List.finRange MAX_CLIENTS).foldl (stopSlot now results) (host, [])

/-- Closing `server_socket`, as `server_stop` and `safe_close_socket` do. -/
def Host.closeSocket (host : Host) : Host :=
  if host.server.server_socket = -1 then host
  else
    { server := { host.server with server_socket := -1 }
      open_fds := closeAll host.open_fds [host.server.server_socket] }

/-- The system: the host, and the datagram the main thread has taken in but
    not yet dispatched. -/
structure State where
  host : Host
  pending : Option (Message × SockAddrIn)

inductive Event
  /-- `recvfrom` has returned a whole message, checked at the time `checked`;
      the first critical section runs. -/
  | receive (msg : Message) (client_addr : SockAddrIn) (checked now : TimeT)
      (result : Option Nat)
  /-- The main thread runs the handler for the message taken in. -/
  | dispatch (now : TimeT) (result : Option Nat) (results : Fin MAX_CLIENTS → Option Nat)
  /-- The keepalive thread sweeps the table. -/
  | sweep (input : SweepInput)

def step (s : State) : Event → Option State
  | .receive msg client_addr checked now result =>
    if s.pending.isSome then none
    else if !validate_message msg checked then some s
    else match enroll s.host msg client_addr now result with
      | (host, some _) => some { host := host, pending := none }
      | (host, none) => some { host := host, pending := some (msg, client_addr) }
  | .dispatch now result results =>
    s.pending.map fun p =>
      { host := (dispatch s.host p.1 p.2 now result results).1, pending := none }
  | .sweep input => some { s with host := (sweep input s.host).1 }

/-- The system as `server_start` enters its loop, `server_init` having
    succeeded with the descriptor `fd`. The other open descriptors of the
    process are `others`. -/
def start (port : Int) (fd : Nat) (others : Int → Bool) : Option State :=
  (server_init port true fd).map fun server =>
    { host :=
        { server := { server with is_running := true }
          open_fds := Function.update others (fd : Int) true }
      pending := none }

/-- A call of `handle_message_directly` with nothing in between is one step of
    the system, when it ends with a reply, or two. -/
theorem step_handle_message_directly {s : State} (hidle : s.pending = none) {msg : Message}
    {checked : TimeT} (hvalid : validate_message msg checked = true) (client_addr : SockAddrIn)
    (now : TimeT) (result : Option Nat) (results : Fin MAX_CLIENTS → Option Nat) :
    ∃ s', step s (.receive msg client_addr checked now result) = some s' ∧
      let host := (handle_message_directly s.host msg client_addr now result results).1
      (s' = { host := host, pending := none } ∨
        step s' (.dispatch now result results) = some { host := host, pending := none }) := by
  rw [step, hidle, hvalid, handle_message_directly]
  cases enroll s.host msg client_addr now result with
  | mk host reply =>
      cases reply with
      | some d => exact ⟨_, rfl, Or.inl rfl⟩
      | none => exact ⟨_, rfl, Or.inr rfl⟩

/-- A turn of the main thread's loop or of the keepalive thread's, with nothing
    in between. -/
inductive Turn
  | message (msg : Message) (client_addr : SockAddrIn) (checked now : TimeT)
      (result : Option Nat) (results : Fin MAX_CLIENTS → Option Nat)
  | sweep (input : SweepInput)

def turnStep (host : Host) : Turn → Option Host
  | .message msg client_addr checked now result results =>
    some (if validate_message msg checked then
      (handle_message_directly host msg client_addr now result results).1 else host)
  | .sweep input => some (sweep input host).1

/-- A server that takes turns is one of the system. -/
theorem reachable_of_turns {host host' : Host} (h : Reachable turnStep host host') :
    Reachable step { host := host, pending := none } { host := host', pending := none } := by
  have hturn : ∀ v e w (s : State), s = { host := v, pending := none } → turnStep v e = some w →
      ∃ s', Reachable step s s' ∧ s' = { host := w, pending := none } := by
    rintro v e w _ rfl hstep
    refine ⟨_, ?_, rfl⟩
    cases e with
    | sweep input =>
        rw [← Option.some.inj hstep]
        exact Reaches.step _ _ (.sweep input) Reaches.refl trivial rfl
    | message msg client_addr checked now result results =>
        rw [← Option.some.inj hstep]
        cases hvalid : validate_message msg checked with
        | false => exact Reaches.refl
        | true =>
            rcases step_handle_message_directly (s := { host := v, pending := none }) rfl hvalid
              client_addr now result results with ⟨s', hreceive, hdone⟩
            have hfirst : Reachable step { host := v, pending := none } s' :=
              Reaches.step _ _ _ Reaches.refl trivial hreceive
            rcases hdone with rfl | hdispatch
            · exact hfirst
            · exact Reaches.step _ _ _ hfirst trivial hdispatch
  rcases Reachable.matched hturn h rfl with ⟨s', hreach, rfl⟩
  exact hreach

/-- A property of registries that survives the four changes the server makes:
    a new client, a client heard from, a client that has missed one more
    sweep, and a removal. -/
structure Kept (P : Server → Prop) : Prop where
  added : ∀ server client_addr client_id now, P server → validate_client_id client_id = true →
    find_client_by_id server client_id = none →
    P (add_client_udp server client_addr client_id now).1
  heard : ∀ server i client_addr now, P server → (server.clients i).is_active = true →
    P (server.setSlot i (heard (server.clients i) client_addr now))
  missed : ∀ server i, P server → (server.clients i).is_active = true →
    (missed (server.clients i)).inactive_count < MAX_INACTIVE_COUNT →
    P (server.setSlot i (missed (server.clients i)))
  removed : ∀ server i, P server → P (Chat.remove_client server i).1

theorem add_client_udp_active {server server' : Server} {client_addr : SockAddrIn}
    {client_id : List UInt8} {now : TimeT} {i : Fin MAX_CLIENTS}
    (h : add_client_udp server client_addr client_id now = (server', some i)) :
    (server'.clients i).is_active = true := by
  rcases fillSlot_some h with ⟨_, rfl⟩
  change ((server.setSlot i _).clients i).is_active = true
  rw [setSlot_self]
  rfl

/-- A visit of the keepalive loop does nothing, or it counts a miss of a silent
    client, which is then removed or reminded, or removed because it could not be
    reminded. -/
theorem sweepSlot_cases (input : SweepInput) (acc : Host × List Datagram) (i : Fin MAX_CLIENTS) :
    sweepSlot input acc i = acc ∨
    ∃ c counted alive, c = acc.1.server.clients i ∧ c.is_active = true ∧
      counted = { acc.1 with server := acc.1.server.setSlot i (missed c) } ∧
      alive = send_message_protocol counted.open_fds counted.server.server_socket
        (create_message .MSG_ALIVE serverName c.client_id.bytes [] input.stamp) c.addr
        (input.results i) ∧
      (sweepSlot input acc i = (counted.remove_client i, acc.2) ∨
        sweepSlot input acc i = (counted.remove_client i, acc.2 ++ [alive]) ∨
        (missed c).inactive_count < MAX_INACTIVE_COUNT ∧
          sweepSlot input acc i = (counted, acc.2 ++ [alive])) := by
  unfold sweepSlot
  by_cases hactive : (acc.1.server.clients i).is_active = true
  · rw [if_neg (by rw [hactive]; decide)]
    by_cases hsilent : silent input.now (acc.1.server.clients i) = true
    · rw [if_pos hsilent]
      refine Or.inr ⟨_, _, _, rfl, hactive, rfl, rfl, ?_⟩
      by_cases hcount : (missed (acc.1.server.clients i)).inactive_count ≥ MAX_INACTIVE_COUNT
      · exact Or.inl (if_pos hcount)
      · rw [if_neg hcount]
        simp only []
        split_ifs with hresult
        · exact Or.inr (Or.inl rfl)
        · exact Or.inr (Or.inr ⟨Int.lt_of_not_ge hcount, rfl⟩)
    · exact Or.inl (if_neg hsilent)
  · exact Or.inl (if_pos (by rw [Bool.eq_false_iff.mpr hactive]; rfl))

section Preservation

variable {P : Server → Prop} (hP : Kept P)

include hP

theorem enroll_preserves (host : Host) (msg : Message) (client_addr : SockAddrIn) (now : TimeT)
    (result : Option Nat) (h : P host.server) :
    P (enroll host msg client_addr now result).1.server := by
  rw [enroll]
  cases hfound : find_client_by_id host.server msg.sender_id.bytes with
  | some i => exact hP.heard _ i client_addr now h (find_client_by_id_some hfound).1
  | none =>
      simp only []
      by_cases hstop : msg.type = MessageType.MSG_STOP.code
      · rw [if_pos hstop]
        exact h
      · rw [if_neg hstop]
        by_cases hvalid : validate_client_id msg.sender_id.bytes = true
        · rw [if_neg (by rw [hvalid]; decide)]
          have hadd := hP.added _ client_addr _ now h hvalid hfound
          cases hfill : add_client_udp host.server client_addr msg.sender_id.bytes now with
          | mk server o =>
              rw [hfill] at hadd
              cases o with
              | none => exact hadd
              | some i =>
                  -- A new client counts as heard from in the same section.
                  exact hP.heard server i client_addr now hadd (add_client_udp_active hfill)
        · rw [if_pos (by rw [Bool.eq_false_iff.mpr hvalid]; rfl)]
          exact h

theorem dispatch_preserves (host : Host) (msg : Message) (client_addr : SockAddrIn) (now : TimeT)
    (result : Option Nat) (results : Fin MAX_CLIENTS → Option Nat) (h : P host.server) :
    P (dispatch host msg client_addr now result results).1.server := by
  rw [dispatch]
  split_ifs with hlist hall hone hstop
  · exact h
  · exact h
  · exact h
  · -- Of the handlers only this one writes to the registry.
    rw [handle_stop_request_udp]
    cases find_client_by_id host.server msg.sender_id.bytes with
    | none => exact h
    | some i => exact hP.removed _ i h
  · exact h

theorem sweepSlot_preserves (input : SweepInput) (acc : Host × List Datagram)
    (i : Fin MAX_CLIENTS) (h : P acc.1.server) : P (sweepSlot input acc i).1.server := by
  rcases sweepSlot_cases input acc i with hsame | ⟨c, counted, alive, rfl, hactive, rfl, -, hdone⟩
  · rw [hsame]
    exact h
  · -- The miss counted before a removal is gone with the slot.
    have hremoved := hP.removed _ i h
    rw [← remove_client_missed i hactive] at hremoved
    rcases hdone with hdone | hdone | ⟨hlow, hdone⟩
    · rw [hdone]
      exact hremoved
    · rw [hdone]
      exact hremoved
    · rw [hdone]
      exact hP.missed _ i h hactive hlow

theorem sweep_preserves (input : SweepInput) (host : Host) (h : P host.server) :
    P (sweep input host).1.server := by
  have hall : ∀ acc : Host × List Datagram, P acc.1.server →
      P ((List.finRange MAX_CLIENTS).foldl (sweepSlot input) acc).1.server :=
    foldl_preserves (fun acc i hacc => sweepSlot_preserves hP input acc i hacc) _
  rw [sweep]
  exact hall _ h

theorem step_preserves (s s' : State) (e : Event) (h : P s.host.server)
    (hstep : step s e = some s') : P s'.host.server := by
  cases e with
  | receive msg client_addr checked now result =>
      have henroll := enroll_preserves hP s.host msg client_addr now result h
      rw [step] at hstep
      split_ifs at hstep with hpending hvalid
      · -- A datagram that is refused has no effect.
        rw [← Option.some.inj hstep]
        exact h
      · cases hresult : enroll s.host msg client_addr now result with
        | mk host reply =>
            rw [hresult] at hstep henroll
            cases reply with
            | none =>
                rw [← Option.some.inj hstep]
                exact henroll
            | some d =>
                rw [← Option.some.inj hstep]
                exact henroll
  | dispatch now result results =>
      rw [step, Option.map_eq_some_iff] at hstep
      rcases hstep with ⟨p, _, hs'⟩
      rw [← hs']
      exact dispatch_preserves hP s.host p.1 p.2 now result results h
  | sweep input =>
      have hsweep := sweep_preserves hP input s.host h
      cases hresult : sweep input s.host with
      | mk host sent =>
          rw [step, hresult, Option.some.injEq] at hstep
          rw [hresult] at hsweep
          rw [← hstep]
          exact hsweep

/-- What the four changes preserve holds in every state reached from a state
    in which it holds. -/
theorem reachable_preserves {s t : State} (h : P s.host.server) (hreach : Reachable step s t) :
    P t.host.server :=
  hreach.invariant h fun v e w hv _ hstep => step_preserves hP v w e hv hstep

end Preservation

end Lab11

end OsLabs
