import OsLabs.Core.Run
import OsLabs.Lab10.Framing
import OsLabs.Lab10.Host

/-!
# The TCP Chat Server

`lab10/src/server.c` as a transition system. The main thread accepts and
registers connections and, at the end, cleans up; each registered connection
has a thread that runs `handle_client`; the keepalive thread sweeps the table;
and `server_stop` runs when a signal arrives, in whichever thread that
interrupts.

A step is a section protected by `clients_mutex`, a single access to shared
memory outside of one, or a call into the operating system. Two calls are
treated differently from the rest. A call of `recv` is two steps, one in which
the kernel looks the descriptor up and one in which the call returns, because
the thread can wait in between while others go on; the connection is fixed by
the first. The calls of `send` for one message are a single step, since
nothing in the state depends on how far they have come. What the mutex does is
visible only in `server_cleanup`, which holds it across several steps; while
it does, no section can start.

A handler knows its client by the address of a slot, and reads `is_active` and
`socket_fd` from that slot whenever it needs them. The slot may have been given
up, or given to somebody else, since the handler was started.

The last components of the state are history: which connection a slot was
registered for, which name each connection registered under, and what handlers
have read, removed and delivered. No step reads them.

## Main definitions

* `Received`, `recvRound`: One round of the loop that receives a message.
* `Handler`, `HandlerPc`: A thread that runs `handle_client`, and where it is.
* `Main`, `Keepalive`, `Stop`: Where the other threads are.
* `State`, `Event`, `step`: The transition system.
* `handlerStep`, `mainStep`, `keepaliveStep`, `stopStep`: Its four parts.
* `start`: Its state after `server_init`.
* `registers`, `connect`, `awaits`, `hears`, `serves`: Pieces of runs.

## Theorems

* `recvLoop_round`: Rounds make up the loop of `receive_message_protocol`.
* `handlerStep_test`, ..., `handlerStep_cleanup`: Where each step of a handler
  can be taken and where it leads.
* `register_cases`: The outcomes of a registration.
* `mainStep_start`, ..., `mainStep_join`: The same for the main thread.
* `handlerStep_frame`: What no step of a handler changes.
* `handlerStep_host`, `mainStep_host`: What handlers and the main thread do to
  the table.
* `mainStep_elsewhere`, `keepaliveStep_elsewhere`, `stopStep_elsewhere`: What
  the other threads have to do with handlers.
-/

namespace OsLabs

namespace Lab10

open Chat

/-- What a call of `recv` returns to a thread. -/
inductive Received
  | data (chunk : List UInt8)
  | eof
  | eintr
  | eagain
  | error

/-- One round of the loop of `receive_message_protocol`: the buffer to go on
    with, or how the loop is left. -/
def recvRound (buffer : List UInt8) : Received → List UInt8 ⊕ LoopExit
  | .data chunk =>
    if (buffer ++ chunk).length < SIZEOF_MESSAGE then .inl (buffer ++ chunk)
    else .inr (.full (buffer ++ chunk))
  | .eof => .inr (.early (if buffer.length = 0 then 0 else -1))
  | .eintr => .inl buffer
  | .eagain => .inl buffer
  | .error => .inr (.early (-1))

/-- How many bytes of the stream a result takes. -/
def RecvResult.taken (stream buffer : List UInt8) : RecvResult → Nat
  | .data k => min (k + 1) (min (SIZEOF_MESSAGE - buffer.length) stream.length)
  | _ => 0

/-- The same result with the bytes it transfers. -/
def RecvResult.received (stream buffer : List UInt8) (r : RecvResult) : Received :=
  match r with
  | .data _ =>
    if r.taken stream buffer = 0 then .eof else .data (stream.take (r.taken stream buffer))
  | .eintr => .eintr
  | .eagain => .eagain
  | .error => .error

/-- Rounds make up the loop of `receive_message_protocol`. -/
theorem recvLoop_round (stream buffer : List UInt8) (r : RecvResult) (rs : List RecvResult)
    (hlt : buffer.length < SIZEOF_MESSAGE) :
    recvLoop stream buffer (r :: rs) =
      match recvRound buffer (r.received stream buffer) with
      | .inl buffer' => recvLoop (stream.drop (r.taken stream buffer)) buffer' rs
      | .inr exit => some (exit, stream.drop (r.taken stream buffer), rs) := by
  cases r with
  | eintr => rw [recvLoop, if_pos hlt]; rfl
  | eagain => rw [recvLoop, if_pos hlt]; rfl
  | error => rw [recvLoop, if_pos hlt]; rfl
  | data k =>
      have hloop : recvLoop stream buffer (.data k :: rs) =
          if (RecvResult.data k).taken stream buffer = 0 then
            some (.early (if buffer.length = 0 then 0 else -1), stream, rs)
          else recvLoop (stream.drop ((RecvResult.data k).taken stream buffer))
            (buffer ++ stream.take ((RecvResult.data k).taken stream buffer)) rs := by
        rw [recvLoop, if_pos hlt]
        rfl
      rw [hloop]
      unfold RecvResult.received
      generalize (RecvResult.data k).taken stream buffer = n
      by_cases hzero : n = 0
      · simp [hzero, recvRound]
      · simp only [hzero, if_false]
        rw [recvRound]
        by_cases hmore : (buffer ++ stream.take n).length < SIZEOF_MESSAGE
        · rw [if_pos hmore]
        · rw [if_neg hmore, recvLoop_done _ hmore]

/-- The end of `receive_message_protocol`: the message in a full buffer, if it
    is acceptable at the time `now`. -/
def acceptable (buffer : List UInt8) (now : TimeT) : Option Message :=
  let message := Message.ofImage (CharArray.ofList SIZEOF_MESSAGE buffer)
  if validate_message message now then some message else none

/-- What a thread goes on with has passed the checks. -/
theorem validate_of_acceptable {buffer : List UInt8} {now : TimeT} {msg : Message}
    (h : acceptable buffer now = some msg) : validate_message msg now = true := by
  simp only [acceptable] at h
  split_ifs at h with hvalid
  rw [← Option.some.inj h]
  exact hvalid

/-- Where a handler is. -/
inductive HandlerPc
  /-- At the condition of the loop. -/
  | test
  /-- `client->socket_fd` is read next, for `receive_message_protocol`. -/
  | call
  /-- In `receive_message_protocol`, before a call of `recv`. -/
  | recv (fd : Int) (buffer : List UInt8)
  /-- In a call of `recv` on the connection. -/
  | blocked (fd : Int) (buffer : List UInt8) (conn : Conn)
  /-- A message is received; `last_seen` is written next. -/
  | received (conn : Conn) (msg : Message)
  /-- At the `switch`, where `client->socket_fd` is read. -/
  | switch (conn : Conn) (msg : Message)
  /-- In the function for the message's type, called with `fd`. -/
  | handling (conn : Conn) (msg : Message) (fd : Int)
  /-- Sending a list, or the goodbye, after which comes the cleanup. -/
  | replying (conn : Conn) (msg : Message) (fd : Int) (reply : Message) (last : Bool)
  /-- At the label `cleanup`. -/
  | cleanup
  /-- Past the cleanup section. -/
  | ended
  deriving DecidableEq

/-- A thread that runs `handle_client`. `client` is its argument, and `conn`
    records the connection it was created for. -/
structure Handler where
  client : Fin MAX_CLIENTS
  conn : Conn
  pc : HandlerPc
  deriving DecidableEq

/-- What `accept` has returned, with the connection it stands for. -/
structure Accepted where
  client_socket : Int
  client_addr : SockAddrIn
  conn : Conn
  deriving DecidableEq

/-- Where the main thread is, in `server_start` and then in
    `server_cleanup`. -/
inductive Main
  /-- Before the keepalive thread is created. -/
  | starting
  /-- At the condition of the loop. -/
  | looping
  | accepting
  | configuring (a : Accepted)
  | identifying (a : Accepted)
  | registering (a : Accepted) (id_msg : Message)
  /-- Sending `MSG_ERROR`; closing the connection is next. -/
  | refusing (a : Accepted) (err_msg : Message)
  | closing (a : Accepted)
  | welcoming (a : Accepted)
  /-- Past the loop; `server_cleanup` locks the mutex next. -/
  | finished
  /-- In the loop of `server_cleanup`, with the mutex. -/
  | joining (i : Nat)
  | returned
  deriving DecidableEq

/-- Where the keepalive thread is: before the loop's condition is tested after
    the sleep, before the section, or at its end. -/
inductive Keepalive
  | asleep
  | awake
  | ended

/-- How far `server_stop` has come, if it runs. -/
inductive Stop
  | idle
  | closing
  | locking
  | joining

structure State where
  host : Host
  /-- How many connections have been accepted. -/
  accepted : Nat
  main : Main
  /-- The handlers created, the first one having the thread id 1. -/
  threads : List Handler
  keepalive : Keepalive
  stop : Stop
  /-- The connection each slot was last registered for. -/
  owner : Fin MAX_CLIENTS → Conn
  /-- The name each connection was registered under. -/
  registered : List (Conn × List UInt8)
  /-- The connection a handler was created for, and one it read from. -/
  reads : List (Conn × Conn)
  /-- The connection a handler was created for, and the one whose registration
      it removed. -/
  removals : List (Conn × Conn)
  delivered : List Delivery

inductive HandlerEvent
  | test
  | call
  | recv
  | recv_return (r : Received) (now : TimeT)
  | note (now : TimeT)
  | switch
  | handle (now : TimeT) (ok : Bool) (oks : Fin MAX_CLIENTS → Bool)
  | reply (ok : Bool)
  | cleanup

inductive MainEvent
  | start (created : Bool)
  | test
  | accept (r : Option (Int × SockAddrIn))
  | configure (ok : Bool)
  | identify (r : Option Message) (now : TimeT)
  | register (now : TimeT) (created : Bool)
  | refuse (ok : Bool)
  | close
  | welcome (now : TimeT) (ok : Bool)
  | lock
  | join

inductive KeepaliveEvent
  | test
  | sweep (input : SweepInput)

inductive StopEvent
  | signal
  | close
  | notify (now : TimeT) (oks : Fin MAX_CLIENTS → Bool)
  | join

inductive Event
  | handler (t : Nat) (e : HandlerEvent)
  | main (e : MainEvent)
  | keepalive (e : KeepaliveEvent)
  | stop (e : StopEvent)

/-- The mutex is held across steps: `server_cleanup` is in its loop. -/
def State.locked (s : State) : Bool :=
  match s.main with
  | .joining _ => true
  | _ => false

def State.setServer (s : State) (server : Server) : State :=
  { s with host := { s.host with server := server } }

def State.setHandler (s : State) (t : Nat) (h : Handler) (pc : HandlerPc) : State :=
  { s with threads := s.threads.set t { h with pc := pc } }

def State.deliver (s : State) (sent : List Delivery) : State :=
  { s with delivered := s.delivered ++ sent }

/-- A slot whose client has just been heard from. -/
def refreshed (now : TimeT) (c : ServerClient) : ServerClient :=
  { c with last_seen := now, inactive_count := 0 }

/-- The functions for the types of messages, called with `fd`: the state
    afterwards, with the handler where it goes on. -/
def handle (s : State) (t : Nat) (h : Handler) (conn : Conn) (msg : Message) (fd : Int)
    (now : TimeT) (ok : Bool) (oks : Fin MAX_CLIENTS → Bool) : State :=
  let cause := some (conn, msg)
  if msg.type = MessageType.MSG_LIST.code then
    -- The list is built under the mutex and sent without it.
    s.setHandler t h (.replying conn msg fd
      (create_message .MSG_CLIENT_LIST serverName [] (clientList s.host.server).bytes now) false)
  else if msg.type = MessageType.MSG_2ALL.code then
    (s.setHandler t h .test).deliver (broadcast_message s.host
      (create_message .MSG_BROADCAST msg.sender_id.bytes [] msg.content.bytes now) fd cause oks)
  else if msg.type = MessageType.MSG_2ONE.code then
    (s.setHandler t h .test).deliver (send_private_message s.host
      (create_message .MSG_PRIVATE msg.sender_id.bytes msg.recipient_id.bytes msg.content.bytes
        now) msg.recipient_id.bytes cause ok)
  else if msg.type = MessageType.MSG_STOP.code then
    s.setHandler t h (.replying conn msg fd
      (create_message .MSG_STOP serverName [] (bytes "Goodbye!") now) true)
  else
    match find_client_by_socket s.host.server fd with
    | none => s.setHandler t h .test
    | some i =>
      (s.setServer (s.host.server.setSlot i (refreshed now (s.host.server.clients i)))).setHandler
        t h .test

/-- The types the `switch` has a case for. -/
def known (type : BitVec 32) : Bool :=
  type = MessageType.MSG_LIST.code || type = MessageType.MSG_2ALL.code ||
    type = MessageType.MSG_2ONE.code || type = MessageType.MSG_STOP.code ||
    type = MessageType.MSG_ALIVE_RESPONSE.code

/-- `handle_client`, for thread number `t` in state `h`. -/
def handlerStep (s : State) (t : Nat) (h : Handler) : HandlerEvent → Option State
  | .test => match h.pc with
    | .test =>
      let go := s.host.server.is_running && (s.host.server.clients h.client).is_active
      some (s.setHandler t h (if go then .call else .cleanup))
    | _ => none
  | .call => match h.pc with
    | .call =>
      let fd := (s.host.server.clients h.client).socket_fd
      some (s.setHandler t h (if fd < 0 then .cleanup else .recv fd []))
    | _ => none
  | .recv => match h.pc with
    | .recv fd buffer => match s.host.conns fd with
      -- The descriptor is closed, and `recv` fails.
      | none => some (s.setHandler t h .cleanup)
      | some c => some (s.setHandler t h (.blocked fd buffer c))
    | _ => none
  | .recv_return r now => match h.pc with
    | .blocked fd buffer c => match r with
      | .data chunk =>
        if 0 < chunk.length ∧ buffer.length + chunk.length ≤ SIZEOF_MESSAGE then
          let s := { s with reads := s.reads ++ [(h.conn, c)] }
          match recvRound buffer r with
          | .inl buffer' => some (s.setHandler t h (.recv fd buffer'))
          | .inr (.early _) => some (s.setHandler t h .cleanup)
          | .inr (.full buffer') => match acceptable buffer' now with
            | none => some (s.setHandler t h .cleanup)
            | some msg => some (s.setHandler t h (.received c msg))
        else none
      | _ => match recvRound buffer r with
        | .inl buffer' => some (s.setHandler t h (.recv fd buffer'))
        | .inr _ => some (s.setHandler t h .cleanup)
    | _ => none
  | .note now => match h.pc with
    | .received c msg =>
      let server := s.host.server.setSlot h.client
        (refreshed now (s.host.server.clients h.client))
      some ((s.setServer server).setHandler t h (.switch c msg))
    | _ => none
  | .switch => match h.pc with
    | .switch c msg =>
      let fd := (s.host.server.clients h.client).socket_fd
      some (s.setHandler t h (if known msg.type then .handling c msg fd else .test))
    | _ => none
  | .handle now ok oks => match h.pc with
    | .handling c msg fd =>
      -- Every function but the one for STOP takes the mutex.
      if s.locked && msg.type ≠ MessageType.MSG_STOP.code then none
      else some (handle s t h c msg fd now ok oks)
    | _ => none
  | .reply ok => match h.pc with
    | .replying c msg fd reply last =>
      some ((s.setHandler t h (if last then .cleanup else .test)).deliver
        (s.host.send fd reply (some (c, msg)) ok).toList)
    | _ => none
  | .cleanup => match h.pc with
    | .cleanup =>
      if s.locked then none
      else match find_client_by_socket s.host.server
          (s.host.server.clients h.client).socket_fd with
        | none => some (s.setHandler t h .ended)
        | some i => some
          { s.setHandler t h .ended with
            host := s.host.remove_client i
            removals := s.removals ++ [(h.conn, s.owner i)] }
    | _ => none

/-- A message the main thread sends for itself. -/
def State.mainSend (s : State) (a : Accepted) (message : Message) (ok : Bool) : State :=
  s.deliver (s.host.send a.client_socket message none ok).toList

/-- The registration of a connection that has identified itself. -/
def register (s : State) (a : Accepted) (id_msg : Message) (now : TimeT) (created : Bool) : State :=
  let refuse (text : String) : State :=
    { s with
      main := .refusing a
        (create_message .MSG_ERROR serverName id_msg.sender_id.bytes (bytes text) now) }
  if !validate_client_id id_msg.sender_id.bytes then refuse "Invalid client ID format"
  else if (find_client_by_id s.host.server id_msg.sender_id.bytes).isSome then
    refuse "Client ID already in use"
  else match add_client s.host.server a.client_socket a.client_addr id_msg.sender_id.bytes now with
    | (_, none) => refuse "Server full or internal error"
    | (server, some i) =>
      if created then
        { s with
          host := { s.host with
            server := server.setSlot i
              { server.clients i with thread_id := s.threads.length + 1 } }
          threads := s.threads ++ [{ client := i, conn := a.conn, pc := .test }]
          owner := Function.update s.owner i a.conn
          registered := s.registered ++ [(a.conn, id_msg.sender_id.str)]
          main := .welcoming a }
      else
        let failed : Host := { s.host with server := server }
        { s with
          host := failed.remove_client i
          main := .closing a }

/-- `server_start`, and after its loop `server_cleanup`. -/
def mainStep (s : State) : MainEvent → Option State
  | .start created => match s.main with
    | .starting => some
      (if created then
        { s.setServer { s.host.server with is_running := true } with
          main := .looping
          keepalive := .asleep }
      -- Without a keepalive thread `server_stop` runs and `server_start` returns.
      else { s with main := .finished, stop := .closing })
    | _ => none
  | .test => match s.main with
    | .looping => some
      { s with main := if s.host.server.is_running then .accepting else .finished }
    | _ => none
  | .accept r => match s.main with
    | .accepting => match r with
      -- After EINTR the loop is left if the server does not run any more, and
      -- otherwise its condition is tested, which comes to the same.
      | none => some { s with main := .looping }
      | some (fd, addr) =>
        if 0 ≤ fd ∧ s.host.conns fd = none ∧ fd ≠ s.host.server.server_socket then some
          { s with
            host := { s.host with conns := Function.update s.host.conns fd (some s.accepted) }
            accepted := s.accepted + 1
            main := .configuring { client_socket := fd, client_addr := addr, conn := s.accepted } }
        else none
    | _ => none
  | .configure ok => match s.main with
    | .configuring a => some { s with main := if ok then .identifying a else .closing a }
    | _ => none
  | .identify r now => match s.main with
    | .identifying a => match r with
      | none => some { s with main := .closing a }
      | some id_msg =>
        if validate_message id_msg now then some { s with main := .registering a id_msg } else none
    | _ => none
  | .register now created => match s.main with
    | .registering a id_msg => some (register s a id_msg now created)
    | _ => none
  | .refuse ok => match s.main with
    | .refusing a err_msg => some { s.mainSend a err_msg ok with main := .closing a }
    | _ => none
  | .close => match s.main with
    | .closing a => some
      { s with
        host := { s.host with conns := closeAll s.host.conns [a.client_socket] }
        main := .looping }
    | _ => none
  | .welcome now ok => match s.main with
    | .welcoming a => some
      { s.mainSend a (create_message .MSG_BROADCAST serverName []
          (bytes "Welcome to the chat server!") now) ok with main := .looping }
    | _ => none
  | .lock => match s.main with
    -- The call of `server_stop` before this returns at once: the loop is left
    -- only when the server does not run any more.
    | .finished => if s.host.server.is_running then none else some { s with main := .joining 0 }
    | _ => none
  | .join => match s.main with
    | .joining n =>
      if h : n < MAX_CLIENTS then
        let c := s.host.server.clients ⟨n, h⟩
        if c.thread_id = 0 then some { s with main := .joining (n + 1) }
        else match s.threads[c.thread_id - 1]? with
          | some { pc := .ended, .. } => some
            { s.setServer (s.host.server.setSlot ⟨n, h⟩ { c with thread_id := 0 }) with
              main := .joining (n + 1) }
          | _ => none
      else some
        { s.setServer { s.host.server with server_socket := -1 } with main := .returned }
    | _ => none

/-- `keepalive_monitor`. -/
def keepaliveStep (s : State) : KeepaliveEvent → Option State
  | .test => match s.keepalive with
    | .asleep => some
      { s with keepalive := if s.host.server.is_running then .awake else .ended }
    | _ => none
  | .sweep input => match s.keepalive with
    | .awake =>
      if s.locked then none
      else some
        { s.deliver (sweep input s.host).2 with
          host := (sweep input s.host).1, keepalive := .asleep }
    | _ => none

/-- `signal_handler` and `server_stop`. -/
def stopStep (s : State) : StopEvent → Option State
  | .signal => match s.stop with
    | .idle =>
      if s.host.server.is_running then some
        { s.setServer { s.host.server with is_running := false } with stop := .closing }
      else some s
    | _ => none
  | .close => match s.stop with
    | .closing => some
      { s.setServer { s.host.server with server_socket := -1 } with stop := .locking }
    | _ => none
  | .notify now oks => match s.stop with
    | .locking =>
      if s.locked then none
      else some
        { s.deliver (stopAll now oks s.host).2 with
          host := (stopAll now oks s.host).1, stop := .joining }
    | _ => none
  | .join => match s.stop, s.keepalive with
    | .joining, .ended => some { s with stop := .idle }
    | _, _ => none

def step (s : State) : Event → Option State
  | .handler t e => s.threads[t]?.bind fun h => handlerStep s t h e
  | .main e => mainStep s e
  | .keepalive e => keepaliveStep s e
  | .stop e => stopStep s e

/-- The system after `server_init` has succeeded, with no connection yet. -/
def start (port : Int) (server_socket : Int) : Option State :=
  (server_init port true server_socket).map fun server =>
    { host := { server := server, conns := fun _ => none }
      accepted := 0
      main := .starting
      threads := []
      keepalive := .ended
      stop := .idle
      owner := fun _ => 0
      registered := []
      reads := []
      removals := []
      delivered := [] }

section HandlerSteps

variable {s s' : State} {t : Nat} {h : Handler}

theorem handlerStep_test (hstep : handlerStep s t h .test = some s') :
    h.pc = .test ∧ s' = s.setHandler t h (if s.host.server.is_running &&
      (s.host.server.clients h.client).is_active then .call else .cleanup) := by
  cases hpc : h.pc <;> simp_all [handlerStep]

theorem handlerStep_call (hstep : handlerStep s t h .call = some s') :
    h.pc = .call ∧ s' = s.setHandler t h
      (if (s.host.server.clients h.client).socket_fd < 0 then .cleanup
        else .recv (s.host.server.clients h.client).socket_fd []) := by
  cases hpc : h.pc <;> simp_all [handlerStep]

theorem handlerStep_recv (hstep : handlerStep s t h .recv = some s') :
    ∃ fd buffer, h.pc = .recv fd buffer ∧
      (s.host.conns fd = none ∧ s' = s.setHandler t h .cleanup ∨
        ∃ c, s.host.conns fd = some c ∧ s' = s.setHandler t h (.blocked fd buffer c)) := by
  cases hpc : h.pc with
  | recv fd buffer =>
      cases hc : s.host.conns fd <;> simp_all [handlerStep]
  | _ => simp [handlerStep, hpc] at hstep

/-- After a call of `recv` a handler goes on receiving from the descriptor it
    has, or leaves the loop, or has a message of the connection. -/
theorem handlerStep_recv_return {r : Received} {now : TimeT}
    (hstep : handlerStep s t h (.recv_return r now) = some s') :
    ∃ fd buffer c reads pc, h.pc = .blocked fd buffer c ∧
      (reads = s.reads ∨ reads = s.reads ++ [(h.conn, c)]) ∧
      ((∃ buffer', pc = .recv fd buffer') ∨ pc = .cleanup ∨
        ∃ buffer' msg, acceptable buffer' now = some msg ∧ pc = .received c msg) ∧
      s' = { s with reads := reads }.setHandler t h pc := by
  cases hpc : h.pc with
  | blocked fd buffer c =>
      simp only [handlerStep, hpc] at hstep
      cases r with
      | data chunk =>
          simp only [] at hstep
          split_ifs at hstep with hlen
          -- The round goes on, or the loop is left early, or the record is full
          -- and is checked.
          refine ⟨fd, buffer, c, s.reads ++ [(h.conn, c)], ?_⟩
          split at hstep
          · exact ⟨_, rfl, Or.inr rfl, Or.inl ⟨_, rfl⟩, (Option.some.inj hstep).symm⟩
          · exact ⟨_, rfl, Or.inr rfl, Or.inr (Or.inl rfl), (Option.some.inj hstep).symm⟩
          · split at hstep
            · exact ⟨_, rfl, Or.inr rfl, Or.inr (Or.inl rfl), (Option.some.inj hstep).symm⟩
            · exact ⟨_, rfl, Or.inr rfl, Or.inr (Or.inr ⟨_, _, ‹_›, rfl⟩),
                (Option.some.inj hstep).symm⟩
      | _ =>
          refine ⟨fd, buffer, c, s.reads, ?_⟩
          simp only [recvRound] at hstep
          first
            | exact ⟨_, rfl, Or.inl rfl, Or.inl ⟨_, rfl⟩, (Option.some.inj hstep).symm⟩
            | exact ⟨_, rfl, Or.inl rfl, Or.inr (Or.inl rfl), (Option.some.inj hstep).symm⟩
  | _ => simp [handlerStep, hpc] at hstep

theorem handlerStep_note {now : TimeT} (hstep : handlerStep s t h (.note now) = some s') :
    ∃ c msg, h.pc = .received c msg ∧
      s' = (s.setServer (s.host.server.setSlot h.client
        (refreshed now (s.host.server.clients h.client)))).setHandler t h (.switch c msg) := by
  cases hpc : h.pc <;> simp_all [handlerStep]

theorem handlerStep_switch (hstep : handlerStep s t h .switch = some s') :
    ∃ c msg, h.pc = .switch c msg ∧ s' = s.setHandler t h
      (if known msg.type then .handling c msg (s.host.server.clients h.client).socket_fd
        else .test) := by
  cases hpc : h.pc <;> simp_all [handlerStep]

theorem handlerStep_handle {now : TimeT} {ok : Bool} {oks : Fin MAX_CLIENTS → Bool}
    (hstep : handlerStep s t h (.handle now ok oks) = some s') :
    ∃ c msg fd, h.pc = .handling c msg fd ∧
      (s.locked = true → msg.type = MessageType.MSG_STOP.code) ∧
      s' = handle s t h c msg fd now ok oks := by
  cases hpc : h.pc with
  | handling c msg fd =>
      simp only [handlerStep, hpc] at hstep
      split_ifs at hstep with hlocked
      refine ⟨c, msg, fd, rfl, fun hs => ?_, (Option.some.inj hstep).symm⟩
      simpa [hs] using hlocked
  | _ => simp [handlerStep, hpc] at hstep

/-- The functions for the types of messages move the handler, and open, close,
    receive and remove nothing. -/
theorem handle_frame (conn : Conn) (msg : Message) (fd : Int) (now : TimeT) (ok : Bool)
    (oks : Fin MAX_CLIENTS → Bool) :
    (∃ pc, (handle s t h conn msg fd now ok oks).threads
        = s.threads.set t { h with pc := pc }) ∧
      (handle s t h conn msg fd now ok oks).main = s.main ∧
      (handle s t h conn msg fd now ok oks).accepted = s.accepted ∧
      (handle s t h conn msg fd now ok oks).host.conns = s.host.conns ∧
      (handle s t h conn msg fd now ok oks).reads = s.reads ∧
      (handle s t h conn msg fd now ok oks).removals = s.removals := by
  unfold handle
  simp only []
  split_ifs
  · exact ⟨⟨_, rfl⟩, rfl, rfl, rfl, rfl, rfl⟩
  · exact ⟨⟨_, rfl⟩, rfl, rfl, rfl, rfl, rfl⟩
  · exact ⟨⟨_, rfl⟩, rfl, rfl, rfl, rfl, rfl⟩
  · exact ⟨⟨_, rfl⟩, rfl, rfl, rfl, rfl, rfl⟩
  · cases find_client_by_socket s.host.server fd <;>
      exact ⟨⟨_, rfl⟩, rfl, rfl, rfl, rfl, rfl⟩

theorem handlerStep_reply {ok : Bool} (hstep : handlerStep s t h (.reply ok) = some s') :
    ∃ c msg fd reply last, h.pc = .replying c msg fd reply last ∧
      s' = (s.setHandler t h (if last then .cleanup else .test)).deliver
        (s.host.send fd reply (some (c, msg)) ok).toList := by
  cases hpc : h.pc with
  | replying c msg fd reply last =>
      rw [handlerStep, hpc, Option.some.injEq] at hstep
      exact ⟨c, msg, fd, reply, last, rfl, hstep.symm⟩
  | _ => simp [handlerStep, hpc] at hstep

/-- In its cleanup section a handler removes whoever has the descriptor that is
    in its slot by then, if anybody has. -/
theorem handlerStep_cleanup (hstep : handlerStep s t h .cleanup = some s') :
    h.pc = .cleanup ∧ s.locked = false ∧
      (s' = s.setHandler t h .ended ∨
        ∃ i, find_client_by_socket s.host.server
            (s.host.server.clients h.client).socket_fd = some i ∧
          s' = { s.setHandler t h .ended with
            host := s.host.remove_client i
            removals := s.removals ++ [(h.conn, s.owner i)] }) := by
  cases hpc : h.pc with
  | cleanup =>
      simp only [handlerStep, hpc] at hstep
      split_ifs at hstep with hlocked
      refine ⟨rfl, Bool.eq_false_iff.mpr hlocked, ?_⟩
      split at hstep
      · exact Or.inl (Option.some.inj hstep).symm
      · exact Or.inr ⟨_, ‹_›, (Option.some.inj hstep).symm⟩
  | _ => simp [handlerStep, hpc] at hstep

end HandlerSteps

section MainSteps

variable {s s' : State}

/-- The table with the new client in slot `i`, and `thread_id` its thread. -/
def enrolled (server : Server) (a : Accepted) (client_id : List UInt8) (now : TimeT)
    (i : Fin MAX_CLIENTS) (thread_id : Nat) : Server :=
  { server.setSlot i
      { filled (server.clients i) a.client_socket a.client_addr client_id now with
        thread_id := thread_id } with
    client_count := server.client_count + 1 }

/-- A registration is refused, which changes nothing but the main thread's
    place, or it fills the first slot that is not active, and removes the
    client again if there is no thread for it. -/
theorem register_cases (a : Accepted) (id_msg : Message) (now : TimeT) (created : Bool) :
    (∃ err_msg, register s a id_msg now created = { s with main := .refusing a err_msg }) ∨
      ∃ i, 0 ≤ a.client_socket ∧ freeSlot s.host.server = some i ∧
        validate_client_id id_msg.sender_id.bytes = true ∧
        find_client_by_id s.host.server id_msg.sender_id.bytes = none ∧
        register s a id_msg now created =
          if created then
            { s with
              host := { s.host with
                server := enrolled s.host.server a id_msg.sender_id.bytes now i
                  (s.threads.length + 1) }
              threads := s.threads ++ [{ client := i, conn := a.conn, pc := .test }]
              owner := Function.update s.owner i a.conn
              registered := s.registered ++ [(a.conn, id_msg.sender_id.str)]
              main := .welcoming a }
          else
            { s with
              host := Host.remove_client { s.host with
                server := enrolled s.host.server a id_msg.sender_id.bytes now i 0 } i
              main := .closing a } := by
  unfold register
  by_cases hvalid : validate_client_id id_msg.sender_id.bytes = true
  · cases hfound : find_client_by_id s.host.server id_msg.sender_id.bytes with
    | some j => exact Or.inl ⟨_, by simp [hvalid]; rfl⟩
    | none =>
        cases hadd : add_client s.host.server a.client_socket a.client_addr
            id_msg.sender_id.bytes now with
        | mk server o =>
            cases o with
            | none => exact Or.inl ⟨_, by simp [hvalid]; rfl⟩
            | some i =>
                -- Only here does anything change but the main thread's place.
                rcases add_client_some hadd with ⟨hfd, hfill⟩
                rcases fillSlot_some hfill with ⟨hfree, rfl⟩
                refine Or.inr ⟨i, hfd, hfree, hvalid, rfl, ?_⟩
                simp [hvalid, enrolled, Server.setSlot, filled]
  · exact Or.inl ⟨_, by simp [hvalid]; rfl⟩

theorem mainStep_start {created : Bool} (hstep : mainStep s (.start created) = some s') :
    s.main = .starting ∧ s' = if created then
      { s.setServer { s.host.server with is_running := true } with
        main := .looping
        keepalive := .asleep }
      else { s with main := .finished, stop := .closing } := by
  cases hmain : s.main <;> simp_all [mainStep]

theorem mainStep_test (hstep : mainStep s .test = some s') :
    s.main = .looping ∧
      s' = { s with main := if s.host.server.is_running then .accepting else .finished } := by
  cases hmain : s.main <;> simp_all [mainStep]

theorem mainStep_accept {r : Option (Int × SockAddrIn)}
    (hstep : mainStep s (.accept r) = some s') :
    s.main = .accepting ∧ (r = none ∧ s' = { s with main := .looping } ∨
      ∃ fd addr, r = some (fd, addr) ∧ 0 ≤ fd ∧ s.host.conns fd = none ∧ s' = { s with
        host := { s.host with conns := Function.update s.host.conns fd (some s.accepted) }
        accepted := s.accepted + 1
        main := .configuring
          { client_socket := fd, client_addr := addr, conn := s.accepted } }) := by
  cases hmain : s.main with
  | accepting =>
      cases r with
      | none =>
          simp only [mainStep, hmain, Option.some.injEq] at hstep
          exact ⟨rfl, Or.inl ⟨rfl, hstep.symm⟩⟩
      | some p =>
          simp only [mainStep, hmain] at hstep
          split_ifs at hstep with hfd
          exact ⟨rfl, Or.inr ⟨p.1, p.2, rfl, hfd.1, hfd.2.1, (Option.some.inj hstep).symm⟩⟩
  | _ => simp [mainStep, hmain] at hstep

theorem mainStep_configure {ok : Bool} (hstep : mainStep s (.configure ok) = some s') :
    ∃ a, s.main = .configuring a ∧
      s' = { s with main := if ok then .identifying a else .closing a } := by
  cases hmain : s.main <;> simp_all [mainStep]

theorem mainStep_identify {r : Option Message} {now : TimeT}
    (hstep : mainStep s (.identify r now) = some s') :
    ∃ a, s.main = .identifying a ∧ (s' = { s with main := .closing a } ∨
      ∃ id_msg, r = some id_msg ∧ s' = { s with main := .registering a id_msg }) := by
  cases hmain : s.main with
  | identifying a =>
      cases r with
      | none =>
          simp only [mainStep, hmain, Option.some.injEq] at hstep
          exact ⟨a, rfl, Or.inl hstep.symm⟩
      | some id_msg =>
          simp only [mainStep, hmain] at hstep
          split_ifs at hstep with hvalid
          exact ⟨a, rfl, Or.inr ⟨id_msg, rfl, (Option.some.inj hstep).symm⟩⟩
  | _ => simp [mainStep, hmain] at hstep

theorem mainStep_register {now : TimeT} {created : Bool}
    (hstep : mainStep s (.register now created) = some s') :
    ∃ a id_msg, s.main = .registering a id_msg ∧ s' = register s a id_msg now created := by
  cases hmain : s.main <;> simp_all [mainStep]

theorem mainStep_refuse {ok : Bool} (hstep : mainStep s (.refuse ok) = some s') :
    ∃ a err_msg, s.main = .refusing a err_msg ∧
      s' = { s.mainSend a err_msg ok with main := .closing a } := by
  cases hmain : s.main <;> simp_all [mainStep]

theorem mainStep_close (hstep : mainStep s .close = some s') :
    ∃ a, s.main = .closing a ∧ s' = { s with
      host := { s.host with conns := closeAll s.host.conns [a.client_socket] }
      main := .looping } := by
  cases hmain : s.main <;> simp_all [mainStep]

theorem mainStep_welcome {now : TimeT} {ok : Bool}
    (hstep : mainStep s (.welcome now ok) = some s') :
    ∃ a message, s.main = .welcoming a ∧
      s' = { s.mainSend a message ok with main := .looping } := by
  cases hmain : s.main with
  | welcoming a =>
      rw [mainStep, hmain, Option.some.injEq] at hstep
      exact ⟨a, _, rfl, hstep.symm⟩
  | _ => simp [mainStep, hmain] at hstep

theorem mainStep_lock (hstep : mainStep s .lock = some s') :
    s.main = .finished ∧ s' = { s with main := .joining 0 } := by
  cases hmain : s.main <;> simp_all [mainStep]

/-- A turn of the loop of `server_cleanup`: there is no thread in the slot, or it
    has ended and is joined, or this is the end of the loop. -/
theorem mainStep_join_cases {n : Nat} (hmain : s.main = .joining n)
    (hstep : mainStep s .join = some s') :
    (∃ h : n < MAX_CLIENTS, (s.host.server.clients ⟨n, h⟩).thread_id = 0 ∧
      s' = { s with main := .joining (n + 1) }) ∨
    (∃ h : n < MAX_CLIENTS, (s.host.server.clients ⟨n, h⟩).thread_id ≠ 0 ∧ s' =
      { s.setServer (s.host.server.setSlot ⟨n, h⟩
          { s.host.server.clients ⟨n, h⟩ with thread_id := 0 }) with
        main := .joining (n + 1) }) ∨
    (¬ n < MAX_CLIENTS ∧
      s' = { s.setServer { s.host.server with server_socket := -1 } with main := .returned }) := by
  simp only [mainStep, hmain] at hstep
  split_ifs at hstep with hn hid
  · exact Or.inl ⟨hn, hid, (Option.some.inj hstep).symm⟩
  · split at hstep
    · exact Or.inr (Or.inl ⟨hn, hid, (Option.some.inj hstep).symm⟩)
    · exact absurd hstep (by simp)
  · exact Or.inr (Or.inr ⟨hn, (Option.some.inj hstep).symm⟩)

theorem mainStep_join (hstep : mainStep s .join = some s') :
    ∃ n, s.main = .joining n ∧ (s' = { s with main := .joining (n + 1) } ∨
      (∃ h : n < MAX_CLIENTS, s' =
        { s.setServer (s.host.server.setSlot ⟨n, h⟩
            { s.host.server.clients ⟨n, h⟩ with thread_id := 0 }) with
          main := .joining (n + 1) }) ∨
      s' = { s.setServer { s.host.server with server_socket := -1 } with main := .returned }) := by
  cases hmain : s.main with
  | joining n =>
      rcases mainStep_join_cases hmain hstep with ⟨_, _, hs'⟩ | ⟨hn, _, hs'⟩ | ⟨_, hs'⟩
      · exact ⟨n, rfl, Or.inl hs'⟩
      · exact ⟨n, rfl, Or.inr (Or.inl ⟨hn, hs'⟩)⟩
      · exact ⟨n, rfl, Or.inr (Or.inr hs')⟩
  | _ => simp [mainStep, hmain] at hstep

end MainSteps

section OtherSteps

variable {s s' : State}

theorem keepaliveStep_test (hstep : keepaliveStep s .test = some s') :
    s' = { s with keepalive := if s.host.server.is_running then .awake else .ended } := by
  cases hpc : s.keepalive <;> simp_all [keepaliveStep]

theorem keepaliveStep_sweep {input : SweepInput}
    (hstep : keepaliveStep s (.sweep input) = some s') :
    s.locked = false ∧ s' = { s.deliver (sweep input s.host).2 with
      host := (sweep input s.host).1
      keepalive := .asleep } := by
  cases hpc : s.keepalive with
  | awake =>
      simp only [keepaliveStep, hpc] at hstep
      split_ifs at hstep with hlocked
      exact ⟨Bool.eq_false_iff.mpr hlocked, (Option.some.inj hstep).symm⟩
  | _ => simp [keepaliveStep, hpc] at hstep

theorem stopStep_signal (hstep : stopStep s .signal = some s') :
    s' = s ∨ s' = { s.setServer { s.host.server with is_running := false } with
      stop := .closing } := by
  cases hpc : s.stop with
  | idle =>
      simp only [stopStep, hpc] at hstep
      split_ifs at hstep
      · exact Or.inr (Option.some.inj hstep).symm
      · exact Or.inl (Option.some.inj hstep).symm
  | _ => simp [stopStep, hpc] at hstep

theorem stopStep_close (hstep : stopStep s .close = some s') :
    s' = { s.setServer { s.host.server with server_socket := -1 } with stop := .locking } := by
  cases hpc : s.stop <;> simp_all [stopStep]

theorem stopStep_notify {now : TimeT} {oks : Fin MAX_CLIENTS → Bool}
    (hstep : stopStep s (.notify now oks) = some s') :
    s.locked = false ∧ s' = { s.deliver (stopAll now oks s.host).2 with
      host := (stopAll now oks s.host).1
      stop := .joining } := by
  cases hpc : s.stop with
  | locking =>
      simp only [stopStep, hpc] at hstep
      split_ifs at hstep with hlocked
      exact ⟨Bool.eq_false_iff.mpr hlocked, (Option.some.inj hstep).symm⟩
  | _ => simp [stopStep, hpc] at hstep

theorem stopStep_join (hstep : stopStep s .join = some s') : s' = { s with stop := .idle } := by
  cases hpc : s.stop <;> cases hk : s.keepalive <;> simp_all [stopStep]

end OtherSteps

section Frames

variable {s s' : State}

/-- A handler moves itself, and no other thread. -/
theorem handlerStep_frame {t : Nat} {h : Handler} {e : HandlerEvent}
    (hstep : handlerStep s t h e = some s') :
    (∃ pc, s'.threads = s.threads.set t { h with pc := pc }) ∧ s'.main = s.main ∧
      s'.accepted = s.accepted := by
  cases e with
  | test =>
      rw [(handlerStep_test hstep).2]
      exact ⟨⟨_, rfl⟩, rfl, rfl⟩
  | call =>
      rw [(handlerStep_call hstep).2]
      exact ⟨⟨_, rfl⟩, rfl, rfl⟩
  | recv =>
      rcases handlerStep_recv hstep with ⟨fd, buffer, _, ⟨_, rfl⟩ | ⟨c, _, rfl⟩⟩
      · exact ⟨⟨_, rfl⟩, rfl, rfl⟩
      · exact ⟨⟨_, rfl⟩, rfl, rfl⟩
  | recv_return r now =>
      rcases handlerStep_recv_return hstep with ⟨fd, buffer, c, reads, pc, _, _, _, rfl⟩
      exact ⟨⟨_, rfl⟩, rfl, rfl⟩
  | note now =>
      rcases handlerStep_note hstep with ⟨c, msg, _, rfl⟩
      exact ⟨⟨_, rfl⟩, rfl, rfl⟩
  | switch =>
      rcases handlerStep_switch hstep with ⟨c, msg, _, rfl⟩
      exact ⟨⟨_, rfl⟩, rfl, rfl⟩
  | handle now ok oks =>
      rcases handlerStep_handle hstep with ⟨c, msg, fd, _, _, rfl⟩
      rcases handle_frame (s := s) (t := t) (h := h) c msg fd now ok oks with
        ⟨hthreads, hmain, haccepted, _⟩
      exact ⟨hthreads, hmain, haccepted⟩
  | reply ok =>
      rcases handlerStep_reply hstep with ⟨c, msg, fd, reply, last, _, rfl⟩
      exact ⟨⟨_, rfl⟩, rfl, rfl⟩
  | cleanup =>
      rcases handlerStep_cleanup hstep with ⟨_, _, rfl | ⟨i, _, rfl⟩⟩
      · exact ⟨⟨_, rfl⟩, rfl, rfl⟩
      · exact ⟨⟨_, rfl⟩, rfl, rfl⟩

/-- What a handler does to the table and the descriptors. It may note that a
    client was heard from, and in its cleanup section it may remove one. -/
theorem handlerStep_host {t : Nat} {h : Handler} {e : HandlerEvent}
    (hstep : handlerStep s t h e = some s') :
    s'.host = s.host ∨
      (∃ i now, s'.host = { s.host with
        server := s.host.server.setSlot i (refreshed now (s.host.server.clients i)) }) ∨
      e = .cleanup ∧ ∃ i, find_client_by_socket s.host.server
          (s.host.server.clients h.client).socket_fd = some i ∧
        s'.host = s.host.remove_client i := by
  cases e with
  | test =>
      rw [(handlerStep_test hstep).2]
      exact Or.inl rfl
  | call =>
      rw [(handlerStep_call hstep).2]
      exact Or.inl rfl
  | recv =>
      rcases handlerStep_recv hstep with ⟨fd, buffer, _, ⟨_, rfl⟩ | ⟨c, _, rfl⟩⟩
      · exact Or.inl rfl
      · exact Or.inl rfl
  | recv_return r now =>
      rcases handlerStep_recv_return hstep with ⟨fd, buffer, c, reads, pc, _, _, _, rfl⟩
      exact Or.inl rfl
  | note now =>
      rcases handlerStep_note hstep with ⟨c, msg, _, rfl⟩
      exact Or.inr (Or.inl ⟨h.client, now, rfl⟩)
  | switch =>
      rcases handlerStep_switch hstep with ⟨c, msg, _, rfl⟩
      exact Or.inl rfl
  | handle now ok oks =>
      rcases handlerStep_handle hstep with ⟨c, msg, fd, _, _, rfl⟩
      unfold handle
      simp only []
      split_ifs
      · exact Or.inl rfl
      · exact Or.inl rfl
      · exact Or.inl rfl
      · exact Or.inl rfl
      · -- The answer to a keepalive message is noted for whoever has the descriptor.
        cases find_client_by_socket s.host.server fd with
        | none => exact Or.inl rfl
        | some i => exact Or.inr (Or.inl ⟨i, now, rfl⟩)
  | reply ok =>
      rcases handlerStep_reply hstep with ⟨c, msg, fd, reply, last, _, rfl⟩
      exact Or.inl rfl
  | cleanup =>
      rcases handlerStep_cleanup hstep with ⟨_, _, rfl | ⟨i, hfound, rfl⟩⟩
      · exact Or.inl rfl
      · exact Or.inr (Or.inr ⟨rfl, i, hfound, rfl⟩)

/-- What the main thread does to the table and the descriptors. It leaves the
    table alone, or registers a connection, or clears the thread of a slot. -/
theorem mainStep_host {e : MainEvent} (hstep : mainStep s e = some s') :
    (s'.host.server.clients = s.host.server.clients ∧
        s'.host.server.client_count = s.host.server.client_count) ∨
      (∃ a id_msg now created, e = .register now created ∧ s.main = .registering a id_msg ∧
        s' = register s a id_msg now created) ∨
      ∃ i, s'.host = { s.host with
        server := s.host.server.setSlot i { s.host.server.clients i with thread_id := 0 } } := by
  cases e with
  | start created =>
      rcases mainStep_start hstep with ⟨_, rfl⟩
      cases created <;> exact Or.inl ⟨rfl, rfl⟩
  | test =>
      rw [(mainStep_test hstep).2]
      exact Or.inl ⟨rfl, rfl⟩
  | accept r =>
      rcases mainStep_accept hstep with ⟨_, ⟨_, rfl⟩ | ⟨fd, addr, _, _, _, rfl⟩⟩
      · exact Or.inl ⟨rfl, rfl⟩
      · exact Or.inl ⟨rfl, rfl⟩
  | configure ok =>
      rcases mainStep_configure hstep with ⟨a, _, rfl⟩
      exact Or.inl ⟨rfl, rfl⟩
  | identify r now =>
      rcases mainStep_identify hstep with ⟨a, _, rfl | ⟨id_msg, _, rfl⟩⟩
      · exact Or.inl ⟨rfl, rfl⟩
      · exact Or.inl ⟨rfl, rfl⟩
  | register now created =>
      rcases mainStep_register hstep with ⟨a, id_msg, hmain, rfl⟩
      exact Or.inr (Or.inl ⟨a, id_msg, now, created, rfl, hmain, rfl⟩)
  | refuse ok =>
      rcases mainStep_refuse hstep with ⟨a, err_msg, _, rfl⟩
      exact Or.inl ⟨rfl, rfl⟩
  | close =>
      rcases mainStep_close hstep with ⟨a, _, rfl⟩
      exact Or.inl ⟨rfl, rfl⟩
  | welcome now ok =>
      rcases mainStep_welcome hstep with ⟨a, message, _, rfl⟩
      exact Or.inl ⟨rfl, rfl⟩
  | lock =>
      rw [(mainStep_lock hstep).2]
      exact Or.inl ⟨rfl, rfl⟩
  | join =>
      rcases mainStep_join hstep with ⟨n, _, rfl | ⟨hn, rfl⟩ | rfl⟩
      · exact Or.inl ⟨rfl, rfl⟩
      · exact Or.inr (Or.inr ⟨⟨n, hn⟩, rfl⟩)
      · exact Or.inl ⟨rfl, rfl⟩

/-- What the steps of the other threads have to do with handlers. One may be
    started, and nothing is received, removed or delivered for a client. -/
structure Elsewhere (s s' : State) : Prop where
  reads : s'.reads = s.reads
  removals : s'.removals = s.removals
  delivered : ∃ sent, s'.delivered = s.delivered ++ sent ∧ ∀ d ∈ sent, d.cause = none
  threads : s'.threads = s.threads ∨ ∃ h, h.pc = .test ∧ s'.threads = s.threads ++ [h]

theorem elsewhere_of_eq (hreads : s'.reads = s.reads) (hremovals : s'.removals = s.removals)
    (hdelivered : s'.delivered = s.delivered) (hthreads : s'.threads = s.threads) :
    Elsewhere s s' :=
  ⟨hreads, hremovals, ⟨[], hdelivered.trans (List.append_nil _).symm,
    fun _ hd => absurd hd List.not_mem_nil⟩, Or.inl hthreads⟩

theorem mainStep_elsewhere {e : MainEvent} (hstep : mainStep s e = some s') : Elsewhere s s' := by
  cases e with
  | start created =>
      rcases mainStep_start hstep with ⟨_, rfl⟩
      cases created <;> exact elsewhere_of_eq rfl rfl rfl rfl
  | test =>
      rw [(mainStep_test hstep).2]
      exact elsewhere_of_eq rfl rfl rfl rfl
  | accept r =>
      rcases mainStep_accept hstep with ⟨_, ⟨_, rfl⟩ | ⟨fd, addr, _, _, _, rfl⟩⟩
      · exact elsewhere_of_eq rfl rfl rfl rfl
      · exact elsewhere_of_eq rfl rfl rfl rfl
  | configure ok =>
      rcases mainStep_configure hstep with ⟨a, _, rfl⟩
      exact elsewhere_of_eq rfl rfl rfl rfl
  | identify r now =>
      rcases mainStep_identify hstep with ⟨a, _, rfl | ⟨id_msg, _, rfl⟩⟩
      · exact elsewhere_of_eq rfl rfl rfl rfl
      · exact elsewhere_of_eq rfl rfl rfl rfl
  | register now created =>
      rcases mainStep_register hstep with ⟨a, id_msg, _, rfl⟩
      rcases register_cases a id_msg now created with ⟨err_msg, hs'⟩ | ⟨i, _, _, _, _, hs'⟩
      · rw [hs']
        exact elsewhere_of_eq rfl rfl rfl rfl
      · rw [hs']
        cases created with
        | false => exact elsewhere_of_eq rfl rfl rfl rfl
        | true => exact ⟨rfl, rfl, ⟨[], (List.append_nil _).symm,
            fun _ hd => absurd hd List.not_mem_nil⟩, Or.inr ⟨_, rfl, rfl⟩⟩
  | refuse ok =>
      rcases mainStep_refuse hstep with ⟨a, err_msg, _, rfl⟩
      exact ⟨rfl, rfl, ⟨_, rfl, fun _ hd => (send_mem hd).2⟩, Or.inl rfl⟩
  | close =>
      rcases mainStep_close hstep with ⟨a, _, rfl⟩
      exact elsewhere_of_eq rfl rfl rfl rfl
  | welcome now ok =>
      rcases mainStep_welcome hstep with ⟨a, message, _, rfl⟩
      exact ⟨rfl, rfl, ⟨_, rfl, fun _ hd => (send_mem hd).2⟩, Or.inl rfl⟩
  | lock =>
      rw [(mainStep_lock hstep).2]
      exact elsewhere_of_eq rfl rfl rfl rfl
  | join =>
      rcases mainStep_join hstep with ⟨n, _, rfl | ⟨hn, rfl⟩ | rfl⟩
      · exact elsewhere_of_eq rfl rfl rfl rfl
      · exact elsewhere_of_eq rfl rfl rfl rfl
      · exact elsewhere_of_eq rfl rfl rfl rfl

theorem keepaliveStep_elsewhere {e : KeepaliveEvent} (hstep : keepaliveStep s e = some s') :
    Elsewhere s s' := by
  cases e with
  | test =>
      rw [keepaliveStep_test hstep]
      exact elsewhere_of_eq rfl rfl rfl rfl
  | sweep input =>
      rw [(keepaliveStep_sweep hstep).2]
      exact ⟨rfl, rfl, ⟨_, rfl, sweep_cause input s.host⟩, Or.inl rfl⟩

theorem stopStep_elsewhere {e : StopEvent} (hstep : stopStep s e = some s') : Elsewhere s s' := by
  cases e with
  | signal =>
      rcases stopStep_signal hstep with rfl | rfl
      · exact elsewhere_of_eq rfl rfl rfl rfl
      · exact elsewhere_of_eq rfl rfl rfl rfl
  | close =>
      rw [stopStep_close hstep]
      exact elsewhere_of_eq rfl rfl rfl rfl
  | notify now oks =>
      rw [(stopStep_notify hstep).2]
      exact ⟨rfl, rfl, ⟨_, rfl, stopAll_cause now oks s.host⟩, Or.inl rfl⟩
  | join =>
      rw [stopStep_join hstep]
      exact elsewhere_of_eq rfl rfl rfl rfl

end Frames

/-- A connection is accepted on the descriptor and registered under the name. -/
def registers (fd : Int) (name : String) (now : TimeT) : List Event :=
  [.main .test, .main (.accept (some (fd, { sin_addr := 1, sin_port := 2 }))),
    .main (.configure true),
    .main (.identify (some (create_message .MSG_LIST (bytes name) [] [] now)) now),
    .main (.register now true)]

/-- The client is welcomed as well. -/
def connect (fd : Int) (name : String) (now : TimeT) : List Event :=
  registers fd name now ++ [.main (.welcome now true)]

/-- A handler goes round to a call of `recv`. -/
def awaits (t : Nat) : List Event := [.handler t .test, .handler t .call, .handler t .recv]

/-- A message arrives in one piece, and its handler comes to the function for
    it. -/
def hears (t : Nat) (msg : Message) (now : TimeT) : List Event :=
  [.handler t (.recv_return (.data msg.toImage.bytes) now), .handler t (.note now),
    .handler t .switch]

/-- The handler goes through with it as well. -/
def serves (t : Nat) (msg : Message) (now : TimeT) : List Event :=
  hears t msg now ++ [.handler t (.handle now true fun _ => true)]

end Lab10

end OsLabs
