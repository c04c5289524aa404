import OsLabs.Lab10.Server

/-!
# What a Client of the TCP Server Receives

In `OsLabs.Lab10.Server` a message is sent in one step. Here the calls of
`send` are steps of their own, each of which may accept a part of what it is
offered, and what a connection's peer receives is a stream of bytes.

Four kinds of threads send. The loops of `broadcast_message`,
`keepalive_monitor` and `server_stop`, and `send_private_message`, hold
`clients_mutex` from their beginning to their end. The accept loop, with its
welcome and its refusals, and a handler, with a list or the goodbye, hold
nothing. So the bytes of a welcome and those of a broadcast to the same client
may get mixed up.

`OneAtATime` says, of the state before a call of `send`, that this does not
happen at that call: a thread does not put the first bytes of a message on a
connection while another is part-way through a message there, if one of the two
does without the mutex. Nothing is asked of two threads that send under it. And
since threads send by descriptor, `accept` must not return one on which a
thread is part-way through a message.

The rest of the server is that of `OsLabs.Lab10.Server`: a thread that does not
send takes the steps it takes there, and a thread that has come to the point
where it sends does it call by call, and goes on from where it would be after
the step there. Which messages a stream is made of is history.

## Main definitions

* `sendRound`: One round of the loop of `send_message_protocol`.
* `Call`, `Stream`: A message that is being sent, and what a peer is sent.
* `Stream.Ends`, `Stream.Unmixed`: The stream consists of whole messages, and
  the beginning of one.
* `Section`: The functions that send while they hold the mutex.
* `Section.visit`, `Section.sent`: The body of their loop, before and after the
  message to the slot is sent.
* `Wire`, `WireEvent`, `wireStep`: The transition system.
* `Whole`: Every stream consists of whole messages, and the beginning of one.
* `NoSendError`: What is assumed about the operating system.
* `OneAtATime`: The step mixes up nothing.

## Theorems

* `sendLoop_round`: Rounds make up the loop of `send_message_protocol`.
* `step_calm`: What a step that sends nothing does to the descriptors.
* `guarded_step`: What every step preserves about threads and the mutex.
* `framed_step`: What a step preserves that mixes up nothing.
* `whole_of_reaches`: In runs of such steps streams consist of whole messages.
* `whole_of_reaches_run`: Such a run.
* `torn_welcome`: A run in which a broadcast stands inside a welcome.
-/

namespace OsLabs

namespace Lab10

open Chat

/-- How many of `room` bytes a call of `send` accepts. -/
def SendResult.taken (room : Nat) : SendResult → Nat
  | .accepted k => min (k + 1) room
  | _ => 0

/-- One round of the loop of `send_message_protocol`: the number of bytes sent
    so far, or the value returned. -/
def sendRound (total_bytes bytes_sent : Nat) (r : SendResult) : Nat ⊕ Int :=
  let sent := bytes_sent + r.taken (total_bytes - bytes_sent)
  match r with
  | .error => .inr (-1)
  | .zero => .inr 0
  | _ => if sent < total_bytes then .inl sent else .inr sent

theorem sendRound_accepted (total_bytes bytes_sent k : Nat) :
    sendRound total_bytes bytes_sent (.accepted k) =
      if bytes_sent + min (k + 1) (total_bytes - bytes_sent) < total_bytes then
        .inl (bytes_sent + min (k + 1) (total_bytes - bytes_sent))
      else .inr (bytes_sent + min (k + 1) (total_bytes - bytes_sent) : Nat) := rfl

/-- Rounds make up the loop of `send_message_protocol`. -/
theorem sendLoop_round (buffer : List UInt8) (bytes_sent : Nat) (r : SendResult)
    (rs : List SendResult) (hlt : bytes_sent < buffer.length) :
    let chunk := (buffer.drop bytes_sent).take (r.taken (buffer.length - bytes_sent))
    sendLoop buffer bytes_sent (r :: rs) =
      match sendRound buffer.length bytes_sent r with
      | .inl sent => (sendLoop buffer sent rs).map fun out => (out.1, chunk ++ out.2.1, out.2.2)
      | .inr ret => some (ret, chunk, rs) := by
  intro chunk
  cases r with
  | error => simp [sendLoop, hlt, sendRound, chunk, SendResult.taken]
  | zero => simp [sendLoop, hlt, sendRound, chunk, SendResult.taken]
  | eintr => simp [sendLoop, hlt, sendRound, chunk, SendResult.taken]
  | eagain => simp [sendLoop, hlt, sendRound, chunk, SendResult.taken]
  | accepted k =>
      have htaken : SendResult.taken (buffer.length - bytes_sent) (.accepted k)
          = min (k + 1) (buffer.length - bytes_sent) := rfl
      by_cases hmore : bytes_sent + min (k + 1) (buffer.length - bytes_sent) < buffer.length
      · simp [sendLoop, hlt, sendRound, chunk, htaken, hmore]
      · -- All of the buffer is sent, and the loop ends before another call.
        simp [sendLoop, hlt, sendRound, chunk, htaken, hmore, sendLoop_done buffer hmore]

/-- A thread that sends. -/
inductive Sender
  | main
  | handler (t : Nat)
  | keepalive
  | stop
  deriving DecidableEq

/-- A call of `send_message_protocol` under way. -/
structure Call where
  socketfd : Int
  message : Message
  bytes_sent : Nat
  deriving DecidableEq

/-- The bytes of its message that have been accepted. -/
def Call.sent (call : Call) : List UInt8 := call.message.toImage.bytes.take call.bytes_sent

/-- What a connection's peer has been sent. -/
structure Stream where
  bytes : List UInt8
  /-- The messages of which some bytes have been accepted. -/
  begun : List Message
  /-- The messages of which all have, in the order in which that happened. -/
  finished : List Message

/-- `n` bytes more of a message are accepted. -/
def Stream.accept (s : Stream) (call : Call) (n : Nat) : Stream where
  bytes := s.bytes ++ (call.message.toImage.bytes.drop call.bytes_sent).take n
  begun := if call.bytes_sent = 0 ∧ 0 < n then s.begun ++ [call.message] else s.begun
  finished := s.finished

/-- All of a message has been accepted. -/
def Stream.finish (s : Stream) (msg : Message) : Stream :=
  { s with finished := s.finished ++ [msg] }

/-- The bytes of the messages sent in full. -/
def Stream.whole (s : Stream) : List UInt8 :=
  (s.finished.map fun msg => msg.toImage.bytes).flatten

/-- The stream consists of the messages finished, in the order in which they
    were begun, and of what has been accepted of one more, if one is given. -/
def Stream.Ends (s : Stream) : Option Call → Prop
  | none => s.bytes = s.whole ∧ s.begun = s.finished
  | some call => s.bytes = s.whole ++ call.sent ∧ s.begun = s.finished ++ [call.message]

/-- The stream is a concatenation of whole messages, up to less than one at its
    end. -/
def Stream.Unmixed (s : Stream) : Prop :=
  ∃ (msgs : List Message) (part : List UInt8), (∀ msg ∈ msgs, msg ∈ s.begun) ∧
    part.length < SIZEOF_MESSAGE ∧ s.bytes = (msgs.map fun msg => msg.toImage.bytes).flatten ++ part

theorem Stream.Ends.unmixed {s : Stream} {part : Option Call} (h : s.Ends part)
    (hshort : ∀ call ∈ part, call.bytes_sent < SIZEOF_MESSAGE) : s.Unmixed := by
  cases part with
  | none =>
      refine ⟨s.finished, [], fun msg hmsg => by rwa [h.2], by decide, ?_⟩
      rw [List.append_nil]
      exact h.1
  | some call =>
      refine ⟨s.finished, call.sent, fun msg hmsg => ?_, ?_, h.1⟩
      · rw [h.2]
        exact List.mem_append_left _ hmsg
      · exact Nat.lt_of_le_of_lt (List.length_take_le _ _) (hshort call rfl)

/-- A stream in which whole messages follow one another begins with one. -/
theorem Stream.Unmixed.first {s : Stream} (h : s.Unmixed) (hlong : SIZEOF_MESSAGE ≤ s.bytes.length) :
    ∃ msg ∈ s.begun, s.bytes.take SIZEOF_MESSAGE = msg.toImage.bytes := by
  rcases h with ⟨msgs, part, hbegun, hpart, hbytes⟩
  cases msgs with
  | nil =>
      rw [hbytes, List.map_nil, List.flatten_nil, List.nil_append] at hlong
      omega
  | cons msg msgs =>
      refine ⟨msg, hbegun msg List.mem_cons_self, ?_⟩
      rw [hbytes, List.map_cons, List.flatten_cons, List.append_assoc]
      exact List.take_left' msg.toImage.length_eq

theorem sent_next (call : Call) {n : Nat} (h : call.bytes_sent ≤ n) :
    call.sent ++ (call.message.toImage.bytes.drop call.bytes_sent).take (n - call.bytes_sent)
      = ({ call with bytes_sent := n } : Call).sent := by
  rw [Call.sent, ← List.take_add, Nat.add_sub_cancel' h]
  rfl

/-- The message that is under way goes on, or a message is begun. -/
theorem Stream.Ends.accept {s : Stream} {part : Option Call} {call : Call} {n : Nat}
    (h : s.Ends part) (hpart : part = if 0 < call.bytes_sent then some call else none)
    (hlt : call.bytes_sent < n) :
    (s.accept call (n - call.bytes_sent)).Ends (some { call with bytes_sent := n }) := by
  rw [hpart] at h
  by_cases hzero : call.bytes_sent = 0
  · rw [if_neg (by omega)] at h
    have hnext := sent_next call (Nat.le_of_lt hlt)
    rw [Call.sent, hzero, List.take_zero, List.nil_append] at hnext
    refine ⟨?_, ?_⟩
    · rw [Stream.accept, hzero, hnext, h.1]
      rfl
    · rw [Stream.accept, if_pos ⟨hzero, by omega⟩, h.2]
  · rw [if_pos (Nat.pos_of_ne_zero hzero)] at h
    refine ⟨?_, ?_⟩
    · rw [Stream.accept, h.1, List.append_assoc, sent_next call (Nat.le_of_lt hlt)]
      rfl
    · rw [Stream.accept, if_neg (fun hbegin => hzero hbegin.1), h.2]

/-- The message that is under way is complete. -/
theorem Stream.Ends.finish {s : Stream} {call : Call} (h : s.Ends (some call))
    (hfull : call.bytes_sent = SIZEOF_MESSAGE) : (s.finish call.message).Ends none := by
  refine ⟨?_, h.2⟩
  have hall : call.sent = call.message.toImage.bytes := by
    rw [Call.sent, hfull]
    exact List.take_of_length_le (Nat.le_of_eq call.message.toImage.length_eq)
  unfold Stream.whole Stream.finish
  simp only []
  rw [h.1, hall, List.map_append, List.flatten_append, List.map_singleton, List.flatten_singleton]
  rfl

/-- The functions that send while they hold `clients_mutex`, with what they
    have been given or have found out before they send. -/
inductive Section
  | broadcast_message (msg : Message) (sender_socket : Int)
  | send_private_message (msg : Message) (recipient_index : Option (Fin MAX_CLIENTS))
  | keepalive_monitor (now : TimeT)
  | server_stop
  deriving DecidableEq

/-- The body of the loop for slot `i` up to the call of
    `send_message_protocol`: the table, and the message that is sent to the
    slot, if one is. -/
def Section.visit (host : Host) (now : TimeT) (i : Fin MAX_CLIENTS) :
    Section → Host × Option Message
  | .broadcast_message msg sender_socket =>
    let c := host.server.clients i
    (host, if c.is_active && decide (c.socket_fd ≠ sender_socket) then some msg else none)
  | .send_private_message msg _ => (host, some msg)
  | .keepalive_monitor time =>
    let c := host.server.clients i
    if !c.is_active then (host, none)
    else if silent time c then
      let counted : Host := { host with server := host.server.setSlot i (missed c) }
      if (missed c).inactive_count ≥ MAX_INACTIVE_COUNT then (counted.remove_client i, none)
      else (counted, some (create_message .MSG_ALIVE serverName c.client_id.bytes [] now))
    else (host, none)
  | .server_stop =>
    let c := host.server.clients i
    (host, if c.is_active then
      some (create_message .MSG_STOP serverName c.client_id.bytes (bytes "Server shutting down") now)
    else none)

/-- The rest of the body, after `send_message_protocol` has returned. -/
def Section.sent (host : Host) (i : Fin MAX_CLIENTS) (ok : Bool) : Section → Host
  | .keepalive_monitor _ => if ok then host else host.remove_client i
  | .server_stop =>
    { server := host.server.setSlot i (stopped (host.server.clients i))
      conns := closeAll host.conns [(host.server.clients i).socket_fd] }
  | _ => host

/-- The slot a section begins with. -/
def Section.first : Section → Nat
  | .send_private_message _ recipient_index => recipient_index.elim MAX_CLIENTS Fin.val
  | _ => 0

/-- The slot after slot `i`. A private message goes to one slot only. -/
def Section.next (i : Nat) : Section → Nat
  | .send_private_message _ _ => MAX_CLIENTS
  | _ => i + 1

/-- What a thread that may send is doing. -/
inductive Sending
  | idle
  /-- Sending one message, without the mutex. -/
  | single (call : Call)
  /-- At slot `i` of a section. -/
  | visiting (sec : Section) (i : Nat)
  /-- Sending to slot `i` in a section. -/
  | sending (sec : Section) (i : Fin MAX_CLIENTS) (call : Call)
  deriving DecidableEq

def Sending.call : Sending → Option Call
  | .single call => some call
  | .sending _ _ call => some call
  | _ => none

/-- The same with another call. -/
def Sending.setCall (call : Call) : Sending → Sending
  | .single _ => .single call
  | .sending sec i _ => .sending sec i call
  | a => a

/-- The thread is in a section, and so has the mutex. -/
def Sending.holds : Sending → Bool
  | .visiting _ _ => true
  | .sending _ _ _ => true
  | _ => false

structure Wire where
  base : State
  /-- The thread that is in a section. -/
  mutex : Option Sender
  sending : Sender → Sending
  streams : Conn → Stream

inductive WireEvent
  | quiet (e : Event)
  | begin (u : Sender) (now : TimeT)
  | visit (u : Sender) (now : TimeT)
  | send (u : Sender) (r : SendResult)

/-- The message a handler is about to do something for has the type. -/
def handles (s : State) (t : Nat) (type : MessageType) : Bool :=
  match s.threads[t]? with
  | some { pc := .handling _ msg _, .. } => msg.type = type.code
  | _ => false

/-- The step sends something. -/
def sends (s : State) : Event → Bool
  | .handler t (.handle _ _ _) => handles s t .MSG_2ALL || handles s t .MSG_2ONE
  | .handler _ (.reply _) => true
  | .main (.refuse _) => true
  | .main (.welcome _ _) => true
  | .keepalive (.sweep _) => true
  | .stop (.notify _ _) => true
  | _ => false

/-- The step takes the mutex, if it sends nothing. -/
def takesMutex (s : State) : Event → Bool
  | .handler t (.handle _ _ _) => !handles s t .MSG_STOP
  | .handler _ .cleanup => true
  | .main (.register _ _) => match s.main with
    | .registering _ id_msg => validate_client_id id_msg.sender_id.bytes
    | _ => false
  | .main .lock => true
  | _ => false

/-- What a thread begins with that has come to the point where it sends. -/
def starts (s : State) (now : TimeT) : Sender → Option Sending
  | .main => match s.main with
    | .refusing a err_msg =>
      some (.single { socketfd := a.client_socket, message := err_msg, bytes_sent := 0 })
    | .welcoming a =>
      some (.single
        { socketfd := a.client_socket
          message := create_message .MSG_BROADCAST serverName []
            (bytes "Welcome to the chat server!") now
          bytes_sent := 0 })
    | _ => none
  | .handler t => match s.threads[t]? with
    | some { pc := .replying _ _ fd reply _, .. } =>
      some (.single { socketfd := fd, message := reply, bytes_sent := 0 })
    | some { pc := .handling _ msg fd, .. } =>
      if msg.type = MessageType.MSG_2ALL.code then
        let sec := Section.broadcast_message
          (create_message .MSG_BROADCAST msg.sender_id.bytes [] msg.content.bytes now) fd
        some (.visiting sec sec.first)
      else if msg.type = MessageType.MSG_2ONE.code then
        let sec := Section.send_private_message
          (create_message .MSG_PRIVATE msg.sender_id.bytes msg.recipient_id.bytes
            msg.content.bytes now)
          (find_client_by_id s.host.server msg.recipient_id.bytes)
        some (.visiting sec sec.first)
      else none
    | _ => none
  | .keepalive => match s.keepalive with
    | .awake => some (.visiting (.keepalive_monitor now) (Section.keepalive_monitor now).first)
    | _ => none
  | .stop => match s.stop with
    | .locking => some (.visiting .server_stop Section.server_stop.first)
    | _ => none

/-- Where the thread is after it has sent. -/
def leave (s : State) : Sender → State
  | .main => match s.main with
    | .refusing a _ => { s with main := .closing a }
    | .welcoming _ => { s with main := .looping }
    | _ => s
  | .handler t => match s.threads[t]? with
    | some h => s.setHandler t h
      (match h.pc with
        | .replying _ _ _ _ true => .cleanup
        | _ => .test)
    | none => s
  | .keepalive => { s with keepalive := .asleep }
  | .stop => { s with stop := .joining }

def Wire.setHost (w : Wire) (host : Host) : Wire :=
  { w with base := { w.base with host := host } }

def Wire.setSending (w : Wire) (u : Sender) (a : Sending) : Wire :=
  { w with sending := Function.update w.sending u a }

/-- The connection a call of `send` is made on. -/
def Wire.target (w : Wire) (call : Call) : Option Conn :=
  if call.socketfd < 0 then none else w.base.host.conns call.socketfd

/-- `send_message_protocol` returns to the thread. -/
def Wire.returned (w : Wire) (u : Sender) (ok : Bool) : Wire :=
  match w.sending u with
  | .single _ => { w with base := leave w.base u }.setSending u .idle
  | .sending sec i _ =>
    (w.setHost (sec.sent w.base.host i ok)).setSending u (.visiting sec (sec.next i))
  | _ => w

/-- Bytes are accepted on a connection. -/
def Wire.transfer (w : Wire) (c : Conn) (call : Call) (n : Nat) : Wire :=
  { w with streams := Function.update w.streams c ((w.streams c).accept call n) }

def Wire.finish (w : Wire) (c : Conn) (msg : Message) : Wire :=
  { w with streams := Function.update w.streams c ((w.streams c).finish msg) }

/-- A call of `send` in `send_message_protocol`. -/
def Wire.send (w : Wire) (u : Sender) (call : Call) (r : SendResult) : Wire :=
  match w.target call with
  -- The descriptor is not valid or closed, and `send` fails.
  | none => w.returned u false
  | some c =>
    let sent := w.transfer c call (r.taken (SIZEOF_MESSAGE - call.bytes_sent))
    match sendRound SIZEOF_MESSAGE call.bytes_sent r with
    | .inl n => sent.setSending u ((w.sending u).setCall { call with bytes_sent := n })
    | .inr ret =>
      if 0 < ret then (sent.finish c call.message).returned u true else sent.returned u false

def wireStep (w : Wire) : WireEvent → Option Wire
  | .quiet e =>
    if sends w.base e || (takesMutex w.base e && w.mutex.isSome) then none
    else (step w.base e).map fun s => { w with base := s }
  | .begin u now =>
    if w.sending u = .idle then
      (starts w.base now u).bind fun a =>
        if a.holds then
          if w.mutex = none ∧ w.base.locked = false then
            some ({ w with mutex := some u }.setSending u a)
          else none
        else some (w.setSending u a)
    else none
  | .visit u now => match w.sending u with
    | .visiting sec i =>
      if h : i < MAX_CLIENTS then
        let out := sec.visit w.base.host now ⟨i, h⟩
        let fd := (w.base.host.server.clients ⟨i, h⟩).socket_fd
        some ((w.setHost out.1).setSending u
          (match out.2 with
            | none => .visiting sec (sec.next i)
            | some msg => .sending sec ⟨i, h⟩ { socketfd := fd, message := msg, bytes_sent := 0 }))
      else some ({ w with base := leave w.base u, mutex := none }.setSending u .idle)
    | _ => none
  | .send u r => (w.sending u).call.map fun call => w.send u call r

/-- The server at its start, seen with its streams. -/
def wireStart (port server_socket : Int) : Option Wire :=
  (start port server_socket).map fun s =>
    { base := s
      mutex := none
      sending := fun _ => .idle
      streams := fun _ => { bytes := [], begun := [], finished := [] } }

/-- The threads there are. -/
def Wire.senders (w : Wire) : List Sender :=
  [.main, .keepalive, .stop] ++ (List.range w.base.threads.length).map Sender.handler

/-- The message a thread is part-way through. -/
def Wire.progress (w : Wire) (u : Sender) : Option Call :=
  (w.sending u).call.filter fun call => 0 < call.bytes_sent

/-- Every stream consists of whole messages, and the beginning of one that is
    being sent, or was when the connection was closed. -/
def Whole (w : Wire) : Prop :=
  ∀ c, ∃ part, (w.streams c).Ends part ∧ ∀ call ∈ part, call.bytes_sent < SIZEOF_MESSAGE ∧
    ((∃ u, w.progress u = some call ∧ w.target call = some c) ∨
      ∀ fd, w.base.host.conns fd ≠ some c)

/-- No call of `send` on an open connection fails. -/
def NoSendError (_ : Wire) : WireEvent → Prop
  | .send _ r => r ≠ .error ∧ r ≠ .zero
  | _ => True

instance (w : Wire) (e : WireEvent) : Decidable (NoSendError w e) := by
  unfold NoSendError
  split <;> infer_instance

/-- The step mixes up nothing. A message is not begun on a connection on which
    another thread is part-way through one, if one of the two threads sends
    without the mutex; and `accept` returns no descriptor on which a thread is
    part-way through a message. -/
def OneAtATime (w : Wire) : WireEvent → Prop
  | .send u (.accepted _) => ∀ call ∈ (w.sending u).call, call.bytes_sent = 0 →
    ∀ v ∈ w.senders, v ≠ u → ((w.sending u).holds && (w.sending v).holds) = false →
      ∀ other ∈ w.progress v, other.socketfd ≠ call.socketfd
  | .quiet (.main (.accept (some r))) =>
    ∀ v ∈ w.senders, ∀ other ∈ w.progress v, other.socketfd ≠ r.1
  | _ => True

instance (w : Wire) (e : WireEvent) : Decidable (OneAtATime w e) := by
  unfold OneAtATime
  split <;> infer_instance

section Descriptors

/-- Descriptors may have been closed, but none has been opened. -/
def Closes (a b : Host) : Prop := ∀ fd, b.conns fd = a.conns fd ∨ b.conns fd = none

theorem Closes.some {a b : Host} (h : Closes a b) {fd : Int} {c : Conn}
    (hb : b.conns fd = some c) : a.conns fd = some c := by
  rcases h fd with hsame | hnone
  · rw [← hsame, hb]
  · rw [hnone] at hb
    cases hb

theorem closes_of_eq {a b : Host} (h : b.conns = a.conns) : Closes a b :=
  fun fd => Or.inl (by rw [h])

theorem closes_closeAll (host : Host) (server : Server) (fds : List Int) :
    Closes host { server := server, conns := closeAll host.conns fds } := by
  intro fd
  by_cases hmem : fds.contains fd = true
  · exact Or.inr (if_pos hmem)
  · exact Or.inl (if_neg hmem)

theorem closes_visit (sec : Section) (host : Host) (now : TimeT) (i : Fin MAX_CLIENTS) :
    Closes host (sec.visit host now i).1 := by
  cases sec with
  | broadcast_message msg sender_socket => exact closes_of_eq rfl
  | send_private_message msg recipient_index => exact closes_of_eq rfl
  | keepalive_monitor time =>
      unfold Section.visit
      simp only []
      split_ifs
      · exact closes_of_eq rfl
      · exact closes_closeAll _ _ _
      · exact closes_of_eq rfl
      · exact closes_of_eq rfl
  | server_stop => exact closes_of_eq rfl

theorem closes_sent (sec : Section) (host : Host) (i : Fin MAX_CLIENTS) (ok : Bool) :
    Closes host (sec.sent host i ok) := by
  cases sec with
  | broadcast_message msg sender_socket => exact closes_of_eq rfl
  | send_private_message msg recipient_index => exact closes_of_eq rfl
  | keepalive_monitor time =>
      unfold Section.sent
      split_ifs
      · exact closes_of_eq rfl
      · exact closes_closeAll _ _ _
  | server_stop => exact closes_closeAll _ _ _

/-- A step that opens no descriptor. -/
structure Calm (s s' : State) : Prop where
  conns : Closes s.host s'.host
  accepted : s'.accepted = s.accepted
  threads : s.threads.length ≤ s'.threads.length

variable {s s' : State}

theorem calm_of_eq (hconns : s'.host.conns = s.host.conns) (haccepted : s'.accepted = s.accepted)
    (hthreads : s'.threads = s.threads) : Calm s s' :=
  ⟨closes_of_eq hconns, haccepted, by rw [hthreads]⟩

theorem calm_setHandler (t : Nat) (hd : Handler) (pc : HandlerPc) : Calm s (s.setHandler t hd pc) :=
  ⟨closes_of_eq rfl, rfl, by simp [State.setHandler]⟩

theorem calm_leave (s : State) (u : Sender) : Calm s (leave s u) := by
  unfold leave
  cases u with
  | main => cases s.main <;> exact calm_of_eq rfl rfl rfl
  | handler t =>
      cases ht : s.threads[t]? with
      | none => simp only [ht]; exact calm_of_eq rfl rfl rfl
      | some h => simp only [ht]; exact calm_setHandler _ _ _
  | keepalive => exact calm_of_eq rfl rfl rfl
  | stop => exact calm_of_eq rfl rfl rfl

theorem handlerStep_closes {t : Nat} {h : Handler} {e : HandlerEvent}
    (hstep : handlerStep s t h e = some s') : Closes s.host s'.host := by
  rcases handlerStep_host hstep with hsame | ⟨i, now, hnoted⟩ | ⟨_, i, _, hremoved⟩
  · exact closes_of_eq (by rw [hsame])
  · exact closes_of_eq (by rw [hnoted])
  · rw [hremoved]
    exact closes_closeAll _ _ _

theorem handlerStep_calm {t : Nat} {h : Handler} {e : HandlerEvent}
    (hstep : handlerStep s t h e = some s') : Calm s s' := by
  rcases handlerStep_frame hstep with ⟨⟨pc, hthreads⟩, _, haccepted⟩
  exact ⟨handlerStep_closes hstep, haccepted, by rw [hthreads, List.length_set]⟩

/-- What the main thread does to the descriptors, one of which it may open. -/
theorem mainStep_calm {e : MainEvent} (hstep : mainStep s e = some s') :
    Calm s s' ∨ ∃ r, e = .accept (some r) ∧ 0 ≤ r.1 ∧ s.host.conns r.1 = none ∧
      s'.host.conns = Function.update s.host.conns r.1 (some s.accepted) ∧
      s'.accepted = s.accepted + 1 ∧ s'.threads = s.threads := by
  cases e with
  | start created =>
      rcases mainStep_start hstep with ⟨_, rfl⟩
      cases created <;> exact Or.inl (calm_of_eq rfl rfl rfl)
  | test =>
      rw [(mainStep_test hstep).2]
      exact Or.inl (calm_of_eq rfl rfl rfl)
  | accept r =>
      rcases mainStep_accept hstep with ⟨_, ⟨_, rfl⟩ | ⟨fd, addr, rfl, hpos, hnone, rfl⟩⟩
      · exact Or.inl (calm_of_eq rfl rfl rfl)
      · exact Or.inr ⟨(fd, addr), rfl, hpos, hnone, rfl, rfl, rfl⟩
  | configure ok =>
      rcases mainStep_configure hstep with ⟨a, _, rfl⟩
      exact Or.inl (calm_of_eq rfl rfl rfl)
  | identify r now =>
      rcases mainStep_identify hstep with ⟨a, _, rfl | ⟨id_msg, _, rfl⟩⟩
      · exact Or.inl (calm_of_eq rfl rfl rfl)
      · exact Or.inl (calm_of_eq rfl rfl rfl)
  | register now created =>
      rcases mainStep_register hstep with ⟨a, id_msg, _, rfl⟩
      rcases register_cases a id_msg now created with ⟨err_msg, hs'⟩ | ⟨i, _, _, _, _, hs'⟩
      · rw [hs']
        exact Or.inl (calm_of_eq rfl rfl rfl)
      · rw [hs']
        cases created with
        | false => exact Or.inl ⟨closes_closeAll _ _ _, rfl, Nat.le_refl _⟩
        | true => exact Or.inl ⟨closes_of_eq rfl, rfl, by simp⟩
  | refuse ok =>
      rcases mainStep_refuse hstep with ⟨a, err_msg, _, rfl⟩
      exact Or.inl (calm_of_eq rfl rfl rfl)
  | close =>
      rcases mainStep_close hstep with ⟨a, _, rfl⟩
      exact Or.inl ⟨closes_closeAll _ _ _, rfl, Nat.le_refl _⟩
  | welcome now ok =>
      rcases mainStep_welcome hstep with ⟨a, message, _, rfl⟩
      exact Or.inl (calm_of_eq rfl rfl rfl)
  | lock =>
      rw [(mainStep_lock hstep).2]
      exact Or.inl (calm_of_eq rfl rfl rfl)
  | join =>
      rcases mainStep_join hstep with ⟨n, _, rfl | ⟨hn, rfl⟩ | rfl⟩
      · exact Or.inl (calm_of_eq rfl rfl rfl)
      · exact Or.inl (calm_of_eq rfl rfl rfl)
      · exact Or.inl (calm_of_eq rfl rfl rfl)

/-- A step that sends nothing opens no descriptor, or is a call of `accept`
    that has returned one. -/
theorem step_calm {e : Event} (hquiet : sends s e = false) (hstep : step s e = some s') :
    Calm s s' ∨ ∃ r, e = .main (.accept (some r)) ∧ 0 ≤ r.1 ∧ s.host.conns r.1 = none ∧
      s'.host.conns = Function.update s.host.conns r.1 (some s.accepted) ∧
      s'.accepted = s.accepted + 1 ∧ s'.threads = s.threads := by
  cases e with
  | handler t e =>
      rcases Option.bind_eq_some_iff.mp hstep with ⟨hd, _, hmove⟩
      exact Or.inl (handlerStep_calm hmove)
  | main e =>
      rcases mainStep_calm hstep with hcalm | ⟨r, rfl, hopen⟩
      · exact Or.inl hcalm
      · exact Or.inr ⟨r, rfl, hopen⟩
  | keepalive e =>
      cases e with
      | test =>
          rw [keepaliveStep_test hstep]
          exact Or.inl (calm_of_eq rfl rfl rfl)
      | sweep input => exact absurd hquiet (by simp [sends])
  | stop e =>
      cases e with
      | signal =>
          rcases stopStep_signal hstep with rfl | rfl
          · exact Or.inl (calm_of_eq rfl rfl rfl)
          · exact Or.inl (calm_of_eq rfl rfl rfl)
      | close =>
          rw [stopStep_close hstep]
          exact Or.inl (calm_of_eq rfl rfl rfl)
      | notify now oks => exact absurd hquiet (by simp [sends])
      | join =>
          rw [stopStep_join hstep]
          exact Or.inl (calm_of_eq rfl rfl rfl)

end Descriptors

section Threads

/-- What holds of the threads: who is in a section has the mutex, only threads
    there are send, and a call that has accepted everything has returned. -/
structure Guarded (w : Wire) : Prop where
  mutex : ∀ u, (w.sending u).holds = true → w.mutex = some u
  listed : ∀ u, w.sending u ≠ .idle → u ∈ w.senders
  short : ∀ u call, (w.sending u).call = some call → call.bytes_sent < SIZEOF_MESSAGE

variable {w w' : Wire}

theorem senders_mono (h : w.base.threads.length ≤ w'.base.threads.length) {u : Sender}
    (hu : u ∈ w.senders) : u ∈ w'.senders := by
  unfold Wire.senders at hu ⊢
  rcases List.mem_append.mp hu with hu | hu
  · exact List.mem_append_left _ hu
  · rcases List.mem_map.mp hu with ⟨t, ht, rfl⟩
    have hlt := List.mem_range.mp ht
    exact List.mem_append_right _ (List.mem_map.mpr ⟨t, List.mem_range.mpr (by omega), rfl⟩)

/-- One thread moves, and has the mutex if it is in a section. -/
theorem Guarded.move (h : Guarded w) (u : Sender)
    (hlength : w.base.threads.length ≤ w'.base.threads.length)
    (hother : ∀ v, v ≠ u → w'.sending v = w.sending v)
    (hmutex : (w'.sending u).holds = true → w'.mutex = some u)
    (hkept : ∀ v, v ≠ u → (w.sending v).holds = true → w'.mutex = some v)
    (hlisted : w'.sending u ≠ .idle → u ∈ w.senders)
    (hshort : ∀ call, (w'.sending u).call = some call → call.bytes_sent < SIZEOF_MESSAGE) :
    Guarded w' := by
  refine ⟨fun v hv => ?_, fun v hv => ?_, fun v call hcall => ?_⟩
  · by_cases hvu : v = u
    · rw [hvu] at hv ⊢
      exact hmutex hv
    · rw [hother v hvu] at hv
      exact hkept v hvu hv
  · refine senders_mono hlength ?_
    by_cases hvu : v = u
    · rw [hvu] at hv ⊢
      exact hlisted hv
    · rw [hother v hvu] at hv
      exact h.listed v hv
  · by_cases hvu : v = u
    · rw [hvu] at hcall
      exact hshort call hcall
    · rw [hother v hvu] at hcall
      exact h.short v call hcall

/-- Nobody else is in a section while a thread is. -/
theorem Guarded.alone (h : Guarded w) {u v : Sender} (hu : (w.sending u).holds = true)
    (hv : (w.sending v).holds = true) : v = u :=
  Option.some.inj ((h.mutex v hv).symm.trans (h.mutex u hu))

theorem setSending_self (w : Wire) (u : Sender) (a : Sending) :
    (w.setSending u a).sending u = a := by
  unfold Wire.setSending
  exact Function.update_self u a w.sending

theorem setSending_other (w : Wire) {u v : Sender} (h : v ≠ u) (a : Sending) :
    (w.setSending u a).sending v = w.sending v := by
  unfold Wire.setSending
  exact Function.update_of_ne h a w.sending

/-- A thread begins without a byte sent, and it is one there is. -/
theorem starts_some {s : State} {now : TimeT} {u : Sender} {a : Sending}
    (h : starts s now u = some a) :
    (∀ call, a.call = some call → call.bytes_sent = 0) ∧
      ∀ t, u = .handler t → t < s.threads.length := by
  unfold starts at h
  cases u with
  | main =>
      refine ⟨fun call hcall => ?_, fun t ht => (nomatch ht)⟩
      cases hmain : s.main <;> simp only [hmain, Option.some.injEq, reduceCtorEq] at h
      · rw [← h] at hcall
        rw [← Option.some.inj hcall]
      · rw [← h] at hcall
        rw [← Option.some.inj hcall]
  | handler t =>
      cases ht : s.threads[t]? with
      | none => simp [ht] at h
      | some hd =>
          refine ⟨fun call hcall => ?_, fun t' htt => ?_⟩
          · simp only [ht] at h
            split at h
            · rename_i heq
              rw [← Option.some.inj h] at hcall
              rw [← Option.some.inj hcall]
            · split_ifs at h
              · rw [← Option.some.inj h] at hcall
                cases hcall
              · rw [← Option.some.inj h] at hcall
                cases hcall
            · cases h
          · rw [← Sender.handler.inj htt]
            exact (List.getElem?_eq_some_iff.mp ht).1
  | keepalive =>
      refine ⟨fun call hcall => ?_, fun t ht => (nomatch ht)⟩
      cases hk : s.keepalive <;> simp only [hk, Option.some.injEq, reduceCtorEq] at h
      rw [← h] at hcall
      cases hcall
  | stop =>
      refine ⟨fun call hcall => ?_, fun t ht => (nomatch ht)⟩
      cases hs : s.stop <;> simp only [hs, Option.some.injEq, reduceCtorEq] at h
      rw [← h] at hcall
      cases hcall

theorem mem_senders (w : Wire) (u : Sender)
    (h : ∀ t, u = .handler t → t < w.base.threads.length) : u ∈ w.senders := by
  cases u with
  | handler t =>
      exact List.mem_append_right _ (List.mem_map.mpr ⟨t, List.mem_range.mpr (h t rfl), rfl⟩)
  | _ => exact List.mem_append_left _ (by simp)

/-- `send_message_protocol` has returned, and nothing has been opened. -/
theorem returned_spec (w : Wire) (u : Sender) (ok : Bool) {call : Call}
    (hcall : (w.sending u).call = some call) :
    ∃ base a, w.returned u ok = { w with base := base }.setSending u a ∧ Calm w.base base ∧
      a.call = none ∧ a.holds = (w.sending u).holds := by
  unfold Wire.returned
  cases hu : w.sending u with
  | single _ => exact ⟨_, _, rfl, calm_leave _ _, rfl, rfl⟩
  | sending sec i _ =>
      exact ⟨_, _, rfl, ⟨closes_sent _ _ _ _, rfl, Nat.le_refl _⟩, rfl, rfl⟩
  | _ =>
      rw [hu] at hcall
      cases hcall

theorem wireStep_quiet {e : Event} (h : wireStep w (.quiet e) = some w') :
    sends w.base e = false ∧ ∃ base, step w.base e = some base ∧ w' = { w with base := base } := by
  rw [wireStep] at h
  split_ifs at h with hno
  rcases Option.map_eq_some_iff.mp h with ⟨base, hbase, rfl⟩
  have hquiet : sends w.base e = false := by
    by_contra hsends
    exact hno (by simp [Bool.eq_true_of_not_eq_false hsends])
  exact ⟨hquiet, base, hbase, rfl⟩

theorem wireStep_begin {u : Sender} {now : TimeT} (h : wireStep w (.begin u now) = some w') :
    w.sending u = .idle ∧ ∃ a, starts w.base now u = some a ∧
      (a.holds = false ∧ w' = w.setSending u a ∨
        w.mutex = none ∧ w' = { w with mutex := some u }.setSending u a) := by
  rw [wireStep] at h
  by_cases hidle : w.sending u = .idle
  · rw [if_pos hidle] at h
    rcases Option.bind_eq_some_iff.mp h with ⟨a, hstarts, ha⟩
    refine ⟨hidle, a, hstarts, ?_⟩
    split_ifs at ha with hholds hfree
    · exact Or.inr ⟨hfree.1, (Option.some.inj ha).symm⟩
    · exact Or.inl ⟨Bool.eq_false_iff.mpr hholds, (Option.some.inj ha).symm⟩
  · rw [if_neg hidle] at h
    cases h

/-- A thread in a section goes on to the next slot, or begins to send to this
    one, or leaves the section. -/
theorem wireStep_visit {u : Sender} {now : TimeT} (h : wireStep w (.visit u now) = some w') :
    (w.sending u).holds = true ∧ (w.sending u).call = none ∧ ∃ base, Calm w.base base ∧
      ((∃ a, a.holds = true ∧ (∀ call, a.call = some call → call.bytes_sent = 0) ∧
          w' = { w with base := base }.setSending u a) ∨
        w' = { w with base := base, mutex := none }.setSending u .idle) := by
  rw [wireStep] at h
  cases hu : w.sending u with
  | visiting sec i =>
      simp only [hu] at h
      split_ifs at h with hi
      · refine ⟨rfl, rfl, (w.setHost (sec.visit w.base.host now ⟨i, hi⟩).1).base,
          ⟨closes_visit sec w.base.host now ⟨i, hi⟩, rfl, Nat.le_refl _⟩,
          Or.inl ⟨_, ?_, ?_, (Option.some.inj h).symm⟩⟩
        · split <;> rfl
        · intro call hcall
          split at hcall
          · cases hcall
          · rw [← Option.some.inj hcall]
      · exact ⟨rfl, rfl, _, calm_leave _ _, Or.inr (Option.some.inj h).symm⟩
  | _ => simp [hu] at h

theorem wireStep_send {u : Sender} {r : SendResult} (h : wireStep w (.send u r) = some w') :
    ∃ call, (w.sending u).call = some call ∧ w' = w.send u call r := by
  rcases Option.map_eq_some_iff.mp h with ⟨call, hcall, rfl⟩
  exact ⟨call, hcall, rfl⟩

theorem transfer_zero (w : Wire) (c : Conn) (call : Call) : w.transfer c call 0 = w := by
  have hsame : (w.streams c).accept call 0 = w.streams c := by
    unfold Stream.accept
    simp only [List.take_zero, List.append_nil, Nat.lt_irrefl, and_false, if_false]
  unfold Wire.transfer
  rw [hsame, Function.update_eq_self]

theorem setCall_self {a : Sending} {call : Call} (h : a.call = some call) : a.setCall call = a := by
  cases a with
  | single _ => rw [← Option.some.inj h]; rfl
  | sending _ _ _ => rw [← Option.some.inj h]; rfl
  | _ => rfl

theorem setCall_call {a : Sending} {call : Call} (h : a.call = some call) (other : Call) :
    (a.setCall other).call = some other := by
  cases a with
  | single _ => rfl
  | sending _ _ _ => rfl
  | _ => cases h

theorem setCall_holds (a : Sending) (call : Call) : (a.setCall call).holds = a.holds := by
  cases a <;> rfl

/-- A call of `send` fails, or does nothing, or accepts some of what is left of
    the message, or all of it. -/
theorem send_cases {u : Sender} {call : Call} (hcall : (w.sending u).call = some call)
    (hlt : call.bytes_sent < SIZEOF_MESSAGE) (r : SendResult) :
    (w.target call = none ∨ r = .error ∨ r = .zero) ∧ w.send u call r = w.returned u false ∨
      w.send u call r = w ∨
      ∃ c k n, w.target call = some c ∧ r = .accepted k ∧ call.bytes_sent < n ∧
        (n < SIZEOF_MESSAGE ∧ w.send u call r =
            (w.transfer c call (n - call.bytes_sent)).setSending u
              ((w.sending u).setCall { call with bytes_sent := n }) ∨
          n = SIZEOF_MESSAGE ∧ w.send u call r =
            ((w.transfer c call (n - call.bytes_sent)).finish c call.message).returned u true) := by
  unfold Wire.send
  cases htarget : w.target call with
  | none => exact Or.inl ⟨Or.inl rfl, rfl⟩
  | some c =>
      cases r with
      | error =>
          refine Or.inl ⟨Or.inr (Or.inl rfl), ?_⟩
          simp [sendRound, SendResult.taken, transfer_zero]
      | zero =>
          refine Or.inl ⟨Or.inr (Or.inr rfl), ?_⟩
          simp [sendRound, SendResult.taken, transfer_zero]
      | eintr =>
          refine Or.inr (Or.inl ?_)
          simp [sendRound, SendResult.taken, transfer_zero, hlt, setCall_self hcall, Wire.setSending]
      | eagain =>
          refine Or.inr (Or.inl ?_)
          simp [sendRound, SendResult.taken, transfer_zero, hlt, setCall_self hcall, Wire.setSending]
      | accepted k =>
          have hpos : 0 < min (k + 1) (SIZEOF_MESSAGE - call.bytes_sent) := by omega
          refine Or.inr (Or.inr ⟨c, k, call.bytes_sent
            + min (k + 1) (SIZEOF_MESSAGE - call.bytes_sent), rfl, rfl, by omega, ?_⟩)
          rw [Nat.add_sub_cancel_left]
          by_cases hmore : call.bytes_sent + min (k + 1) (SIZEOF_MESSAGE - call.bytes_sent)
              < SIZEOF_MESSAGE
          · refine Or.inl ⟨hmore, ?_⟩
            rw [sendRound_accepted, if_pos hmore]
            rfl
          · refine Or.inr ⟨by omega, ?_⟩
            have hret : (0 : Int) < (call.bytes_sent
                + min (k + 1) (SIZEOF_MESSAGE - call.bytes_sent) : Nat) := by omega
            rw [sendRound_accepted, if_neg hmore]
            simp only [if_pos hret]
            rfl

theorem guarded_step {e : WireEvent} (h : Guarded w) (hstep : wireStep w e = some w') :
    Guarded w' := by
  cases e with
  | quiet e =>
      rcases wireStep_quiet hstep with ⟨hquiet, base, hbase, rfl⟩
      have hlength : w.base.threads.length ≤ base.threads.length := by
        rcases step_calm hquiet hbase with hcalm | ⟨r, _, _, _, _, _, hthreads⟩
        · exact hcalm.threads
        · rw [hthreads]
      exact ⟨h.mutex, fun u hu => senders_mono hlength (h.listed u hu), h.short⟩
  | begin u now =>
      rcases wireStep_begin hstep with ⟨_, a, hstarts, hcases⟩
      rcases starts_some hstarts with ⟨hzero, hthread⟩
      have hlisted := mem_senders w u hthread
      have hshort : ∀ call, a.call = some call → call.bytes_sent < SIZEOF_MESSAGE := by
        intro call hcall
        rw [hzero call hcall]
        decide
      rcases hcases with ⟨hholds, rfl⟩ | ⟨hfree, rfl⟩
      · -- A message of its own: the mutex stays with whoever has it.
        refine h.move u (Nat.le_refl _) (fun v hv => setSending_other w hv a) (fun hu => ?_)
          (fun v _ hv => h.mutex v hv) (fun _ => hlisted) ?_
        · rw [setSending_self, hholds] at hu
          cases hu
        · rw [setSending_self]
          exact hshort
      · -- A section: the mutex was free, so nobody else is in one.
        refine h.move u (Nat.le_refl _) (fun v hv => setSending_other _ hv a) (fun _ => rfl)
          (fun v _ hv => ?_) (fun _ => hlisted) ?_
        · exact absurd (hfree.symm.trans (h.mutex v hv)) (by simp)
        · rw [setSending_self]
          exact hshort
  | visit u now =>
      rcases wireStep_visit hstep with ⟨hholds, _, base, hcalm, ⟨a, ha, hzero, rfl⟩ | rfl⟩
      · refine h.move u hcalm.threads (fun v hv => setSending_other _ hv a)
          (fun _ => h.mutex u hholds) (fun v _ hv => h.mutex v hv) (fun _ => ?_) ?_
        · exact h.listed u fun hidle => by simp [hidle, Sending.holds] at hholds
        · rw [setSending_self]
          intro call hcall
          rw [hzero call hcall]
          decide
      · -- The section is over, and the thread was alone in it.
        refine h.move u hcalm.threads (fun v hv => setSending_other _ hv .idle) (fun hu => ?_)
          (fun v hvu hv => absurd (h.alone hholds hv) hvu) (fun hu => ?_) (fun call hcall => ?_)
        · rw [setSending_self] at hu
          cases hu
        · rw [setSending_self] at hu
          exact absurd rfl hu
        · rw [setSending_self] at hcall
          cases hcall
  | send u r =>
      rcases wireStep_send hstep with ⟨call, hcall, rfl⟩
      have hlisted : u ∈ w.senders := h.listed u fun hidle => by simp [hidle, Sending.call] at hcall
      -- Whatever else happens, the thread returns from the call or stays in it.
      have hreturned : ∀ (v : Wire) (ok : Bool), v.base = w.base → v.mutex = w.mutex →
          v.sending = w.sending → Guarded (v.returned u ok) := by
        intro v ok hbase hmutex hsending
        rcases returned_spec v u ok (by rw [hsending]; exact hcall) with
          ⟨base, a, hv, hcalm, hnone, hholds⟩
        rw [hv]
        rw [hbase] at hcalm
        rw [hsending] at hholds
        refine h.move u hcalm.threads (fun x hx => ?_) (fun hu => ?_) (fun x _ hx => ?_)
          (fun _ => hlisted) (fun call' hcall' => ?_)
        · rw [setSending_other _ hx]
          exact congrFun hsending x
        · rw [setSending_self, hholds] at hu
          exact hmutex.trans (h.mutex u hu)
        · exact hmutex.trans (h.mutex x hx)
        · rw [setSending_self, hnone] at hcall'
          cases hcall'
      rcases send_cases hcall (h.short u call hcall) r with
        ⟨_, hsend⟩ | hsend | ⟨c, k, n, _, _, _, ⟨hn, hsend⟩ | ⟨_, hsend⟩⟩
      · rw [hsend]
        exact hreturned w false rfl rfl rfl
      · rw [hsend]
        exact h
      · rw [hsend]
        refine h.move u (Nat.le_refl _) (fun v hv => setSending_other _ hv _) (fun hu => ?_)
          (fun v _ hv => h.mutex v hv) (fun _ => hlisted) (fun call' hcall' => ?_)
        · rw [setSending_self, setCall_holds] at hu
          exact h.mutex u hu
        · rw [setSending_self, setCall_call hcall] at hcall'
          rw [← Option.some.inj hcall']
          exact hn
      · rw [hsend]
        exact hreturned _ true rfl rfl rfl

end Threads

section Frames

/-- An open connection's stream consists of whole messages if no thread is
    part-way through one with its descriptor, and if one is, that message's
    first bytes follow, and there is no other such thread. -/
def Line (w : Wire) (fd : Int) (c : Conn) : Prop :=
  ((w.streams c).Ends none ∧ ∀ u call, w.progress u = some call → call.socketfd ≠ fd) ∨
    ∃ u call, w.progress u = some call ∧ call.socketfd = fd ∧ (w.streams c).Ends (some call) ∧
      ∀ v other, w.progress v = some other → other.socketfd = fd → v = u

/-- What holds of the streams. The first four parts are about descriptors and
    connections; the last is what is left of `lines` when a connection is
    closed. -/
structure Framed (w : Wire) : Prop where
  positive : ∀ fd c, w.base.host.conns fd = some c → 0 ≤ fd
  apart : ∀ fd fd' c, w.base.host.conns fd = some c → w.base.host.conns fd' = some c → fd = fd'
  known : ∀ fd c, w.base.host.conns fd = some c → c < w.base.accepted
  fresh : ∀ c, w.base.accepted ≤ c → (w.streams c).Ends none
  lines : ∀ fd c, w.base.host.conns fd = some c → Line w fd c
  broken : ∀ c, ∃ part, (w.streams c).Ends part ∧ ∀ call ∈ part, call.bytes_sent < SIZEOF_MESSAGE

variable {w w' : Wire}

theorem progress_some {u : Sender} {call : Call} (h : w.progress u = some call) :
    (w.sending u).call = some call ∧ 0 < call.bytes_sent := by
  unfold Wire.progress at h
  simpa using Option.filter_eq_some_iff.mp h

theorem progress_of_call {u : Sender} {call : Call} (h : (w.sending u).call = some call)
    (hpos : 0 < call.bytes_sent) : w.progress u = some call := by
  unfold Wire.progress
  rw [h, Option.filter_some, if_pos (by simpa using hpos)]

theorem progress_of_zero {u : Sender}
    (h : ∀ call, (w.sending u).call = some call → call.bytes_sent = 0) : w.progress u = none := by
  cases hprogress : w.progress u with
  | none => rfl
  | some call =>
      rcases progress_some hprogress with ⟨hcall, hpos⟩
      have hzero := h call hcall
      omega

theorem progress_congr {u : Sender} (h : w'.sending u = w.sending u) :
    w'.progress u = w.progress u := by
  unfold Wire.progress
  rw [h]

/-- A connection on which nothing is accepted, and with whose descriptor nobody
    starts or stops being part-way through a message. -/
theorem Line.same {fd : Int} {c : Conn} (h : Line w fd c) (hstreams : w'.streams c = w.streams c)
    (hprogress : ∀ u call, call.socketfd = fd →
      (w'.progress u = some call ↔ w.progress u = some call)) : Line w' fd c := by
  unfold Line
  rw [hstreams]
  rcases h with ⟨hwhole, hnobody⟩ | ⟨u, call, hu, hfd, hpart, hone⟩
  · exact Or.inl ⟨hwhole, fun u call hu hfd => hnobody u call ((hprogress u call hfd).mp hu) hfd⟩
  · exact Or.inr ⟨u, call, (hprogress u call hfd).mpr hu, hfd, hpart, fun v other hv hother =>
      hone v other ((hprogress v other hother).mp hv) hother⟩

/-- Nothing is accepted anywhere. -/
theorem Framed.closes (h : Framed w) (hcloses : Closes w.base.host w'.base.host)
    (haccepted : w'.base.accepted = w.base.accepted) (hstreams : w'.streams = w.streams)
    (hprogress : ∀ fd c, w.base.host.conns fd = some c → ∀ u call, call.socketfd = fd →
      (w'.progress u = some call ↔ w.progress u = some call)) : Framed w' := by
  refine ⟨fun fd c hc => h.positive fd c (hcloses.some hc), fun fd fd' c hc hc' =>
      h.apart fd fd' c (hcloses.some hc) (hcloses.some hc'), fun fd c hc => ?_, fun c hc => ?_,
    fun fd c hc => ?_, fun c => ?_⟩
  · rw [haccepted]
    exact h.known fd c (hcloses.some hc)
  · rw [haccepted] at hc
    rw [hstreams]
    exact h.fresh c hc
  · have hold := hcloses.some hc
    exact (h.lines fd c hold).same (congrFun hstreams c) (hprogress fd c hold)
  · rw [hstreams]
    exact h.broken c

/-- Something is accepted on one connection. -/
theorem Framed.accepts (h : Framed w) {fd : Int} {c : Conn}
    (hconn : w.base.host.conns fd = some c) (hcloses : Closes w.base.host w'.base.host)
    (haccepted : w'.base.accepted = w.base.accepted)
    (hother : ∀ c', c' ≠ c → w'.streams c' = w.streams c')
    (hprogress : ∀ u call, call.socketfd ≠ fd →
      (w'.progress u = some call ↔ w.progress u = some call))
    (hline : Line w' fd c) (hbroken : ∃ part, (w'.streams c).Ends part ∧
      ∀ call ∈ part, call.bytes_sent < SIZEOF_MESSAGE) : Framed w' := by
  have hknown := h.known fd c hconn
  refine ⟨fun fd c hc => h.positive fd c (hcloses.some hc), fun fd fd' c hc hc' =>
      h.apart fd fd' c (hcloses.some hc) (hcloses.some hc'), fun fd c hc => ?_, fun c' hc' => ?_,
    fun fd' c' hc' => ?_, fun c' => ?_⟩
  · rw [haccepted]
    exact h.known fd c (hcloses.some hc)
  · rw [haccepted] at hc'
    rw [hother c' (Nat.ne_of_gt (Nat.lt_of_lt_of_le hknown hc'))]
    exact h.fresh c' hc'
  · by_cases hfd : fd' = fd
    · have hsame : c' = c := by
        rw [hfd] at hc'
        exact Option.some.inj ((hcloses.some hc').symm.trans hconn)
      rw [hfd, hsame]
      exact hline
    · -- Another descriptor stands for another connection.
      have hne : c' ≠ c := by
        rintro rfl
        exact hfd (h.apart fd' fd c' (hcloses.some hc') hconn)
      exact (h.lines fd' c' (hcloses.some hc')).same (hother c' hne) fun u call hcall =>
        hprogress u call (by rw [hcall]; exact hfd)
  · by_cases hne : c' = c
    · rw [hne]
      exact hbroken
    · rw [hother c' hne]
      exact h.broken c'

/-- A thread moves that is not part-way through a message, and will not be. -/
theorem Framed.move (h : Framed w) (u : Sender) (hcloses : Closes w.base.host w'.base.host)
    (haccepted : w'.base.accepted = w.base.accepted) (hstreams : w'.streams = w.streams)
    (hother : ∀ v, v ≠ u → w'.sending v = w.sending v)
    (hold : w.progress u = none) (hnew : w'.progress u = none) : Framed w' := by
  refine h.closes hcloses haccepted hstreams fun _ _ _ v call _ => ?_
  by_cases hvu : v = u
  · rw [hvu, hold, hnew]
  · rw [progress_congr (hother v hvu)]

/-- A new connection is accepted on a descriptor with which no thread is
    part-way through a message. -/
theorem Framed.accept (h : Framed w) {fd : Int} {base : State} (hpos : 0 ≤ fd)
    (hconns : base.host.conns = Function.update w.base.host.conns fd (some w.base.accepted))
    (haccepted : base.accepted = w.base.accepted + 1)
    (hclear : ∀ v other, w.progress v = some other → other.socketfd ≠ fd) :
    Framed { w with base := base } := by
  have hnew : base.host.conns fd = some w.base.accepted := by rw [hconns, Function.update_self]
  have hold : ∀ fd', fd' ≠ fd → base.host.conns fd' = w.base.host.conns fd' := fun fd' hne => by
    rw [hconns, Function.update_of_ne hne]
  refine ⟨fun fd' c hc => ?_, fun fd' fd'' c hc hc' => ?_, fun fd' c hc => ?_, fun c hc => ?_,
    fun fd' c hc => ?_, h.broken⟩
  · by_cases hne : fd' = fd
    · rw [hne]
      exact hpos
    · exact h.positive fd' c ((hold fd' hne).symm.trans hc)
  · -- The new connection has a number that none had before.
    by_cases hne : fd' = fd
    · by_cases hne' : fd'' = fd
      · rw [hne, hne']
      · have hlt := h.known fd'' c ((hold fd'' hne').symm.trans hc')
        rw [hne] at hc
        exact absurd (Option.some.inj (hnew.symm.trans hc)) (Nat.ne_of_gt hlt)
    · by_cases hne' : fd'' = fd
      · have hlt := h.known fd' c ((hold fd' hne).symm.trans hc)
        rw [hne'] at hc'
        exact absurd (Option.some.inj (hnew.symm.trans hc')) (Nat.ne_of_gt hlt)
      · exact h.apart fd' fd'' c ((hold fd' hne).symm.trans hc) ((hold fd'' hne').symm.trans hc')
  · change c < base.accepted
    rw [haccepted]
    by_cases hne : fd' = fd
    · rw [hne] at hc
      rw [← Option.some.inj (hnew.symm.trans hc)]
      exact Nat.lt_succ_self _
    · exact Nat.lt_succ_of_lt (h.known fd' c ((hold fd' hne).symm.trans hc))
  · change base.accepted ≤ c at hc
    rw [haccepted] at hc
    exact h.fresh c (Nat.le_of_succ_le hc)
  · by_cases hne : fd' = fd
    · rw [hne] at hc
      have heq := Option.some.inj (hnew.symm.trans hc)
      rw [hne]
      exact Or.inl ⟨h.fresh c (Nat.le_of_eq heq), hclear⟩
    · exact h.lines fd' c ((hold fd' hne).symm.trans hc)

/-- While a thread puts bytes on a connection, no other is part-way through a
    message on it. -/
theorem only_sender (hguard : Guarded w) {u : Sender} {call : Call} {k : Nat} {c : Conn}
    (hline : Line w call.socketfd c) (hcall : (w.sending u).call = some call)
    (hok : OneAtATime w (.send u (.accepted k))) :
    ∀ v other, w.progress v = some other → other.socketfd = call.socketfd → v = u := by
  intro v other hv hfd
  by_cases hzero : call.bytes_sent = 0
  · -- A message is begun, so the condition speaks of every other thread, or
    -- both are in a section, which cannot be.
    by_contra hvu
    rcases progress_some hv with ⟨hvcall, _⟩
    have hlisted : v ∈ w.senders := hguard.listed v fun hidle => by
      simp [hidle, Sending.call] at hvcall
    cases hboth : (w.sending u).holds && (w.sending v).holds with
    | true =>
        rw [Bool.and_eq_true] at hboth
        exact hvu (hguard.alone hboth.1 hboth.2)
    | false => exact hok call hcall hzero v hlisted hvu hboth other hv hfd
  · have hu := progress_of_call hcall (Nat.pos_of_ne_zero hzero)
    rcases hline with ⟨_, hnobody⟩ | ⟨_, _, _, _, _, hone⟩
    · exact absurd rfl (hnobody u call hu)
    · exact (hone v other hv hfd).trans (hone u call hu rfl).symm

/-- Then the stream ends with what has been accepted of its message. -/
theorem ends_of_only {u : Sender} {call : Call} {c : Conn} (hline : Line w call.socketfd c)
    (hcall : (w.sending u).call = some call)
    (hone : ∀ v other, w.progress v = some other → other.socketfd = call.socketfd → v = u) :
    (w.streams c).Ends (if 0 < call.bytes_sent then some call else none) := by
  rcases hline with ⟨hwhole, hnobody⟩ | ⟨v, other, hv, hfd, hpart, _⟩
  · rw [if_neg fun hpos => hnobody u call (progress_of_call hcall hpos) rfl]
    exact hwhole
  · rw [hone v other hv hfd] at hv
    rcases progress_some hv with ⟨hother, hpos⟩
    have hsame : other = call := Option.some.inj (hother.symm.trans hcall)
    rw [hsame] at hpos hpart
    rw [if_pos hpos]
    exact hpart

theorem target_some {call : Call} {c : Conn} (h : w.target call = some c) :
    w.base.host.conns call.socketfd = some c := by
  unfold Wire.target at h
  split_ifs at h
  exact h

theorem Framed.target (h : Framed w) {call : Call} {c : Conn}
    (hconn : w.base.host.conns call.socketfd = some c) : w.target call = some c := by
  have hpos := h.positive _ _ hconn
  unfold Wire.target
  rw [if_neg (by omega), hconn]

/-- A call on a closed descriptor, which `send_message_protocol` gives up. -/
theorem framed_returned (h : Framed w) {u : Sender} {call : Call}
    (hcall : (w.sending u).call = some call) (htarget : w.target call = none) (ok : Bool) :
    Framed (w.returned u ok) := by
  rcases returned_spec w u ok hcall with ⟨base, a, hw', hcalm, hnone, _⟩
  rw [hw']
  refine h.closes hcalm.conns hcalm.accepted rfl fun fd c hc v other hfd => ?_
  by_cases hvu : v = u
  · have hnew : ({ w with base := base }.setSending u a).progress u = none :=
      progress_of_zero fun call' hcall' => by
        rw [setSending_self, hnone] at hcall'
        cases hcall'
    rw [hvu, hnew]
    refine ⟨fun hu => (nomatch hu), fun hu => ?_⟩
    -- The call given up was on no open connection, so it is not this one's.
    have hsame : other = call := Option.some.inj ((progress_some hu).1.symm.trans hcall)
    rw [← hfd, hsame] at hc
    exact absurd ((h.target hc).symm.trans htarget) (by simp)
  · rw [progress_congr (setSending_other _ hvu a)]
    rfl

/-- Some of the bytes that were left are accepted. -/
theorem framed_transfer (h : Framed w) {u : Sender} {call : Call} {c : Conn} {n : Nat}
    (hcall : (w.sending u).call = some call) (hconn : w.base.host.conns call.socketfd = some c)
    (hone : ∀ v other, w.progress v = some other → other.socketfd = call.socketfd → v = u)
    (hlt : call.bytes_sent < n) (hn : n < SIZEOF_MESSAGE) :
    Framed ((w.transfer c call (n - call.bytes_sent)).setSending u
      ((w.sending u).setCall { call with bytes_sent := n })) := by
  have hends := (ends_of_only (h.lines _ c hconn) hcall hone).accept rfl hlt
  generalize hw' : (w.transfer c call (n - call.bytes_sent)).setSending u
    ((w.sending u).setCall { call with bytes_sent := n }) = w'
  have hself : w'.streams c = (w.streams c).accept call (n - call.bytes_sent) := by
    rw [← hw']
    exact Function.update_self c _ w.streams
  rw [← hself] at hends
  have hu : w'.progress u = some { call with bytes_sent := n } := by
    refine progress_of_call ?_ (Nat.lt_of_le_of_lt (Nat.zero_le _) hlt)
    rw [← hw', setSending_self, setCall_call hcall]
  have hv : ∀ v, v ≠ u → w'.progress v = w.progress v := fun v hvu => by
    refine progress_congr ?_
    rw [← hw', setSending_other _ hvu]
    rfl
  refine h.accepts hconn (by rw [← hw']; exact closes_of_eq rfl) (by rw [← hw']; rfl)
    (fun c' hne => ?_) (fun v other hfd => ?_) ?_
    ⟨_, hends, fun call' hcall' => by rw [← Option.some.inj hcall']; exact hn⟩
  · rw [← hw']
    exact Function.update_of_ne hne _ w.streams
  · -- The thread's own call is with this descriptor, before and after.
    by_cases hvu : v = u
    · rw [hvu, hu]
      refine ⟨fun hother => absurd ?_ hfd, fun hother => absurd ?_ hfd⟩
      · rw [← Option.some.inj hother]
      · rw [Option.some.inj ((progress_some hother).1.symm.trans hcall)]
    · rw [hv v hvu]
  · refine Or.inr ⟨u, _, hu, rfl, hends, fun v other hother hfd => ?_⟩
    by_contra hvu
    rw [hv v hvu] at hother
    exact hvu (hone v other hother hfd)

/-- All of the bytes that were left are accepted. -/
theorem framed_finish (h : Framed w) {u : Sender} {call : Call} {c : Conn}
    (hcall : (w.sending u).call = some call) (hconn : w.base.host.conns call.socketfd = some c)
    (hone : ∀ v other, w.progress v = some other → other.socketfd = call.socketfd → v = u)
    (hlt : call.bytes_sent < SIZEOF_MESSAGE) (ok : Bool) :
    Framed (((w.transfer c call (SIZEOF_MESSAGE - call.bytes_sent)).finish c
      call.message).returned u ok) := by
  have hends := ((ends_of_only (h.lines _ c hconn) hcall hone).accept rfl hlt).finish rfl
  generalize hv : (w.transfer c call (SIZEOF_MESSAGE - call.bytes_sent)).finish c call.message = v
  have hself : v.streams c
      = ((w.streams c).accept call (SIZEOF_MESSAGE - call.bytes_sent)).finish call.message := by
    rw [← hv]
    unfold Wire.finish Wire.transfer
    simp only [Function.update_self]
  rw [← hself] at hends
  have hsending : v.sending = w.sending := by rw [← hv]; rfl
  have hbase : v.base = w.base := by rw [← hv]; rfl
  rcases returned_spec v u ok (by rw [hsending]; exact hcall) with ⟨base, a, hw', hcalm, hnone, _⟩
  rw [hw']
  rw [hbase] at hcalm
  have hnew : ({ v with base := base }.setSending u a).progress u = none :=
    progress_of_zero fun call' hcall' => by
      rw [setSending_self, hnone] at hcall'
      cases hcall'
  have hold : ∀ x, x ≠ u → ({ v with base := base }.setSending u a).progress x = w.progress x :=
    fun x hx => progress_congr (by rw [setSending_other _ hx]; exact congrFun hsending x)
  refine h.accepts hconn hcalm.conns hcalm.accepted (fun c' hne => ?_) (fun x other hfd => ?_) ?_
    ⟨none, hends, fun call' hcall' => (nomatch hcall')⟩
  · change v.streams c' = w.streams c'
    rw [← hv]
    unfold Wire.finish Wire.transfer
    simp only [Function.update_of_ne hne]
  · by_cases hxu : x = u
    · rw [hxu, hnew]
      refine ⟨fun hother => (nomatch hother), fun hother => absurd ?_ hfd⟩
      rw [Option.some.inj ((progress_some hother).1.symm.trans hcall)]
    · rw [hold x hxu]
  · -- The thread is done, and there was no other.
    refine Or.inl ⟨hends, fun x other hother hfd => ?_⟩
    by_cases hxu : x = u
    · rw [hxu, hnew] at hother
      cases hother
    · rw [hold x hxu] at hother
      exact hxu (hone x other hother hfd)

/-- What a step preserves in which no call of `send` fails and nothing is mixed
    up. -/
theorem framed_step {e : WireEvent} (h : Framed w) (hguard : Guarded w) (herror : NoSendError w e)
    (hok : OneAtATime w e) (hstep : wireStep w e = some w') : Framed w' := by
  cases e with
  | quiet e =>
      rcases wireStep_quiet hstep with ⟨hquiet, base, hbase, rfl⟩
      rcases step_calm hquiet hbase with hcalm | ⟨r, rfl, hpos, _, hconns, haccepted, _⟩
      · exact h.closes hcalm.conns hcalm.accepted rfl fun _ _ _ _ _ _ => Iff.rfl
      · -- The descriptor accepted is none on which a message is under way.
        refine h.accept hpos hconns haccepted fun v other hv => ?_
        have hlisted : v ∈ w.senders := hguard.listed v fun hidle => by
          have hcall := (progress_some hv).1
          simp [hidle, Sending.call] at hcall
        exact hok v hlisted other hv
  | begin u now =>
      rcases wireStep_begin hstep with ⟨hidle, a, hstarts, hcases⟩
      -- Before the first byte is accepted a message is not under way.
      have hold : w.progress u = none := progress_of_zero fun call hcall => by
        rw [hidle] at hcall
        cases hcall
      have hzero : ∀ v : Wire, (v.setSending u a).progress u = none := fun v =>
        progress_of_zero fun call hcall => by
          rw [setSending_self] at hcall
          exact (starts_some hstarts).1 call hcall
      rcases hcases with ⟨_, rfl⟩ | ⟨_, rfl⟩
      · exact h.move u (closes_of_eq rfl) rfl rfl (fun v hv => setSending_other _ hv a) hold
          (hzero _)
      · exact h.move u (closes_of_eq rfl) rfl rfl (fun v hv => setSending_other _ hv a) hold
          (hzero _)
  | visit u now =>
      rcases wireStep_visit hstep with ⟨_, hnone, base, hcalm, hcases⟩
      have hold : w.progress u = none := progress_of_zero fun call hcall => by
        rw [hnone] at hcall
        cases hcall
      rcases hcases with ⟨a, _, hzero, rfl⟩ | rfl
      · refine h.move u hcalm.conns hcalm.accepted rfl (fun v hv => setSending_other _ hv a)
          hold (progress_of_zero fun call hcall => ?_)
        rw [setSending_self] at hcall
        exact hzero call hcall
      · refine h.move u hcalm.conns hcalm.accepted rfl
          (fun v hv => setSending_other _ hv .idle) hold (progress_of_zero fun call hcall => ?_)
        rw [setSending_self] at hcall
        cases hcall
  | send u r =>
      rcases wireStep_send hstep with ⟨call, hcall, rfl⟩
      have hshort := hguard.short u call hcall
      rcases send_cases hcall hshort r with
        ⟨hfails, hsend⟩ | hsend | ⟨c, k, n, htarget, rfl, hlt, hcases⟩
      · rw [hsend]
        rcases hfails with hclosed | hfails
        · exact framed_returned h hcall hclosed false
        · exact absurd hfails (not_or.mpr herror)
      · rw [hsend]
        exact h
      · -- Bytes are accepted: nobody else is part-way with this descriptor.
        have hconn := target_some htarget
        have hone := only_sender hguard (h.lines _ c hconn) hcall hok
        rcases hcases with ⟨hn, hsend⟩ | ⟨rfl, hsend⟩
        · rw [hsend]
          exact framed_transfer h hcall hconn hone hlt hn
        · rw [hsend]
          exact framed_finish h hcall hconn hone hlt true

theorem Framed.whole (h : Framed w) (hguard : Guarded w) : Whole w := by
  intro c
  by_cases hopen : ∃ fd, w.base.host.conns fd = some c
  · rcases hopen with ⟨fd, hfd⟩
    rcases h.lines fd c hfd with ⟨hwhole, _⟩ | ⟨u, call, hu, rfl, hpart, _⟩
    · exact ⟨none, hwhole, fun call hcall => (nomatch hcall)⟩
    · refine ⟨some call, hpart, fun call' hcall' => ?_⟩
      rw [← Option.some.inj hcall']
      exact ⟨hguard.short u call (progress_some hu).1, Or.inl ⟨u, hu, h.target hfd⟩⟩
  · -- A closed connection may have been left in the middle of a message.
    rcases h.broken c with ⟨part, hpart, hshort⟩
    exact ⟨part, hpart, fun call hcall =>
      ⟨hshort call hcall, Or.inr fun fd hfd => hopen ⟨fd, hfd⟩⟩⟩

theorem framed_start {port server_socket : Int} (h : wireStart port server_socket = some w) :
    Guarded w ∧ Framed w := by
  rcases Option.map_eq_some_iff.mp h with ⟨s, hs, rfl⟩
  rcases Option.map_eq_some_iff.mp hs with ⟨server, _, rfl⟩
  refine ⟨⟨fun u hu => (nomatch hu), fun u hu => absurd rfl hu, fun u call hcall => (nomatch hcall)⟩,
    ⟨fun fd c hc => (nomatch hc), fun fd fd' c hc => (nomatch hc), fun fd c hc => (nomatch hc),
      fun c _ => ⟨rfl, rfl⟩, fun fd c hc => (nomatch hc), fun c => ?_⟩⟩
  exact ⟨none, ⟨rfl, rfl⟩, fun call hcall => (nomatch hcall)⟩

end Frames

/-- In a run in which no call of `send` on an open connection fails, and no step
    mixes anything up, every stream consists of whole messages, one after
    another, and at most the beginning of one more. -/
theorem whole_of_reaches (port server_socket : Int) (w w' : Wire)
    (hstart : wireStart port server_socket = some w)
    (hreach : Reaches wireStep (fun v e => NoSendError v e ∧ OneAtATime v e) w w') :
    Whole w' ∧ ∀ c, (w'.streams c).Unmixed := by
  have hinv : ∀ v e v', Guarded v ∧ Framed v → NoSendError v e ∧ OneAtATime v e →
      wireStep v e = some v' → Guarded v' ∧ Framed v' := fun v e v' hv hok hstep =>
    ⟨guarded_step hv.1 hstep, framed_step hv.2 hv.1 hok.1 hok.2 hstep⟩
  rcases hreach.invariant (framed_start hstart) hinv with ⟨hguard, hframed⟩
  have hwhole := hframed.whole hguard
  refine ⟨hwhole, fun c => ?_⟩
  rcases hwhole c with ⟨part, hends, hpart⟩
  exact hends.unmixed fun call hcall => (hpart call hcall).1

/-- A client connects and is registered, and its welcome is next. -/
def joins (fd : Int) (name : String) : List WireEvent :=
  (registers fd name 0).map .quiet ++ [.begin .main 0]

/-- A handler gets a message for all, and its broadcast is at the second
    slot. -/
def broadcasts (t : Nat) (name : String) : List WireEvent :=
  (awaits t ++ hears t (create_message .MSG_2ALL (bytes name) [] (bytes "hello") 0) 0).map .quiet ++
    [.begin (.handler t) 0, .visit (.handler t) 0, .visit (.handler t) 0]

/-- The number of bytes the next call of `send` accepts. -/
def accepts (u : Sender) (n : Nat) : WireEvent := .send u (.accepted (n - 1))

/-- Bob's welcome is sent in two parts, and after it Ann's broadcast in two. -/
def inTurns : List WireEvent :=
  [.quiet (.main (.start true))] ++ joins 4 "ann" ++ [accepts .main 1248] ++ joins 5 "bob" ++
    [accepts .main 100, .send .main .eintr, accepts .main 1148] ++ broadcasts 0 "ann" ++
    [accepts (.handler 0) 248, accepts (.handler 0) 1000]

theorem whole_of_reaches_run :
    ∃ w w', wireStart 5000 3 = some w ∧ run wireStep w inTurns = some w' ∧
      (w'.streams 1).finished.length = 2 ∧ Whole w' ∧ ∀ c, (w'.streams c).Unmixed := by
  have hend : ((wireStart 5000 3).bind fun w => (run wireStep w inTurns).map fun w' =>
      (decide (Meets wireStep (fun v e => NoSendError v e ∧ OneAtATime v e) w inTurns),
        (w'.streams 1).finished.length)) = some (true, 2) := by decide +kernel
  rcases Option.bind_eq_some_iff.mp hend with ⟨w, hstart, hmap⟩
  rcases Option.map_eq_some_iff.mp hmap with ⟨w', hrun, hpair⟩
  rcases Prod.mk.inj hpair with ⟨hok, hfinished⟩
  exact ⟨w, w', hstart, hrun, hfinished, whole_of_reaches 5000 3 w w' hstart
    (reaches_of_run hrun (of_decide_eq_true hok))⟩

/-- Ann's broadcast is sent to Bob when a hundred bytes of his welcome have
    been, and then the rest of the welcome. -/
def overlapping : List WireEvent :=
  [.quiet (.main (.start true))] ++ joins 4 "ann" ++ [accepts .main 1248] ++ joins 5 "bob" ++
    [accepts .main 100] ++ broadcasts 0 "ann" ++ [accepts (.handler 0) 1248, accepts .main 1148]

theorem torn_welcome :
    ¬ ∀ w w', wireStart 5000 3 = some w → Reaches wireStep NoSendError w w' →
      ∀ c, (w'.streams c).Unmixed := by
  intro hclaim
  have hend : ((wireStart 5000 3).bind fun w => (run wireStep w overlapping).map fun w' =>
      (decide (Meets wireStep NoSendError w overlapping), (w'.streams 1).bytes.length,
        decide (∃ msg ∈ (w'.streams 1).begun,
          (w'.streams 1).bytes.take SIZEOF_MESSAGE = msg.toImage.bytes)))
      = some (true, 2496, false) := by decide +kernel
  rcases Option.bind_eq_some_iff.mp hend with ⟨w, hstart, hmap⟩
  rcases Option.map_eq_some_iff.mp hmap with ⟨w', hrun, htriple⟩
  rcases Prod.mk.inj htriple with ⟨hok, hpair⟩
  rcases Prod.mk.inj hpair with ⟨hlength, hnone⟩
  -- Bob's first 1248 bytes are no message that was begun on his connection.
  have hunmixed := hclaim w w' hstart (reaches_of_run hrun (of_decide_eq_true hok)) 1
  exact of_decide_eq_false hnone (hunmixed.first (by rw [hlength]; decide))

end Lab10

end OsLabs
