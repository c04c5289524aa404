import OsLabs.Chat.Client
import OsLabs.Lab10.Streams

/-!
# What a Client of the TCP Server Sends

`lab10/src/client.c` as a transition system, from `client_connect` to the end
of `client_disconnect`. The interactive thread reads commands and sends
requests, and the receive thread answers keepalive messages. Both send on one
descriptor, with functions of the same shape: take `send_mutex`, fill in a
record, hand it to `send_message_protocol`, release the mutex. Each call of
`send` is a step of its own, and may accept a part of what it is offered.

`send_mutex` does not cover everything. The registration message is sent
before there is a second thread, and `client_disconnect` closes the descriptor
without asking whether somebody is sending. A function that takes the mutex
after that finds the descriptor -1 and sends nothing, and one that is inside
`send_message_protocol` gets an error from its next call of `send`.

So as long as no call of `send` fails, the bytes on the connection are the
registration message and the messages of the calls that found it connected, in
the order in which they took the mutex, and the last one may still be under
way.

## Main definitions

* `client_connect`: Connecting and registering.
* `Request`, `Request.message`: The five functions that send.
* `Sending`: Where a thread is in one of them.
* `Interactive`, `Receive`: Where the two threads are.
* `State`, `Event`, `step`: The transition system.
* `sendingStep`, `interactiveStep`, `receiveStep`: Its parts.
* `NoSendError`: What is assumed about the operating system.
* `Framed`: What is on the connection.
* `Orderly`: The invariant.

## Theorems

* `sendLoop_clean`: Without errors the loop sends the rest of its buffer.
* `orderly_sendingStep`: What the sending functions preserve.
* `orderly_outside`: What is preserved outside of them.
* `client_stream_framed`: The connection is framed in every state reached.
* `client_stream_framed_run`: Two threads that want to send at a time.
-/

namespace OsLabs

namespace Lab10

namespace Requests

open Chat

/-- `client_connect`, or `none` when it returns -1: the client, the bytes that
    have been accepted, and the results of `send` not used. What `socket`
    returns is `fd`, and whether the address can be converted and the server
    reached is `address` and `reached`. -/
def client_connect (client : Client) (fd : Int) (address reached : Bool) (now : TimeT)
    (rs : List SendResult) : Option (Client × List UInt8 × List SendResult) :=
  if fd = -1 then none
  else if !address then none
  else if !reached then none
  else
    let client := { client with server_socket := fd }
    -- The registration message is a request for the list.
    let reg_msg := client_send_list_request client now
    (send_message_protocol fd reg_msg.toImage rs).bind fun out =>
      if out.1 = -1 then none
      else some ({ client with is_connected := true, is_running := true }, out.2)

/-- A call of one of the functions that send. -/
inductive Request
  | list
  | to_all (message : List UInt8)
  | to_one (recipient_id message : List UInt8)
  | stop
  | alive_response
  deriving DecidableEq

/-- The record the function fills in, unless it refuses its arguments. -/
def Request.message (client : Client) (now : TimeT) : Request → Option Message
  | .list => some (client_send_list_request client now)
  | .to_all message => client_send_2all client message now
  | .to_one recipient_id message => client_send_2one client recipient_id message now
  | .stop => some (client_send_stop client now)
  | .alive_response => some (client_send_alive_response client now)

/-- The function returns -1 before it takes the mutex. -/
def Request.refused : Request → Bool
  | .to_all message => strlen message = 0
  | .to_one _ message => strlen message = 0
  | _ => false

/-- Where a thread is in a sending function. -/
inductive Sending
  /-- It takes `send_mutex` next. -/
  | locking
  /-- The record is filled in, and `server_socket` is read next, for
      `send_message_protocol`. -/
  | calling (msg : Message)
  /-- In `send_message_protocol`, before a call of `send`. -/
  | sending (call : Call)
  /-- It releases `send_mutex` next. -/
  | unlocking
  deriving DecidableEq

/-- The thread has the mutex. -/
def Sending.holds : Sending → Bool
  | .locking => false
  | _ => true

/-- The message that is not yet sent in full. -/
def Sending.inHand : Sending → Option Message
  | .calling msg => some msg
  | .sending call => some call.message
  | _ => none

/-- The message of which some bytes are on the connection. -/
def Sending.part : Sending → Option Call
  | .sending call => if 0 < call.bytes_sent then some call else none
  | _ => none

/-- Where the main thread is, in `client_start`, in `client_run_interactive` and
    then in `client_disconnect`. -/
inductive Interactive
  | starting
  /-- At the condition of the loop. -/
  | test
  | reading
  | requesting (req : Request) (a : Sending)
  /-- Past `client_send_stop`; `client_stop` is next. -/
  | quitting
  /-- At the beginning of `client_disconnect`; `client_stop` is next. -/
  | leaving
  | closing
  | joining
  | ended
  deriving DecidableEq

/-- Where the receive thread is. -/
inductive Receive
  | absent
  /-- At the condition of the loop. -/
  | test
  | receiving
  | responding (a : Sending)
  /-- Nothing was received; `client_stop` is next. -/
  | quitting
  | ended
  deriving DecidableEq

inductive Thread
  | interactive
  | receive
  deriving DecidableEq

structure State where
  client : Client
  /-- The descriptor `client_connect` has created is open. -/
  connected : Bool
  send_mutex : Option Thread
  interactive : Interactive
  receive : Receive
  stream : Stream
  /-- The messages of the calls that have taken `send_mutex`, in order. -/
  acquired : List Message
  /-- Those of the calls that found `server_socket` to be -1. -/
  unsent : List Message

/-- What `fgets` returns to the interactive thread, and what the line asks
    for. -/
inductive Input
  | request (req : Request)
  /-- Help, an empty line, a command that is not complete or not known, or an
      interruption without a signal to the client. -/
  | nothing
  /-- The end of the input, an error, or a signal. -/
  | finished

inductive InteractiveEvent
  | start (signals created : Bool)
  | test
  | read (input : Input)
  | quit
  | leave
  | close
  | join

inductive ReceiveEvent
  | test
  /-- `receive_message_protocol` returns, with a message or without. -/
  | receive (r : Option Message)
  | quit

inductive SendingEvent
  | lock (now : TimeT)
  | call
  | send (r : SendResult)
  | unlock

inductive Event
  | interactive (e : InteractiveEvent)
  | receive (e : ReceiveEvent)
  | sending (u : Thread) (e : SendingEvent)
  /-- A signal arrives, and `signal_handler` calls `client_stop`. -/
  | signal

/-- The sending function a thread is in, and where in it. -/
def State.active (s : State) : Thread → Option (Request × Sending)
  | .interactive => match s.interactive with
    | .requesting req a => some (req, a)
    | _ => none
  | .receive => match s.receive with
    | .responding a => some (.alive_response, a)
    | _ => none

/-- The thread goes on in its sending function. -/
def State.setSending (s : State) (a : Sending) : Thread → State
  | .interactive => match s.interactive with
    | .requesting req _ => { s with interactive := .requesting req a }
    | _ => s
  | .receive => match s.receive with
    | .responding _ => { s with receive := .responding a }
    | _ => s

/-- The thread goes on after its sending function. -/
def State.returned (s : State) : Thread → State
  | .interactive => match s.interactive with
    | .requesting .stop _ => { s with interactive := .quitting }
    | .requesting _ _ => { s with interactive := .test }
    | _ => s
  | .receive => { s with receive := .test }

/-- `client_stop`. -/
def State.stopped (s : State) : State := { s with client := { s.client with is_running := false } }

/-- A call of `send` in `send_message_protocol`. -/
def State.send (s : State) (u : Thread) (call : Call) (r : SendResult) : State :=
  -- The descriptor is closed, and `send` fails.
  if !s.connected then s.setSending .unlocking u
  else
    let sent :=
      { s with stream := s.stream.accept call (r.taken (SIZEOF_MESSAGE - call.bytes_sent)) }
    match sendRound SIZEOF_MESSAGE call.bytes_sent r with
    | .inl n => sent.setSending (.sending { call with bytes_sent := n }) u
    | .inr ret =>
      if 0 < ret then
        { sent with stream := sent.stream.finish call.message }.setSending .unlocking u
      else sent.setSending .unlocking u

/-- The sending functions, which differ in the record they fill in. -/
def sendingStep (s : State) (u : Thread) : SendingEvent → Option State
  | .lock now => match s.active u with
    | some (req, .locking) =>
      if s.send_mutex.isSome then none
      else (req.message s.client now).map fun msg =>
        { s with send_mutex := some u, acquired := s.acquired ++ [msg] }.setSending (.calling msg) u
    | _ => none
  | .call => match s.active u with
    | some (_, .calling msg) => some
      (if s.client.server_socket < 0 then
        { s with unsent := s.unsent ++ [msg] }.setSending .unlocking u
      else
        s.setSending
          (.sending { socketfd := s.client.server_socket, message := msg, bytes_sent := 0 }) u)
    | _ => none
  | .send r => match s.active u with
    | some (_, .sending call) => some (s.send u call r)
    | _ => none
  | .unlock => match s.active u with
    | some (_, .unlocking) => some ({ s with send_mutex := none }.returned u)
    | _ => none

/-- `client_start`, `client_run_interactive` with `handle_user_input`, and
    `client_disconnect`. -/
def interactiveStep (s : State) : InteractiveEvent → Option State
  | .start signals created => match s.interactive, s.receive with
    | .starting, .absent => some
      (if !s.client.is_connected || !signals || !created then { s with interactive := .leaving }
      else { s with interactive := .test, receive := .test })
    | _, _ => none
  | .test => match s.interactive with
    | .test => some
      { s with interactive := if s.client.is_running then .reading else .leaving }
    | _ => none
  | .read input => match s.interactive with
    | .reading => match input with
      | .request req =>
        -- No command answers a keepalive message.
        if req = .alive_response then none
        else some
          { s with interactive := if req.refused then .test else .requesting req .locking }
      | .nothing => some { s with interactive := .test }
      | .finished => some { s with interactive := .leaving }
    | _ => none
  | .quit => match s.interactive with
    | .quitting => some { s.stopped with interactive := .test }
    | _ => none
  | .leave => match s.interactive with
    | .leaving => some { s.stopped with interactive := .closing }
    | _ => none
  | .close => match s.interactive with
    | .closing => some
      (if s.client.is_connected && decide (s.client.server_socket ≠ -1) then
        { s with
          client := { s.client with server_socket := -1, is_connected := false }
          connected := false
          interactive := .joining }
      else { s with interactive := .joining })
    | _ => none
  | .join => match s.interactive with
    | .joining =>
      if s.receive = .absent ∨ s.receive = .ended then some { s with interactive := .ended }
      else none
    | _ => none

/-- `client_receive_messages`. -/
def receiveStep (s : State) : ReceiveEvent → Option State
  | .test => match s.receive with
    | .test => some { s with receive := if s.client.is_running then .receiving else .ended }
    | _ => none
  | .receive r => match s.receive with
    | .receiving => match r with
      | none => some { s with receive := .quitting }
      | some msg => some
        { s with
          receive := if msg.type = MessageType.MSG_ALIVE.code then .responding .locking else .test }
    | _ => none
  | .quit => match s.receive with
    | .quitting => some { s.stopped with receive := .ended }
    | _ => none

def step (s : State) : Event → Option State
  | .interactive e => interactiveStep s e
  | .receive e => receiveStep s e
  | .sending u e => sendingStep s u e
  | .signal => some s.stopped

/-- The system after `client_connect` has succeeded. -/
def start (client : Client) (fd : Int) (address reached : Bool) (now : TimeT)
    (rs : List SendResult) : Option State :=
  (client_connect client fd address reached now rs).map fun out =>
    { client := out.1
      connected := true
      send_mutex := none
      interactive := .starting
      receive := .absent
      stream :=
        { bytes := out.2.1
          begun := [client_send_list_request client now]
          finished := [client_send_list_request client now] }
      acquired := []
      unsent := [] }

/-- No call of `send` fails. One on a descriptor that has been closed does. -/
def NoSendError (s : State) : Event → Prop
  | .sending _ (.send r) => s.connected = true ∧ r ≠ .error ∧ r ≠ .zero
  | _ => True

instance (s : State) : ∀ e, Decidable (NoSendError s e)
  | .sending _ (.send r) =>
    inferInstanceAs (Decidable (s.connected = true ∧ r ≠ .error ∧ r ≠ .zero))
  | .sending _ (.lock _) => isTrue trivial
  | .sending _ .call => isTrue trivial
  | .sending _ .unlock => isTrue trivial
  | .interactive _ => isTrue trivial
  | .receive _ => isTrue trivial
  | .signal => isTrue trivial

/-- The encodings of messages, one after another. -/
def encodings (msgs : List Message) : List UInt8 := (msgs.map fun msg => msg.toImage.bytes).flatten

/-- The stream consists of the registration message and the messages of the
    calls that have taken `send_mutex`, in that order, as far as they found the
    client connected. While somebody has the mutex the last of these messages
    may not be there in full. -/
structure Framed (reg_msg : Message) (s : State) : Prop where
  free : s.send_mutex = none →
    ∃ sent, s.acquired = sent ++ s.unsent ∧ s.stream.bytes = encodings (reg_msg :: sent)
  held : ∀ u, s.send_mutex = some u → ∃ sent,
    s.acquired = sent ++ s.unsent ∧ s.stream.bytes = encodings (reg_msg :: sent) ∨
      ∃ msg part, s.acquired = sent ++ s.unsent ++ [msg] ∧ part <+: msg.toImage.bytes ∧
        part.length < SIZEOF_MESSAGE ∧ s.stream.bytes = encodings (reg_msg :: sent) ++ part
  disconnected : s.unsent ≠ [] → s.client.server_socket = -1

/-- Where the thread that has the mutex is. -/
def State.holder (s : State) : Option Sending :=
  s.send_mutex.bind fun u => (s.active u).map Prod.snd

/-- The message of the call that has the mutex, if it is not sent in full. -/
def State.inHand (s : State) : Option Message := s.holder.bind Sending.inHand

/-- What a holder of the mutex can rely on. -/
structure Orderly (reg_msg : Message) (s : State) : Prop where
  mutex : ∀ u, s.send_mutex = some u ↔ ∃ req a, s.active u = some (req, a) ∧ a.holds = true
  ends : s.stream.Ends (s.holder.bind Sending.part)
  sending : ∀ call, s.holder = some (.sending call) →
    call.bytes_sent < SIZEOF_MESSAGE ∧ s.unsent = []
  order : ∃ sent, s.stream.finished = reg_msg :: sent ∧
    s.acquired = sent ++ s.unsent ++ s.inHand.toList
  socket : 0 ≤ s.client.server_socket ∨ s.client.server_socket = -1
  unsent : s.unsent ≠ [] → s.client.server_socket = -1

section Connecting

/-- Without errors the loop of `send_message_protocol` ends when the rest of the
    buffer is sent. -/
theorem sendLoop_clean (buffer : List UInt8) (rs : List SendResult) :
    ∀ (bytes_sent : Nat) out, (∀ r ∈ rs, r ≠ .error ∧ r ≠ .zero) →
      sendLoop buffer bytes_sent rs = some out → out.2.1 = buffer.drop bytes_sent := by
  induction rs with
  | nil =>
      intro sent out _ hloop
      rw [sendLoop] at hloop
      split_ifs at hloop with hlt
      rw [← Option.some.inj hloop, List.drop_eq_nil_of_le (by omega)]
  | cons r rs ih =>
      intro sent out hclean hloop
      have hrest : ∀ r' ∈ rs, r' ≠ .error ∧ r' ≠ .zero :=
        fun r' hr' => hclean r' (List.mem_cons_of_mem r hr')
      by_cases hlt : sent < buffer.length
      · cases r with
        | eintr =>
            rw [sendLoop, if_pos hlt] at hloop
            exact ih sent out hrest hloop
        | eagain =>
            rw [sendLoop, if_pos hlt] at hloop
            exact ih sent out hrest hloop
        | error => exact absurd rfl (hclean _ List.mem_cons_self).1
        | zero => exact absurd rfl (hclean _ List.mem_cons_self).2
        | accepted k =>
            rw [sendLoop, if_pos hlt] at hloop
            -- What this call accepts and what the others do is all that is left.
            rcases Option.map_eq_some_iff.mp hloop with ⟨out', hloop', rfl⟩
            simp only []
            rw [ih _ out' hrest hloop', ← List.drop_drop, List.take_append_drop]
      · rw [sendLoop_done buffer hlt, Option.some.injEq] at hloop
        rw [← hloop, List.drop_eq_nil_of_le (by omega)]

/-- A client that has connected without errors has sent its registration
    message, on a descriptor. -/
theorem client_connect_clean {client client' : Client} {fd : Int} {address reached : Bool}
    {now : TimeT} {rs rest : List SendResult} {bytes : List UInt8}
    (hconnect : client_connect client fd address reached now rs = some (client', bytes, rest))
    (hclean : ∀ r ∈ rs, r ≠ .error ∧ r ≠ .zero) :
    0 ≤ client'.server_socket ∧ bytes = (client_send_list_request client now).toImage.bytes := by
  unfold client_connect at hconnect
  split_ifs at hconnect
  rcases Option.bind_eq_some_iff.mp hconnect with ⟨out, hsend, hout⟩
  split_ifs at hout with hfailed
  rcases Prod.mk.inj (Option.some.inj hout) with ⟨rfl, hbytes⟩
  unfold send_message_protocol at hsend
  split_ifs at hsend with hneg
  · -- Without a descriptor `send_message_protocol` fails at once.
    rw [← Option.some.inj hsend] at hfailed
    exact absurd rfl hfailed
  · have hall := sendLoop_clean _ rs 0 out hclean hsend
    rw [hbytes, List.drop_zero] at hall
    exact ⟨by change 0 ≤ fd; omega, hall⟩

end Connecting

section Threads

variable {s s' : State} {u v : Thread} {req : Request} {a b : Sending}

theorem active_setSending_self (h : s.active u = some (req, b)) :
    (s.setSending a u).active u = some (req, a) := by
  cases u with
  | interactive =>
      cases hpc : s.interactive with
      | requesting req' a' =>
          simp only [State.active, hpc, Option.some.injEq, Prod.mk.injEq] at h
          simp only [State.active, State.setSending, hpc, h.1]
      | _ => simp [State.active, hpc] at h
  | receive =>
      cases hpc : s.receive with
      | responding a' =>
          simp only [State.active, hpc, Option.some.injEq, Prod.mk.injEq] at h
          simp only [State.active, State.setSending, hpc, h.1]
      | _ => simp [State.active, hpc] at h

theorem active_setSending_other (h : v ≠ u) : (s.setSending a u).active v = s.active v := by
  unfold State.setSending
  cases u with
  | interactive =>
      cases v with
      | interactive => exact absurd rfl h
      | receive => cases s.interactive <;> rfl
  | receive =>
      cases v with
      | interactive => cases s.receive <;> rfl
      | receive => exact absurd rfl h

/-- After its function a thread is in none. -/
theorem active_returned (s : State) (u : Thread) : (s.returned u).active u = none := by
  cases u with
  | interactive =>
      cases hpc : s.interactive with
      | requesting req a => cases req <;> simp [State.returned, State.active, hpc]
      | _ => simp [State.returned, State.active, hpc]
  | receive => rfl

theorem active_returned_other (h : v ≠ u) : (s.returned u).active v = s.active v := by
  cases u with
  | interactive =>
      cases v with
      | interactive => exact absurd rfl h
      | receive =>
          cases hpc : s.interactive with
          | requesting req a => cases req <;> simp [State.returned, State.active, hpc]
          | _ => simp [State.returned, State.active, hpc]
  | receive =>
      cases v with
      | interactive => rfl
      | receive => exact absurd rfl h

/-- What two states have in common when only threads have moved. -/
structure Moved (s s' : State) : Prop where
  send_mutex : s'.send_mutex = s.send_mutex
  stream : s'.stream = s.stream
  acquired : s'.acquired = s.acquired
  unsent : s'.unsent = s.unsent

theorem moved_setSending (s : State) (a : Sending) (u : Thread) :
    Moved s (s.setSending a u) ∧ (s.setSending a u).client = s.client := by
  unfold State.setSending
  cases u with
  | interactive => cases s.interactive <;> exact ⟨⟨rfl, rfl, rfl, rfl⟩, rfl⟩
  | receive => cases s.receive <;> exact ⟨⟨rfl, rfl, rfl, rfl⟩, rfl⟩

theorem moved_returned (s : State) (u : Thread) :
    Moved s (s.returned u) ∧ (s.returned u).client = s.client := by
  unfold State.returned
  cases u with
  | interactive =>
      cases s.interactive with
      | requesting req a => cases req <;> exact ⟨⟨rfl, rfl, rfl, rfl⟩, rfl⟩
      | _ => exact ⟨⟨rfl, rfl, rfl, rfl⟩, rfl⟩
  | receive => exact ⟨⟨rfl, rfl, rfl, rfl⟩, rfl⟩

theorem holder_of_active (hmutex : s.send_mutex = some u) (h : s.active u = some (req, a)) :
    s.holder = some a := by
  rw [State.holder, hmutex, Option.bind_some, h, Option.map_some]

theorem holder_of_free (h : s.send_mutex = none) : s.holder = none := by
  rw [State.holder, h, Option.bind_none]

end Threads

section Invariant

variable {reg_msg : Message} {s s' : State} {u : Thread}

/-- Outside of the sending functions threads only come to them or stay away,
    and the descriptor is given up. -/
theorem orderly_outside (h : Orderly reg_msg s) (hmoved : Moved s s')
    (hactive : ∀ u, s'.active u = s.active u ∨
      (∀ req a, s.active u = some (req, a) → a.holds = false) ∧
        ∀ req a, s'.active u = some (req, a) → a.holds = false)
    (hsocket : s'.client.server_socket = s.client.server_socket ∨
      s'.client.server_socket = -1) : Orderly reg_msg s' := by
  have hmutex : ∀ u, s'.send_mutex = some u ↔
      ∃ req a, s'.active u = some (req, a) ∧ a.holds = true := by
    intro u
    rw [hmoved.send_mutex, h.mutex u]
    rcases hactive u with hsame | ⟨hbefore, hafter⟩
    · rw [hsame]
    · -- A thread that moves has the mutex neither before nor after.
      constructor
      · rintro ⟨req, a, ha, hholds⟩
        exact absurd (hholds.symm.trans (hbefore req a ha)) Bool.noConfusion
      · rintro ⟨req, a, ha, hholds⟩
        exact absurd (hholds.symm.trans (hafter req a ha)) Bool.noConfusion
  -- The thread that has the mutex is where it was.
  have hholder : s'.holder = s.holder := by
    cases hheld : s.send_mutex with
    | none => rw [holder_of_free hheld, holder_of_free (hmoved.send_mutex.trans hheld)]
    | some u =>
        rcases (h.mutex u).mp hheld with ⟨req, a, ha, hholds⟩
        rcases hactive u with hsame | ⟨hbefore, _⟩
        · rw [holder_of_active hheld ha,
            holder_of_active (hmoved.send_mutex.trans hheld) (hsame.trans ha)]
        · exact absurd (hholds.symm.trans (hbefore req a ha)) Bool.noConfusion
  have hends := h.ends
  rw [← hmoved.stream, ← hholder] at hends
  rcases h.order with ⟨sent, hfinished, hacquired⟩
  refine ⟨hmutex, hends, fun call hcall => ?_, ⟨sent, ?_, ?_⟩, ?_, fun hne => ?_⟩
  · rw [hmoved.unsent]
    exact h.sending call (hholder.symm.trans hcall)
  · rw [hmoved.stream]
    exact hfinished
  · rw [hmoved.acquired, hmoved.unsent, State.inHand, hholder]
    exact hacquired
  · rcases hsocket with hsame | hgone
    · rw [hsame]
      exact h.socket
    · exact Or.inr hgone
  · rcases hsocket with hsame | hgone
    · rw [hmoved.unsent] at hne
      rw [hsame]
      exact h.unsent hne
    · exact hgone

/-- Only one thread has the mutex: the one that takes it, or had it before. -/
theorem mutex_kept (h : Orderly reg_msg s) {req : Request} {a : Sending}
    (hmutex : s.send_mutex = none ∨ s.send_mutex = some u) (hmutex' : s'.send_mutex = some u)
    (hself : s'.active u = some (req, a)) (hholds : a.holds = true)
    (hother : ∀ v, v ≠ u → s'.active v = s.active v) (v : Thread) :
    s'.send_mutex = some v ↔ ∃ req a, s'.active v = some (req, a) ∧ a.holds = true := by
  by_cases hvu : v = u
  · rw [hvu]
    exact iff_of_true hmutex' ⟨req, a, hself, hholds⟩
  · -- Any other thread is where it was, and did not have the mutex there.
    have hnot : ¬ s.send_mutex = some v := by
      rcases hmutex with hnone | hsome
      · rw [hnone]
        exact fun heq => by cases heq
      · rw [hsome]
        exact fun heq => hvu (Option.some.inj heq).symm
    rw [hother v hvu, ← h.mutex v, hmutex']
    exact iff_of_false (fun heq => hvu (Option.some.inj heq).symm) hnot

/-- A thread that has the mutex, or takes it, goes on to a place where it has
    it, and leaves the stream and the calls as they should be there. -/
theorem orderly_setSending (h : Orderly reg_msg s) {s₁ : State} {req : Request} {a b : Sending}
    (hself : s.active u = some (req, b))
    (hmutex : s.send_mutex = none ∨ s.send_mutex = some u) (hmutex₁ : s₁.send_mutex = some u)
    (hactive : s₁.active = s.active) (hclient : s₁.client = s.client) (hholds : a.holds = true)
    (hends : s₁.stream.Ends a.part)
    (hsending : ∀ call, a = .sending call → call.bytes_sent < SIZEOF_MESSAGE ∧ s₁.unsent = [])
    (horder : ∃ sent, s₁.stream.finished = reg_msg :: sent ∧
      s₁.acquired = sent ++ s₁.unsent ++ a.inHand.toList)
    (hunsent : s₁.unsent ≠ [] → s.client.server_socket = -1) :
    Orderly reg_msg (s₁.setSending a u) := by
  have hself' := @active_setSending_self s₁ u req a b ((congrFun hactive u).trans hself)
  have hother : ∀ v, v ≠ u → (s₁.setSending a u).active v = s.active v :=
    fun v hv => (active_setSending_other hv).trans (congrFun hactive v)
  rcases moved_setSending s₁ a u with ⟨hmoved, hclient'⟩
  generalize s₁.setSending a u = s' at hself' hother hmoved hclient' ⊢
  have hmutex' : s'.send_mutex = some u := hmoved.send_mutex.trans hmutex₁
  have hholder := holder_of_active hmutex' hself'
  rcases horder with ⟨sent, hfinished, hacquired⟩
  refine ⟨mutex_kept h hmutex hmutex' hself' hholds hother, ?_, fun call hcall => ?_,
    ⟨sent, ?_, ?_⟩, ?_, fun hne => ?_⟩
  · rw [hholder, hmoved.stream]
    exact hends
  · rw [hmoved.unsent]
    exact hsending call (Option.some.inj (hholder.symm.trans hcall))
  · rw [hmoved.stream]
    exact hfinished
  · rw [hmoved.acquired, hmoved.unsent, State.inHand, hholder]
    exact hacquired
  · rw [hclient', hclient]
    exact h.socket
  · rw [hmoved.unsent] at hne
    rw [hclient', hclient]
    exact hunsent hne

/-- A thread that is at a place where it has the mutex has it. -/
theorem holds_mutex (h : Orderly reg_msg s) {req : Request} {a : Sending}
    (hself : s.active u = some (req, a)) (hholds : a.holds = true) :
    s.send_mutex = some u ∧ s.holder = some a := by
  have hmutex := (h.mutex u).mpr ⟨req, a, hself, hholds⟩
  exact ⟨hmutex, holder_of_active hmutex hself⟩

/-- A call of `send` accepts nothing, and another one is made. -/
theorem sendRound_retry {r : SendResult} {n : Nat} (hlt : n < SIZEOF_MESSAGE)
    (hnone : r.taken (SIZEOF_MESSAGE - n) = 0) (herror : r ≠ .error) (hzero : r ≠ .zero) :
    sendRound SIZEOF_MESSAGE n r = .inl n := by
  unfold sendRound
  simp only [hnone, Nat.add_zero, if_pos hlt]

theorem accept_nothing (stream : Stream) (call : Call) : stream.accept call 0 = stream := by
  unfold Stream.accept
  rw [List.take_zero, List.append_nil, if_neg fun hpos => Nat.lt_irrefl 0 hpos.2]

/-- A call of `send` that interrupts or blocks changes nothing. -/
theorem send_retry {call : Call} {r : SendResult} (hconnected : s.connected = true)
    (hlt : call.bytes_sent < SIZEOF_MESSAGE)
    (hnone : r.taken (SIZEOF_MESSAGE - call.bytes_sent) = 0) (herror : r ≠ .error)
    (hzero : r ≠ .zero) : s.send u call r = s.setSending (.sending call) u := by
  unfold State.send
  rw [if_neg (by rw [hconnected]; decide), sendRound_retry hlt hnone herror hzero]
  simp only []
  rw [hnone, accept_nothing]

/-- One that accepts bytes moves the thread on by as many. -/
theorem send_accepted {call : Call} {k n : Nat} (hconnected : s.connected = true)
    (hn : n = call.bytes_sent + min (k + 1) (SIZEOF_MESSAGE - call.bytes_sent)) :
    s.send u call (.accepted k) =
      if n < SIZEOF_MESSAGE then
        { s with stream := s.stream.accept call (n - call.bytes_sent) }.setSending
          (.sending { call with bytes_sent := n }) u
      else
        { s with
          stream := (s.stream.accept call (n - call.bytes_sent)).finish call.message }.setSending
            .unlocking u := by
  have htaken : SendResult.taken (SIZEOF_MESSAGE - call.bytes_sent) (.accepted k)
      = n - call.bytes_sent := by
    rw [hn, Nat.add_sub_cancel_left]
    rfl
  unfold State.send
  rw [if_neg (by rw [hconnected]; decide), sendRound_accepted, ← hn]
  simp only [htaken]
  by_cases hmore : n < SIZEOF_MESSAGE
  · rw [if_pos hmore, if_pos hmore]
  · have hsize : 0 < SIZEOF_MESSAGE := by decide
    have hpos : (0 : Int) < (n : Int) := by omega
    rw [if_neg hmore, if_neg hmore]
    simp only [if_pos hpos]

theorem orderly_send (h : Orderly reg_msg s) {req : Request} {call : Call} {r : SendResult}
    (hself : s.active u = some (req, .sending call)) (hconnected : s.connected = true)
    (herror : r ≠ .error) (hzero : r ≠ .zero) : Orderly reg_msg (s.send u call r) := by
  rcases holds_mutex h hself rfl with ⟨hmutex, hholder⟩
  rcases h.sending call hholder with ⟨hlt, hunsent⟩
  have hends := h.ends
  rw [hholder] at hends
  have horder := h.order
  rw [State.inHand, hholder] at horder
  -- The call accepts nothing, or some bytes but not the last, or the last.
  by_cases hnone : r.taken (SIZEOF_MESSAGE - call.bytes_sent) = 0
  · rw [send_retry hconnected hlt hnone herror hzero]
    exact orderly_setSending h hself (Or.inr hmutex) hmutex rfl rfl rfl hends
      (fun call' heq => by cases heq; exact ⟨hlt, hunsent⟩) horder h.unsent
  · cases r with
    | accepted k =>
        generalize hn : call.bytes_sent + min (k + 1) (SIZEOF_MESSAGE - call.bytes_sent) = n
        have hmore : call.bytes_sent < n := by omega
        have hle : n ≤ SIZEOF_MESSAGE := by omega
        have hnext := Stream.Ends.accept hends rfl hmore
        rw [send_accepted hconnected hn.symm]
        by_cases hn' : n < SIZEOF_MESSAGE
        · rw [if_pos hn']
          refine orderly_setSending h hself (Or.inr hmutex) hmutex rfl rfl rfl ?_
            (fun call' heq => by cases heq; exact ⟨hn', hunsent⟩) horder h.unsent
          have hpart : Sending.part (.sending { call with bytes_sent := n })
              = some { call with bytes_sent := n } :=
            if_pos (Nat.lt_of_le_of_lt (Nat.zero_le _) hmore)
          rw [hpart]
          exact hnext
        · -- The message is complete, and goes from the hand to the stream.
          rw [if_neg hn']
          have hdone := Stream.Ends.finish hnext (by change n = SIZEOF_MESSAGE; omega)
          rcases horder with ⟨sent, hfinished, hacquired⟩
          refine orderly_setSending h hself (Or.inr hmutex) hmutex rfl rfl rfl hdone
            (fun call' heq => by cases heq) ⟨sent ++ [call.message], ?_, ?_⟩ h.unsent
          · change s.stream.finished ++ [call.message] = _
            rw [hfinished, List.cons_append]
          · change s.acquired = sent ++ [call.message] ++ s.unsent ++ []
            rw [hacquired, hunsent]
            simp [Sending.inHand]
    | _ => exact absurd rfl hnone

/-- The thread that has the mutex releases it, and is in no sending function. -/
theorem orderly_unlock (h : Orderly reg_msg s) (hmutex : s.send_mutex = some u)
    (hends : s.stream.Ends none)
    (horder : ∃ sent, s.stream.finished = reg_msg :: sent ∧ s.acquired = sent ++ s.unsent ++ []) :
    Orderly reg_msg ({ s with send_mutex := none }.returned u) := by
  have hactive : ∀ v, v ≠ u →
      (({ s with send_mutex := none } : State).returned u).active v = s.active v :=
    fun v hv => active_returned_other hv
  have hself := active_returned { s with send_mutex := none } u
  rcases moved_returned { s with send_mutex := none } u with ⟨hmoved, hclient⟩
  generalize ({ s with send_mutex := none } : State).returned u = s'
    at hactive hself hmoved hclient ⊢
  have hfree : s'.send_mutex = none := hmoved.send_mutex
  have hholder := holder_of_free hfree
  rcases horder with ⟨sent, hfinished, hacquired⟩
  refine ⟨fun v => ?_, ?_, fun call hcall => ?_, ⟨sent, ?_, ?_⟩, ?_, fun hne => ?_⟩
  · -- Nobody has it now: the other thread did not have it before.
    refine iff_of_false (by rw [hfree]; exact fun heq => by cases heq) ?_
    rintro ⟨req, a, ha, hholds⟩
    by_cases hvu : v = u
    · rw [hvu, hself] at ha
      cases ha
    · rw [hactive v hvu] at ha
      have hboth := (h.mutex v).mpr ⟨req, a, ha, hholds⟩
      exact hvu (Option.some.inj (hboth.symm.trans hmutex))
  · rw [hholder, hmoved.stream]
    exact hends
  · rw [hholder] at hcall
    cases hcall
  · rw [hmoved.stream]
    exact hfinished
  · rw [hmoved.acquired, hmoved.unsent, State.inHand, hholder]
    exact hacquired
  · rw [hclient]
    exact h.socket
  · rw [hmoved.unsent] at hne
    rw [hclient]
    exact h.unsent hne

/-- What the sending functions preserve. -/
theorem orderly_sendingStep (h : Orderly reg_msg s) {e : SendingEvent}
    (hok : NoSendError s (.sending u e)) (hstep : sendingStep s u e = some s') :
    Orderly reg_msg s' := by
  have hends := h.ends
  have horder := h.order
  -- Where the thread is in its function decides which step it can take.
  cases hself : s.active u with
  | none => cases e <;> simp [sendingStep, hself] at hstep
  | some p =>
      rcases p with ⟨req, a⟩
      cases e with
      | lock now =>
          cases a with
          | locking =>
              simp only [sendingStep, hself] at hstep
              split_ifs at hstep with hheld
              rcases Option.map_eq_some_iff.mp hstep with ⟨msg, _, rfl⟩
              -- The mutex is free, so every message so far is whole.
              have hfree : s.send_mutex = none := by
                rw [Bool.not_eq_true, Option.isSome_eq_false_iff, Option.isNone_iff_eq_none]
                  at hheld
                exact hheld
              rw [holder_of_free hfree] at hends
              rw [State.inHand, holder_of_free hfree] at horder
              rcases horder with ⟨sent, hfinished, hacquired⟩
              refine orderly_setSending h hself (Or.inl hfree) rfl rfl rfl rfl hends
                (fun call heq => by cases heq) ⟨sent, hfinished, ?_⟩ h.unsent
              change s.acquired ++ [msg] = sent ++ s.unsent ++ [msg]
              rw [hacquired, Option.bind_none, Option.toList_none, List.append_nil]
          | _ => simp [sendingStep, hself] at hstep
      | call =>
          cases a with
          | calling msg =>
              rcases holds_mutex h hself rfl with ⟨hmutex, hholder⟩
              rw [hholder] at hends
              rw [State.inHand, hholder] at horder
              simp only [sendingStep, hself, Option.some.injEq] at hstep
              rcases horder with ⟨sent, hfinished, hacquired⟩
              by_cases hgone : s.client.server_socket < 0
              · -- The client has disconnected, and nothing is sent.
                rw [if_pos hgone] at hstep
                rw [← hstep]
                refine orderly_setSending h hself (Or.inr hmutex) hmutex rfl rfl rfl hends
                  (fun call heq => by cases heq) ⟨sent, hfinished, ?_⟩ fun _ =>
                    h.socket.resolve_left (by omega)
                change s.acquired = sent ++ (s.unsent ++ [msg]) ++ []
                rw [hacquired, List.append_nil, ← List.append_assoc]
                rfl
              · -- Nobody has been turned away as long as there is a descriptor.
                rw [if_neg hgone] at hstep
                rw [← hstep]
                have hunsent : s.unsent = [] := by
                  by_contra hne
                  have hsocket := h.unsent hne
                  omega
                exact orderly_setSending h hself (Or.inr hmutex) hmutex rfl rfl rfl hends
                  (fun call heq => by cases heq; exact ⟨(by decide : 0 < SIZEOF_MESSAGE), hunsent⟩)
                  ⟨sent, hfinished, hacquired⟩ h.unsent
          | _ => simp [sendingStep, hself] at hstep
      | send r =>
          cases a with
          | sending call =>
              simp only [sendingStep, hself, Option.some.injEq] at hstep
              rw [← hstep]
              exact orderly_send h hself hok.1 hok.2.1 hok.2.2
          | _ => simp [sendingStep, hself] at hstep
      | unlock =>
          cases a with
          | unlocking =>
              rcases holds_mutex h hself rfl with ⟨hmutex, hholder⟩
              rw [hholder] at hends
              rw [State.inHand, hholder] at horder
              simp only [sendingStep, hself, Option.some.injEq] at hstep
              rw [← hstep]
              exact orderly_unlock h hmutex hends horder
          | _ => simp [sendingStep, hself] at hstep

/-- The interactive thread is in no sending function, and may come to one. -/
theorem orderly_interactive (h : Orderly reg_msg s) (hmoved : Moved s s')
    (hreceive : s'.receive = s.receive)
    (hbefore : ∀ req a, s.interactive ≠ .requesting req a)
    (hafter : ∀ req a, s'.interactive = .requesting req a → a = .locking)
    (hsocket : s'.client.server_socket = s.client.server_socket ∨
      s'.client.server_socket = -1) : Orderly reg_msg s' := by
  refine orderly_outside h hmoved (fun u => ?_) hsocket
  cases u with
  | interactive =>
      refine Or.inr ⟨fun req a ha => ?_, fun req a ha => ?_⟩
      · unfold State.active at ha
        cases hpc : s.interactive with
        | requesting req' a' => exact absurd hpc (hbefore req' a')
        | _ => simp [hpc] at ha
      · unfold State.active at ha
        cases hpc : s'.interactive with
        | requesting req' a' =>
            simp only [hpc, Option.some.injEq, Prod.mk.injEq] at ha
            rw [← ha.2, hafter req' a' hpc]
            rfl
        | _ => simp [hpc] at ha
  | receive =>
      refine Or.inl ?_
      unfold State.active
      rw [hreceive]

/-- The same for the receive thread. -/
theorem orderly_receive (h : Orderly reg_msg s) (hmoved : Moved s s')
    (hinteractive : s'.interactive = s.interactive) (hbefore : ∀ a, s.receive ≠ .responding a)
    (hafter : ∀ a, s'.receive = .responding a → a = .locking)
    (hclient : s'.client.server_socket = s.client.server_socket) : Orderly reg_msg s' := by
  refine orderly_outside h hmoved (fun u => ?_) (Or.inl hclient)
  cases u with
  | interactive =>
      refine Or.inl ?_
      unfold State.active
      rw [hinteractive]
  | receive =>
      refine Or.inr ⟨fun req a ha => ?_, fun req a ha => ?_⟩
      · unfold State.active at ha
        cases hpc : s.receive with
        | responding a' => exact absurd hpc (hbefore a')
        | _ => simp [hpc] at ha
      · unfold State.active at ha
        cases hpc : s'.receive with
        | responding a' =>
            simp only [hpc, Option.some.injEq, Prod.mk.injEq] at ha
            rw [← ha.2, hafter a' hpc]
            rfl
        | _ => simp [hpc] at ha

theorem orderly_interactiveStep (h : Orderly reg_msg s) {e : InteractiveEvent}
    (hstep : interactiveStep s e = some s') : Orderly reg_msg s' := by
  cases hpc : s.interactive with
  | starting =>
      cases e with
      | start signals created =>
          cases hreceive : s.receive with
          | absent =>
              simp only [interactiveStep, hpc, hreceive, Option.some.injEq] at hstep
              rw [← hstep]
              split_ifs
              · exact orderly_interactive h ⟨rfl, rfl, rfl, rfl⟩ hreceive.symm (by simp [hpc])
                  (by simp) (Or.inl rfl)
              · -- Neither thread is in a sending function, before or after.
                refine orderly_outside h ⟨rfl, rfl, rfl, rfl⟩ (fun u => Or.inr ?_) (Or.inl rfl)
                cases u <;> simp [State.active, hpc, hreceive]
          | _ => simp [interactiveStep, hpc, hreceive] at hstep
      | _ => simp [interactiveStep, hpc] at hstep
  | test =>
      cases e with
      | test =>
          simp only [interactiveStep, hpc, Option.some.injEq] at hstep
          rw [← hstep]
          refine orderly_interactive h ⟨rfl, rfl, rfl, rfl⟩ rfl (by simp [hpc]) ?_ (Or.inl rfl)
          cases s.client.is_running <;> simp
      | _ => simp [interactiveStep, hpc] at hstep
  | reading =>
      cases e with
      | read input =>
          simp only [interactiveStep, hpc] at hstep
          cases input with
          | request req =>
              simp only [] at hstep
              split_ifs at hstep with hother hrefused
              · rw [← Option.some.inj hstep]
                exact orderly_interactive h ⟨rfl, rfl, rfl, rfl⟩ rfl (by simp [hpc]) (by simp)
                  (Or.inl rfl)
              · rw [← Option.some.inj hstep]
                exact orderly_interactive h ⟨rfl, rfl, rfl, rfl⟩ rfl (by simp [hpc])
                  (fun req' a heq => by cases heq; rfl) (Or.inl rfl)
          | nothing =>
              rw [← Option.some.inj hstep]
              exact orderly_interactive h ⟨rfl, rfl, rfl, rfl⟩ rfl (by simp [hpc]) (by simp)
                (Or.inl rfl)
          | finished =>
              rw [← Option.some.inj hstep]
              exact orderly_interactive h ⟨rfl, rfl, rfl, rfl⟩ rfl (by simp [hpc]) (by simp)
                (Or.inl rfl)
      | _ => simp [interactiveStep, hpc] at hstep
  | requesting req a => cases e <;> simp [interactiveStep, hpc] at hstep
  | quitting =>
      cases e with
      | quit =>
          simp only [interactiveStep, hpc, Option.some.injEq] at hstep
          rw [← hstep]
          exact orderly_interactive h ⟨rfl, rfl, rfl, rfl⟩ rfl (by simp [hpc]) (by simp)
            (Or.inl rfl)
      | _ => simp [interactiveStep, hpc] at hstep
  | leaving =>
      cases e with
      | leave =>
          simp only [interactiveStep, hpc, Option.some.injEq] at hstep
          rw [← hstep]
          exact orderly_interactive h ⟨rfl, rfl, rfl, rfl⟩ rfl (by simp [hpc]) (by simp)
            (Or.inl rfl)
      | _ => simp [interactiveStep, hpc] at hstep
  | closing =>
      cases e with
      | close =>
          simp only [interactiveStep, hpc, Option.some.injEq] at hstep
          rw [← hstep]
          -- The descriptor is given up, whoever may still be sending on it.
          split_ifs
          · exact orderly_interactive h ⟨rfl, rfl, rfl, rfl⟩ rfl (by simp [hpc]) (by simp)
              (Or.inr rfl)
          · exact orderly_interactive h ⟨rfl, rfl, rfl, rfl⟩ rfl (by simp [hpc]) (by simp)
              (Or.inl rfl)
      | _ => simp [interactiveStep, hpc] at hstep
  | joining =>
      cases e with
      | join =>
          simp only [interactiveStep, hpc] at hstep
          split_ifs at hstep
          rw [← Option.some.inj hstep]
          exact orderly_interactive h ⟨rfl, rfl, rfl, rfl⟩ rfl (by simp [hpc]) (by simp)
            (Or.inl rfl)
      | _ => simp [interactiveStep, hpc] at hstep
  | ended => cases e <;> simp [interactiveStep, hpc] at hstep

theorem orderly_receiveStep (h : Orderly reg_msg s) {e : ReceiveEvent}
    (hstep : receiveStep s e = some s') : Orderly reg_msg s' := by
  cases hpc : s.receive with
  | test =>
      cases e with
      | test =>
          simp only [receiveStep, hpc, Option.some.injEq] at hstep
          rw [← hstep]
          refine orderly_receive h ⟨rfl, rfl, rfl, rfl⟩ rfl (by simp [hpc]) ?_ rfl
          cases s.client.is_running <;> simp
      | _ => simp [receiveStep, hpc] at hstep
  | receiving =>
      cases e with
      | receive r =>
          simp only [receiveStep, hpc] at hstep
          cases r with
          | none =>
              rw [← Option.some.inj hstep]
              exact orderly_receive h ⟨rfl, rfl, rfl, rfl⟩ rfl (by simp [hpc]) (by simp) rfl
          | some msg =>
              rw [← Option.some.inj hstep]
              -- Only a message that asks whether the client is there is answered.
              refine orderly_receive h ⟨rfl, rfl, rfl, rfl⟩ rfl (by simp [hpc])
                (fun a heq => ?_) rfl
              simp only [] at heq
              split_ifs at heq
              cases heq
              rfl
      | _ => simp [receiveStep, hpc] at hstep
  | quitting =>
      cases e with
      | quit =>
          simp only [receiveStep, hpc, Option.some.injEq] at hstep
          rw [← hstep]
          exact orderly_receive h ⟨rfl, rfl, rfl, rfl⟩ rfl (by simp [hpc]) (by simp) rfl
      | _ => simp [receiveStep, hpc] at hstep
  | _ => cases e <;> simp [receiveStep, hpc] at hstep

theorem orderly_step (h : Orderly reg_msg s) {e : Event} (hok : NoSendError s e)
    (hstep : step s e = some s') : Orderly reg_msg s' := by
  cases e with
  | interactive e => exact orderly_interactiveStep h hstep
  | receive e => exact orderly_receiveStep h hstep
  | sending u e => exact orderly_sendingStep h hok hstep
  | signal =>
      rw [step, Option.some.injEq] at hstep
      rw [← hstep]
      exact orderly_outside h ⟨rfl, rfl, rfl, rfl⟩ (fun u => Or.inl (by cases u <;> rfl))
        (Or.inl rfl)

theorem orderly_start {client : Client} {fd : Int} {address reached : Bool} {now : TimeT}
    {rs : List SendResult} (hstart : start client fd address reached now rs = some s)
    (hclean : ∀ r ∈ rs, r ≠ .error ∧ r ≠ .zero) :
    Orderly (client_send_list_request client now) s := by
  rcases Option.map_eq_some_iff.mp hstart with ⟨⟨client', bytes, rest⟩, hconnect, rfl⟩
  rcases client_connect_clean hconnect hclean with ⟨hsocket, rfl⟩
  refine ⟨fun u => iff_of_false (by simp) ?_, ⟨?_, rfl⟩, by simp [State.holder], ⟨[], rfl, rfl⟩,
    Or.inl hsocket, fun hne => absurd rfl hne⟩
  · rintro ⟨req, a, ha, _⟩
    cases u <;> simp [State.active] at ha
  · simp [Stream.whole]

/-- What is on the connection in an orderly state. -/
theorem framed_of_orderly (h : Orderly reg_msg s) : Framed reg_msg s := by
  have hends := h.ends
  rcases h.order with ⟨sent, hfinished, hacquired⟩
  have hwhole : s.stream.whole = encodings (reg_msg :: sent) := by
    rw [Stream.whole, hfinished]
    rfl
  refine ⟨fun hfree => ?_, fun u hu => ?_, h.unsent⟩
  · rw [holder_of_free hfree] at hends
    rw [State.inHand, holder_of_free hfree, Option.bind_none, Option.toList_none,
      List.append_nil] at hacquired
    exact ⟨sent, hacquired, hends.1.trans hwhole⟩
  · -- How much of the last message is there depends on where the holder is.
    rcases (h.mutex u).mp hu with ⟨req, a, ha, hholds⟩
    have hholder := holder_of_active hu ha
    rw [hholder] at hends
    rw [State.inHand, hholder] at hacquired
    refine ⟨sent, ?_⟩
    cases a with
    | locking => exact absurd hholds Bool.false_ne_true
    | calling msg =>
        refine Or.inr ⟨msg, [], hacquired, List.nil_prefix, by decide, ?_⟩
        rw [List.append_nil]
        exact hends.1.trans hwhole
    | sending call =>
        have hlt := (h.sending call hholder).1
        refine Or.inr ⟨call.message, call.sent, hacquired, List.take_prefix _ _,
          Nat.lt_of_le_of_lt (List.length_take_le _ _) hlt, ?_⟩
        rw [← hwhole]
        change s.stream.Ends (if 0 < call.bytes_sent then some call else none) at hends
        by_cases hpos : 0 < call.bytes_sent
        · rw [if_pos hpos] at hends
          exact hends.1
        · -- Nothing of the message is there yet.
          rw [if_neg hpos] at hends
          have hzero : call.bytes_sent = 0 := by omega
          rw [Call.sent, hzero, List.take_zero, List.append_nil]
          exact hends.1
    | unlocking =>
        refine Or.inl ⟨?_, hends.1.trans hwhole⟩
        rw [hacquired]
        exact List.append_nil _

end Invariant

/-- However the two threads of a client interleave after it has connected, and
    whatever parts calls of `send` accept as long as none fails, the bytes on
    the connection are those of whole messages in the order in which the
    sending functions took `send_mutex`. -/
theorem client_stream_framed (client : Client) (fd : Int) (address reached : Bool) (now : TimeT)
    (rs : List SendResult) (s t : State)
    (hstart : start client fd address reached now rs = some s)
    (hclean : ∀ r ∈ rs, r ≠ .error ∧ r ≠ .zero) (hreach : Reaches step NoSendError s t) :
    Framed (client_send_list_request client now) t := by
  have hlast : Orderly (client_send_list_request client now) t :=
    hreach.invariant (orderly_start hstart hclean)
      fun _ _ _ hv hok hstep => orderly_step hv hok hstep
  exact framed_of_orderly hlast

/-- The user says hello to all, and while that message is under way the server
    asks whether the client is still there. -/
def helloAndAlive : List Event :=
  [.interactive (.start true true), .interactive .test,
    .interactive (.read (.request (.to_all (bytes "hello")))), .sending .interactive (.lock 1),
    .sending .interactive .call, .sending .interactive (.send (.accepted 99)), .receive .test,
    .receive (.receive (some (create_message .MSG_ALIVE (bytes "SERVER") (bytes "ann") [] 1))),
    .sending .interactive (.send .eintr), .sending .interactive (.send (.accepted 2000)),
    .sending .interactive .unlock, .sending .receive (.lock 2), .sending .receive .call,
    .sending .receive (.send .eagain), .sending .receive (.send (.accepted 2000)),
    .sending .receive .unlock]

/-- The answer comes after the whole of the other message. -/
theorem client_stream_framed_run :
    ∃ client s t msg, client_init (bytes "ann") (bytes "127.0.0.1") 5000 true = some client ∧
      start client 3 true true 0 [.accepted 700, .accepted 700] = some s ∧
      run step s helloAndAlive = some t ∧ client_send_2all client (bytes "hello") 1 = some msg ∧
      t.stream.bytes = encodings
        [client_send_list_request client 0, msg, client_send_alive_response client 2] := by
  obtain ⟨client, hclient⟩ : ∃ client,
      client_init (bytes "ann") (bytes "127.0.0.1") 5000 true = some client := ⟨_, rfl⟩
  have hend : ((client_init (bytes "ann") (bytes "127.0.0.1") 5000 true).bind fun client =>
      (start client 3 true true 0 [.accepted 700, .accepted 700]).bind fun s =>
        (run step s helloAndAlive).map fun t =>
          (decide (Meets step NoSendError s helloAndAlive), t.send_mutex, t.unsent,
            decide (t.acquired = (client_send_2all client (bytes "hello") 1).toList ++
              [client_send_alive_response client 2]))) = some (true, none, [], true) := by
    decide +kernel
  rw [hclient, Option.bind_some] at hend
  rcases Option.bind_eq_some_iff.mp hend with ⟨s, hstart, hmap⟩
  rcases Option.map_eq_some_iff.mp hmap with ⟨t, hrun, hfour⟩
  rcases Prod.mk.inj hfour with ⟨hmeets, hrest⟩
  rcases Prod.mk.inj hrest with ⟨hfree, hrest⟩
  rcases Prod.mk.inj hrest with ⟨hunsent, hacquired⟩
  have hframed := client_stream_framed client 3 true true 0 [.accepted 700, .accepted 700] s t
    hstart (by decide) (reaches_of_run hrun (of_decide_eq_true hmeets))
  rcases hframed.free hfree with ⟨sent, hsent, hbytes⟩
  have hmsg : client_send_2all client (bytes "hello") 1
      = some (clientMessage client .MSG_2ALL [] (bytes "hello") 1) := if_neg (by decide)
  rw [hunsent, List.append_nil, of_decide_eq_true hacquired, hmsg] at hsent
  rw [← hsent] at hbytes
  exact ⟨client, s, t, _, hclient, hstart, hrun, hmsg, hbytes⟩

end Requests

end Lab10

end OsLabs
