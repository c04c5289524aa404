import OsLabs.Core.Simulation
import OsLabs.Lab10.Streams

/-!
# The Server's Functions, Call by Call

`OsLabs.Lab10.Framing` has `send_message_protocol` and `receive_message_protocol`
as functions, given what the calls of `send` and `recv` return, and
`OsLabs.Lab10.Server` sends a message in one step. In the transition systems
each call is a step. Here the two are put together: a call of one of the
functions is a run, and so is a section in which each message is sent in one go.

So the server of `OsLabs.Lab10.Server` has no run that the server of
`OsLabs.Lab10.Streams` does not have. What is in `delivered` there are bytes here,
and nothing else is on the connections.

## Main definitions

* `afterRecv`: Where a handler goes on after `receive_message_protocol`.
* `Section.body`: The body of a section's loop with the message sent in one go.
* `sentOn`: The stream of the messages delivered to a connection.
* `State.wire`: The server between two steps, with its streams.

## Theorems

* `receive_stepwise`: A call of `receive_message_protocol`.
* `send_stepwise`: A call of `send_message_protocol`.
* `sweepSlot_eq_body`, `stopSlot_eq_body`, `broadcast_message_eq_body`,
  `send_private_message_eq_body`: The sections of `OsLabs.Lab10.Host`, as loops
  over such bodies.
* `loop_stepwise`, `section_stepwise`: Such a loop, and the whole of a section.
* `quiet_stepwise`: A step that sends nothing.
* `step_stepwise`: A step of the server.
* `server_stepwise`: A run.
-/

namespace OsLabs

namespace Lab10

open Chat

/-- Where a handler goes on after `receive_message_protocol`. -/
def afterRecv (c : Conn) (now : TimeT) : LoopExit → HandlerPc
  | .early _ => .cleanup
  | .full buffer => match acceptable buffer now with
    | none => .cleanup
    | some msg => .received c msg

section Receiving

variable {s : State} {t : Nat} {h : Handler} {fd : Int} {c : Conn} {buffer : List UInt8}

theorem thread_setHandler {h' : Handler} (hthread : s.threads[t]? = some h') (pc : HandlerPc) :
    (s.setHandler t h pc).threads[t]? = some { h with pc := pc } :=
  List.getElem?_set_self (List.getElem?_eq_some_iff.mp hthread).1

theorem setHandler_setHandler (pc pc' : HandlerPc) (reads reads' : List (Conn × Conn)) :
    { ({ s with reads := reads }.setHandler t h pc) with reads := reads' }.setHandler t h pc'
      = { s with reads := reads' }.setHandler t h pc' := by
  simp only [State.setHandler, List.set_set]

/-- The loop goes on with a buffer that is not full. -/
theorem length_recvRound {buffer' : List UInt8} {r : Received}
    (hlt : buffer.length < SIZEOF_MESSAGE) (hround : recvRound buffer r = .inl buffer') :
    buffer'.length < SIZEOF_MESSAGE := by
  cases r with
  | data chunk =>
      rw [recvRound] at hround
      split_ifs at hround with hmore
      rw [← Sum.inl.inj hround]
      exact hmore
  | eintr | eagain =>
      rw [← Sum.inl.inj hround]
      exact hlt
  | eof | error => cases hround

/-- What a call of `recv` returns takes a handler where the round takes it. -/
theorem step_recv_return (hthread : s.threads[t]? = some { h with pc := .blocked fd buffer c })
    (hlt : buffer.length < SIZEOF_MESSAGE) (stream : List UInt8) (r : RecvResult) (now : TimeT) :
    ∃ reads, step s (.handler t (.recv_return (r.received stream buffer) now)) =
      some ({ s with reads := reads }.setHandler t h
        (match recvRound buffer (r.received stream buffer) with
          | .inl buffer' => .recv fd buffer'
          | .inr exit => afterRecv c now exit)) := by
  rw [step, hthread, Option.bind_some]
  cases r with
  | data k =>
      unfold RecvResult.received
      by_cases hzero : (RecvResult.data k).taken stream buffer = 0
      · simp only [hzero, if_true]
        exact ⟨s.reads, rfl⟩
      · -- The bytes that are transferred fit into the buffer.
        have htaken : (RecvResult.data k).taken stream buffer
            = min (k + 1) (min (SIZEOF_MESSAGE - buffer.length) stream.length) := rfl
        have hlen : (stream.take ((RecvResult.data k).taken stream buffer)).length
            = (RecvResult.data k).taken stream buffer := by
          rw [List.length_take]
          omega
        have hfits : 0 < (stream.take ((RecvResult.data k).taken stream buffer)).length ∧
            buffer.length + (stream.take ((RecvResult.data k).taken stream buffer)).length
              ≤ SIZEOF_MESSAGE := by
          omega
        simp only [hzero, if_false]
        generalize stream.take ((RecvResult.data k).taken stream buffer) = chunk at hfits
        simp only [handlerStep, if_pos hfits, recvRound]
        refine ⟨s.reads ++ [(h.conn, c)], ?_⟩
        split_ifs
        · rfl
        · simp only [afterRecv]
          cases acceptable (buffer ++ chunk) now <;> rfl
  | _ => exact ⟨s.reads, rfl⟩

/-- A round of the loop of `receive_message_protocol`. -/
theorem recv_stepwise (hthread : s.threads[t]? = some { h with pc := .recv fd buffer })
    (hconn : s.host.conns fd = some c) (hlt : buffer.length < SIZEOF_MESSAGE)
    (stream : List UInt8) (r : RecvResult) (now : TimeT) :
    ∃ reads, Reachable step s ({ s with reads := reads }.setHandler t h
      (match recvRound buffer (r.received stream buffer) with
        | .inl buffer' => .recv fd buffer'
        | .inr exit => afterRecv c now exit)) := by
  -- The handler enters the call, and then the call returns.
  have hcall : step s (.handler t .recv) = some (s.setHandler t h (.blocked fd buffer c)) := by
    rw [step, hthread, Option.bind_some]
    simp only [handlerStep, hconn]
    rfl
  rcases step_recv_return (h := h) (thread_setHandler hthread (.blocked fd buffer c)) hlt stream r
    now with ⟨reads, hreturn⟩
  have hreach : Reachable step s _ :=
    Reaches.step _ _ _ (Reaches.step _ _ _ Reaches.refl trivial hcall) trivial hreturn
  have hsame := setHandler_setHandler (s := s) (t := t) (h := h) (.blocked fd buffer c)
    (match recvRound buffer (r.received stream buffer) with
      | .inl buffer' => .recv fd buffer'
      | .inr exit => afterRecv c now exit) s.reads reads
  exact ⟨reads, hsame ▸ hreach⟩

/-- A call of `receive_message_protocol`: whatever the calls of `recv` return,
    the steps for them take the handler from the loop's head to where it goes on. -/
theorem receive_stepwise (now : TimeT) (rs : List RecvResult) :
    ∀ (s : State) (stream buffer : List UInt8) (exit : LoopExit) (rest : List UInt8)
      (rs' : List RecvResult),
      s.threads[t]? = some { h with pc := .recv fd buffer } → s.host.conns fd = some c →
      buffer.length < SIZEOF_MESSAGE → recvLoop stream buffer rs = some (exit, rest, rs') →
      ∃ reads, Reachable step s
        ({ s with reads := reads }.setHandler t h (afterRecv c now exit)) := by
  induction rs with
  | nil =>
      -- The loop is not done, and there is no call left.
      intro s stream buffer exit rest rs' _ _ hlt hloop
      rw [recvLoop, if_pos hlt] at hloop
      cases hloop
  | cons r rs ih =>
      intro s stream buffer exit rest rs' hthread hconn hlt hloop
      rw [recvLoop_round stream buffer r rs hlt] at hloop
      rcases recv_stepwise hthread hconn hlt stream r now with ⟨reads, hround⟩
      cases hnext : recvRound buffer (r.received stream buffer) with
      | inr exit' =>
          rw [hnext] at hloop hround
          rw [← (Prod.mk.inj (Option.some.inj hloop)).1]
          exact ⟨reads, hround⟩
      | inl buffer' =>
          rw [hnext] at hloop hround
          have hthread' := thread_setHandler (s := { s with reads := reads }) (h := h) hthread
            (.recv fd buffer')
          rcases ih _ _ _ _ _ _ hthread' hconn (length_recvRound hlt hnext) hloop with
            ⟨reads', hrest⟩
          rw [setHandler_setHandler] at hrest
          exact ⟨reads', hround.trans hrest⟩

end Receiving

section Calling

variable {w : Wire} {u : Sender} {c : Conn}

/-- What is accepted in two calls might be accepted in one. -/
theorem accept_accept (s : Stream) (call : Call) (n m : Nat) :
    (s.accept call n).accept { call with bytes_sent := call.bytes_sent + n } m
      = s.accept call (n + m) := by
  have hbytes : (call.message.toImage.bytes.drop call.bytes_sent).take n ++
      (call.message.toImage.bytes.drop (call.bytes_sent + n)).take m
        = (call.message.toImage.bytes.drop call.bytes_sent).take (n + m) := by
    rw [List.take_add, List.drop_drop]
  unfold Stream.accept
  simp only [List.append_assoc, hbytes]
  -- The message is begun in the first call that accepts anything.
  congr 1
  split_ifs <;> first | rfl | omega

/-- Where a thread goes on does not depend on how much has been sent. -/
theorem returned_setCall {call : Call} (hcall : (w.sending u).call = some call) (call' : Call)
    (ok : Bool) :
    (w.setSending u ((w.sending u).setCall call')).returned u ok = w.returned u ok := by
  unfold Wire.returned
  cases hu : w.sending u with
  | single _ | sending _ _ _ =>
      simp [Wire.setSending, Wire.setHost, Sending.setCall]
  | _ =>
      rw [hu] at hcall
      cases hcall

/-- The end of `send_message_protocol`. -/
def Wire.ended (w : Wire) (u : Sender) (c : Conn) (message : Message) (ret : Int) : Wire :=
  if 0 < ret then (w.finish c message).returned u true else w.returned u false

theorem ended_setCall {call : Call} (hcall : (w.sending u).call = some call) (call' : Call)
    (message : Message) (ret : Int) :
    (w.setSending u ((w.sending u).setCall call')).ended u c message ret
      = w.ended u c message ret := by
  have hfinish := returned_setCall (w := w.finish c message) hcall call' true
  have hleft := returned_setCall hcall call' false
  unfold Wire.ended
  split_ifs
  · exact hfinish
  · exact hleft

theorem transfer_transfer (call : Call) (n m : Nat) :
    (w.transfer c call n).transfer c { call with bytes_sent := call.bytes_sent + n } m
      = w.transfer c call (n + m) := by
  unfold Wire.transfer
  simp only [Function.update_self, Function.update_idem, accept_accept]

/-- A round that does not end the loop has sent what the call has accepted. -/
theorem sendRound_inl {total_bytes bytes_sent n : Nat} {r : SendResult}
    (h : sendRound total_bytes bytes_sent r = .inl n) :
    n = bytes_sent + r.taken (total_bytes - bytes_sent) ∧ n < total_bytes := by
  cases r with
  | error | zero => cases h
  | _ =>
      simp only [sendRound] at h
      split_ifs at h with hlt
      rw [← Sum.inl.inj h]
      exact ⟨rfl, hlt⟩

/-- A call of `send_message_protocol` on an open connection: whatever the calls of
    `send` return, the steps for them put the bytes accepted on the connection and
    take the thread to where it goes on. -/
theorem send_stepwise (rs : List SendResult) :
    ∀ (w : Wire) (call : Call) (ret : Int) (chunk : List UInt8) (rest : List SendResult),
      (w.sending u).call = some call → w.target call = some c → call.bytes_sent < SIZEOF_MESSAGE →
      sendLoop call.message.toImage.bytes call.bytes_sent rs = some (ret, chunk, rest) →
      ∃ n, chunk = (call.message.toImage.bytes.drop call.bytes_sent).take n ∧
        Reachable wireStep w ((w.transfer c call n).ended u c call.message ret) := by
  induction rs with
  | nil =>
      intro w call ret chunk rest _ _ hlt hloop
      rw [sendLoop, if_pos (hlt.trans_eq call.message.toImage.length_eq.symm)] at hloop
      cases hloop
  | cons r rs ih =>
      intro w call ret chunk rest hcall htarget hlt hloop
      have hlen : call.message.toImage.bytes.length = SIZEOF_MESSAGE :=
        call.message.toImage.length_eq
      rw [sendLoop_round _ _ r rs (hlt.trans_eq hlen.symm), hlen] at hloop
      have hsend : wireStep w (.send u r) = some (w.send u call r) := by
        rw [wireStep, hcall]
        rfl
      unfold Wire.send at hsend
      simp only [htarget] at hsend
      cases hround : sendRound SIZEOF_MESSAGE call.bytes_sent r with
      | inr ret' =>
          rw [hround] at hloop hsend
          rcases Prod.mk.inj (Option.some.inj hloop) with ⟨rfl, hrest⟩
          refine ⟨_, (Prod.mk.inj hrest).1.symm, ?_⟩
          exact Reaches.step _ _ _ Reaches.refl trivial hsend
      | inl n =>
          rw [hround] at hloop hsend
          simp only [Option.map_eq_some_iff, Prod.exists, Prod.mk.injEq] at hloop
          rcases hloop with ⟨ret', chunk', rest', hrest, rfl, rfl, rfl⟩
          rcases sendRound_inl hround with ⟨rfl, hmore⟩
          generalize r.taken (SIZEOF_MESSAGE - call.bytes_sent) = k at hrest hsend hmore ⊢
          have hcall' := setCall_call hcall { call with bytes_sent := call.bytes_sent + k }
          rcases ih ((w.transfer c call k).setSending u ((w.sending u).setCall _)) _ ret' chunk'
            rest' ((congrArg Sending.call (setSending_self _ _ _)).trans hcall') htarget hmore
            hrest with ⟨m, rfl, hreach⟩
          refine ⟨k + m, by rw [List.take_add, List.drop_drop], ?_⟩
          have hfirst : Reachable wireStep w _ := Reaches.step _ _ _ Reaches.refl trivial hsend
          -- The rest of the call begins where this round has left the stream.
          have hsame := ended_setCall (w := (w.transfer c call k).transfer c
            { call with bytes_sent := call.bytes_sent + k } m) (c := c) hcall
            { call with bytes_sent := call.bytes_sent + k } call.message ret'
          rw [← transfer_transfer, ← hsame]
          exact hfirst.trans hreach

end Calling

section Body

/-- The body of a section's loop with the message sent in one go. -/
def Section.body (sec : Section) (now : TimeT) (cause : Option (Conn × Message)) (ok : Bool)
    (acc : Host × List Delivery) (i : Fin MAX_CLIENTS) : Host × List Delivery :=
  let out := sec.visit acc.1 now i
  match out.2 with
  | none => (out.1, acc.2)
  | some msg =>
    let d := out.1.send (acc.1.server.clients i).socket_fd msg cause ok
    (sec.sent out.1 i d.isSome, acc.2 ++ d.toList)

section Cases

variable {sec : Section} {now : TimeT} {cause : Option (Conn × Message)} {ok : Bool}
  {acc : Host × List Delivery} {i : Fin MAX_CLIENTS} {host : Host}

theorem body_none (hvisit : sec.visit acc.1 now i = (host, none)) :
    sec.body now cause ok acc i = (host, acc.2) := by
  rw [Section.body, hvisit]

theorem body_some {msg : Message} (hvisit : sec.visit acc.1 now i = (host, some msg)) :
    sec.body now cause ok acc i =
      (sec.sent host i (host.send (acc.1.server.clients i).socket_fd msg cause ok).isSome,
        acc.2 ++ (host.send (acc.1.server.clients i).socket_fd msg cause ok).toList) := by
  rw [Section.body, hvisit]

end Cases

theorem sweepSlot_eq_body (input : SweepInput) (acc : Host × List Delivery) (i : Fin MAX_CLIENTS) :
    sweepSlot input acc i =
      (Section.keepalive_monitor input.now).body input.stamp none (input.oks i) acc i := by
  cases hvisit : (Section.keepalive_monitor input.now).visit acc.1 input.stamp i with
  | mk host msg =>
      -- Both functions branch on the same conditions.
      have hcases := hvisit
      unfold Section.visit at hcases
      unfold sweepSlot
      simp only [] at hcases ⊢
      split_ifs at hcases ⊢ with hactive hsilent hcount
      · rcases Prod.mk.inj hcases with ⟨rfl, rfl⟩
        rw [body_none hvisit]
      · rcases Prod.mk.inj hcases with ⟨rfl, rfl⟩
        rw [body_none hvisit]
      · rcases Prod.mk.inj hcases with ⟨hhost, rfl⟩
        rw [hhost, body_some hvisit]
        cases host.send (acc.1.server.clients i).socket_fd (create_message .MSG_ALIVE serverName
            (acc.1.server.clients i).client_id.bytes [] input.stamp) none (input.oks i) with
        | none =>
            rw [Option.toList_none, List.append_nil]
            rfl
        | some d => rfl
      · rcases Prod.mk.inj hcases with ⟨rfl, rfl⟩
        rw [body_none hvisit]

theorem stopSlot_eq_body (now : TimeT) (oks : Fin MAX_CLIENTS → Bool) (acc : Host × List Delivery)
    (i : Fin MAX_CLIENTS) :
    stopSlot now oks acc i = Section.server_stop.body now none (oks i) acc i := by
  unfold stopSlot
  by_cases hactive : (acc.1.server.clients i).is_active = true
  · have hvisit : Section.server_stop.visit acc.1 now i =
        (acc.1, some (create_message .MSG_STOP serverName (acc.1.server.clients i).client_id.bytes
          (bytes "Server shutting down") now)) := by
      rw [Section.visit, if_pos hactive]
    rw [if_pos hactive, body_some hvisit]
    rfl
  · have hvisit : Section.server_stop.visit acc.1 now i = (acc.1, none) := by
      rw [Section.visit, if_neg hactive]
    rw [if_neg hactive, body_none hvisit]

/-- What a broadcast does at one slot. -/
theorem broadcast_message_body (host : Host) (sent : List Delivery) (msg : Message)
    (sender_socket : Int) (now : TimeT) (cause : Option (Conn × Message)) (ok : Bool)
    (i : Fin MAX_CLIENTS) :
    (Section.broadcast_message msg sender_socket).body now cause ok (host, sent) i
      = (host, sent ++
          if (host.server.clients i).is_active &&
              decide ((host.server.clients i).socket_fd ≠ sender_socket) then
            (host.send (host.server.clients i).socket_fd msg cause ok).toList
          else []) := by
  cases hgoes : ((host.server.clients i).is_active &&
      decide ((host.server.clients i).socket_fd ≠ sender_socket)) with
  | false =>
      have hvisit : (Section.broadcast_message msg sender_socket).visit (host, sent).1 now i
          = (host, none) := by
        rw [Section.visit, hgoes]
        rfl
      rw [body_none hvisit]
      simp only [Bool.false_eq_true, if_false, List.append_nil]
  | true =>
      have hvisit : (Section.broadcast_message msg sender_socket).visit (host, sent).1 now i
          = (host, some msg) := by
        rw [Section.visit, hgoes]
        rfl
      rw [body_some hvisit]
      rfl

theorem broadcast_message_eq_body (host : Host) (msg : Message) (sender_socket : Int)
    (now : TimeT) (cause : Option (Conn × Message)) (oks : Fin MAX_CLIENTS → Bool) :
    (List.finRange MAX_CLIENTS).foldl (fun acc i =>
        (Section.broadcast_message msg sender_socket).body now cause (oks i) acc i) (host, [])
      = (host, broadcast_message host msg sender_socket cause oks) := by
  unfold broadcast_message
  generalize List.finRange MAX_CLIENTS = l
  suffices hall : ∀ sent : List Delivery, l.foldl (fun acc i =>
      (Section.broadcast_message msg sender_socket).body now cause (oks i) acc i) (host, sent)
        = (host, sent ++ l.flatMap fun i =>
            if (host.server.clients i).is_active &&
                decide ((host.server.clients i).socket_fd ≠ sender_socket) then
              (host.send (host.server.clients i).socket_fd msg cause (oks i)).toList
            else []) by
    exact hall []
  induction l with
  | nil =>
      intro sent
      rw [List.flatMap_nil, List.append_nil, List.foldl_nil]
  | cons i l ih =>
      intro sent
      rw [List.foldl_cons, broadcast_message_body, ih, List.flatMap_cons, List.append_assoc]

theorem send_private_message_eq_body (host : Host) (msg : Message) (recipient_id : List UInt8)
    (now : TimeT) (cause : Option (Conn × Message)) (ok : Bool) :
    let sec := Section.send_private_message msg (find_client_by_id host.server recipient_id)
    (host, send_private_message host msg recipient_id cause ok)
      = if h : sec.first < MAX_CLIENTS then sec.body now cause ok (host, []) ⟨sec.first, h⟩
        else (host, []) := by
  unfold send_private_message
  cases hfound : find_client_by_id host.server recipient_id with
  | none =>
      simp only []
      have hlast : ¬ (Section.send_private_message msg none).first < MAX_CLIENTS := Nat.lt_irrefl _
      rw [dif_neg hlast]
  | some i =>
      simp only []
      have hfirst : (Section.send_private_message msg (some i)).first < MAX_CLIENTS := i.isLt
      rw [dif_pos hfirst]
      rfl

end Body

/-- The stream of the messages delivered to a connection. -/
def sentOn (ds : List Delivery) (c : Conn) : Stream :=
  let msgs := (ds.filter fun d => d.dest = c).map fun d => d.message
  { bytes := (msgs.map fun msg => msg.toImage.bytes).flatten, begun := msgs, finished := msgs }

/-- The server with its streams, while a thread is at `a`. -/
def State.wireAt (s : State) (mutex : Option Sender) (u : Sender) (a : Sending) : Wire where
  base := { s with delivered := [] }
  mutex := mutex
  sending := Function.update (fun _ => .idle) u a
  streams := sentOn s.delivered

/-- The server with its streams, while no thread sends. -/
def State.wire (s : State) : Wire where
  base := { s with delivered := [] }
  mutex := none
  sending _ := .idle
  streams := sentOn s.delivered

section Sends

variable {s : State} {u : Sender} {mutex : Option Sender} {a : Sending} {sec : Section}

theorem wireAt_sending (s : State) (mutex : Option Sender) (u : Sender) (a : Sending) :
    (s.wireAt mutex u a).sending u = a := by
  simp only [State.wireAt, Function.update_self]

theorem wireAt_setSending (a' : Sending) :
    (s.wireAt mutex u a).setSending u a' = s.wireAt mutex u a' := by
  simp only [Wire.setSending, State.wireAt, Function.update_idem]

/-- One message more. -/
theorem sentOn_deliver (ds : List Delivery) (d : Delivery) (call : Call) {n : Nat}
    (hmsg : call.message = d.message) (hzero : call.bytes_sent = 0) (hn : SIZEOF_MESSAGE ≤ n) :
    sentOn (ds ++ [d]) = Function.update (sentOn ds) d.dest
      (((sentOn ds d.dest).accept call n).finish d.message) := by
  funext c
  by_cases hc : c = d.dest
  · have hall : d.message.toImage.bytes.take n = d.message.toImage.bytes :=
      List.take_of_length_le (d.message.toImage.length_eq.trans_le hn)
    have hpos : 0 < n := Nat.lt_of_lt_of_le (by decide) hn
    rw [hc, Function.update_self]
    simp [sentOn, Stream.accept, Stream.finish, hmsg, hzero, hpos, hall]
  · rw [Function.update_of_ne hc]
    simp [sentOn, Ne.symm hc]

/-- A message that has all been accepted has been delivered. -/
theorem wireAt_deliver (s : State) (mutex : Option Sender) (u : Sender) (a : Sending) (fd : Int)
    (d : Delivery) {n : Nat} (hn : SIZEOF_MESSAGE ≤ n) :
    ((s.wireAt mutex u a).transfer d.dest
        { socketfd := fd, message := d.message, bytes_sent := 0 } n).finish d.dest d.message
      = (s.deliver [d]).wireAt mutex u a := by
  have hstreams := sentOn_deliver s.delivered d
    { socketfd := fd, message := d.message, bytes_sent := 0 } rfl rfl hn
  simp only [Wire.transfer, Wire.finish, State.wireAt, State.deliver, Function.update_self,
    Function.update_idem, hstreams]

theorem send_error (w : Wire) (u : Sender) (call : Call) :
    w.send u call .error = w.returned u false := by
  unfold Wire.send
  cases w.target call with
  | none => rfl
  | some c => simp [sendRound, SendResult.taken, transfer_zero]

/-- All bytes of a message are accepted in one call. -/
theorem sendLoop_whole (message : Message) :
    sendLoop message.toImage.bytes 0 [.accepted (SIZEOF_MESSAGE - 1)]
      = some (((SIZEOF_MESSAGE : Nat) : Int), message.toImage.bytes, []) := by
  have hlen : message.toImage.bytes.length = SIZEOF_MESSAGE := message.toImage.length_eq
  have hpos : 0 < SIZEOF_MESSAGE := by decide
  have hall : message.toImage.bytes.take SIZEOF_MESSAGE = message.toImage.bytes :=
    List.take_of_length_le (Nat.le_of_eq hlen)
  simp [sendLoop, hlen, hpos, Nat.sub_add_cancel hpos, hall]

/-- A call of `send_message_protocol` that is made in one go. If it is a delivery,
    the system takes all the bytes in one call, and otherwise none. -/
theorem message_stepwise (s : State) (mutex : Option Sender) (u : Sender) (a : Sending) {fd : Int}
    {message : Message}
    (hcall : a.call = some { socketfd := fd, message := message, bytes_sent := 0 })
    (cause : Option (Conn × Message)) (ok : Bool) :
    Reachable wireStep (s.wireAt mutex u a)
      (((s.deliver (s.host.send fd message cause ok).toList).wireAt mutex u a).returned u
        (s.host.send fd message cause ok).isSome) := by
  have hcall' := (congrArg Sending.call (wireAt_sending s mutex u a)).trans hcall
  cases hsent : s.host.send fd message cause ok with
  | none =>
      -- An error will do, or a closed descriptor.
      have hstep : wireStep (s.wireAt mutex u a) (.send u .error) =
          some ((s.wireAt mutex u a).returned u false) := by
        rw [wireStep, hcall', Option.map_some, send_error]
      have hsame : s.deliver [] = s := by rw [State.deliver, List.append_nil]
      rw [Option.toList_none, hsame]
      exact Reaches.step _ _ _ Reaches.refl trivial hstep
  | some d =>
      have hmem : d ∈ (s.host.send fd message cause ok).toList := by
        rw [hsent]
        exact List.mem_singleton_self d
      rcases send_spec hmem with ⟨c, hconn, rfl⟩
      have hfd : ¬ fd < 0 := by
        intro hneg
        rw [Host.send, if_pos hneg] at hsent
        cases hsent
      have htarget : (s.wireAt mutex u a).target
          { socketfd := fd, message := message, bytes_sent := 0 } = some c :=
        (if_neg hfd).trans hconn
      have hpos : 0 < SIZEOF_MESSAGE := by decide
      -- One call that accepts everything will do.
      rcases send_stepwise _ _ _ _ _ _ hcall' htarget hpos (sendLoop_whole message) with
        ⟨n, hchunk, hreach⟩
      have hn : SIZEOF_MESSAGE ≤ n := by
        have hlen := congrArg List.length hchunk
        rw [List.length_take, List.drop_zero, message.toImage.length_eq] at hlen
        omega
      have hwhole := wireAt_deliver s mutex u a fd
        { dest := c, message := message, cause := cause } hn
      rw [Wire.ended, if_pos (Int.natCast_pos.mpr hpos), hwhole] at hreach
      exact hreach

theorem returned_sending (i : Fin MAX_CLIENTS) (call : Call) (ok : Bool) :
    (s.wireAt mutex u (.sending sec i call)).returned u ok
      = { s with host := sec.sent s.host i ok }.wireAt mutex u (.visiting sec (sec.next i)) := by
  rw [Wire.returned, wireAt_sending]
  exact wireAt_setSending (s := { s with host := sec.sent s.host i ok }) _

theorem step_visit (s : State) (mutex : Option Sender) (u : Sender) (sec : Section)
    (i : Fin MAX_CLIENTS) (now : TimeT) :
    wireStep (s.wireAt mutex u (.visiting sec i)) (.visit u now)
      = some ({ s with host := (sec.visit s.host now i).1 }.wireAt mutex u
        (match (sec.visit s.host now i).2 with
          | none => .visiting sec (sec.next i)
          | some msg => .sending sec i
              { socketfd := (s.host.server.clients i).socket_fd, message := msg
                bytes_sent := 0 })) := by
  rw [wireStep, wireAt_sending]
  simp only [i.isLt, dif_pos]
  exact congrArg some (wireAt_setSending (s := { s with host := (sec.visit s.host now i).1 }) _)

/-- The state in a section, with what it has done so far. -/
def State.mid (s : State) (acc : Host × List Delivery) : State :=
  { s with host := acc.1 }.deliver acc.2

theorem mid_append (acc : Host × List Delivery) (host host' : Host) (ds : List Delivery) :
    s.mid (host', acc.2 ++ ds)
      = { ({ s.mid acc with host := host } : State).deliver ds with host := host' } := by
  simp only [State.mid, State.deliver, List.append_assoc]

/-- The body of a section's loop, and the step to the next slot. -/
theorem body_stepwise (s : State) (mutex : Option Sender) (u : Sender) (sec : Section)
    (i : Fin MAX_CLIENTS) (now : TimeT) (cause : Option (Conn × Message)) (ok : Bool)
    (acc : Host × List Delivery) :
    Reachable wireStep ((s.mid acc).wireAt mutex u (.visiting sec i))
      ((s.mid (sec.body now cause ok acc i)).wireAt mutex u (.visiting sec (sec.next i))) := by
  have hvisit := step_visit (s.mid acc) mutex u sec i now
  have hfirst : Reachable wireStep _ _ := Reaches.step _ _ _ Reaches.refl trivial hvisit
  cases hout : sec.visit acc.1 now i with
  | mk host msg =>
      have hhost : sec.visit (s.mid acc).host now i = (host, msg) := hout
      rw [hhost] at hfirst
      cases msg with
      | none =>
          rw [body_none hout]
          exact hfirst
      | some msg =>
          rw [body_some hout]
          -- The message is sent from the table as the visit has left it.
          have hsend := message_stepwise { s.mid acc with host := host } mutex u (.sending sec i
            { socketfd := (acc.1.server.clients i).socket_fd, message := msg, bytes_sent := 0 })
            rfl cause ok
          rw [returned_sending] at hsend
          rw [mid_append acc host]
          exact hfirst.trans hsend

/-- The loop of a section, from slot `i` on. The induction is on the number of
    slots left. -/
theorem loop_stepwise (s : State) (mutex : Option Sender) (u : Sender) (sec : Section)
    (hnext : ∀ i, sec.next i = i + 1) (now : TimeT) (cause : Option (Conn × Message))
    (oks : Fin MAX_CLIENTS → Bool) (k : Nat) :
    ∀ (i : Nat) (acc : Host × List Delivery), i + k = MAX_CLIENTS →
      Reachable wireStep ((s.mid acc).wireAt mutex u (.visiting sec i))
        ((s.mid (((List.finRange MAX_CLIENTS).drop i).foldl
          (fun acc i => sec.body now cause (oks i) acc i) acc)).wireAt mutex u
            (.visiting sec MAX_CLIENTS)) := by
  induction k with
  | zero =>
      intro i acc hi
      have hlast : i = MAX_CLIENTS := hi
      have hdrop : (List.finRange MAX_CLIENTS).drop MAX_CLIENTS = [] :=
        List.drop_eq_nil_of_le (Nat.le_of_eq List.length_finRange)
      rw [hlast, hdrop]
      exact Reaches.refl
  | succ k ih =>
      intro i acc hi
      have hlt : i < MAX_CLIENTS := by omega
      have hdrop : (List.finRange MAX_CLIENTS).drop i
          = ⟨i, hlt⟩ :: (List.finRange MAX_CLIENTS).drop (i + 1) := by
        have hlength : i < (List.finRange MAX_CLIENTS).length :=
          hlt.trans_eq List.length_finRange.symm
        rw [List.drop_eq_getElem_cons hlength, List.getElem_finRange]
        rfl
      have hbody := body_stepwise s mutex u sec ⟨i, hlt⟩ now cause (oks ⟨i, hlt⟩) acc
      rw [hnext] at hbody
      rw [hdrop, List.foldl_cons]
      exact hbody.trans (ih (i + 1) _ (by omega))

/-- A thread leaves what it does whatever has been delivered. -/
theorem leave_delivered (s : State) (u : Sender) (ds : List Delivery) :
    leave { s with delivered := ds } u = { leave s u with delivered := ds } ∧
      (leave s u).delivered = s.delivered := by
  cases u with
  | main => cases hm : s.main <;> simp [leave, hm]
  | handler t => cases ht : s.threads[t]? <;> simp [leave, ht, State.setHandler]
  | keepalive => exact ⟨rfl, rfl⟩
  | stop => exact ⟨rfl, rfl⟩

/-- The thread is past what it has sent, and nobody sends. -/
theorem wireAt_leave (mutex : Option Sender) (a : Sending) :
    { s.wireAt mutex u a with
        base := leave { s with delivered := [] } u, mutex := none : Wire }.setSending u .idle
      = (leave s u).wire := by
  have hidle : Function.update (fun _ => Sending.idle) u .idle = fun _ => .idle :=
    Function.update_eq_self_iff.mpr rfl
  rcases leave_delivered s u [] with ⟨hbase, hsame⟩
  simp only [Wire.setSending, State.wireAt, State.wire, Function.update_idem, hidle, hbase, hsame]

/-- The end of a section. -/
theorem step_last (now : TimeT) :
    wireStep (s.wireAt mutex u (.visiting sec MAX_CLIENTS)) (.visit u now)
      = some (leave s u).wire := by
  rw [wireStep, wireAt_sending]
  simp only [Nat.lt_irrefl, dif_neg, not_false_eq_true]
  exact congrArg some (wireAt_leave mutex _)

theorem returned_single (call : Call) (ok : Bool) :
    (s.wireAt none u (.single call)).returned u ok = (leave s u).wire := by
  rw [Wire.returned, wireAt_sending]
  exact wireAt_leave none _

end Sends

section Quiet

variable {s s' : State} (ds : List Delivery)

/-- The state with another history of deliveries. -/
def State.withDelivered (s : State) (ds : List Delivery) : State := { s with delivered := ds }

@[simp] theorem withDelivered_host : (s.withDelivered ds).host = s.host := rfl

@[simp] theorem withDelivered_threads : (s.withDelivered ds).threads = s.threads := rfl

@[simp] theorem withDelivered_main : (s.withDelivered ds).main = s.main := rfl

@[simp] theorem withDelivered_keepalive : (s.withDelivered ds).keepalive = s.keepalive := rfl

@[simp] theorem withDelivered_stop : (s.withDelivered ds).stop = s.stop := rfl

@[simp] theorem withDelivered_locked : (s.withDelivered ds).locked = s.locked := rfl

theorem handle_delivered (t : Nat) (h : Handler) (conn : Conn) (msg : Message) (fd : Int)
    (now : TimeT) (ok : Bool) (oks : Fin MAX_CLIENTS → Bool)
    (hall : msg.type ≠ MessageType.MSG_2ALL.code) (hone : msg.type ≠ MessageType.MSG_2ONE.code) :
    handle (s.withDelivered ds) t h conn msg fd now ok oks
      = (handle s t h conn msg fd now ok oks).withDelivered ds := by
  unfold handle
  simp only [if_neg hall, if_neg hone]
  split_ifs
  · rfl
  · rfl
  · rw [withDelivered_host]
    cases find_client_by_socket s.host.server fd <;> rfl

theorem handlerStep_delivered {t : Nat} {h : Handler} {e : HandlerEvent}
    (hthread : s.threads[t]? = some h) (hquiet : sends s (.handler t e) = false) :
    handlerStep (s.withDelivered ds) t h e
      = (handlerStep s t h e).map fun s' => s'.withDelivered ds := by
  cases e with
  | test | call | note | switch =>
      unfold handlerStep
      cases h.pc <;> rfl
  | recv =>
      unfold handlerStep
      rw [withDelivered_host]
      cases h.pc with
      | recv fd buffer => cases hc : s.host.conns fd <;> simp only [hc] <;> rfl
      | _ => rfl
  | recv_return r now =>
      unfold handlerStep
      cases h.pc with
      | blocked fd buffer c =>
          cases r with
          | data chunk =>
              simp only [recvRound]
              split_ifs with hfits
              · rfl
              · cases hmsg : acceptable (buffer ++ chunk) now <;> simp only [hmsg] <;> rfl
              · rfl
          | _ => rfl
      | _ => rfl
  | handle now ok oks =>
      unfold handlerStep
      cases hpc : h.pc with
      | handling c msg fd =>
          have hhandler : s.threads[t]? = some { h with pc := .handling c msg fd } := by
            rw [hthread, ← hpc]
          -- Only messages to all and to one deliver anything here.
          rw [sends, handles, hhandler, handles, hhandler, Bool.or_eq_false_iff] at hquiet
          have hhandle := handle_delivered (s := s) ds t h c msg fd now ok oks
            (of_decide_eq_false hquiet.1) (of_decide_eq_false hquiet.2)
          simp only [hhandle]
          rw [withDelivered_locked]
          split_ifs <;> rfl
      | _ => rfl
  | reply ok => cases hquiet
  | cleanup =>
      unfold handlerStep
      cases h.pc with
      | cleanup =>
          simp only []
          rw [withDelivered_locked, withDelivered_host]
          split_ifs
          · rfl
          · cases hfound : find_client_by_socket s.host.server
              (s.host.server.clients h.client).socket_fd <;> rfl
      | _ => rfl

theorem register_delivered (a : Accepted) (id_msg : Message) (now : TimeT) (created : Bool) :
    register (s.withDelivered ds) a id_msg now created
      = (register s a id_msg now created).withDelivered ds := by
  unfold register
  rw [withDelivered_host]
  by_cases hvalid : validate_client_id id_msg.sender_id.bytes = true
  · by_cases hused : (find_client_by_id s.host.server id_msg.sender_id.bytes).isSome = true
    · simp only [hvalid, hused, if_true]
      rfl
    · -- The client is added, if there is a slot.
      simp only [hvalid, hused]
      cases add_client s.host.server a.client_socket a.client_addr id_msg.sender_id.bytes now with
      | mk server i =>
          cases i with
          | none => rfl
          | some i => cases created <;> rfl
  · simp only [hvalid]
    rfl

theorem mainStep_delivered {e : MainEvent} (hquiet : sends s (.main e) = false) :
    mainStep (s.withDelivered ds) e = (mainStep s e).map fun s' => s'.withDelivered ds := by
  cases e with
  | refuse | welcome => cases hquiet
  | start created =>
      unfold mainStep
      rw [withDelivered_main]
      cases s.main with
      | starting => cases created <;> rfl
      | _ => rfl
  | test | configure | close =>
      unfold mainStep
      rw [withDelivered_main]
      cases s.main <;> rfl
  | accept r =>
      unfold mainStep
      rw [withDelivered_main]
      cases s.main with
      | accepting =>
          cases r with
          | none => rfl
          | some r =>
              simp only []
              rw [withDelivered_host]
              split_ifs <;> rfl
      | _ => rfl
  | identify r now =>
      unfold mainStep
      rw [withDelivered_main]
      cases s.main with
      | identifying a =>
          cases r with
          | none => rfl
          | some id_msg =>
              simp only []
              split_ifs <;> rfl
      | _ => rfl
  | register now created =>
      unfold mainStep
      rw [withDelivered_main]
      cases s.main with
      | registering a id_msg => exact congrArg some (register_delivered ds a id_msg now created)
      | _ => rfl
  | lock =>
      unfold mainStep
      rw [withDelivered_main]
      cases s.main with
      | finished =>
          simp only []
          rw [withDelivered_host]
          split_ifs <;> rfl
      | _ => rfl
  | join =>
      unfold mainStep
      rw [withDelivered_main]
      cases s.main with
      | joining n =>
          simp only []
          rw [withDelivered_host, withDelivered_threads]
          split_ifs
          · rfl
          · split <;> rfl
          · rfl
      | _ => rfl

/-- A step that sends nothing does not depend on what has been delivered, and
    leaves it as it is. -/
theorem step_delivered {e : Event} (hquiet : sends s e = false) :
    step (s.withDelivered ds) e = (step s e).map fun s' => s'.withDelivered ds := by
  cases e with
  | handler t e =>
      rw [step, step, withDelivered_threads]
      cases hthread : s.threads[t]? with
      | none => rfl
      | some h => exact handlerStep_delivered ds hthread hquiet
  | main e => exact mainStep_delivered ds hquiet
  | keepalive e =>
      cases e with
      | test =>
          rw [step, step, keepaliveStep, keepaliveStep, withDelivered_keepalive]
          cases s.keepalive <;> rfl
      | sweep input => cases hquiet
  | stop e =>
      cases e with
      | notify now oks => cases hquiet
      | signal =>
          rw [step, step, stopStep, stopStep, withDelivered_stop]
          cases s.stop with
          | idle =>
              simp only []
              rw [withDelivered_host]
              split_ifs <;> rfl
          | _ => rfl
      | close =>
          rw [step, step, stopStep, stopStep, withDelivered_stop]
          cases s.stop <;> rfl
      | join =>
          rw [step, step, stopStep, stopStep, withDelivered_stop, withDelivered_keepalive]
          cases s.stop <;> cases s.keepalive <;> rfl

/-- A step that sends nothing. -/
theorem quiet_stepwise {e : Event} (hquiet : sends s e = false) (hstep : step s e = some s') :
    wireStep s.wire (.quiet e) = some s'.wire := by
  have hsends : sends s.wire.base e = false := by
    rw [← hquiet]
    cases e with
    | handler t e => cases e <;> rfl
    | main e => cases e <;> rfl
    | keepalive e => cases e <;> rfl
    | stop e => cases e <;> rfl
  -- The base of the wire has delivered nothing.
  have hbase : step s.wire.base e = some (s'.withDelivered []) := by
    have hnone := step_delivered [] hquiet
    rw [hstep] at hnone
    exact hnone
  -- With its own history the state is itself, so the step has left that alone.
  have hsame : s' = s'.withDelivered s.delivered := by
    have hself := step_delivered s.delivered hquiet
    rw [hstep] at hself
    exact Option.some.inj (hstep.symm.trans hself)
  have hdelivered : s'.delivered = s.delivered := by
    rw [hsame]
    rfl
  rw [wireStep, hsends, hbase]
  simp only [State.wire, State.withDelivered, hdelivered, Option.isSome_none, Bool.and_false,
    Bool.or_false, Bool.false_eq_true, if_false, Option.map_some]

end Quiet

section Steps

variable {s s' : State} {u : Sender} {a : Sending} {sec : Section} {now : TimeT}

/-- A thread that has come to the point where it sends begins. -/
theorem begin_stepwise (hstarts : starts s now u = some a) (hfree : a.holds → s.locked = false) :
    Reachable wireStep s.wire (s.wireAt (if a.holds then some u else none) u a) := by
  have hbase : starts s.wire.base now u = some a := by
    rw [← hstarts]
    cases u <;> rfl
  have hidle : s.wire.sending u = .idle := rfl
  have hbegin : wireStep s.wire (.begin u now) =
      some (s.wireAt (if a.holds then some u else none) u a) := by
    rw [wireStep, if_pos hidle, hbase, Option.bind_some]
    cases hholds : a.holds with
    | true =>
        have hlocked : s.wire.mutex = none ∧ s.wire.base.locked = false := ⟨rfl, hfree hholds⟩
        simp only [if_true, if_pos hlocked]
        rfl
    | false => rfl
  exact Reaches.step _ _ _ Reaches.refl trivial hbegin

/-- A message that is sent without the mutex. -/
theorem single_stepwise {fd : Int} {message : Message}
    (hstarts : starts s now u
      = some (.single { socketfd := fd, message := message, bytes_sent := 0 }))
    (cause : Option (Conn × Message)) (ok : Bool) :
    Reachable wireStep s.wire
      (leave (s.deliver (s.host.send fd message cause ok).toList) u).wire := by
  have hbegin := begin_stepwise hstarts (fun hholds => (nomatch hholds))
  have hsend := message_stepwise s none u
    (.single { socketfd := fd, message := message, bytes_sent := 0 }) rfl cause ok
  rw [returned_single] at hsend
  exact hbegin.trans hsend

/-- A section, from its beginning to its end. -/
theorem section_stepwise (hstarts : starts s now u = some (.visiting sec sec.first))
    (hfree : s.locked = false) {acc : Host × List Delivery}
    (hloop : Reachable wireStep ((s.mid (s.host, [])).wireAt (some u) u (.visiting sec sec.first))
      ((s.mid acc).wireAt (some u) u (.visiting sec MAX_CLIENTS))) :
    Reachable wireStep s.wire (leave (s.mid acc) u).wire := by
  have hbegin := begin_stepwise hstarts (fun _ => hfree)
  have hmid : s.mid (s.host, []) = s := by
    simp only [State.mid, State.deliver, List.append_nil]
  rw [hmid] at hloop
  exact (hbegin.trans hloop).trans (Reaches.step _ _ _ Reaches.refl trivial (step_last now))

/-- Where a handler goes on after it has sent. -/
theorem leave_handler {t : Nat} {h : Handler} (hthread : s.threads[t]? = some h) :
    leave s (.handler t) = s.setHandler t h
      (match h.pc with
        | .replying _ _ _ _ true => .cleanup
        | _ => .test) := by
  cases hpc : h.pc with
  | replying conn msg fd reply last => cases last <;> simp only [leave, hthread, hpc]
  | _ => simp only [leave, hthread, hpc]

/-- A list, or the goodbye. -/
theorem reply_stepwise {t : Nat} {h : Handler} {ok : Bool} (hthread : s.threads[t]? = some h)
    (hstep : handlerStep s t h (.reply ok) = some s') : Reachable wireStep s.wire s'.wire := by
  rcases handlerStep_reply hstep with ⟨c, msg, fd, reply, last, hpc, rfl⟩
  have hstarts : starts s 0 (.handler t)
      = some (.single { socketfd := fd, message := reply, bytes_sent := 0 }) := by
    rw [starts, hthread]
    cases h
    cases hpc
    rfl
  have hsingle := single_stepwise hstarts (some (c, msg)) ok
  have hleave := leave_handler (s := s.deliver (s.host.send fd reply (some (c, msg)) ok).toList)
    hthread
  rw [hleave, hpc] at hsingle
  cases last <;> exact hsingle

/-- A message to all. -/
theorem broadcast_stepwise {t : Nat} {h : Handler} {c : Conn} {msg : Message} {fd : Int}
    (hthread : s.threads[t]? = some h) (hpc : h.pc = .handling c msg fd)
    (hfree : s.locked = false) (hall : msg.type = MessageType.MSG_2ALL.code) (ok : Bool)
    (oks : Fin MAX_CLIENTS → Bool) :
    Reachable wireStep s.wire (handle s t h c msg fd now ok oks).wire := by
  have hstarts : starts s now (.handler t) = some (.visiting (.broadcast_message
      (create_message .MSG_BROADCAST msg.sender_id.bytes [] msg.content.bytes now) fd) 0) := by
    rw [starts, hthread]
    cases h
    cases hpc
    simp only [if_pos hall]
    rfl
  have hloop := loop_stepwise s (some (.handler t)) (.handler t)
    (.broadcast_message
      (create_message .MSG_BROADCAST msg.sender_id.bytes [] msg.content.bytes now) fd)
    (fun _ => rfl) now (some (c, msg)) oks MAX_CLIENTS 0 (s.host, []) (Nat.zero_add _)
  rw [List.drop_zero, broadcast_message_eq_body] at hloop
  have hsection := section_stepwise hstarts hfree hloop
  rw [leave_handler (s := s.mid _) hthread, hpc] at hsection
  have hlist : msg.type ≠ MessageType.MSG_LIST.code := by
    rw [hall]
    decide
  have hhandle : handle s t h c msg fd now ok oks = (s.setHandler t h .test).deliver
      (broadcast_message s.host
        (create_message .MSG_BROADCAST msg.sender_id.bytes [] msg.content.bytes now) fd
        (some (c, msg)) oks) := by
    unfold handle
    simp only [if_neg hlist, if_pos hall]
  rw [hhandle]
  exact hsection

/-- `send_private_message` sends to one slot, or to none. -/
theorem private_loop (mutex : Option Sender) (message : Message) (recipient_id : List UInt8)
    (cause : Option (Conn × Message)) (ok : Bool)
    (hsec : Section.send_private_message message (find_client_by_id s.host.server recipient_id)
      = sec) :
    Reachable wireStep ((s.mid (s.host, [])).wireAt mutex u (.visiting sec sec.first))
      ((s.mid (s.host, send_private_message s.host message recipient_id cause ok)).wireAt mutex u
        (.visiting sec MAX_CLIENTS)) := by
  have hbody := send_private_message_eq_body s.host message recipient_id 0 cause ok
  simp only [hsec] at hbody
  rw [hbody]
  by_cases hfirst : sec.first < MAX_CLIENTS
  · rw [dif_pos hfirst]
    have hlast : sec.next sec.first = MAX_CLIENTS := by
      rw [← hsec]
      rfl
    have hslot := body_stepwise s mutex u sec ⟨sec.first, hfirst⟩ 0 cause ok (s.host, [])
    rw [hlast] at hslot
    exact hslot
  · -- There is no recipient.
    rw [dif_neg hfirst]
    have hnone : sec.first = MAX_CLIENTS := by
      rw [← hsec] at hfirst ⊢
      cases hfound : find_client_by_id s.host.server recipient_id with
      | none => rfl
      | some i =>
          rw [hfound] at hfirst
          exact absurd i.isLt hfirst
    rw [hnone]
    exact Reaches.refl

/-- A message to one. -/
theorem private_stepwise {t : Nat} {h : Handler} {c : Conn} {msg : Message} {fd : Int}
    (hthread : s.threads[t]? = some h) (hpc : h.pc = .handling c msg fd)
    (hfree : s.locked = false) (hone : msg.type = MessageType.MSG_2ONE.code) (ok : Bool)
    (oks : Fin MAX_CLIENTS → Bool) :
    Reachable wireStep s.wire (handle s t h c msg fd now ok oks).wire := by
  have hlist : msg.type ≠ MessageType.MSG_LIST.code := by
    rw [hone]
    decide
  have hall : msg.type ≠ MessageType.MSG_2ALL.code := by
    rw [hone]
    decide
  generalize hmessage : create_message .MSG_PRIVATE msg.sender_id.bytes msg.recipient_id.bytes
    msg.content.bytes now = message
  generalize hsec : Section.send_private_message message
    (find_client_by_id s.host.server msg.recipient_id.bytes) = sec
  have hstarts : starts s now (.handler t) = some (.visiting sec sec.first) := by
    rw [starts, hthread]
    cases h
    cases hpc
    simp only [if_neg hall, if_pos hone, hmessage, hsec]
  have hsection := section_stepwise hstarts hfree
    (private_loop (some (.handler t)) message msg.recipient_id.bytes (some (c, msg)) ok hsec)
  rw [leave_handler (s := s.mid _) hthread, hpc] at hsection
  have hhandle : handle s t h c msg fd now ok oks = (s.setHandler t h .test).deliver
      (send_private_message s.host message msg.recipient_id.bytes (some (c, msg)) ok) := by
    unfold handle
    simp only [if_neg hlist, if_neg hall, if_pos hone, hmessage]
  rw [hhandle]
  exact hsection

/-- A refusal, and the welcome. -/
theorem main_stepwise {e : MainEvent} (hsends : sends s (.main e) = true)
    (hstep : mainStep s e = some s') : Reachable wireStep s.wire s'.wire := by
  cases e with
  | refuse ok =>
      rcases mainStep_refuse hstep with ⟨a, err_msg, hmain, rfl⟩
      have hstarts : starts s 0 .main = some
          (.single { socketfd := a.client_socket, message := err_msg, bytes_sent := 0 }) := by
        rw [starts, hmain]
      have hsingle := single_stepwise hstarts none ok
      rw [leave, State.deliver, hmain] at hsingle
      exact hsingle
  | welcome now ok =>
      rw [mainStep] at hstep
      cases hmain : s.main with
      | welcoming a =>
          rw [hmain, Option.some.injEq] at hstep
          have hstarts : starts s now .main = some (.single
              { socketfd := a.client_socket
                message := create_message .MSG_BROADCAST serverName []
                  (bytes "Welcome to the chat server!") now
                bytes_sent := 0 }) := by
            rw [starts, hmain]
          have hsingle := single_stepwise hstarts none ok
          rw [leave, State.deliver, hmain] at hsingle
          rw [← hstep]
          exact hsingle
      | _ =>
          rw [hmain] at hstep
          cases hstep
  | _ => cases hsends

/-- A sweep of `keepalive_monitor`. -/
theorem sweep_stepwise {input : SweepInput} (hstep : keepaliveStep s (.sweep input) = some s') :
    Reachable wireStep s.wire s'.wire := by
  rcases keepaliveStep_sweep hstep with ⟨hfree, rfl⟩
  have hstarts : starts s input.now .keepalive
      = some (.visiting (.keepalive_monitor input.now) 0) := by
    rw [keepaliveStep] at hstep
    cases hkeepalive : s.keepalive with
    | awake =>
        rw [starts, hkeepalive]
        rfl
    | asleep | ended =>
        rw [hkeepalive] at hstep
        cases hstep
  have hloop := loop_stepwise s (some .keepalive) .keepalive (.keepalive_monitor input.now)
    (fun _ => rfl) input.stamp none input.oks MAX_CLIENTS 0 (s.host, []) (Nat.zero_add _)
  simp only [List.drop_zero, ← sweepSlot_eq_body] at hloop
  rw [← sweep] at hloop
  generalize sweep input s.host = acc at hloop ⊢
  exact section_stepwise hstarts hfree hloop

/-- The section of `server_stop`. -/
theorem notify_stepwise {oks : Fin MAX_CLIENTS → Bool}
    (hstep : stopStep s (.notify now oks) = some s') : Reachable wireStep s.wire s'.wire := by
  rcases stopStep_notify hstep with ⟨hfree, rfl⟩
  have hstarts : starts s now .stop = some (.visiting .server_stop 0) := by
    rw [stopStep] at hstep
    cases hstop : s.stop with
    | locking =>
        rw [starts, hstop]
        rfl
    | idle | closing | joining =>
        rw [hstop] at hstep
        cases hstep
  have hloop := loop_stepwise s (some .stop) .stop .server_stop (fun _ => rfl)
    now none oks MAX_CLIENTS 0 (s.host, []) (Nat.zero_add _)
  simp only [List.drop_zero, ← stopSlot_eq_body] at hloop
  rw [← stopAll] at hloop
  generalize stopAll now oks s.host = acc at hloop ⊢
  exact section_stepwise hstarts hfree hloop

/-- What a handler sends. -/
theorem handler_stepwise {t : Nat} {h : Handler} {e : HandlerEvent}
    (hthread : s.threads[t]? = some h) (hsends : sends s (.handler t e) = true)
    (hstep : handlerStep s t h e = some s') : Reachable wireStep s.wire s'.wire := by
  cases e with
  | reply ok => exact reply_stepwise hthread hstep
  | handle now ok oks =>
      rcases handlerStep_handle hstep with ⟨c, msg, fd, hpc, hlocked, rfl⟩
      have hhandling : s.threads[t]? = some { h with pc := .handling c msg fd } := by
        rw [hthread, ← hpc]
      rw [sends, handles, hhandling, handles, hhandling, Bool.or_eq_true] at hsends
      -- Both functions take the mutex.
      have hfree : msg.type ≠ MessageType.MSG_STOP.code → s.locked = false := fun hstop =>
        Bool.eq_false_iff.mpr fun hs => hstop (hlocked hs)
      rcases hsends with hall | hone
      · have htype := of_decide_eq_true hall
        exact broadcast_stepwise hthread hpc (hfree (by rw [htype]; decide)) htype ok oks
      · have htype := of_decide_eq_true hone
        exact private_stepwise hthread hpc (hfree (by rw [htype]; decide)) htype ok oks
  | _ => cases hsends

/-- A step of the server is a run of the system in which each call of `send` is
    a step. -/
theorem step_stepwise {e : Event} (hstep : step s e = some s') :
    Reachable wireStep s.wire s'.wire := by
  cases hsends : sends s e with
  | false => exact Reaches.step _ _ _ Reaches.refl trivial (quiet_stepwise hsends hstep)
  | true =>
      cases e with
      | handler t e =>
          rcases Option.bind_eq_some_iff.mp hstep with ⟨h, hthread, hhandler⟩
          exact handler_stepwise hthread hsends hhandler
      | main e => exact main_stepwise hsends hstep
      | keepalive e =>
          cases e with
          | sweep input => exact sweep_stepwise hstep
          | test => cases hsends
      | stop e =>
          cases e with
          | notify now oks => exact notify_stepwise hstep
          | _ => cases hsends

theorem start_wire (port server_socket : Int) :
    wireStart port server_socket = (start port server_socket).map State.wire := by
  unfold wireStart start
  rw [Option.map_map, Option.map_map]
  rfl

/-- Every run of the server is one of the system in which the calls of `send`
    are steps. Each peer has been sent the messages delivered to it, one after
    another, and nobody sends. -/
theorem server_stepwise {port server_socket : Int} (hstart : start port server_socket = some s)
    (hreach : Reachable step s s') :
    ∃ w, wireStart port server_socket = some w ∧ Reachable wireStep w s'.wire := by
  have hwire : wireStart port server_socket = some s.wire := by
    rw [start_wire, hstart]
    rfl
  have hmatch : ∀ v e v' w, v.wire = w → step v e = some v' →
      ∃ w', Reachable wireStep w w' ∧ v'.wire = w' := by
    intro v e v' w hw hstep
    rw [← hw]
    exact ⟨v'.wire, step_stepwise hstep, rfl⟩
  rcases hreach.matched hmatch rfl with ⟨w, hwreach, rfl⟩
  exact ⟨s.wire, hwire, hwreach⟩

end Steps

end Lab10

end OsLabs
