import OsLabs.Core.Frames
import OsLabs.Lab10.Registration
import OsLabs.Lab10.Sender

/-!
# The Order in Which Messages Are Relayed

Every handler reads its client's messages on its own, and passes those for
others on in a section protected by `clients_mutex`. So there is one order in
which messages are passed on, the order of the sections. In it the messages of
each client are in the order in which the client has sent them, and everybody
gets what is for them in that order: no two clients see two messages of others
in different orders, and nobody sees one twice.

Nothing is lost between the bytes on a connection and the sections either. What
a handler has been given by `recv` are the messages it has received, and the
beginning of one; and the messages for others among those it has received have
been passed on, but for one that it may be about to pass on. A handler that has
left its loop may have been given one message more, which it has refused.

All this is so in every run, whatever happens to slots and descriptors. A
descriptor stands for one connection, and no two descriptors stand for the same,
so a client is in the table once at most.

## Main definitions

* `IsForOthers`: The types a handler passes on.
* `Relay`: A section in which a message is passed on.
* `Relay.form`, `Relay.Meant`: What is sent in it, and to whom.
* `HandlerPc.unfinished`, `HandlerPc.untreated`: What a handler has in hand.
* `Log`, `logStep`: The server with what its handlers have been given, have
  received and have passed on.
* `shown`: What has been passed on to a connection.
* `Distinct`, `Numbered`: No two descriptors stand for the same connection.
* `Read`, `Kept`, `Recorded`: The invariant.

## Theorems

* `broadcast_to`, `private_to`: What a section sends to one connection.
* `numbered_step`: Connections stay apart.
* `read_recv_return`: What a call of `recv` adds.
* `kept_elsewhere`, `kept_recv_return`, `kept_handle`, `recorded_step`: What every
  step preserves.
* `passed_on_in_order`: A handler passes on what its client sends, in order.
* `shown_in_order`: Everybody is shown the same order.
-/

namespace OsLabs

namespace Lab10

open Chat

/-- The bytes of the message a handler is receiving. -/
def HandlerPc.unfinished : HandlerPc → List UInt8
  | .recv _ buffer => buffer
  | .blocked _ buffer _ => buffer
  | _ => []

/-- The message a handler has received and not yet dealt with. -/
def HandlerPc.untreated : HandlerPc → List Message
  | .received _ msg => [msg]
  | .switch _ msg => [msg]
  | .handling _ msg _ => [msg]
  | _ => []

/-- The handler has left its loop. -/
def HandlerPc.left : HandlerPc → Bool
  | .cleanup => true
  | .ended => true
  | _ => false

namespace Relaying

/-- The message is one that a handler passes on. -/
def IsForOthers (msg : Message) : Prop :=
  msg.type = MessageType.MSG_2ALL.code ∨ msg.type = MessageType.MSG_2ONE.code

instance decidableIsForOthers (msg : Message) : Decidable (IsForOthers msg) :=
  inferInstanceAs (Decidable (_ ∨ _))

/-- A section in which a message is passed on: who does so, for which message
    and with which descriptor, and the table as it is then. -/
structure Relay where
  thread : Nat
  conn : Conn
  msg : Message
  fd : Int
  host : Host
  now : TimeT
  ok : Bool
  oks : Fin MAX_CLIENTS → Bool

/-- What the others are sent. -/
def Relay.form (r : Relay) : Message :=
  if r.msg.type = MessageType.MSG_2ALL.code then
    create_message .MSG_BROADCAST r.msg.sender_id.bytes [] r.msg.content.bytes r.now
  else
    create_message .MSG_PRIVATE r.msg.sender_id.bytes r.msg.recipient_id.bytes
      r.msg.content.bytes r.now

/-- The message is meant for the client of the connection, and can be sent to
    it: for everybody but the one that is registered with the handler's
    descriptor, or for the one with the name. -/
def Relay.Meant (r : Relay) (conn : Conn) : Prop :=
  ∃ i, (r.host.server.clients i).is_active = true ∧
    r.host.conns (r.host.server.clients i).socket_fd = some conn ∧
    if r.msg.type = MessageType.MSG_2ALL.code then
      (r.host.server.clients i).socket_fd ≠ r.fd ∧ r.oks i = true
    else
      (r.host.server.clients i).client_id.str = r.msg.recipient_id.str ∧ r.ok = true

instance decidableMeant (r : Relay) (conn : Conn) : Decidable (r.Meant conn) :=
  inferInstanceAs (Decidable (∃ _, _))

/-- Where a thread is; one that is still to be created is where it begins. -/
def pcAt (s : State) (t : Nat) : HandlerPc :=
  (s.threads[t]?).elim .test Handler.pc

/-- The server, and for each thread the bytes it has been given and the messages
    it has received; and the sections so far. -/
structure Log where
  state : State
  given : Nat → List UInt8
  received : Nat → List Message
  relays : List Relay

/-- What a call of `recv` returns, as bytes. -/
def chunk : Received → List UInt8
  | .data chunk => chunk
  | _ => []

/-- The bytes a step gives to a thread. -/
def givenNow : Event → Nat → List UInt8
  | .handler t (.recv_return r _), t' => if t' = t then chunk r else []
  | _, _ => []

/-- The message a thread has received in a step, which leads to `s`. -/
def receivedNow (s : State) : Event → Nat → List Message
  | .handler t (.recv_return _ _), t' => if t' = t then (pcAt s t).untreated else []
  | _, _ => []

/-- The section that a step is. -/
def relayNow (s : State) : Event → List Relay
  | .handler t (.handle now ok oks) =>
    match pcAt s t with
    | .handling conn msg fd =>
      if IsForOthers msg then [⟨t, conn, msg, fd, s.host, now, ok, oks⟩] else []
    | _ => []
  | _ => []

/-- The log after a step that leads to `s`. -/
def Log.next (l : Log) (e : Event) (s : State) : Log where
  state := s
  given t := l.given t ++ givenNow e t
  received t := l.received t ++ receivedNow s e t
  relays := l.relays ++ relayNow l.state e

def logStep (l : Log) (e : Event) : Option Log :=
  (step l.state e).map (l.next e)

/-- The server when it starts. -/
def Log.start (s : State) : Log where
  state := s
  given _ := []
  received _ := []
  relays := []

/-- What a thread has passed on. -/
def Log.passedOn (l : Log) (t : Nat) : List Message :=
  (l.relays.filter fun r => r.thread = t).map Relay.msg

/-- A delivery to the connection of what a client has sent to others. -/
def IsShown (conn : Conn) (d : Delivery) : Prop :=
  d.dest = conn ∧ d.cause.isSome = true ∧ IsRelayed d.message

instance decidableIsShown (conn : Conn) (d : Delivery) : Decidable (IsShown conn d) :=
  inferInstanceAs (Decidable (_ ∧ _))

/-- What the client of a connection has been sent of what others have sent. -/
def shown (s : State) (conn : Conn) : List Message :=
  (s.delivered.filter fun d => IsShown conn d).map Delivery.message

section Sections

variable {host : Host} {conn : Conn}

/-- No two descriptors stand for the same connection. -/
def Distinct (host : Host) : Prop :=
  ∀ fd fd' c, host.conns fd = some c → host.conns fd' = some c → fd = fd'

/-- If one element of a list at most yields anything, it is what the list
    yields. -/
theorem flatMap_single {α β : Type*} {l : List α} (hnodup : l.Nodup) {f : α → List β} {a : α}
    (hmem : a ∈ l) (hother : ∀ b ∈ l, b ≠ a → f b = []) : l.flatMap f = f a := by
  induction l with
  | nil => exact absurd hmem List.not_mem_nil
  | cons b l ih =>
      rcases List.nodup_cons.mp hnodup with ⟨hfresh, hrest⟩
      rw [List.flatMap_cons]
      by_cases hb : b = a
      · -- The first element is the one, and all others yield nothing.
        have hnil : l.flatMap f = [] := by
          rw [List.flatMap_eq_nil_iff]
          intro c hc
          refine hother c (List.mem_cons_of_mem _ hc) fun hca => hfresh ?_
          rw [hb, ← hca]
          exact hc
        rw [hnil, List.append_nil, hb]
      · have htail : a ∈ l := by
          rcases List.mem_cons.mp hmem with rfl | h
          · exact absurd rfl hb
          · exact h
        rw [hother b List.mem_cons_self hb, List.nil_append]
        exact ih hrest htail fun c hc => hother c (List.mem_cons_of_mem _ hc)

/-- What is sent to one connection with a call of `send_message_protocol`. -/
theorem send_to (message : Message) (cause : Conn × Message) (ok : Bool) {fd : Int}
    (hfd : 0 ≤ fd) (hrelayed : IsRelayed message) :
    (((host.send fd message (some cause) ok).toList).filter fun d => IsShown conn d).map
        Delivery.message
      = if host.conns fd = some conn ∧ ok = true then [message] else [] := by
  unfold Host.send
  rw [if_neg (by omega)]
  cases hc : host.conns fd with
  | none => simp
  | some c =>
      cases ok with
      | false => simp
      | true =>
          by_cases hconn : c = conn
          · simp [IsShown, hconn, hrelayed]
          · simp [IsShown, hconn]

/-- A broadcast reaches a connection once, if it is in the table and not with
    the descriptor of the sender. -/
theorem broadcast_to (hattached : Attached host) (hdistinct : Distinct host) (message : Message)
    (hrelayed : IsRelayed message) (fd : Int) (cause : Conn × Message)
    (oks : Fin MAX_CLIENTS → Bool) :
    ((broadcast_message host message fd (some cause) oks).filter fun d => IsShown conn d).map
        Delivery.message
      = if ∃ i, (host.server.clients i).is_active = true ∧
          host.conns (host.server.clients i).socket_fd = some conn ∧
          (host.server.clients i).socket_fd ≠ fd ∧ oks i = true then [message] else [] := by
  -- What one turn of the loop sends to the connection.
  have hturn : ∀ i, ((if (host.server.clients i).is_active &&
        decide ((host.server.clients i).socket_fd ≠ fd) then
        (host.send (host.server.clients i).socket_fd message (some cause) (oks i)).toList
        else []).filter fun d => IsShown conn d).map Delivery.message
      = if (host.server.clients i).is_active = true ∧
          host.conns (host.server.clients i).socket_fd = some conn ∧
          (host.server.clients i).socket_fd ≠ fd ∧ oks i = true then [message] else [] := by
    intro i
    by_cases hactive : (host.server.clients i).is_active = true
    · by_cases hfd : (host.server.clients i).socket_fd = fd
      · simp [hfd]
      · have hpos := (hattached.connected i hactive).1
        rw [if_pos (by simp [hactive, hfd]), send_to message cause (oks i) hpos hrelayed]
        simp [hactive, hfd]
    · simp [hactive]
  unfold broadcast_message
  rw [List.filter_flatMap, List.map_flatMap]
  simp only [hturn]
  by_cases hmeant : ∃ i, (host.server.clients i).is_active = true ∧
      host.conns (host.server.clients i).socket_fd = some conn ∧
      (host.server.clients i).socket_fd ≠ fd ∧ oks i = true
  · rw [if_pos hmeant]
    rcases hmeant with ⟨i, hi⟩
    -- Another slot with the connection would have the descriptor of this one.
    rw [flatMap_single (List.nodup_finRange _) (List.mem_finRange i), if_pos hi]
    intro j _ hj
    rw [if_neg]
    intro hmet
    have hsame := hdistinct _ _ _ hmet.2.1 hi.2.1
    exact hj (hattached.apart j i hmet.1 hi.1 hsame)
  · rw [if_neg hmeant, List.flatMap_eq_nil_iff]
    intro i _
    rw [if_neg fun hi => hmeant ⟨i, hi⟩]

/-- A private message reaches the connection with the name. -/
theorem private_to (hattached : Attached host) (hregistry : RegistryInv host.server)
    (message : Message) (hrelayed : IsRelayed message) (recipient : CharArray MAX_CLIENT_NAME)
    (cause : Conn × Message) (ok : Bool) :
    ((send_private_message host message recipient.bytes (some cause) ok).filter
        fun d => IsShown conn d).map Delivery.message
      = if ∃ i, (host.server.clients i).is_active = true ∧
          host.conns (host.server.clients i).socket_fd = some conn ∧
          (host.server.clients i).client_id.str = recipient.str ∧ ok = true
        then [message] else [] := by
  unfold send_private_message
  cases hfound : find_client_by_id host.server recipient.bytes with
  | none =>
      rw [if_neg]
      · rfl
      · rintro ⟨i, hactive, _, hname, _⟩
        exact find_client_by_id_none.mp hfound i hactive hname
  | some i =>
      have hi := find_client_by_id_some hfound
      have hpos := (hattached.connected i hi.1).1
      simp only []
      rw [send_to message cause ok hpos hrelayed]
      refine if_congr ⟨fun h => ⟨i, hi.1, h.1, hi.2, h.2⟩, ?_⟩ rfl rfl
      rintro ⟨j, hactive, hconn, hname, hok⟩
      -- There is one client of the name.
      have hj := hregistry.distinct j i hactive hi.1 (hname.trans hi.2.symm)
      rw [← hj]
      exact ⟨hconn, hok⟩

end Sections

/-- Connections are numbered in the order in which they are accepted, and no
    two descriptors stand for the same. -/
structure Numbered (s : State) : Prop where
  distinct : Distinct s.host
  accepted : ∀ fd c, s.host.conns fd = some c → c < s.accepted

section Numbering

variable {s s' : State}

/-- Descriptors that are only closed. -/
theorem numbered_closes (h : Numbered s) (haccepted : s'.accepted = s.accepted)
    (hconns : ∀ fd, s'.host.conns fd = s.host.conns fd ∨ s'.host.conns fd = none) :
    Numbered s' := by
  have hold : ∀ fd c, s'.host.conns fd = some c → s.host.conns fd = some c := by
    intro fd c hc
    rcases hconns fd with hsame | hnone
    · rw [← hsame, hc]
    · rw [hnone] at hc
      cases hc
  constructor
  case distinct =>
    intro fd fd' c hfd hfd'
    exact h.distinct fd fd' c (hold fd c hfd) (hold fd' c hfd')
  case accepted =>
    intro fd c hfd
    rw [haccepted]
    exact h.accepted fd c (hold fd c hfd)

theorem numbered_shrinks (h : Numbered s) (hb : Shrinks s.host s'.host)
    (haccepted : s'.accepted = s.accepted) : Numbered s' :=
  numbered_closes h haccepted fun fd => (hb.conns fd).imp_right And.left

theorem numbered_same (h : Numbered s) (hconns : s'.host.conns = s.host.conns)
    (haccepted : s'.accepted = s.accepted) : Numbered s' :=
  numbered_closes h haccepted fun fd => Or.inl (by rw [hconns])

theorem numbered_accept (h : Numbered s) (fd : Int) (main : Main) :
    Numbered { s with
      host := { s.host with conns := Function.update s.host.conns fd (some s.accepted) }
      accepted := s.accepted + 1
      main := main } := by
  have hcases : ∀ fd' c, Function.update s.host.conns fd (some s.accepted) fd' = some c →
      fd' = fd ∧ c = s.accepted ∨ c < s.accepted ∧ s.host.conns fd' = some c := by
    intro fd' c hc
    by_cases hfd : fd' = fd
    · rw [hfd, Function.update_self, Option.some.injEq] at hc
      exact Or.inl ⟨hfd, hc.symm⟩
    · rw [Function.update_of_ne hfd] at hc
      exact Or.inr ⟨h.accepted fd' c hc, hc⟩
  constructor
  case distinct =>
    intro fd₁ fd₂ c h₁ h₂
    rcases hcases fd₁ c h₁ with ⟨hfd₁, hc⟩ | ⟨hlt, hold₁⟩
    · rcases hcases fd₂ c h₂ with ⟨hfd₂, _⟩ | ⟨hlt, _⟩
      · rw [hfd₁, hfd₂]
      · exact absurd hc (Nat.ne_of_lt hlt)
    · rcases hcases fd₂ c h₂ with ⟨_, hc⟩ | ⟨_, hold₂⟩
      · exact absurd hc (Nat.ne_of_lt hlt)
      · exact h.distinct fd₁ fd₂ c hold₁ hold₂
  case accepted =>
    intro fd' c hc
    change c < s.accepted + 1
    rcases hcases fd' c hc with ⟨_, rfl⟩ | ⟨hlt, _⟩
    · exact Nat.lt_succ_self _
    · exact Nat.lt_succ_of_lt hlt

theorem numbered_mainStep (h : Numbered s) {e : MainEvent} (hstep : mainStep s e = some s') :
    Numbered s' := by
  cases e with
  | start created =>
      rcases mainStep_start hstep with ⟨_, rfl⟩
      cases created with
      | true => exact numbered_same h rfl rfl
      | false => exact numbered_same h rfl rfl
  | test =>
      rcases mainStep_test hstep with ⟨_, rfl⟩
      exact numbered_same h rfl rfl
  | accept r =>
      rcases mainStep_accept hstep with ⟨_, ⟨_, rfl⟩ | ⟨fd, addr, _, _, _, rfl⟩⟩
      · exact numbered_same h rfl rfl
      · exact numbered_accept h fd _
  | configure ok =>
      rcases mainStep_configure hstep with ⟨a, _, rfl⟩
      exact numbered_same h rfl rfl
  | identify r now =>
      rcases mainStep_identify hstep with ⟨a, _, rfl | ⟨id_msg, _, rfl⟩⟩
      · exact numbered_same h rfl rfl
      · exact numbered_same h rfl rfl
  | register now created =>
      rcases mainStep_register hstep with ⟨a, id_msg, _, rfl⟩
      rcases register_cases a id_msg now created with ⟨err_msg, hs'⟩ | ⟨i, _, _, _, _, hs'⟩
      · rw [hs']
        exact numbered_same h rfl rfl
      · rw [hs']
        cases created with
        | true => exact numbered_same h rfl rfl
        | false =>
            refine numbered_closes h rfl fun fd => ?_
            change closeAll _ _ fd = _ ∨ closeAll _ _ fd = none
            unfold closeAll
            split_ifs
            · exact Or.inr rfl
            · exact Or.inl rfl
  | refuse ok =>
      rcases mainStep_refuse hstep with ⟨a, err_msg, _, rfl⟩
      exact numbered_same h rfl rfl
  | close =>
      rcases mainStep_close hstep with ⟨a, _, rfl⟩
      refine numbered_closes h rfl fun fd => ?_
      change closeAll _ _ fd = _ ∨ closeAll _ _ fd = none
      unfold closeAll
      split_ifs
      · exact Or.inr rfl
      · exact Or.inl rfl
  | welcome now ok =>
      rcases mainStep_welcome hstep with ⟨a, message, _, rfl⟩
      exact numbered_same h rfl rfl
  | lock =>
      rcases mainStep_lock hstep with ⟨_, rfl⟩
      exact numbered_same h rfl rfl
  | join =>
      rcases mainStep_join hstep with ⟨n, _, rfl | ⟨hn, rfl⟩ | rfl⟩
      · exact numbered_same h rfl rfl
      · exact numbered_same h rfl rfl
      · exact numbered_same h rfl rfl

theorem keepaliveStep_accepted {e : KeepaliveEvent} (hstep : keepaliveStep s e = some s') :
    s'.accepted = s.accepted := by
  cases e with
  | test => rw [keepaliveStep_test hstep]
  | sweep input =>
      rw [(keepaliveStep_sweep hstep).2]
      rfl

theorem stopStep_accepted {e : StopEvent} (hstep : stopStep s e = some s') :
    s'.accepted = s.accepted := by
  cases e with
  | signal =>
      rcases stopStep_signal hstep with rfl | rfl
      · rfl
      · rfl
  | close => rw [stopStep_close hstep]; rfl
  | notify now oks => rw [(stopStep_notify hstep).2]; rfl
  | join => rw [stopStep_join hstep]

theorem numbered_step (h : Numbered s) (hattached : Attached s.host) {e : Event}
    (hstep : step s e = some s') : Numbered s' := by
  cases e with
  | handler t e =>
      rcases Option.bind_eq_some_iff.mp hstep with ⟨hd, _, hmove⟩
      exact numbered_shrinks h (handlerStep_shrinks hattached hmove) (handlerStep_frame hmove).2.2
  | main e => exact numbered_mainStep h hstep
  | keepalive e =>
      exact numbered_shrinks h (keepaliveStep_shrinks hattached hstep).1
        (keepaliveStep_accepted hstep)
  | stop e =>
      exact numbered_shrinks h (stopStep_shrinks hattached hstep).1 (stopStep_accepted hstep)

theorem numbered_start {port server_socket : Int} (h : start port server_socket = some s) :
    Numbered s := by
  rcases Option.map_eq_some_iff.mp h with ⟨server, _, rfl⟩
  constructor
  · intro fd fd' c hc
    cases hc
  · intro fd c hc
    cases hc

end Numbering

section Places

variable {s s' : State} {t t' : Nat} {hd : Handler}

theorem pcAt_some (h : s.threads[t]? = some hd) : pcAt s t = hd.pc := by
  rw [pcAt, h, Option.elim_some]

/-- A handler moves itself only. -/
theorem pcAt_moved (ht : s.threads[t]? = some hd) {pc : HandlerPc}
    (hthreads : s'.threads = s.threads.set t { hd with pc := pc }) :
    pcAt s' t' = if t' = t then pc else pcAt s t' := by
  rcases List.getElem?_eq_some_iff.mp ht with ⟨hlt, _⟩
  unfold pcAt
  rw [hthreads, List.getElem?_set]
  by_cases h : t' = t
  · rw [if_pos h.symm, if_pos hlt, if_pos h]
    rfl
  · rw [if_neg (Ne.symm h), if_neg h]

/-- Elsewhere nobody moves, and a new handler is where it begins. -/
theorem pcAt_elsewhere (h : Elsewhere s s') : pcAt s' t = pcAt s t := by
  rcases h.threads with hsame | ⟨new, htest, hnew⟩
  · rw [pcAt, hsame, pcAt]
  · unfold pcAt
    rw [hnew]
    by_cases hlt : t < s.threads.length
    · rw [List.getElem?_append_left hlt]
    · rw [List.getElem?_append_right (by omega), List.getElem?_eq_none (by omega : _ ≤ t)]
      by_cases hzero : t - s.threads.length = 0
      · simp [hzero, htest]
      · rw [List.getElem?_eq_none (by simp; omega)]

/-- A call of `recv` adds what it returns to the bytes of the message; if these
    are all the bytes, the message is received, or refused and the loop left. -/
theorem recv_return_moves {r : Received} {now : TimeT}
    (hroom : hd.pc.unfinished.length < SIZEOF_MESSAGE)
    (hstep : handlerStep s t hd (.recv_return r now) = some s') :
    ∃ fd buffer c pc, hd.pc = .blocked fd buffer c ∧
      s'.threads = s.threads.set t { hd with pc := pc } ∧ s'.delivered = s.delivered ∧
      (pc = .recv fd (buffer ++ chunk r) ∧ (buffer ++ chunk r).length < SIZEOF_MESSAGE ∨
        pc = .cleanup ∧ (buffer ++ chunk r).length ≤ SIZEOF_MESSAGE ∨
        ∃ msg, (buffer ++ chunk r).length = SIZEOF_MESSAGE ∧
          acceptable (buffer ++ chunk r) now = some msg ∧ pc = .received c msg) := by
  cases hpc : hd.pc with
  | blocked fd buffer c =>
      rw [hpc] at hroom
      change buffer.length < SIZEOF_MESSAGE at hroom
      simp only [handlerStep, hpc] at hstep
      refine ⟨fd, buffer, c, ?_⟩
      cases r with
      | data bs =>
          simp only [recvRound] at hstep
          split_ifs at hstep with hlen hmore
          · exact ⟨_, rfl, by rw [← Option.some.inj hstep]; rfl,
              by rw [← Option.some.inj hstep]; rfl, Or.inl ⟨rfl, hmore⟩⟩
          · have hfull : (buffer ++ bs).length = SIZEOF_MESSAGE := by
              rw [List.length_append] at hmore ⊢
              omega
            cases hok : acceptable (buffer ++ bs) now with
            | none =>
                simp only [hok] at hstep
                exact ⟨_, rfl, by rw [← Option.some.inj hstep]; rfl,
                  by rw [← Option.some.inj hstep]; rfl, Or.inr (Or.inl ⟨rfl, hfull.le⟩)⟩
            | some msg =>
                simp only [hok] at hstep
                exact ⟨_, rfl, by rw [← Option.some.inj hstep]; rfl,
                  by rw [← Option.some.inj hstep]; rfl,
                  Or.inr (Or.inr ⟨msg, hfull, hok, rfl⟩)⟩
      | eof | error =>
          -- The loop is left with what there was.
          exact ⟨_, rfl, by rw [← Option.some.inj hstep]; rfl,
            by rw [← Option.some.inj hstep]; rfl,
            Or.inr (Or.inl ⟨rfl, by simp only [chunk, List.append_nil]; omega⟩)⟩
      | eintr | eagain =>
          exact ⟨_, rfl, by rw [← Option.some.inj hstep]; rfl,
            by rw [← Option.some.inj hstep]; rfl,
            Or.inl ⟨by simp only [chunk, List.append_nil], by
              simp only [chunk, List.append_nil]
              exact hroom⟩⟩
  | _ => simp [handlerStep, hpc] at hstep

end Places

/-- The message in a full buffer. -/
def decode (record : List UInt8) : Message :=
  Message.ofImage (CharArray.ofList SIZEOF_MESSAGE record)

/-- What a thread has been given are the messages it has received, and then the
    beginning of one, or, if it has left its loop, whatever made it leave. -/
def Read (pc : HandlerPc) (given : List UInt8) (received : List Message) : Prop :=
  ∃ (records : List (List UInt8)) (rest : List UInt8), Sized SIZEOF_MESSAGE records ∧
    given = records.flatten ++ rest ∧ received = records.map decode ∧
    (pc.left = true ∧ rest.length ≤ SIZEOF_MESSAGE ∨
      pc.left = false ∧ rest = pc.unfinished ∧ rest.length < SIZEOF_MESSAGE)

/-- A handler moves and is given nothing: it leaves its loop, or it has the same
    bytes in hand. -/
def Moves (pc pc' : HandlerPc) : Prop :=
  pc'.left = true ∨ pc.left = false ∧ pc'.left = false ∧ pc'.unfinished = pc.unfinished

/-- The messages for others that a handler is still to pass on. -/
def toPassOn (pc : HandlerPc) : List Message :=
  pc.untreated.filter fun msg => IsForOthers msg

theorem read_begin : Read .test [] [] :=
  ⟨[], [], sized_nil, rfl, rfl, Or.inr ⟨rfl, rfl, by decide⟩⟩

theorem Read.moves {pc pc' : HandlerPc} {given : List UInt8} {received : List Message}
    (h : Read pc given received) (hmoves : Moves pc pc') : Read pc' given received := by
  rcases h with ⟨records, rest, hsized, hgiven, hreceived, hrest⟩
  refine ⟨records, rest, hsized, hgiven, hreceived, ?_⟩
  have hle : rest.length ≤ SIZEOF_MESSAGE := by
    rcases hrest with ⟨_, hle⟩ | ⟨_, _, hlt⟩
    · exact hle
    · exact hlt.le
  rcases hmoves with hleft | ⟨hbefore, hafter, hsame⟩
  · exact Or.inl ⟨hleft, hle⟩
  · rcases hrest with ⟨hleft, _⟩ | ⟨_, hunfinished, hlt⟩
    · rw [hbefore] at hleft
      cases hleft
    · exact Or.inr ⟨hafter, hunfinished.trans hsame.symm, hlt⟩

section Steps

variable {s s' : State} {t : Nat} {hd : Handler} {conn : Conn}

theorem shown_append {sent : List Delivery} (h : s'.delivered = s.delivered ++ sent) :
    shown s' conn
      = shown s conn ++ (sent.filter fun d => IsShown conn d).map Delivery.message := by
  rw [shown, h, List.filter_append, List.map_append, shown]

/-- What is not sent for a client, or is not a message to others, is not
    shown. -/
theorem shown_unseen {sent : List Delivery} (h : s'.delivered = s.delivered ++ sent)
    (hunseen : ∀ d ∈ sent, d.cause = none ∨ ¬ IsRelayed d.message) :
    shown s' conn = shown s conn := by
  have hnil : sent.filter (fun d => decide (IsShown conn d)) = [] := by
    rw [List.filter_eq_nil_iff]
    intro d hd hshown
    rcases of_decide_eq_true hshown with ⟨_, hcause, hrelayed⟩
    rcases hunseen d hd with hnone | hnot
    · rw [hnone] at hcause
      cases hcause
    · exact hnot hrelayed
  rw [shown_append h, hnil, List.map_nil, List.append_nil]

/-- A step of a handler in which it is given nothing, passes nothing on and has
    as much to pass on as before. -/
structure Calm (s s' : State) (t : Nat) (hd : Handler) (pc : HandlerPc) : Prop where
  threads : s'.threads = s.threads.set t { hd with pc := pc }
  moves : Moves hd.pc pc
  same : toPassOn pc = toPassOn hd.pc
  shown : ∀ conn, shown s' conn = shown s conn

/-- Most steps of a handler are of this kind. -/
theorem calm_handlerStep (hrelays : Relays s) (ht : s.threads[t]? = some hd) {e : HandlerEvent}
    (hstep : handlerStep s t hd e = some s') (hrecv : ∀ r now, e ≠ .recv_return r now)
    (hhandle : ∀ now ok oks, e ≠ .handle now ok oks) : ∃ pc, Calm s s' t hd pc := by
  cases e with
  | test =>
      rcases handlerStep_test hstep with ⟨hpc, rfl⟩
      refine ⟨_, rfl, ?_, ?_, fun _ => rfl⟩
      · rw [hpc]
        split_ifs
        · exact Or.inr ⟨rfl, rfl, rfl⟩
        · exact Or.inl rfl
      · rw [hpc]
        split_ifs <;> rfl
  | call =>
      rcases handlerStep_call hstep with ⟨hpc, rfl⟩
      refine ⟨_, rfl, ?_, ?_, fun _ => rfl⟩
      · rw [hpc]
        split_ifs
        · exact Or.inl rfl
        · exact Or.inr ⟨rfl, rfl, rfl⟩
      · rw [hpc]
        split_ifs <;> rfl
  | recv =>
      rcases handlerStep_recv hstep with ⟨fd, buffer, hpc, ⟨_, rfl⟩ | ⟨c, _, rfl⟩⟩
      · exact ⟨_, rfl, Or.inl rfl, by rw [hpc]; rfl, fun _ => rfl⟩
      · exact ⟨_, rfl, Or.inr (by rw [hpc]; exact ⟨rfl, rfl, rfl⟩), by rw [hpc]; rfl,
          fun _ => rfl⟩
  | recv_return r now => exact absurd rfl (hrecv r now)
  | note now =>
      rcases handlerStep_note hstep with ⟨c, msg, hpc, rfl⟩
      exact ⟨_, rfl, Or.inr (by rw [hpc]; exact ⟨rfl, rfl, rfl⟩), by rw [hpc]; rfl, fun _ => rfl⟩
  | switch =>
      rcases handlerStep_switch hstep with ⟨c, msg, hpc, rfl⟩
      refine ⟨_, rfl, Or.inr ?_, ?_, fun _ => rfl⟩
      · rw [hpc]
        split_ifs <;> exact ⟨rfl, rfl, rfl⟩
      · rw [hpc]
        split_ifs with hknown
        · rfl
        · -- A message of an unknown type is not one for others.
          have hnot : ¬ IsForOthers msg := by
            intro h
            refine hknown ?_
            rcases h with h | h
            · simp [known, h]
            · simp [known, h]
          simp [toPassOn, HandlerPc.untreated, hnot]
  | handle now ok oks => exact absurd rfl (hhandle now ok oks)
  | reply ok =>
      rcases handlerStep_reply hstep with ⟨c, msg, fd, reply, last, hpc, rfl⟩
      refine ⟨_, rfl, ?_, ?_, fun conn => shown_unseen rfl fun d hsent => Or.inr ?_⟩
      · rw [hpc]
        split_ifs
        · exact Or.inl rfl
        · exact Or.inr ⟨rfl, rfl, rfl⟩
      · rw [hpc]
        split_ifs <;> rfl
      · rw [(send_mem hsent).1]
        exact hrelays.replies hd (List.mem_of_getElem? ht) c msg fd reply last hpc
  | cleanup =>
      rcases handlerStep_cleanup hstep with ⟨hpc, _, rfl | ⟨i, _, rfl⟩⟩
      · exact ⟨_, rfl, Or.inl rfl, by rw [hpc]; rfl, fun _ => rfl⟩
      · exact ⟨_, rfl, Or.inl rfl, by rw [hpc]; rfl, fun _ => rfl⟩

/-- After a section a handler has nothing in hand. -/
theorem handle_moves (c : Conn) (msg : Message) (fd : Int) (now : TimeT) (ok : Bool)
    (oks : Fin MAX_CLIENTS → Bool) :
    ∃ pc, (handle s t hd c msg fd now ok oks).threads = s.threads.set t { hd with pc := pc } ∧
      Moves (.handling c msg fd) pc ∧ toPassOn pc = [] := by
  unfold handle
  simp only []
  split_ifs
  · exact ⟨_, rfl, Or.inr ⟨rfl, rfl, rfl⟩, rfl⟩
  · exact ⟨_, rfl, Or.inr ⟨rfl, rfl, rfl⟩, rfl⟩
  · exact ⟨_, rfl, Or.inr ⟨rfl, rfl, rfl⟩, rfl⟩
  · exact ⟨_, rfl, Or.inr ⟨rfl, rfl, rfl⟩, rfl⟩
  · cases find_client_by_socket s.host.server fd <;>
      exact ⟨_, rfl, Or.inr ⟨rfl, rfl, rfl⟩, rfl⟩

/-- What the section for a message shows to the client of a connection. -/
theorem shown_handle (hattached : Attached s.host) (hdistinct : Distinct s.host)
    (hregistry : RegistryInv s.host.server) (c : Conn) (msg : Message) (fd : Int) (now : TimeT)
    (ok : Bool) (oks : Fin MAX_CLIENTS → Bool) :
    shown (handle s t hd c msg fd now ok oks) conn = shown s conn ++
      ((if IsForOthers msg then [⟨t, c, msg, fd, s.host, now, ok, oks⟩] else
        ([] : List Relay)).filter fun r => r.Meant conn).map Relay.form := by
  by_cases hall : msg.type = MessageType.MSG_2ALL.code
  · have hfor : IsForOthers msg := Or.inl hall
    have hhandle : handle s t hd c msg fd now ok oks = (s.setHandler t hd .test).deliver
        (broadcast_message s.host (create_message .MSG_BROADCAST msg.sender_id.bytes []
          msg.content.bytes now) fd (some (c, msg)) oks) := by
      unfold handle
      rw [if_neg (by rw [hall]; decide), if_pos hall]
    rw [hhandle, shown_append rfl, if_pos hfor]
    refine congrArg (shown s conn ++ ·) ?_
    rw [broadcast_to hattached hdistinct _ (Or.inl (create_message_type _ _ _ _ _))]
    by_cases hmeant : Relay.Meant ⟨t, c, msg, fd, s.host, now, ok, oks⟩ conn
    · have hsent := hmeant
      simp only [Relay.Meant, if_pos hall] at hsent
      rw [if_pos hsent]
      simp [hmeant, Relay.form, hall]
    · have hsent := hmeant
      simp only [Relay.Meant, if_pos hall] at hsent
      rw [if_neg hsent]
      simp [hmeant]
  · by_cases hone : msg.type = MessageType.MSG_2ONE.code
    · have hfor : IsForOthers msg := Or.inr hone
      have hhandle : handle s t hd c msg fd now ok oks = (s.setHandler t hd .test).deliver
          (send_private_message s.host (create_message .MSG_PRIVATE msg.sender_id.bytes
            msg.recipient_id.bytes msg.content.bytes now) msg.recipient_id.bytes
            (some (c, msg)) ok) := by
        unfold handle
        rw [if_neg (by rw [hone]; decide), if_neg hall, if_pos hone]
      rw [hhandle, shown_append rfl, if_pos hfor]
      refine congrArg (shown s conn ++ ·) ?_
      rw [private_to hattached hregistry _ (Or.inr (create_message_type _ _ _ _ _))]
      by_cases hmeant : Relay.Meant ⟨t, c, msg, fd, s.host, now, ok, oks⟩ conn
      · have hsent := hmeant
        simp only [Relay.Meant, if_neg hall] at hsent
        rw [if_pos hsent]
        simp [hmeant, Relay.form, hall]
      · have hsent := hmeant
        simp only [Relay.Meant, if_neg hall] at hsent
        rw [if_neg hsent]
        simp [hmeant]
    · -- What is for nobody else is answered later, or not at all.
      have hnot : ¬ IsForOthers msg := fun h => h.elim hall hone
      have hsame : (handle s t hd c msg fd now ok oks).delivered = s.delivered := by
        unfold handle
        simp only [hall, hone, if_false]
        split_ifs
        · rfl
        · rfl
        · cases find_client_by_socket s.host.server fd <;> rfl
      rw [if_neg hnot, List.filter_nil, List.map_nil, List.append_nil, shown, hsame, shown]

/-- What a call of `recv` adds to what a thread has been given, and to what it
    has received. -/
theorem read_recv_return {given : List UInt8} {received : List Message} {r : Received}
    {now : TimeT} (h : Read hd.pc given received) (ht : s.threads[t]? = some hd)
    (hstep : handlerStep s t hd (.recv_return r now) = some s') :
    Read (pcAt s' t) (given ++ chunk r) (received ++ (pcAt s' t).untreated) ∧
      toPassOn hd.pc = [] ∧ (∀ t', t' ≠ t → pcAt s' t' = pcAt s t') ∧
      s'.delivered = s.delivered := by
  rcases h with ⟨records, rest, hsized, hgiven, hreceived, hrest⟩
  rcases handlerStep_recv_return hstep with ⟨fd, buffer, c, _, _, hblocked, _⟩
  rcases hrest with ⟨hleft, _⟩ | ⟨_, hunfinished, hlt⟩
  · rw [hblocked] at hleft
    cases hleft
  · rw [hunfinished] at hlt hgiven
    rcases recv_return_moves hlt hstep with ⟨fd', buffer', c', pc, hpc, hthreads, hsame, hnext⟩
    have hplace : pcAt s' t = pc := by rw [pcAt_moved ht hthreads, if_pos rfl]
    refine ⟨?_, by rw [hpc]; rfl, fun t' ht' => ?_, hsame⟩
    · rw [hplace, hgiven, hreceived, hpc]
      rcases hnext with ⟨rfl, hmore⟩ | ⟨rfl, hle⟩ | ⟨msg, hfull, hok, rfl⟩
      · refine ⟨records, buffer' ++ chunk r, hsized, List.append_assoc _ _ _, ?_,
          Or.inr ⟨rfl, rfl, hmore⟩⟩
        exact List.append_nil _
      · refine ⟨records, buffer' ++ chunk r, hsized, List.append_assoc _ _ _, ?_,
          Or.inl ⟨rfl, hle⟩⟩
        exact List.append_nil _
      · -- The buffer is full, and begins anew.
        have hmsg : decode (buffer' ++ chunk r) = msg := by
          simp only [acceptable] at hok
          split_ifs at hok
          exact Option.some.inj hok
        refine ⟨records ++ [buffer' ++ chunk r], [], hsized.append_one hfull, ?_, ?_,
          Or.inr ⟨rfl, rfl, by decide⟩⟩
        · rw [List.flatten_append, List.flatten_cons, List.flatten_nil, List.append_nil,
            List.append_nil, List.append_assoc]
          rfl
        · rw [List.map_append, List.map_cons, hmsg]
          rfl
    · rw [pcAt_moved ht hthreads, if_neg ht']

end Steps

section Recording

variable {l : Log} {s' : State}

theorem passedOn_next (e : Event) (t : Nat) :
    (l.next e s').passedOn t
      = l.passedOn t ++ ((relayNow l.state e).filter fun r => r.thread = t).map Relay.msg := by
  rw [Log.passedOn, Log.next, List.filter_append, List.map_append, Log.passedOn]

/-- The parts of the invariant that speak about the log. -/
structure Kept (l : Log) : Prop where
  read : ∀ t, Read (pcAt l.state t) (l.given t) (l.received t)
  passed : ∀ t, l.passedOn t ++ toPassOn (pcAt l.state t)
    = (l.received t).filter fun msg => IsForOthers msg
  shown : ∀ conn, shown l.state conn = (l.relays.filter fun r => r.Meant conn).map Relay.form

/-- A step that gives nothing to anybody and passes nothing on. -/
theorem kept_calm (h : Kept l) {e : Event} (hgiven : ∀ t, givenNow e t = [])
    (hreceived : ∀ t, receivedNow s' e t = []) (hrelay : relayNow l.state e = [])
    (hmoves : ∀ t, pcAt s' t = pcAt l.state t ∨
      Moves (pcAt l.state t) (pcAt s' t) ∧ toPassOn (pcAt s' t) = toPassOn (pcAt l.state t))
    (hshown : ∀ conn, shown s' conn = shown l.state conn) : Kept (l.next e s') := by
  refine ⟨fun t => ?_, fun t => ?_, fun conn => ?_⟩
  · change Read (pcAt s' t) (l.given t ++ givenNow e t) (l.received t ++ receivedNow s' e t)
    rw [hgiven, hreceived, List.append_nil, List.append_nil]
    rcases hmoves t with hsame | ⟨hmove, _⟩
    · rw [hsame]
      exact h.read t
    · exact (h.read t).moves hmove
  · rw [passedOn_next, hrelay, List.filter_nil, List.map_nil, List.append_nil]
    change _ ++ toPassOn (pcAt s' t) = (l.received t ++ receivedNow s' e t).filter _
    rw [hreceived, List.append_nil, ← h.passed t]
    rcases hmoves t with hsame | ⟨_, hsame⟩
    · rw [hsame]
    · rw [hsame]
  · change shown s' conn = ((l.relays ++ relayNow l.state e).filter _).map _
    rw [hshown, hrelay, List.append_nil, h.shown conn]

theorem kept_elsewhere (h : Kept l) {e : Event} (hother : ∀ t e', e ≠ .handler t e')
    (helse : Elsewhere l.state s') : Kept (l.next e s') := by
  have hnothing : (∀ t, givenNow e t = []) ∧ (∀ t, receivedNow s' e t = []) ∧
      relayNow l.state e = [] := by
    cases e with
    | handler t e' => exact absurd rfl (hother t e')
    | _ => exact ⟨fun _ => rfl, fun _ => rfl, rfl⟩
  refine kept_calm h hnothing.1 hnothing.2.1 hnothing.2.2
    (fun t => Or.inl (pcAt_elsewhere helse)) fun conn => ?_
  rcases helse.delivered with ⟨sent, hdelivered, hcause⟩
  exact shown_unseen hdelivered fun d hd => Or.inl (hcause d hd)

theorem kept_recv_return (h : Kept l) {t : Nat} {hd : Handler} {r : Received} {now : TimeT}
    (ht : l.state.threads[t]? = some hd)
    (hstep : handlerStep l.state t hd (.recv_return r now) = some s') :
    Kept (l.next (.handler t (.recv_return r now)) s') := by
  have hread := h.read t
  rw [pcAt_some ht] at hread
  rcases read_recv_return hread ht hstep with ⟨hnext, hnone, hothers, hdelivered⟩
  refine ⟨fun t' => ?_, fun t' => ?_, fun conn => ?_⟩
  · change Read (pcAt s' t') (l.given t' ++ if t' = t then chunk r else [])
      (l.received t' ++ if t' = t then (pcAt s' t).untreated else [])
    by_cases htt : t' = t
    · rw [if_pos htt, if_pos htt, htt]
      exact hnext
    · rw [if_neg htt, if_neg htt, List.append_nil, List.append_nil, hothers t' htt]
      exact h.read t'
  · have hrelay : relayNow l.state (.handler t (.recv_return r now)) = [] := rfl
    rw [passedOn_next, hrelay, List.filter_nil, List.map_nil, List.append_nil]
    change _ ++ toPassOn (pcAt s' t')
      = (l.received t' ++ if t' = t then (pcAt s' t).untreated else []).filter _
    by_cases htt : t' = t
    · -- What is received is what is now to be passed on.
      have hpassed := h.passed t
      rw [pcAt_some ht, hnone, List.append_nil] at hpassed
      rw [if_pos htt, htt, List.filter_append, ← hpassed]
      rfl
    · rw [if_neg htt, List.append_nil, hothers t' htt]
      exact h.passed t'
  · change shown s' conn = ((l.relays ++ []).filter _).map _
    rw [List.append_nil, ← h.shown conn, shown, hdelivered, shown]

theorem kept_handle (h : Kept l) (hattached : Attached l.state.host)
    (hdistinct : Distinct l.state.host) (hregistry : RegistryInv l.state.host.server) {t : Nat}
    {hd : Handler} {now : TimeT} {ok : Bool} {oks : Fin MAX_CLIENTS → Bool}
    (ht : l.state.threads[t]? = some hd)
    (hstep : handlerStep l.state t hd (.handle now ok oks) = some s') :
    Kept (l.next (.handler t (.handle now ok oks)) s') := by
  rcases handlerStep_handle hstep with ⟨c, msg, fd, hpc, _, hs'⟩
  rcases @handle_moves l.state t hd c msg fd now ok oks with
    ⟨pc, hthreads, hmoves, hnone⟩
  rw [← hs'] at hthreads
  have hbefore : pcAt l.state t = .handling c msg fd := by rw [pcAt_some ht, hpc]
  have hrelay : relayNow l.state (.handler t (.handle now ok oks))
      = if IsForOthers msg then [⟨t, c, msg, fd, l.state.host, now, ok, oks⟩] else [] := by
    simp only [relayNow, hbefore]
  refine ⟨fun t' => ?_, fun t' => ?_, fun conn => ?_⟩
  · change Read (pcAt s' t') (l.given t' ++ []) (l.received t' ++ [])
    rw [List.append_nil, List.append_nil, pcAt_moved ht hthreads]
    by_cases htt : t' = t
    · rw [if_pos htt, htt]
      have hread := h.read t
      rw [hbefore] at hread
      exact hread.moves hmoves
    · rw [if_neg htt]
      exact h.read t'
  · rw [passedOn_next, hrelay]
    change _ ++ toPassOn (pcAt s' t') = (l.received t' ++ []).filter _
    rw [List.append_nil, pcAt_moved ht hthreads, ← h.passed t']
    by_cases htt : t' = t
    · -- What was in hand is what is passed on.
      rw [if_pos htt, htt, hbefore, hnone, List.append_nil]
      refine congrArg (l.passedOn t ++ ·) ?_
      by_cases hfor : IsForOthers msg
      · simp [hfor, toPassOn, HandlerPc.untreated]
      · simp [hfor, toPassOn, HandlerPc.untreated]
    · rw [if_neg htt]
      have hnil : ((if IsForOthers msg then [⟨t, c, msg, fd, l.state.host, now, ok, oks⟩] else
          ([] : List Relay)).filter fun r => r.thread = t') = [] := by
        split_ifs
        · simp [Ne.symm htt]
        · rfl
      rw [hnil, List.map_nil, List.append_nil]
  · change shown s' conn = ((l.relays ++ relayNow l.state _).filter _).map _
    rw [hs', shown_handle hattached hdistinct hregistry, hrelay, List.filter_append, List.map_append,
      h.shown conn]

/-- The invariant: the log, and what the sections need of the table. -/
structure Recorded (l : Log) : Prop where
  seated : Seated l.state
  registry : RegistryInv l.state.host.server
  numbered : Numbered l.state
  relays : Relays l.state
  kept : Kept l

theorem kept_handler (h : Recorded l) {t : Nat} {hd : Handler} {e : HandlerEvent}
    (ht : l.state.threads[t]? = some hd) (hstep : handlerStep l.state t hd e = some s') :
    Kept (l.next (.handler t e) s') := by
  by_cases hrecv : ∃ r now, e = .recv_return r now
  · rcases hrecv with ⟨r, now, rfl⟩
    exact kept_recv_return h.kept ht hstep
  by_cases hhandle : ∃ now ok oks, e = .handle now ok oks
  · rcases hhandle with ⟨now, ok, oks, rfl⟩
    exact kept_handle h.kept h.seated.attached h.numbered.distinct h.registry ht hstep
  have hnotrecv : ∀ r now, e ≠ .recv_return r now := fun r now he => hrecv ⟨r, now, he⟩
  have hnothandle : ∀ now ok oks, e ≠ .handle now ok oks :=
    fun now ok oks he => hhandle ⟨now, ok, oks, he⟩
  rcases calm_handlerStep h.relays ht hstep hnotrecv hnothandle with ⟨pc, hcalm⟩
  have hnothing : (∀ t', givenNow (.handler t e) t' = []) ∧
      (∀ t', receivedNow s' (.handler t e) t' = []) ∧ relayNow l.state (.handler t e) = [] := by
    cases e with
    | recv_return r now => exact absurd rfl (hnotrecv r now)
    | handle now ok oks => exact absurd rfl (hnothandle now ok oks)
    | _ => exact ⟨fun _ => rfl, fun _ => rfl, rfl⟩
  refine kept_calm h.kept hnothing.1 hnothing.2.1 hnothing.2.2 (fun t' => ?_) hcalm.shown
  rw [pcAt_moved ht hcalm.threads]
  by_cases htt : t' = t
  · rw [if_pos htt, htt, pcAt_some ht]
    exact Or.inr ⟨hcalm.moves, hcalm.same⟩
  · rw [if_neg htt]
    exact Or.inl rfl

theorem recorded_step (h : Recorded l) {e : Event} {l' : Log} (hstep : logStep l e = some l') :
    Recorded l' := by
  rcases Option.map_eq_some_iff.mp hstep with ⟨s', hs', rfl⟩
  refine ⟨seated_step h.seated hs', registryInv_step h.registry hs',
    numbered_step h.numbered h.seated.attached hs', relays_step h.relays hs', ?_⟩
  cases e with
  | handler t e =>
      rcases Option.bind_eq_some_iff.mp hs' with ⟨hd, ht, hmove⟩
      exact kept_handler h ht hmove
  | main e => exact kept_elsewhere h.kept (fun _ _ => nofun) (mainStep_elsewhere hs')
  | keepalive e => exact kept_elsewhere h.kept (fun _ _ => nofun) (keepaliveStep_elsewhere hs')
  | stop e => exact kept_elsewhere h.kept (fun _ _ => nofun) (stopStep_elsewhere hs')

theorem recorded_start {port server_socket : Int} {s : State}
    (h : start port server_socket = some s) : Recorded (Log.start s) := by
  refine ⟨seated_start h, registryInv_of_reaches h Reaches.refl, numbered_start h,
    relays_start h, ?_⟩
  rcases Option.map_eq_some_iff.mp h with ⟨server, _, rfl⟩
  exact ⟨fun _ => read_begin, fun _ => rfl, fun _ => rfl⟩

theorem recorded_of_reaches {port server_socket : Int} {s : State}
    (hstart : start port server_socket = some s) (hreach : Reachable logStep (Log.start s) l) :
    Recorded l :=
  hreach.invariant (recorded_start hstart) fun _ _ _ hv _ hstep => recorded_step hv hstep

end Recording

theorem decode_image (msg : Message) : decode msg.toImage.bytes = msg := by
  rw [decode, CharArray.ofList_bytes, ofImage_toImage]

/-- In every run, if what a thread has been given is the beginning of what its
    client has sent, the messages it has received are the first of these, as many
    as are complete unless it has left its loop; and those for others among them
    are what it has passed on, in this order, with the one it is about to pass
    on. -/
theorem passed_on_in_order (port server_socket : Int) (s : State) (l : Log)
    (hstart : start port server_socket = some s) (hreach : Reachable logStep (Log.start s) l)
    (t : Nat) (sent : List Message)
    (hsent : l.given t <+: sent.flatMap fun msg => msg.toImage.bytes) :
    l.received t <+: sent ∧
      ((pcAt l.state t).left = false →
        (l.received t).length = (l.given t).length / SIZEOF_MESSAGE) ∧
      l.passedOn t ++ toPassOn (pcAt l.state t)
        = (l.received t).filter fun msg => IsForOthers msg := by
  have hkept := (recorded_of_reaches hstart hreach).kept
  rcases hkept.read t with ⟨records, rest, hsized, hgiven, hreceived, hrest⟩
  refine ⟨?_, fun hleft => ?_, hkept.passed t⟩
  · -- The stream is taken apart in one way only.
    have hall : Sized SIZEOF_MESSAGE (sent.map fun msg => msg.toImage.bytes) := by
      intro record hrecord
      rcases List.mem_map.mp hrecord with ⟨msg, _, rfl⟩
      exact msg.toImage.length_eq
    rw [hgiven, List.flatMap_def] at hsent
    have hfirst := (hsized.isPrefix (by decide) hall hsent).map decode
    rw [List.map_map] at hfirst
    have hsame : (decode ∘ fun msg : Message => msg.toImage.bytes) = id := by
      funext msg
      exact decode_image msg
    rw [hsame, List.map_id] at hfirst
    rw [hreceived]
    exact hfirst
  · rcases hrest with ⟨hgone, _⟩ | ⟨_, _, hlt⟩
    · rw [hleft] at hgone
      cases hgone
    · rw [hgiven, hreceived, List.length_map, List.length_append, hsized.length_flatten,
        Nat.mul_add_div (by decide), Nat.div_eq_of_lt hlt, Nat.add_zero]

/-- Ann says something to all. -/
theorem passed_on_in_order_run :
    ∃ s l, start 5000 3 = some s ∧
      run logStep (Log.start s) (speaks (toAll "ann")) = some l ∧
      l.received 0 <+: [toAll "ann"] ∧
      l.passedOn 0 ++ toPassOn (pcAt l.state 0)
        = (l.received 0).filter fun msg => IsForOthers msg := by
  have hend : ((start 5000 3).bind fun s =>
      (run logStep (Log.start s) (speaks (toAll "ann"))).map fun l =>
        decide (l.given 0 <+: [toAll "ann"].flatMap fun msg => msg.toImage.bytes))
        = some true := by decide +kernel
  rcases Option.bind_eq_some_iff.mp hend with ⟨s, hstart, hmap⟩
  rcases Option.map_eq_some_iff.mp hmap with ⟨l, hrun, hgiven⟩
  have horder := passed_on_in_order 5000 3 s l hstart (reachable_of_run hrun) 0 [toAll "ann"]
    (of_decide_eq_true hgiven)
  exact ⟨s, l, hstart, hrun, horder.1, horder.2.2⟩

/-- In every run there is one order of the messages passed on, and what the
    client of a connection has been sent are, in this order, those that were
    meant for it, each once. -/
theorem shown_in_order (port server_socket : Int) (s : State) (l : Log)
    (hstart : start port server_socket = some s) (hreach : Reachable logStep (Log.start s) l)
    (conn : Conn) :
    shown l.state conn = (l.relays.filter fun r => r.Meant conn).map Relay.form :=
  (recorded_of_reaches hstart hreach).kept.shown conn

/-- Bob is shown what Ann has said. -/
theorem shown_in_order_run :
    ∃ s l, start 5000 3 = some s ∧
      run logStep (Log.start s) (speaks (toAll "ann")) = some l ∧
      (l.relays.filter fun r => r.Meant 1).map Relay.form = [(heard "ann").message] := by
  have hend : ((start 5000 3).bind fun s =>
      (run logStep (Log.start s) (speaks (toAll "ann"))).map fun l =>
        decide (shown l.state 1 = [(heard "ann").message])) = some true := by decide +kernel
  rcases Option.bind_eq_some_iff.mp hend with ⟨s, hstart, hmap⟩
  rcases Option.map_eq_some_iff.mp hmap with ⟨l, hrun, hshown⟩
  refine ⟨s, l, hstart, hrun, ?_⟩
  rw [← shown_in_order 5000 3 s l hstart (reachable_of_run hrun) 1]
  exact of_decide_eq_true hshown

end Relaying

end Lab10

end OsLabs
