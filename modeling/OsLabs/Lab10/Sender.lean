import OsLabs.Lab10.Server

/-!
# Whose Name a Message Carries

The server checks a client's name once, when it registers the connection. A
message that comes later on the connection has a `sender_id` of its own, which
`validate_message` requires to be terminated and nothing else, and the handlers
for MSG_2ALL and MSG_2ONE copy it into what they deliver. Nowhere is it compared
with the name in the table. So a client can speak under any name, another
client's or `SERVER` included.

What does hold is that the server adds nothing of its own: a message delivered
for a client carries the name that client wrote, the whole of it, whatever
happens to connections, slots and threads in between.

## Main definitions

* `HandlerPc.message`: The message a handler is working on.
* `IsRelayed`: The types that are delivered on behalf of a client.
* `Relays`: The invariant, on what is delivered and on what is under way.

## Theorems

* `relays_handle`: What the functions for the types of messages preserve.
* `relays_step`: What a step preserves.
* `relayed_sender`: What is relayed carries the name its cause carries.
* `relayed_sender_run`: A broadcast under the registered name.
* `borrowed_name`: A broadcast under another's name.
-/

namespace OsLabs

namespace Lab10

open Chat

/-- The message a handler is working on. -/
def HandlerPc.message : HandlerPc → Option Message
  | .received _ msg => some msg
  | .switch _ msg => some msg
  | .handling _ msg _ => some msg
  | .replying _ msg _ _ _ => some msg
  | _ => none

/-- The message is of a type that is delivered on behalf of a client. -/
def IsRelayed (message : Message) : Prop :=
  message.type = MessageType.MSG_BROADCAST.code ∨ message.type = MessageType.MSG_PRIVATE.code

instance (message : Message) : Decidable (IsRelayed message) :=
  inferInstanceAs (Decidable (_ ∨ _))

/-- What is relayed carries the name its cause carries; every message under
    way has its name terminated; and what a handler replies with is not
    relayed. -/
structure Relays (s : State) : Prop where
  delivered : ∀ d ∈ s.delivered, ∀ c m, d.cause = some (c, m) → IsRelayed d.message →
    d.message.sender_id.str = m.sender_id.str
  names : ∀ h ∈ s.threads, ∀ m, h.pc.message = some m → m.sender_id.str.length < MAX_CLIENT_NAME
  replies : ∀ h ∈ s.threads, ∀ c m fd reply last, h.pc = .replying c m fd reply last →
    ¬ IsRelayed reply

/-- A message built for a client carries its whole name. -/
theorem sender_of_create {m : Message} (hname : m.sender_id.str.length < MAX_CLIENT_NAME)
    (type : MessageType) (recipient content : List UInt8) (now : TimeT) :
    (create_message type m.sender_id.bytes recipient content now).sender_id.str
      = m.sender_id.str := by
  have hlen : (cstr m.sender_id.bytes).length ≤ MAX_CLIENT_NAME - 1 := Nat.le_sub_one_of_lt hname
  rw [create_message_sender, List.take_of_length_le hlen]
  rfl

section Preservation

variable {s s' : State}

/-- What the server delivers on its own account was not relayed, and a handler
    that has just been started works on no message. -/
theorem relays_elsewhere (h : Relays s) (hstep : Elsewhere s s') : Relays s' := by
  rcases hstep.delivered with ⟨sent, hdelivered, hsent⟩
  -- A handler is one of those before, or the new one at the top of its loop.
  have hthreads : ∀ hd ∈ s'.threads, hd ∈ s.threads ∨ hd.pc = .test := by
    intro hd hmem
    rcases hstep.threads with hsame | ⟨new, htest, hnew⟩
    · rw [hsame] at hmem
      exact Or.inl hmem
    · rw [hnew] at hmem
      rcases List.mem_append.mp hmem with hold | hlast
      · exact Or.inl hold
      · rw [List.mem_singleton.mp hlast]
        exact Or.inr htest
  refine ⟨fun d hd c m hcause htype => ?_, fun hd hmem m hpc => ?_,
    fun hd hmem c m fd reply last hpc => ?_⟩
  · rw [hdelivered] at hd
    rcases List.mem_append.mp hd with hd | hd
    · exact h.delivered d hd c m hcause htype
    · -- No message received is the cause of what is new.
      rw [hsent d hd] at hcause
      cases hcause
  · rcases hthreads hd hmem with hold | htest
    · exact h.names hd hold m hpc
    · rw [htest] at hpc
      cases hpc
  · rcases hthreads hd hmem with hold | htest
    · exact h.replies hd hold c m fd reply last hpc
    · rw [htest] at hpc
      cases hpc

/-- What changes neither handlers nor what is delivered. -/
theorem relays_of_eq (h : Relays s) (hdelivered : s'.delivered = s.delivered)
    (hthreads : s'.threads = s.threads) : Relays s' :=
  ⟨by rw [hdelivered]; exact h.delivered, by rw [hthreads]; exact h.names,
    by rw [hthreads]; exact h.replies⟩

/-- A handler moves. -/
theorem relays_setHandler (h : Relays s) (t : Nat) (hd : Handler) (pc : HandlerPc)
    (hname : ∀ m, pc.message = some m → m.sender_id.str.length < MAX_CLIENT_NAME)
    (hreply : ∀ c m fd reply last, pc = .replying c m fd reply last → ¬ IsRelayed reply) :
    Relays (s.setHandler t hd pc) := by
  refine ⟨h.delivered, fun hd' hmem => ?_, fun hd' hmem => ?_⟩
  · rcases List.mem_or_eq_of_mem_set hmem with hold | rfl
    · exact h.names hd' hold
    · exact hname
  · rcases List.mem_or_eq_of_mem_set hmem with hold | rfl
    · exact h.replies hd' hold
    · exact hreply

/-- A handler moves to a place where it works on no message. -/
theorem relays_rest (h : Relays s) (t : Nat) (hd : Handler) (pc : HandlerPc)
    (hpc : pc.message = none) : Relays (s.setHandler t hd pc) := by
  refine relays_setHandler h t hd pc (fun m hm => ?_) (fun c m fd reply last hr => ?_)
  · rw [hpc] at hm
    cases hm
  · rw [hr] at hpc
    cases hpc

/-- A handler delivers for the message it works on. -/
theorem relays_deliver (h : Relays s) {sent : List Delivery} {c : Conn} {m : Message}
    (hcause : ∀ d ∈ sent, d.cause = some (c, m))
    (hsent : ∀ d ∈ sent, IsRelayed d.message → d.message.sender_id.str = m.sender_id.str) :
    Relays (s.deliver sent) := by
  refine ⟨fun d hd c' m' hcause' htype => ?_, h.names, h.replies⟩
  rcases List.mem_append.mp hd with hd | hd
  · exact h.delivered d hd c' m' hcause' htype
  · have heq := (hcause d hd).symm.trans hcause'
    rw [← (Prod.mk.inj (Option.some.inj heq)).2]
    exact hsent d hd htype

/-- The functions for the types of messages. Two of them relay, under the name
    in the message; what the others send is of a type that is not relayed. -/
theorem relays_handle (h : Relays s) (t : Nat) (hd : Handler) (c : Conn) (m : Message) (fd : Int)
    (now : TimeT) (ok : Bool) (oks : Fin MAX_CLIENTS → Bool)
    (hname : m.sender_id.str.length < MAX_CLIENT_NAME) :
    Relays (handle s t hd c m fd now ok oks) := by
  have hreply : ∀ (type : MessageType) (recipient content : List UInt8) (last : Bool),
      ¬ IsRelayed (create_message type serverName recipient content now) →
      Relays (s.setHandler t hd (.replying c m fd
        (create_message type serverName recipient content now) last)) := by
    intro type recipient content last htype
    refine relays_setHandler h t hd _ (fun m' hm => ?_) (fun c' m' fd' reply last' hr => ?_)
    · rw [← Option.some.inj hm]
      exact hname
    · cases hr
      exact htype
  have hrest := relays_rest h t hd .test rfl
  unfold handle
  simp only []
  split_ifs
  · exact hreply _ _ _ _ (by simp [IsRelayed, create_message_type, MessageType.code])
  · -- MSG_2ALL: the broadcast is built with the name in the message received.
    refine relays_deliver hrest (fun d hd => (broadcast_message_mem hd).2) fun d hd _ => ?_
    rw [(broadcast_message_mem hd).1]
    exact sender_of_create hname _ _ _ _
  · -- MSG_2ONE: so is the private message.
    refine relays_deliver hrest (fun d hd => (send_private_message_mem hd).2) fun d hd _ => ?_
    rw [(send_private_message_mem hd).1]
    exact sender_of_create hname _ _ _ _
  · exact hreply _ _ _ _ (by simp [IsRelayed, create_message_type, MessageType.code])
  · cases find_client_by_socket s.host.server fd with
    | none => exact hrest
    | some i =>
        have hset : Relays (s.setServer
            (s.host.server.setSlot i (refreshed now (s.host.server.clients i)))) :=
          relays_of_eq h rfl rfl
        exact relays_rest hset t hd .test rfl

theorem relays_handlerStep (h : Relays s) {t : Nat} {hd : Handler} (ht : s.threads[t]? = some hd)
    {e : HandlerEvent} (hstep : handlerStep s t hd e = some s') : Relays s' := by
  have hmem := List.mem_of_getElem? ht
  cases e with
  | test =>
      rcases handlerStep_test hstep with ⟨_, rfl⟩
      refine relays_rest h t hd _ ?_
      split_ifs <;> rfl
  | call =>
      rcases handlerStep_call hstep with ⟨_, rfl⟩
      refine relays_rest h t hd _ ?_
      split_ifs <;> rfl
  | recv =>
      rcases handlerStep_recv hstep with ⟨fd, buffer, _, ⟨_, rfl⟩ | ⟨c, _, rfl⟩⟩
      · exact relays_rest h t hd _ rfl
      · exact relays_rest h t hd _ rfl
  | recv_return r now =>
      rcases handlerStep_recv_return hstep with ⟨fd, buffer, c, reads, pc, _, _, hnext, rfl⟩
      have hreads : Relays { s with reads := reads } := relays_of_eq h rfl rfl
      rcases hnext with ⟨buffer', rfl⟩ | rfl | ⟨buffer', msg, hmsg, rfl⟩
      · exact relays_rest hreads t hd _ rfl
      · exact relays_rest hreads t hd _ rfl
      · -- The one place where a message comes in: its name has been checked.
        refine relays_setHandler hreads t hd _ (fun m hm => ?_) fun _ _ _ _ _ hr => nomatch hr
        rw [← Option.some.inj hm]
        exact (validate_message_strings (validate_of_acceptable hmsg)).1
  | note now =>
      rcases handlerStep_note hstep with ⟨c, msg, hpc, rfl⟩
      have hset : Relays (s.setServer (s.host.server.setSlot hd.client
          (refreshed now (s.host.server.clients hd.client)))) := relays_of_eq h rfl rfl
      refine relays_setHandler hset t hd _ (fun m hm => ?_) fun _ _ _ _ _ hr => nomatch hr
      exact h.names hd hmem m (by rw [hpc]; exact hm)
  | switch =>
      rcases handlerStep_switch hstep with ⟨c, msg, hpc, rfl⟩
      by_cases hknown : known msg.type = true
      · rw [if_pos hknown]
        refine relays_setHandler h t hd _ (fun m hm => ?_) fun _ _ _ _ _ hr => nomatch hr
        exact h.names hd hmem m (by rw [hpc]; exact hm)
      · rw [if_neg hknown]
        exact relays_rest h t hd _ rfl
  | handle now ok oks =>
      rcases handlerStep_handle hstep with ⟨c, msg, fd, hpc, _, rfl⟩
      exact relays_handle h t hd c msg fd now ok oks (h.names hd hmem msg (by rw [hpc]; rfl))
  | reply ok =>
      rcases handlerStep_reply hstep with ⟨c, msg, fd, reply, last, hpc, rfl⟩
      -- A reply is delivered too, but its type is none of the two.
      have hrest : Relays (s.setHandler t hd (if last = true then .cleanup else .test)) := by
        refine relays_rest h t hd _ ?_
        split_ifs <;> rfl
      refine relays_deliver hrest (fun d hsent => (send_mem hsent).2) fun d hsent htype => ?_
      rw [(send_mem hsent).1] at htype
      exact absurd htype (h.replies hd hmem c msg fd reply last hpc)
  | cleanup =>
      rcases handlerStep_cleanup hstep with ⟨_, _, rfl | ⟨i, _, rfl⟩⟩
      · exact relays_rest h t hd _ rfl
      · exact relays_of_eq (relays_rest h t hd .ended rfl) rfl rfl

theorem relays_step (h : Relays s) {e : Event} (hstep : step s e = some s') : Relays s' := by
  cases e with
  | handler t e =>
      rcases Option.bind_eq_some_iff.mp hstep with ⟨hd, ht, hmove⟩
      exact relays_handlerStep h ht hmove
  | main e => exact relays_elsewhere h (mainStep_elsewhere hstep)
  | keepalive e => exact relays_elsewhere h (keepaliveStep_elsewhere hstep)
  | stop e => exact relays_elsewhere h (stopStep_elsewhere hstep)

theorem relays_start {port server_socket : Int} (h : start port server_socket = some s) :
    Relays s := by
  rcases Option.map_eq_some_iff.mp h with ⟨server, _, rfl⟩
  exact ⟨fun d hd => absurd hd List.not_mem_nil, fun hd hmem => absurd hmem List.not_mem_nil,
    fun hd hmem => absurd hmem List.not_mem_nil⟩

end Preservation

/-- In every run, a broadcast or a private message that is delivered because of
    a message received on a connection carries the name in that message. It is
    the name the connection is registered under just if the client wrote it. -/
theorem relayed_sender (port server_socket : Int) (s t : State)
    (hstart : start port server_socket = some s) (hreach : Reachable step s t)
    (d : Delivery) (hd : d ∈ t.delivered) (c : Conn) (m : Message)
    (hcause : d.cause = some (c, m)) (htype : IsRelayed d.message) :
    d.message.sender_id.str = m.sender_id.str ∧
      ∀ id, (c, id) ∈ t.registered →
        (d.message.sender_id.str = id ↔ m.sender_id.str = id) := by
  have hinv : Relays t := Reaches.invariant hreach (relays_start hstart)
    fun v e w hv _ hstep => relays_step hv hstep
  have hsender := hinv.delivered d hd c m hcause htype
  exact ⟨hsender, fun id _ => by rw [hsender]⟩

/-- Ann and Bob are there, and a message arrives on Ann's connection. -/
def speaks (msg : Message) : List Event :=
  [.main (.start true)] ++ connect 4 "ann" 0 ++ connect 5 "bob" 0 ++ awaits 0 ++ serves 0 msg 0

/-- Something for all, under a name. -/
def toAll (name : String) : Message :=
  create_message .MSG_2ALL (bytes name) [] (bytes "hello") 0

/-- What Bob gets because of it. -/
def heard (name : String) : Delivery where
  dest := 1
  message := create_message .MSG_BROADCAST (bytes name) [] (bytes "hello") 0
  cause := some (0, toAll name)

theorem relayed_sender_run :
    ∃ s t, start 5000 3 = some s ∧ run step s (speaks (toAll "ann")) = some t ∧
      heard "ann" ∈ t.delivered ∧ (0, bytes "ann") ∈ t.registered ∧
      (heard "ann").message.sender_id.str = bytes "ann" := by
  have hend : ((start 5000 3).bind fun s => (run step s (speaks (toAll "ann"))).map fun t =>
      (decide (heard "ann" ∈ t.delivered), decide ((0, bytes "ann") ∈ t.registered)))
        = some (true, true) := by decide +kernel
  rcases Option.bind_eq_some_iff.mp hend with ⟨s, hstart, hmap⟩
  rcases Option.map_eq_some_iff.mp hmap with ⟨t, hrun, hpair⟩
  rcases Prod.mk.inj hpair with ⟨hheard, hann⟩
  have hmem := of_decide_eq_true hheard
  have hreg := of_decide_eq_true hann
  have hsender := relayed_sender 5000 3 s t hstart (reachable_of_run hrun) (heard "ann") hmem 0
    (toAll "ann") rfl (by decide)
  exact ⟨s, t, hstart, hrun, hmem, hreg, (hsender.2 _ hreg).mpr (by decide +kernel)⟩

/-- Ann's client writes Bob's name into its message. -/
theorem borrowed_name :
    ¬ ∀ s t : State, start 5000 3 = some s → Reachable step s t → ∀ d ∈ t.delivered,
      ∀ c m id, d.cause = some (c, m) → IsRelayed d.message → (c, id) ∈ t.registered →
        d.message.sender_id.str = id := by
  intro hclaim
  have hend : ((start 5000 3).bind fun s => (run step s (speaks (toAll "bob"))).map fun t =>
      (decide (heard "bob" ∈ t.delivered), decide ((0, bytes "ann") ∈ t.registered)))
        = some (true, true) := by decide +kernel
  rcases Option.bind_eq_some_iff.mp hend with ⟨s, hstart, hmap⟩
  rcases Option.map_eq_some_iff.mp hmap with ⟨t, hrun, hpair⟩
  rcases Prod.mk.inj hpair with ⟨hheard, hann⟩
  -- The broadcast says Bob, and the connection is registered as Ann's.
  have hname := hclaim s t hstart (reachable_of_run hrun) (heard "bob") (of_decide_eq_true hheard)
    0 (toAll "bob") (bytes "ann") rfl (by decide) (of_decide_eq_true hann)
  exact absurd hname (by decide +kernel)

end Lab10

end OsLabs
