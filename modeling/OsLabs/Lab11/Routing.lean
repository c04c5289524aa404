import OsLabs.Lab11.History

/-!
# Where Messages Go

The handlers of lab11 for messages to others look up addresses the first section
of `handle_message_directly` has noted. A message to all goes once to every other
client, a message to one goes to that client alone, and nobody else is written
to; where a client is, is where its last datagram has come from.

The recipients are those registered when the handler runs, under the mutex. A
sweep may come between the first section and the handler, so that may be fewer
than when the datagram was taken in.

## Theorems

* `sent_2all`, `sent_2one`: What the handlers send.
* `broadcast_exact`: A message to all, in every state reached.
* `broadcast_exact_run`: Two clients, one of which writes to all.
* `private_to_latest`: Where a client is, and a message to it, in every state
  reached.
* `private_to_latest_run`: A client that has moved.
-/

namespace OsLabs

namespace Lab11

open Chat

section Handlers

variable {t : State} {msg : Message} {client_addr : SockAddrIn}

theorem sent_2all (hpending : t.pending = some (msg, client_addr))
    (htype : msg.type = MessageType.MSG_2ALL.code) (now : TimeT) (result : Option Nat)
    (results : Fin MAX_CLIENTS → Option Nat) :
    sent t (.dispatch now result results) = handle_2all_request_udp t.host msg now results ∧
      step t (.dispatch now result results) = some { host := t.host, pending := none } := by
  have hcode : MessageType.MSG_2ALL.code ≠ MessageType.MSG_LIST.code := by decide
  simp only [sent, step, hpending, dispatch, htype, if_neg hcode, if_true, Option.map_some,
    and_self]

theorem sent_2one (hpending : t.pending = some (msg, client_addr))
    (htype : msg.type = MessageType.MSG_2ONE.code) (now : TimeT) (result : Option Nat)
    (results : Fin MAX_CLIENTS → Option Nat) :
    sent t (.dispatch now result results) = (handle_2one_request_udp t.host msg now result).toList ∧
      step t (.dispatch now result results) = some { host := t.host, pending := none } := by
  have hcodes : MessageType.MSG_2ONE.code ≠ MessageType.MSG_LIST.code ∧
      MessageType.MSG_2ONE.code ≠ MessageType.MSG_2ALL.code := by decide
  simp only [sent, step, hpending, dispatch, htype, if_neg hcodes.1, if_neg hcodes.2, if_true,
    Option.map_some, and_self]

/-- The slots a message to all goes to. -/
theorem mem_recipients (server : Server) (sender_id : List UInt8) (i : Fin MAX_CLIENTS) :
    i ∈ (List.finRange MAX_CLIENTS).filter (fun i => (server.clients i).is_active &&
        !strcmp_eq (server.clients i).client_id.bytes sender_id) ↔
      (server.clients i).is_active = true ∧
        (server.clients i).client_id.str ≠ cstr sender_id := by
  simp only [List.mem_filter, List.mem_finRange, true_and, Bool.and_eq_true, Bool.not_eq_true',
    strcmp_eq, decide_eq_false_iff_not]
  rfl

end Handlers

/-- In every state reached from the start of the server, a message to all that
    has been accepted is sent once to the address of every client but the sender,
    as a broadcast of what it says, up to its first zero byte; which attempts fail
    makes no difference to the others, and the registry stays as it is. -/
theorem broadcast_exact (port : Int) (fd : Nat) (others : Int → Bool) (s t : State)
    (hstart : start port fd others = some s) (hreach : Reachable step s t) (msg : Message)
    (client_addr : SockAddrIn) (hpending : t.pending = some (msg, client_addr))
    (htype : msg.type = MessageType.MSG_2ALL.code) (now : TimeT) (result : Option Nat)
    (results : Fin MAX_CLIENTS → Option Nat) :
    (∃ slots : List (Fin MAX_CLIENTS), slots.Nodup ∧
      (∀ i, i ∈ slots ↔ (t.host.server.clients i).is_active = true ∧
        (t.host.server.clients i).client_id.str ≠ msg.sender_id.str) ∧
      (slots.map fun i => (t.host.server.clients i).client_id.str).Nodup ∧
      (sent t (.dispatch now result results)).map (fun d => d.dest)
        = slots.map fun i => (t.host.server.clients i).addr) ∧
    (∀ d ∈ sent t (.dispatch now result results),
      d.message.type = MessageType.MSG_BROADCAST.code ∧
      d.message.sender_id.str = msg.sender_id.str ∧
      d.message.content.str = msg.content.str ∧
      d.message.content_length.toInt = msg.content.str.length) ∧
    (∀ results' : Fin MAX_CLIENTS → Option Nat,
      (sent t (.dispatch now result results')).map (fun d => (d.dest, d.message))
        = (sent t (.dispatch now result results)).map fun d => (d.dest, d.message)) ∧
    step t (.dispatch now result results) = some { host := t.host, pending := none } := by
  rcases logged_of_reachable hreach with ⟨log, hlog⟩
  have h := chronicle_of_reaches hstart hlog
  rcases h.accepted _ hpending with ⟨checked, hvalid⟩
  change validate_message msg checked = true at hvalid
  rcases validate_message_strings hvalid with ⟨hsender, _, hcontent⟩
  have hsent := fun results' => (sent_2all hpending htype now result results').1
  refine ⟨⟨_, (List.nodup_finRange MAX_CLIENTS).filter _, mem_recipients _ _, ?_, ?_⟩, ?_, ?_,
    (sent_2all hpending htype now result results).2⟩
  · -- No name is in two slots.
    refine List.Nodup.map_on (fun i hi j hj hname => ?_)
      ((List.nodup_finRange MAX_CLIENTS).filter _)
    exact h.sound.distinct i j ((mem_recipients _ _ i).mp hi).1 ((mem_recipients _ _ j).mp hj).1
      hname
  · rw [hsent, handle_2all_request_udp, List.map_map]
    rfl
  · intro d hd
    rw [hsent, handle_2all_request_udp] at hd
    rcases List.mem_map.mp hd with ⟨i, _, rfl⟩
    -- An accepted message fits its fields, so nothing is cut off.
    have hmax : MAX_CLIENT_NAME = 100 ∧ MAX_MESSAGE_SIZE = 1024 := ⟨rfl, rfl⟩
    have hwhole : (create_message .MSG_BROADCAST msg.sender_id.bytes [] msg.content.bytes
        now).content.str = msg.content.str := by
      rw [create_message_content]
      exact List.take_of_length_le (by change msg.content.str.length ≤ _; omega)
    refine ⟨rfl, ?_, hwhole, ?_⟩
    · refine (create_message_sender _ _ _ _ _).trans (List.take_of_length_le ?_)
      change msg.sender_id.str.length ≤ _
      omega
    · refine (create_message_content_length _ _ _ _ _).trans ?_
      rw [hwhole]
  · intro results'
    rw [hsent, hsent, handle_2all_request_udp, handle_2all_request_udp, List.map_map, List.map_map]
    rfl

/-- A client writes to all, and the other one is registered. -/
def twoClients : List Event :=
  claims .MSG_LIST "bob" { sin_addr := 3, sin_port := 4 } ++
    [.receive (create_message .MSG_2ALL (bytes "ann") [] (bytes "hi") 0)
      { sin_addr := 1, sin_port := 2 } 0 0 none]

theorem broadcast_exact_run :
    ∃ s t, start 5000 3 (fun _ => false) = some s ∧ run step s twoClients = some t ∧
      (sent t (.dispatch 0 none fun _ => none)).map (fun d => d.dest)
        = [{ sin_addr := 3, sin_port := 4 }] ∧
      step t (.dispatch 0 none fun _ => none) = some { host := t.host, pending := none } := by
  have hend : ((start 5000 3 fun _ => false).bind fun s => run step s twoClients).map (fun t =>
      ((sent t (.dispatch 0 none fun _ => none)).map (fun d => d.dest), t.pending))
        = some ([{ sin_addr := 3, sin_port := 4 }],
          some (create_message .MSG_2ALL (bytes "ann") [] (bytes "hi") 0,
            { sin_addr := 1, sin_port := 2 })) := by decide +kernel
  rcases Option.map_eq_some_iff.mp hend with ⟨t, hbind, hpair⟩
  rcases Option.bind_eq_some_iff.mp hbind with ⟨s, hstart, hrun⟩
  rcases Prod.mk.inj hpair with ⟨hdest, hpending⟩
  exact ⟨s, t, hstart, hrun, hdest, (broadcast_exact 5000 3 _ s t hstart (reachable_of_run hrun) _ _
    hpending rfl 0 none fun _ => none).2.2.2⟩

/-- In every state reached from the start of the server: each client is noted at
    the source of the last acceptable datagram in its name, and at the time that
    was taken in; a message to one that has been accepted is sent once, to the
    source of the recipient's last datagram, if the recipient is registered, and
    not at all otherwise, and the registry stays as it is; and taking in a
    datagram leaves the clients with other names as they are. -/
theorem private_to_latest (port : Int) (fd : Nat) (others : Int → Bool) (s t : State)
    (log : List Entry) (hstart : start port fd others = some s)
    (hreach : Reachable logged (s, []) (t, log)) :
    (∀ i, (t.host.server.clients i).is_active = true →
      lastHeard (t.host.server.clients i).client_id.str log
        = some ((t.host.server.clients i).addr, (t.host.server.clients i).last_seen)) ∧
    (∀ msg client_addr, t.pending = some (msg, client_addr) →
      msg.type = MessageType.MSG_2ONE.code → ∀ now result results,
      (∀ i, (t.host.server.clients i).is_active = true →
        (t.host.server.clients i).client_id.str = msg.recipient_id.str →
        ∃ d seen, sent t (.dispatch now result results) = [d] ∧
          lastHeard msg.recipient_id.str log = some (d.dest, seen)) ∧
      ((∀ i, (t.host.server.clients i).is_active = true →
        (t.host.server.clients i).client_id.str ≠ msg.recipient_id.str) →
        sent t (.dispatch now result results) = []) ∧
      step t (.dispatch now result results) = some { host := t.host, pending := none }) ∧
    ∀ msg client_addr checked now result t',
      step t (.receive msg client_addr checked now result) = some t' →
      ∀ i, (t.host.server.clients i).is_active = true →
        (t.host.server.clients i).client_id.str ≠ msg.sender_id.str →
        t'.host.server.clients i = t.host.server.clients i := by
  have h := chronicle_of_reaches hstart hreach
  refine ⟨fun i hactive => (h.agrees i hactive).1, ?_, ?_⟩
  · intro msg client_addr hpending htype now result results
    rcases sent_2one hpending htype now result results with ⟨hsent, hstep⟩
    refine ⟨fun i hactive hname => ?_, fun hnobody => ?_, hstep⟩
    · have hfound := (find_client_by_id_eq_some_iff h.sound msg.recipient_id.bytes i).mpr
        ⟨hactive, hname⟩
      rw [handle_2one_request_udp, hfound] at hsent
      refine ⟨_, (t.host.server.clients i).last_seen, hsent, ?_⟩
      rw [← hname]
      exact (h.agrees i hactive).1
    · have hnone := find_client_by_id_none.mpr hnobody
      rw [hsent, handle_2one_request_udp, hnone]
      rfl
  · intro msg client_addr checked now result t' hstep i hactive hname
    rcases step_receive hstep with ⟨_, ⟨_, rfl⟩ | ⟨_, hhost, _⟩⟩
    · rfl
    · rw [hhost]
      exact enroll_frame hactive hname

/-- A client comes from one address and then from another, and somebody writes to
    it. -/
def movedClient : List Event :=
  claims .MSG_LIST "ann" { sin_addr := 1, sin_port := 2 } ++
    claims .MSG_LIST "ann" { sin_addr := 5, sin_port := 6 } ++
    [.receive (create_message .MSG_2ONE (bytes "bob") (bytes "ann") (bytes "hi") 0)
      { sin_addr := 3, sin_port := 4 } 0 0 none]

theorem private_to_latest_run :
    ∃ s t log, start 5000 3 (fun _ => false) = some s ∧
      run logged (s, []) movedClient = some (t, log) ∧
      ∃ d seen, sent t (.dispatch 0 none fun _ => none) = [d] ∧
        lastHeard (bytes "ann") log = some (d.dest, seen) := by
  have hend : ((start 5000 3 fun _ => false).bind fun s => run logged (s, []) movedClient).map
      (fun l =>
        let c := l.1.host.server.clients ⟨0, by decide⟩
        (c.is_active, c.client_id.str, l.1.pending))
        = some (true, bytes "ann",
          some (create_message .MSG_2ONE (bytes "bob") (bytes "ann") (bytes "hi") 0,
            { sin_addr := 3, sin_port := 4 })) := by decide +kernel
  rcases Option.map_eq_some_iff.mp hend with ⟨⟨t, log⟩, hbind, htriple⟩
  rcases Option.bind_eq_some_iff.mp hbind with ⟨s, hstart, hrun⟩
  rcases Prod.mk.inj htriple with ⟨hactive, hpair⟩
  rcases Prod.mk.inj hpair with ⟨hname, hpending⟩
  have hrecipient : (create_message .MSG_2ONE (bytes "bob") (bytes "ann") (bytes "hi")
      0).recipient_id.str = bytes "ann" := by decide +kernel
  have hall := (private_to_latest 5000 3 _ s t log hstart (reachable_of_run hrun)).2.1 _ _ hpending
    rfl 0 none fun _ => none
  rcases hall.1 ⟨0, by decide⟩ hactive (hname.trans hrecipient.symm) with ⟨d, seen, hsent, hlast⟩
  rw [hrecipient] at hlast
  exact ⟨s, t, log, hstart, hrun, d, seen, hsent, hlast⟩

end Lab11

end OsLabs
