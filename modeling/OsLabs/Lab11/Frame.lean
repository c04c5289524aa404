import OsLabs.Lab11.Departure

/-!
# What a Datagram May Change

One call of `handle_message_directly` looks at the whole table and writes to
one slot of it at most: the one its sender had before, or the first free one,
which the sender is given then. An answer of `MSG_ERROR` tells that nothing has
been written at all.

There are five ways through the function. `handled_cases` names them with the
server each leaves behind, and the frame is read off them one by one.

## Main definitions

* `Enrolled`: The ways the first critical section can end.
* `Handled`: The ways the whole function can end.
* `HeldBy`, `GivenTo`: The slot a sender had, and the one it is given.
* `DatagramFrame`: What is left alone and how the count moves.

## Theorems

* `enrolled_cases`, `handled_cases`: Every call ends in one of the ways.
* `frame_of_handled`: Every way keeps to the frame.
* `datagram_frame`: The function does.
-/

namespace OsLabs

namespace Lab11

open Chat

/-- The table after a new client was put into slot `i` and heard from. -/
def joined (server : Server) (i : Fin MAX_CLIENTS) (msg : Message) (client_addr : SockAddrIn)
    (now : TimeT) : Server :=
  { server.setSlot i (heard (filled (server.clients i) server.server_socket client_addr
      msg.sender_id.bytes now) client_addr now) with client_count := server.client_count + 1 }

/-- The ways the first critical section can end, with the tests that lead
    there. -/
inductive Enrolled (server : Server) (msg : Message) (client_addr : SockAddrIn) (now : TimeT) :
    Server → Option Datagram → Prop
  | known (i : Fin MAX_CLIENTS) (found : find_client_by_id server msg.sender_id.bytes = some i) :
      Enrolled server msg client_addr now
        (server.setSlot i (heard (server.clients i) client_addr now)) none
  | stranger (absent : find_client_by_id server msg.sender_id.bytes = none)
      (stop : msg.type = MessageType.MSG_STOP.code) :
      Enrolled server msg client_addr now server none
  | refused (absent : find_client_by_id server msg.sender_id.bytes = none)
      (other : msg.type ≠ MessageType.MSG_STOP.code) (reply : Datagram)
      (error : reply.message.type = MessageType.MSG_ERROR.code) :
      Enrolled server msg client_addr now server (some reply)
  | welcome (i : Fin MAX_CLIENTS)
      (absent : find_client_by_id server msg.sender_id.bytes = none)
      (other : msg.type ≠ MessageType.MSG_STOP.code)
      (valid : validate_client_id msg.sender_id.bytes = true) (free : freeSlot server = some i) :
      Enrolled server msg client_addr now (joined server i msg client_addr now) none

/-- The ways `handle_message_directly` can end. A STOP takes out the slot its
    sender was found in, after it has been refreshed. -/
inductive Handled (server : Server) (msg : Message) (client_addr : SockAddrIn) (now : TimeT) :
    Server → Prop
  | enrolled {server' : Server} {reply : Option Datagram}
      (enrolled : Enrolled server msg client_addr now server' reply)
      (rest : msg.type = MessageType.MSG_STOP.code →
        find_client_by_id server msg.sender_id.bytes = none) :
      Handled server msg client_addr now server'
  | left (i : Fin MAX_CLIENTS) (found : find_client_by_id server msg.sender_id.bytes = some i)
      (stop : msg.type = MessageType.MSG_STOP.code) :
      Handled server msg client_addr now
        (remove_client (server.setSlot i (heard (server.clients i) client_addr now)) i).1

/-- The sender of a message has the slot. -/
def HeldBy (msg : Message) (server : Server) (i : Fin MAX_CLIENTS) : Prop :=
  (server.clients i).is_active = true ∧ (server.clients i).client_id.str = msg.sender_id.str

/-- The slot was the first free one, and the sender, who had none, has it
    now. -/
def GivenTo (msg : Message) (server server' : Server) (i : Fin MAX_CLIENTS) : Prop :=
  freeSlot server = some i ∧ ¬ Registered msg.sender_id.str server ∧ HeldBy msg server' i

/-- What a message may change in the server's record, and how the count
    follows. -/
structure DatagramFrame (msg : Message) (server server' : Server) : Prop where
  server_socket : server'.server_socket = server.server_socket
  port : server'.port = server.port
  is_running : server'.is_running = server.is_running
  others : ∀ i, ¬ HeldBy msg server i → ¬ GivenTo msg server server' i →
    server'.clients i = server.clients i
  grows : server'.client_count = server.client_count + 1 ↔
    ¬ Registered msg.sender_id.str server ∧ Registered msg.sender_id.str server'
  shrinks : server'.client_count = server.client_count - 1 ↔
    Registered msg.sender_id.str server ∧ msg.type = MessageType.MSG_STOP.code
  moves : server'.client_count = server.client_count ∨
    server'.client_count = server.client_count + 1 ∨
    server'.client_count = server.client_count - 1

section Cases

variable {host : Host} {msg : Message} {client_addr : SockAddrIn} {now : TimeT}
  {result : Option Nat}

theorem enrolled_cases (host : Host) (msg : Message) (client_addr : SockAddrIn) (now : TimeT)
    (result : Option Nat) :
    Enrolled host.server msg client_addr now (enroll host msg client_addr now result).1.server
      (enroll host msg client_addr now result).2 := by
  unfold enroll
  cases hfound : find_client_by_id host.server msg.sender_id.bytes with
  | some i => exact .known i hfound
  | none =>
      simp only []
      split_ifs with hstop hvalid
      · exact .stranger hfound hstop
      · exact .refused hfound hstop _ rfl
      · unfold add_client_udp fillSlot
        cases hfree : freeSlot host.server with
        | none => exact .refused hfound hstop _ rfl
        | some i =>
            have hwelcome : Enrolled host.server msg client_addr now _ none :=
              .welcome i hfound hstop (by simpa using hvalid) hfree
            -- The slot is written twice in one section.
            simpa only [joined, Server.setSlot, Function.update_self, Function.update_idem] using
              hwelcome

/-- A first section that ends with a reply has changed nothing. -/
theorem enroll_refused {reply : Datagram}
    (hreply : (enroll host msg client_addr now result).2 = some reply) :
    (enroll host msg client_addr now result).1.server = host.server := by
  have hcases := enrolled_cases host msg client_addr now result
  rw [hreply] at hcases
  generalize (enroll host msg client_addr now result).1.server = server at hcases ⊢
  -- Of the four ways only one has a reply.
  cases hcases with
  | refused absent other reply error => rfl

/-- The handlers answer no error. -/
theorem dispatch_no_error {results : Fin MAX_CLIENTS → Option Nat} {d : Datagram}
    (hd : d ∈ (dispatch host msg client_addr now result results).2) :
    d.message.type ≠ MessageType.MSG_ERROR.code := by
  have hcode : ∀ type : MessageType, type ≠ .MSG_ERROR →
      type.code ≠ MessageType.MSG_ERROR.code := by
    intro type
    cases type <;> decide
  unfold dispatch at hd
  -- The type of each answer is in the source.
  split_ifs at hd with hlist hall hone hstop
  · rw [List.mem_singleton.mp hd]
    exact hcode .MSG_CLIENT_LIST (by decide)
  · rcases List.mem_map.mp hd with ⟨i, _, rfl⟩
    exact hcode .MSG_BROADCAST (by decide)
  · rw [Option.mem_toList, handle_2one_request_udp, Option.map_eq_some_iff] at hd
    rcases hd with ⟨i, _, rfl⟩
    exact hcode .MSG_PRIVATE (by decide)
  · rw [List.mem_singleton.mp hd]
    exact hcode .MSG_STOP (by decide)
  · exact absurd hd List.not_mem_nil

/-- Hearing from a client changes nothing that a search looks at. -/
theorem find_heard (server : Server) (i : Fin MAX_CLIENTS) (client_addr : SockAddrIn)
    (now : TimeT) (client_id : List UInt8) :
    find_client_by_id (server.setSlot i (heard (server.clients i) client_addr now)) client_id
      = find_client_by_id server client_id := by
  unfold find_client_by_id
  congr 1
  funext j
  by_cases hji : j = i
  · -- The slot keeps its name and stays active.
    rw [hji, setSlot_self]
    rfl
  · rw [setSlot_other _ _ hji]

/-- A STOP of a client takes it out. -/
theorem dispatch_stop_known {i : Fin MAX_CLIENTS}
    (htype : msg.type = MessageType.MSG_STOP.code)
    (hfound : find_client_by_id host.server msg.sender_id.bytes = some i)
    (results : Fin MAX_CLIENTS → Option Nat) :
    (dispatch host msg client_addr now result results).1.server
      = (remove_client host.server i).1 := by
  have hcodes : MessageType.MSG_STOP.code ≠ MessageType.MSG_LIST.code ∧
      MessageType.MSG_STOP.code ≠ MessageType.MSG_2ALL.code ∧
      MessageType.MSG_STOP.code ≠ MessageType.MSG_2ONE.code := by decide
  rw [dispatch, htype, if_neg hcodes.1, if_neg hcodes.2.1, if_neg hcodes.2.2, if_pos rfl,
    handle_stop_request_udp, hfound]
  rfl

/-- No handler takes out anybody for a sender that is not registered. -/
theorem dispatch_absent (hnone : find_client_by_id host.server msg.sender_id.bytes = none)
    (results : Fin MAX_CLIENTS → Option Nat) :
    (dispatch host msg client_addr now result results).1 = host := by
  unfold dispatch
  split_ifs
  · rfl
  · rfl
  · rfl
  · rw [handle_stop_request_udp, hnone]
  · rfl

theorem handled_cases (results : Fin MAX_CLIENTS → Option Nat) :
    Handled host.server msg client_addr now
      (handle_message_directly host msg client_addr now result results).1.server := by
  have hcases := enrolled_cases host msg client_addr now result
  unfold handle_message_directly
  cases henroll : enroll host msg client_addr now result with
  | mk host' reply =>
      rw [henroll] at hcases
      cases reply with
      | some d =>
          -- A STOP is not answered in the first section.
          refine .enrolled hcases fun hstop => ?_
          have hnone : (enroll host msg client_addr now result).2 = none := (enroll_stop hstop).1
          rw [henroll] at hnone
          cases hnone
      | none =>
          by_cases hstop : msg.type = MessageType.MSG_STOP.code
          · cases hfound : find_client_by_id host.server msg.sender_id.bytes with
            | none =>
                have hsame : (enroll host msg client_addr now result).1 = host :=
                  (enroll_stop hstop).2 hfound
                rw [henroll] at hsame
                simp only [] at hsame ⊢
                rw [hsame, dispatch_absent hfound]
                exact .enrolled (.stranger hfound hstop) fun _ => hfound
            | some i =>
                -- The slot has been refreshed before its client is taken out.
                have hknown : host'.server
                    = host.server.setSlot i (heard (host.server.clients i) client_addr now) := by
                  unfold enroll at henroll
                  rw [hfound] at henroll
                  rw [← (Prod.mk.inj henroll).1]
                have hagain : find_client_by_id host'.server msg.sender_id.bytes = some i := by
                  rw [hknown, find_heard, hfound]
                rw [dispatch_stop_known hstop hagain, hknown]
                exact .left i hfound hstop
          · rw [dispatch_host hstop]
            exact .enrolled hcases fun h => absurd h hstop

end Cases

section Frames

variable {server server' : Server} {msg : Message} {client_addr : SockAddrIn} {now : TimeT}

theorem registered_of_find {i : Fin MAX_CLIENTS}
    (hfound : find_client_by_id server msg.sender_id.bytes = some i) :
    Registered msg.sender_id.str server := ⟨i, find_client_by_id_some hfound⟩

/-- Nothing is changed for a sender that is not registered and stays so, nor
    for one whose message is no STOP. -/
theorem frame_same (habsent : find_client_by_id server msg.sender_id.bytes = none) :
    DatagramFrame msg server server where
  server_socket := rfl
  port := rfl
  is_running := rfl
  others _ _ _ := rfl
  grows := ⟨fun h => by omega, fun h => absurd h.2 h.1⟩
  shrinks := ⟨fun h => by omega, fun h => absurd h.1 (not_registered_of_find habsent)⟩
  moves := Or.inl rfl

theorem frame_known {i : Fin MAX_CLIENTS}
    (hfound : find_client_by_id server msg.sender_id.bytes = some i)
    (hother : msg.type ≠ MessageType.MSG_STOP.code) :
    DatagramFrame msg server (server.setSlot i (heard (server.clients i) client_addr now)) where
  server_socket := rfl
  port := rfl
  is_running := rfl
  others j hheld _ := setSlot_other server _ fun hji => hheld (by
    rw [hji]
    exact find_client_by_id_some hfound)
  grows := ⟨fun h => by simp [Server.setSlot] at h, fun h => absurd (registered_of_find hfound) h.1⟩
  shrinks := ⟨fun h => by simp [Server.setSlot] at h; omega, fun h => absurd h.2 hother⟩
  moves := Or.inl rfl

theorem frame_joined {i : Fin MAX_CLIENTS}
    (habsent : find_client_by_id server msg.sender_id.bytes = none)
    (hother : msg.type ≠ MessageType.MSG_STOP.code)
    (hvalid : validate_client_id msg.sender_id.bytes = true) (hfree : freeSlot server = some i) :
    DatagramFrame msg server (joined server i msg client_addr now) := by
  have hself : (joined server i msg client_addr now).clients i
      = heard (filled (server.clients i) server.server_socket client_addr msg.sender_id.bytes now)
        client_addr now := setSlot_self server i _
  -- The name fits into the slot whole, so it is the sender's.
  have hheld : HeldBy msg (joined server i msg client_addr now) i := by
    rw [HeldBy, hself]
    exact ⟨rfl, filled_name (server.clients i) server.server_socket client_addr now hvalid⟩
  have hnew := not_registered_of_find habsent
  exact
    { server_socket := rfl
      port := rfl
      is_running := rfl
      others := fun j _ hgiven => setSlot_other server _ fun hji => hgiven (by
        rw [hji]
        exact ⟨hfree, hnew, hheld⟩)
      grows := ⟨fun _ => ⟨hnew, i, hheld⟩, fun _ => rfl⟩
      shrinks := ⟨fun h => by simp only [joined] at h; omega, fun h => absurd h.2 hother⟩
      moves := Or.inr (Or.inl rfl) }

theorem frame_left {i : Fin MAX_CLIENTS}
    (hfound : find_client_by_id server msg.sender_id.bytes = some i)
    (hstop : msg.type = MessageType.MSG_STOP.code) :
    DatagramFrame msg server
      (remove_client (server.setSlot i (heard (server.clients i) client_addr now)) i).1 := by
  have hactive : (heard (server.clients i) client_addr now).is_active = true :=
    (find_client_by_id_some hfound).1
  -- What the refreshing has written is gone with the client.
  have hremoved : (remove_client (server.setSlot i (heard (server.clients i) client_addr now)) i).1
      = { server.setSlot i (cleared (heard (server.clients i) client_addr now)) with
          client_count := server.client_count - 1 } := by
    rw [remove_client, setSlot_self, if_pos hactive]
    simp only [Server.setSlot, Function.update_idem]
  rw [hremoved]
  exact
    { server_socket := rfl
      port := rfl
      is_running := rfl
      others := fun j hheld _ => setSlot_other server _ fun hji => hheld (by
        rw [hji]
        exact find_client_by_id_some hfound)
      grows := ⟨fun h => by simp only [] at h; omega,
        fun h => absurd (registered_of_find hfound) h.1⟩
      shrinks := ⟨fun _ => ⟨registered_of_find hfound, hstop⟩, fun _ => rfl⟩
      moves := Or.inr (Or.inr rfl) }

theorem frame_of_handled (h : Handled server msg client_addr now server') :
    DatagramFrame msg server server' := by
  cases h with
  | left i found stop => exact frame_left found stop
  | enrolled enrolled rest =>
      cases enrolled with
      | known i found =>
          -- A STOP of a client that is known has ended the other way.
          refine frame_known found fun hstop => ?_
          rw [rest hstop] at found
          cases found
      | stranger absent stop => exact frame_same absent
      | refused absent other reply error => exact frame_same absent
      | welcome i absent other valid free => exact frame_joined absent other valid free

end Frames

/-- In any table, also one in which two clients have one name: a message that
    is answered with `MSG_ERROR` changes nothing. Any other leaves alone every
    slot but the one its sender had and the first free one where the sender has
    been given it, moves the count up by one exactly where the sender is newly
    registered and down by one exactly where a registered sender stops, and a
    STOP of anybody else changes nothing. -/
theorem datagram_frame (host : Host) (msg : Message) (client_addr : SockAddrIn) (now : TimeT)
    (result : Option Nat) (results : Fin MAX_CLIENTS → Option Nat) :
    let after := handle_message_directly host msg client_addr now result results
    ((∃ d ∈ after.2, d.message.type = MessageType.MSG_ERROR.code) →
      after.1.server = host.server) ∧
    DatagramFrame msg host.server after.1.server ∧
    (msg.type = MessageType.MSG_STOP.code → ¬ Registered msg.sender_id.str host.server →
      after.1.server = host.server) := by
  have hhandled : Handled host.server msg client_addr now
      (handle_message_directly host msg client_addr now result results).1.server :=
    handled_cases results
  refine ⟨?_, frame_of_handled hhandled, ?_⟩
  · rintro ⟨d, hd, herror⟩
    -- Only the first section answers an error, and it has changed nothing then.
    cases hreply : (enroll host msg client_addr now result).2 with
    | none =>
        unfold handle_message_directly at hd
        cases henroll : enroll host msg client_addr now result with
        | mk host' reply =>
            rw [henroll] at hreply hd
            simp only [] at hreply
            rw [hreply] at hd
            exact absurd herror (dispatch_no_error hd)
    | some reply =>
        have hsame := enroll_refused hreply
        unfold handle_message_directly
        cases henroll : enroll host msg client_addr now result with
        | mk host' answer =>
            rw [henroll] at hreply hsame
            simp only [] at hreply
            rw [hreply]
            exact hsame
  · intro hstop hnot
    generalize (handle_message_directly host msg client_addr now result results).1.server = server'
      at hhandled ⊢
    cases hhandled with
    | left i found stop => exact absurd (registered_of_find found) hnot
    | enrolled enrolled rest =>
        cases enrolled with
        | known i found => exact absurd (registered_of_find found) hnot
        | stranger absent stop => rfl
        | refused absent other reply error => rfl
        | welcome i absent other valid free => exact absurd hstop other

/-- A first message to a server that has just been started. -/
theorem datagram_frame_first :
    ∃ s, start 5000 3 (fun _ => false) = some s ∧
      let msg := create_message .MSG_LIST (bytes "ann") [] [] 0
      let after := handle_message_directly s.host msg { sin_addr := 1, sin_port := 2 } 0 none
        (fun _ => none)
      DatagramFrame msg s.host.server after.1.server ∧
        after.1.server.client_count = s.host.server.client_count + 1 := by
  have hsome : (start 5000 3 (fun _ => false)).isSome = true := by decide
  rcases Option.isSome_iff_exists.mp hsome with ⟨s, hstart⟩
  have hframe := datagram_frame s.host (create_message .MSG_LIST (bytes "ann") [] [] 0)
    { sin_addr := 1, sin_port := 2 } 0 none fun _ => none
  have hcount : ((start 5000 3 (fun _ => false)).all fun s => decide
      ((handle_message_directly s.host (create_message .MSG_LIST (bytes "ann") [] [] 0)
        { sin_addr := 1, sin_port := 2 } 0 none (fun _ => none)).1.server.client_count
          = s.host.server.client_count + 1)) = true := by decide +kernel
  rw [hstart, Option.all_some, decide_eq_true_eq] at hcount
  exact ⟨s, hstart, hframe.2.1, hcount⟩

end Lab11

end OsLabs
