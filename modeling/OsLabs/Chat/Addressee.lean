import OsLabs.Chat.Commands
import OsLabs.Lab10.Registration
import OsLabs.Lab11.Routing

/-!
# Who Gets a Private Message

The name in a line `2one r m` goes a long way: `strtok` takes it out of the
line, `client_send_2one` copies it into the message, and the server looks it up
in its table and sends the text to whoever it has found.

On the way it may be cut. A name that a client can have is shorter than
`MAX_CLIENT_NAME`, and `client_init` refuses any other, but `client_send_2one`
does not look at the length and takes the first 99 bytes. If they are the name
of a client, that client gets a message that was for nobody.

## Main definitions

* `NotCut`: The name fits, or nobody has what is left of it.

## Theorems

* `name_of_found`, `notCut_of_found`: Whom the server finds.
* `lab11_addressee_iff`, `lab10_addressee_iff`: What the two servers send.
* `private_addressee_iff`: The whole way, in both.
* `private_addressee_bob`: A name that is not cut.
* `private_to_another`: One that is.
-/

namespace OsLabs

namespace Chat

/-- The name fits into a message, or no client has the part of it that
    does. -/
def NotCut (r : List UInt8) (server : Server) : Prop :=
  r.length < MAX_CLIENT_NAME ∨
    ∀ i, (server.clients i).is_active = true →
      (server.clients i).client_id.str ≠ r.take (MAX_CLIENT_NAME - 1)

section Search

variable {server : Server} {client : Client} {r m : List UInt8} {stamp : TimeT}

/-- What the message says of its recipient. -/
theorem recipient_cut (hr : ∀ c ∈ r, c ≠ 0) :
    (clientMessage client .MSG_2ONE r m stamp).recipient_id.str = r.take (MAX_CLIENT_NAME - 1) := by
  have hcopy := CharArray.cstr_strncpy (CharArray.zero MAX_CLIENT_NAME) r
    (by decide : MAX_CLIENT_NAME - 1 < MAX_CLIENT_NAME) (CharArray.zero_getElem? (by decide))
  rw [cstr_of_no_zero hr] at hcopy
  exact hcopy

/-- Whoever the server finds for a name that is not cut has that name. -/
theorem name_of_found (hr : ∀ c ∈ r, c ≠ 0) (hcut : NotCut r server) {i : Fin MAX_CLIENTS}
    (hfound : find_client_by_id server
      (clientMessage client .MSG_2ONE r m stamp).recipient_id.bytes = some i) :
    (server.clients i).is_active = true ∧ (server.clients i).client_id.str = r := by
  have hmax : MAX_CLIENT_NAME = 100 := rfl
  rcases find_client_by_id_some hfound with ⟨hactive, hname⟩
  have hname' : (server.clients i).client_id.str = r.take (MAX_CLIENT_NAME - 1) :=
    hname.trans (recipient_cut hr)
  rcases hcut with hshort | hnobody
  · -- The name was copied whole.
    rw [List.take_of_length_le (by omega)] at hname'
    exact ⟨hactive, hname'⟩
  · -- Nobody has what was copied.
    exact absurd hname' (hnobody i hactive)

/-- If the server finds nobody unless some client has the name, the name is not
    cut: no client has a name that does not fit. -/
theorem notCut_of_found (client : Client) (m : List UInt8) (stamp : TimeT)
    (hinv : RegistryInv server) (hr : ∀ c ∈ r, c ≠ 0) (h : ∀ i, find_client_by_id server
      (clientMessage client .MSG_2ONE r m stamp).recipient_id.bytes = some i →
        ∃ j, (server.clients j).is_active = true ∧ (server.clients j).client_id.str = r) :
    NotCut r server := by
  by_contra hnot
  rw [NotCut, not_or, not_forall] at hnot
  rcases hnot with ⟨hlong, i, hi⟩
  rw [Classical.not_imp, not_not] at hi
  -- The client with the shorter name is found, and is to have the longer one.
  have hname : (server.clients i).client_id.str
      = cstr (clientMessage client .MSG_2ONE r m stamp).recipient_id.bytes :=
    hi.2.trans (recipient_cut hr).symm
  rcases h i ((find_client_by_id_eq_some_iff hinv _ i).mpr ⟨hi.1, hname⟩) with ⟨j, hj, hjname⟩
  have hfits : (server.clients j).client_id.str.length < MAX_CLIENT_NAME :=
    ((validate_client_id_iff _).mp (hinv.valid j hj)).2.1
  rw [hjname] at hfits
  exact hlong hfits

end Search

section Servers

variable {client : Client} {r m : List UInt8} {stamp : TimeT}

/-- The UDP server sends to nobody but the client named exactly if the name is
    not cut to that of another one. -/
theorem lab11_addressee_iff {host : Lab11.Host} (hinv : RegistryInv host.server)
    (hr : ∀ c ∈ r, c ≠ 0) (client_addr : SockAddrIn) (now : TimeT)
    (results : Fin MAX_CLIENTS → Option Nat) :
    (∀ result, ∀ d ∈ (Lab11.dispatch host (clientMessage client .MSG_2ONE r m stamp) client_addr now
        result results).2, ∃ i, (host.server.clients i).is_active = true ∧
          (host.server.clients i).client_id.str = r ∧ d.dest = (host.server.clients i).addr) ↔
      NotCut r host.server := by
  have hcodes : MessageType.MSG_2ONE.code ≠ MessageType.MSG_LIST.code ∧
      MessageType.MSG_2ONE.code ≠ MessageType.MSG_2ALL.code := by decide
  have hsent : ∀ result, (Lab11.dispatch host (clientMessage client .MSG_2ONE r m stamp) client_addr
      now result results).2 = (Lab11.handle_2one_request_udp host
        (clientMessage client .MSG_2ONE r m stamp) now result).toList := by
    intro result
    unfold Lab11.dispatch
    have htype : (clientMessage client .MSG_2ONE r m stamp).type = MessageType.MSG_2ONE.code := rfl
    rw [htype, if_neg hcodes.1, if_neg hcodes.2, if_pos rfl]
  refine ⟨fun h => notCut_of_found client m stamp hinv hr fun i hfound => ?_,
    fun hcut result d hd => ?_⟩
  · -- Whether the message is sent does not depend on the result.
    have hd := h none
    rw [hsent, Lab11.handle_2one_request_udp, hfound] at hd
    rcases hd _ List.mem_cons_self with ⟨j, hactive, hname, _⟩
    exact ⟨j, hactive, hname⟩
  · rw [hsent, Option.mem_toList, Lab11.handle_2one_request_udp, Option.map_eq_some_iff] at hd
    rcases hd with ⟨i, hfound, rfl⟩
    rcases name_of_found hr hcut hfound with ⟨hactive, hname⟩
    exact ⟨i, hactive, hname, rfl⟩

/-- What is sent arrives at the connection the descriptor stands for. -/
theorem send_dest {host : Lab10.Host} {fd : Int} {message : Message}
    {cause : Option (Lab10.Conn × Message)} {ok : Bool} {d : Lab10.Delivery}
    (h : d ∈ (host.send fd message cause ok).toList) : host.conns fd = some d.dest := by
  rcases Lab10.send_spec h with ⟨c, hc, hd⟩
  rw [hd, hc]

/-- A message to a client that is attached arrives if the system takes it. -/
theorem send_attached {host : Lab10.Host} (h : Lab10.Attached host) {i : Fin MAX_CLIENTS}
    (hactive : (host.server.clients i).is_active = true) (message : Message)
    (cause : Option (Lab10.Conn × Message)) :
    ∃ d, host.send (host.server.clients i).socket_fd message cause true = some d := by
  rcases h.connected i hactive with ⟨hfd, hopen⟩
  rcases Option.isSome_iff_exists.mp hopen with ⟨c, hc⟩
  refine ⟨{ dest := c, message := message, cause := cause }, ?_⟩
  rw [Lab10.Host.send, if_neg (by omega), hc]
  rfl

/-- The TCP server delivers to nobody else under the same condition. -/
theorem lab10_addressee_iff {s : Lab10.State} (hinv : RegistryInv s.host.server)
    (hattached : Lab10.Attached s.host) (hr : ∀ c ∈ r, c ≠ 0) (k : Nat) (h : Lab10.Handler)
    (conn : Lab10.Conn) (fd : Int) (now : TimeT) (oks : Fin MAX_CLIENTS → Bool) :
    (∀ ok, ∃ ds, (Lab10.handle s k h conn (clientMessage client .MSG_2ONE r m stamp) fd now ok
        oks).delivered = s.delivered ++ ds ∧
      ∀ d ∈ ds, ∃ i, (s.host.server.clients i).is_active = true ∧
        (s.host.server.clients i).client_id.str = r ∧
        s.host.conns (s.host.server.clients i).socket_fd = some d.dest) ↔
      NotCut r s.host.server := by
  have hcodes : MessageType.MSG_2ONE.code ≠ MessageType.MSG_LIST.code ∧
      MessageType.MSG_2ONE.code ≠ MessageType.MSG_2ALL.code := by decide
  have hdelivered : ∀ ok, ∃ priv cause, (Lab10.handle s k h conn
      (clientMessage client .MSG_2ONE r m stamp) fd now ok oks).delivered = s.delivered ++
        Lab10.send_private_message s.host priv
          (clientMessage client .MSG_2ONE r m stamp).recipient_id.bytes cause ok := by
    intro ok
    unfold Lab10.handle
    have htype : (clientMessage client .MSG_2ONE r m stamp).type = MessageType.MSG_2ONE.code := rfl
    simp only []
    rw [htype, if_neg hcodes.1, if_neg hcodes.2, if_pos rfl]
    exact ⟨_, _, rfl⟩
  refine ⟨fun hall => notCut_of_found client m stamp hinv hr fun i hfound => ?_, fun hcut ok => ?_⟩
  · -- The client found is there, so the message reaches it.
    rcases hall true with ⟨ds, hds, hnamed⟩
    rcases hdelivered true with ⟨priv, cause, hsent⟩
    rw [hsent, Lab10.send_private_message, hfound] at hds
    have hsame := List.append_cancel_left hds
    rcases send_attached hattached (find_client_by_id_some hfound).1 priv cause with ⟨d, hd⟩
    simp only [hd, Option.toList_some] at hsame
    rcases hnamed d (by rw [← hsame]; exact List.mem_cons_self) with ⟨j, hactive, hname, _⟩
    exact ⟨j, hactive, hname⟩
  · -- Whoever is found has the name, whatever becomes of the message.
    rcases hdelivered ok with ⟨priv, cause, hsent⟩
    refine ⟨_, hsent, fun d hd => ?_⟩
    unfold Lab10.send_private_message at hd
    cases hfound : find_client_by_id s.host.server
        (clientMessage client .MSG_2ONE r m stamp).recipient_id.bytes with
    | none =>
        rw [hfound] at hd
        cases hd
    | some i =>
        rw [hfound] at hd
        rcases name_of_found hr hcut hfound with ⟨hactive, hname⟩
        exact ⟨i, hactive, hname, send_dest hd⟩

end Servers

/-- A line `2one r m` sends one message, and the server that gets it, the TCP
    server or the UDP server in any state it can reach, sends the text to nobody
    but the client named `r` exactly if the name is not cut to that of another
    client. -/
theorem private_addressee_iff (client : Client) (r m : List UInt8) (stamp : TimeT) (hr : r ≠ [])
    (hspace : ∀ c ∈ r, c ≠ 32) (hm : m ≠ []) (hline : IsLine (bytes "2one " ++ (r ++ 32 :: m))) :
    ∃ msg, handle_user_input client (bytes "2one " ++ (r ++ 32 :: m)) stamp = (client, [msg]) ∧
    (∀ port fd others s t, Lab11.start port fd others = some s → Reachable Lab11.step s t →
      ∀ client_addr now results,
        ((∀ result, ∀ d ∈ (Lab11.dispatch t.host msg client_addr now result results).2,
          ∃ i, (t.host.server.clients i).is_active = true ∧
            (t.host.server.clients i).client_id.str = r ∧
            d.dest = (t.host.server.clients i).addr) ↔
          NotCut r t.host.server)) ∧
    (∀ port server_socket s t, Lab10.start port server_socket = some s →
      Reachable Lab10.step s t → ∀ k h conn fd now oks,
        ((∀ ok, ∃ ds, (Lab10.handle t k h conn msg fd now ok oks).delivered = t.delivered ++ ds ∧
          ∀ d ∈ ds, ∃ i, (t.host.server.clients i).is_active = true ∧
            (t.host.server.clients i).client_id.str = r ∧
            t.host.conns (t.host.server.clients i).socket_fd = some d.dest) ↔
          NotCut r t.host.server)) := by
  have hno : ∀ c ∈ bytes "2one " ++ (r ++ 32 :: m), c ≠ 0 := fun c hc => (hline.2 c hc).1
  have hrno : ∀ c ∈ r, c ≠ 0 :=
    fun c hc => hno c (List.mem_append_right _ (List.mem_append_left _ hc))
  refine ⟨_, handle_user_input_2one client stamp hr hspace hm hno, ?_, ?_⟩
  · intro port fd others s t hstart hreach client_addr now results
    have hinv := Lab11.reachable_preserves Lab11.kept_registryInv (Lab11.registryInv_start hstart)
      hreach
    exact lab11_addressee_iff hinv hrno client_addr now results
  · intro port server_socket s t hstart hreach k h conn fd now oks
    exact lab10_addressee_iff (Lab10.registryInv_of_reaches hstart hreach)
      (Lab10.seated_of_reaches hstart hreach).attached hrno k h conn fd now oks

/-- "ann" and "bob" register at the UDP server. -/
def annAndBob : List Lab11.Event :=
  [.receive (create_message .MSG_LIST (bytes "ann") [] [] 0) { sin_addr := 1, sin_port := 2 } 0 0
      none,
    .dispatch 0 none fun _ => none,
    .receive (create_message .MSG_LIST (bytes "bob") [] [] 0) { sin_addr := 3, sin_port := 4 } 0 0
      none,
    .dispatch 0 none fun _ => none]

/-- With both clients registered, the text goes to the one that is named, at its
    address and on its connection. -/
theorem private_addressee_bob :
    ∃ msg, handle_user_input annClient (bytes "2one bob hi") 0 = (annClient, [msg]) ∧
      (∃ s t d i, Lab11.start 5000 3 (fun _ => false) = some s ∧
        run Lab11.step s annAndBob = some t ∧
        (Lab11.dispatch t.host msg { sin_addr := 1, sin_port := 2 } 0 (some SIZEOF_MESSAGE)
          fun _ => none).2 = [d] ∧ d.dest = { sin_addr := 3, sin_port := 4 } ∧
        (t.host.server.clients i).client_id.str = bytes "bob" ∧
        d.dest = (t.host.server.clients i).addr) ∧
      ∃ s t h d i, Lab10.start 5000 3 = some s ∧
        run Lab10.step s ([.main (.start true)] ++ Lab10.connect 4 "ann" 0 ++
          Lab10.connect 5 "bob" 0) = some t ∧ t.threads[0]? = some h ∧
        (Lab10.handle t 0 h h.conn msg 4 0 true fun _ => true).delivered = t.delivered ++ [d] ∧
        d.dest = 1 ∧ (t.host.server.clients i).client_id.str = bytes "bob" ∧
        t.host.conns (t.host.server.clients i).socket_fd = some d.dest := by
  have hline : IsLine (bytes "2one " ++ (bytes "bob" ++ 32 :: bytes "hi")) := by decide +kernel
  rcases private_addressee_iff annClient (bytes "bob") (bytes "hi") 0 (by decide)
    (by decide +kernel) (by decide) hline with ⟨msg, hsent, hlab11, hlab10⟩
  have hmsg : msg = clientMessage annClient .MSG_2ONE (bytes "bob") (bytes "hi") 0 := by
    have hline' := handle_user_input_2one annClient 0 (r := bytes "bob") (m := bytes "hi")
      (by decide) (by decide +kernel) (by decide) (by decide +kernel)
    rw [hsent] at hline'
    exact List.singleton_injective (Prod.mk.inj hline').2
  have hcut : ∀ server, NotCut (bytes "bob") server := fun _ => Or.inl (by decide)
  refine ⟨msg, hsent, ?_, ?_⟩
  · have hend : ((Lab11.start 5000 3 fun _ => false).bind fun s =>
        run Lab11.step s annAndBob).map (fun t => (Lab11.dispatch t.host
          (clientMessage annClient .MSG_2ONE (bytes "bob") (bytes "hi") 0)
          { sin_addr := 1, sin_port := 2 } 0 (some SIZEOF_MESSAGE) fun _ => none).2.map
            fun d => d.dest) = some [{ sin_addr := 3, sin_port := 4 }] := by decide +kernel
    rcases Option.map_eq_some_iff.mp hend with ⟨t, hbind, hdest⟩
    rcases Option.bind_eq_some_iff.mp hbind with ⟨s, hstart, hrun⟩
    rw [← hmsg, List.map_eq_singleton_iff] at hdest
    rcases hdest with ⟨d, hd, hdest⟩
    rcases (hlab11 5000 3 _ s t hstart (reachable_of_run hrun) { sin_addr := 1, sin_port := 2 } 0
      fun _ => none).mpr (hcut _) (some SIZEOF_MESSAGE) d (by rw [hd]; exact List.mem_cons_self)
      with ⟨i, _, hname, haddr⟩
    exact ⟨s, t, d, i, hstart, hrun, hd, hdest, hname, haddr⟩
  · have hend : ((Lab10.start 5000 3).bind fun s => (run Lab10.step s ([.main (.start true)] ++
        Lab10.connect 4 "ann" 0 ++ Lab10.connect 5 "bob" 0)).bind fun t => t.threads[0]?.map fun h =>
          ((Lab10.handle t 0 h h.conn (clientMessage annClient .MSG_2ONE (bytes "bob") (bytes "hi") 0)
            4 0 true fun _ => true).delivered.drop t.delivered.length).map fun d => d.dest)
          = some [1] := by decide +kernel
    rcases Option.bind_eq_some_iff.mp hend with ⟨s, hstart, hrest⟩
    rcases Option.bind_eq_some_iff.mp hrest with ⟨t, hrun, hrest⟩
    rcases Option.map_eq_some_iff.mp hrest with ⟨h, hthread, hdest⟩
    rcases (hlab10 5000 3 s t hstart (reachable_of_run hrun) 0 h h.conn 4 0 fun _ => true).mpr
      (hcut _) true with ⟨ds, hds, hnamed⟩
    rw [← hmsg, hds, List.drop_left, List.map_eq_singleton_iff] at hdest
    rcases hdest with ⟨d, rfl, hdest⟩
    rcases hnamed d List.mem_cons_self with ⟨i, _, hname, hconn⟩
    exact ⟨s, t, h, d, i, hstart, hrun, hthread, hds, hdest, hname, hconn⟩

/-- A client with a name of 99 letters registers, and "ann" writes to a name
    that has one letter more. -/
def cutName : List Lab11.Event :=
  [.receive (create_message .MSG_LIST (List.replicate 99 97) [] [] 0)
      { sin_addr := 3, sin_port := 4 } 0 0 none,
    .dispatch 0 none fun _ => none,
    .receive (clientMessage annClient .MSG_2ONE (List.replicate 100 97) (bytes "hi") 0)
      { sin_addr := 1, sin_port := 2 } 0 0 none]

/-- The text goes to the client with the shorter name. -/
theorem private_to_another :
    handle_user_input annClient (bytes "2one " ++ (List.replicate 100 97 ++ 32 :: bytes "hi")) 0
      = (annClient, [clientMessage annClient .MSG_2ONE (List.replicate 100 97) (bytes "hi") 0]) ∧
    ∃ s t, Lab11.start 5000 3 (fun _ => false) = some s ∧ run Lab11.step s cutName = some t ∧
      (Lab11.sent t (.dispatch 0 (some SIZEOF_MESSAGE) fun _ => none)).map (fun d => d.dest)
        = [{ sin_addr := 3, sin_port := 4 }] ∧
      ∀ i, (t.host.server.clients i).is_active = true →
        (t.host.server.clients i).client_id.str ≠ List.replicate 100 97 := by
  refine ⟨?_, ?_⟩
  · refine handle_user_input_2one annClient 0 (List.cons_ne_nil _ _) (by decide +kernel) (by decide)
      (by decide +kernel)
  · have hend : ((Lab11.start 5000 3 fun _ => false).bind fun s =>
        run Lab11.step s cutName).map (fun t =>
          (Lab11.sent t (.dispatch 0 (some SIZEOF_MESSAGE) fun _ => none)).map fun d => d.dest)
          = some [{ sin_addr := 3, sin_port := 4 }] := by decide +kernel
    rcases Option.map_eq_some_iff.mp hend with ⟨t, hbind, hdest⟩
    rcases Option.bind_eq_some_iff.mp hbind with ⟨s, hstart, hrun⟩
    have hinv := Lab11.reachable_preserves Lab11.kept_registryInv (Lab11.registryInv_start hstart)
      (reachable_of_run hrun)
    refine ⟨s, t, hstart, hrun, hdest, fun i hactive hname => ?_⟩
    -- No client has a name of 100 letters.
    have hfits : (t.host.server.clients i).client_id.str.length < MAX_CLIENT_NAME :=
      ((validate_client_id_iff _).mp (hinv.valid i hactive)).2.1
    rw [hname] at hfits
    exact absurd hfits (by decide +kernel)

end Chat

end OsLabs
