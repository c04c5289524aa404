import OsLabs.Chat.ClientList
import OsLabs.Lab10.Registry
import OsLabs.Lab11.Registry

/-!
# The Client List of Both Servers

The reply to a request for the list, in every state either server can reach. In
both the names of active slots are valid, so what `ClientList` says about the
text applies: the reply is the list cut to the size of a message, and whoever
takes it apart gets all names exactly when the list fits and there is somebody
in it.

A client of lab11 that asks is registered by asking, but a sweep may come
between that and the reply, so the sentence for an empty registry can be sent.

## Main definitions

* `Lists`: What a reply says about a registry.

## Theorems

* `client_list_reply`: The replies of both servers.
* `client_list_reply_two`: Two clients and the list they get.
* `long_names_cut`: Eleven clients whose list does not fit.
-/

namespace OsLabs

namespace Chat

/-- The reply is the list of the registry, cut to the size of a message, and
    the names are recovered from it exactly when there are some and nothing is
    cut off. -/
def Lists (server : Server) (reply : Message) : Prop :=
  (reply.content.str = if activeIds server = [] then bytes "No clients connected"
    else (listText server).take (MAX_MESSAGE_SIZE - 1)) ∧
  (decodeList reply.content.str = some (activeIds server) ↔
    activeIds server ≠ [] ∧ (listText server).length ≤ MAX_MESSAGE_SIZE - 1)

theorem lists_of_registryInv {server : Server} (h : RegistryInv server) (sender : List UInt8)
    (now : TimeT) :
    Lists server (create_message .MSG_CLIENT_LIST sender [] (clientList server).bytes now) :=
  ⟨(clientList_content _ _ _ now).trans (clientList_str server), decodeList_iff h.valid _ _ _ now⟩

/-- In every state the UDP server reaches, the reply to a request for the list
    lists the registry; and in every state the TCP server reaches, the message
    a handler goes on to send for one does. -/
theorem client_list_reply :
    (∀ port fd others s t, Lab11.start port fd others = some s → Reachable Lab11.step s t →
      ∀ client_addr now result,
        Lists t.host.server
          (Lab11.handle_list_request_udp t.host client_addr now result).message) ∧
    ∀ port server_socket s t, Lab10.start port server_socket = some s →
      Reachable Lab10.step s t → ∀ i handler conn msg fd now ok oks,
        msg.type = MessageType.MSG_LIST.code →
        ∃ reply, Lab10.handle t i handler conn msg fd now ok oks
            = t.setHandler i handler (.replying conn msg fd reply false) ∧
          Lists t.host.server reply := by
  constructor
  · -- In lab11 the handler builds the reply and sends it.
    intro port fd others s t hstart hreach client_addr now result
    have hinv := Lab11.reachable_preserves Lab11.kept_registryInv
      (Lab11.registryInv_start hstart) hreach
    exact lists_of_registryInv hinv Lab11.serverName now
  · -- In lab10 the reply is built under the mutex, and sent by a step of its own.
    intro port server_socket s t hstart hreach i handler conn msg fd now ok oks htype
    have hinv := Lab10.registryInv_of_reaches hstart hreach
    refine ⟨_, ?_, lists_of_registryInv hinv Lab10.serverName now⟩
    unfold Lab10.handle
    rw [if_pos htype]

/-- A datagram from which the server learns a name, and its dispatch. -/
def joins (name : List UInt8) : List Lab11.Event :=
  [.receive (create_message .MSG_LIST name [] [] 0) { sin_addr := 1, sin_port := 2 } 0 0 none,
    .dispatch 0 none fun _ => none]

/-- Two clients on each server, and what one of them gets to read. -/
theorem client_list_reply_two :
    (∃ s t, Lab11.start 5000 3 (fun _ => false) = some s ∧
      run Lab11.step s (joins (bytes "ann") ++ joins (bytes "bob")) = some t ∧
      activeIds t.host.server = [bytes "ann", bytes "bob"] ∧
      Lists t.host.server
        (Lab11.handle_list_request_udp t.host { sin_addr := 1, sin_port := 2 } 0 none).message) ∧
    ∃ s t, Lab10.start 5000 3 = some s ∧
      run Lab10.step s (.main (.start true) :: Lab10.connect 4 "ann" 0 ++
        Lab10.connect 5 "bob" 0) = some t ∧
      activeIds t.host.server = [bytes "ann", bytes "bob"] ∧
      ∀ handler, ∃ reply,
        Lab10.handle t 0 handler 0 (create_message .MSG_LIST (bytes "ann") [] [] 0) 4 0 true
            (fun _ => true)
          = t.setHandler 0 handler (.replying 0
              (create_message .MSG_LIST (bytes "ann") [] [] 0) 4 reply false) ∧
        Lists t.host.server reply := by
  constructor
  · have hend : ((Lab11.start 5000 3 fun _ => false).bind fun s =>
        run Lab11.step s (joins (bytes "ann") ++ joins (bytes "bob"))).map
          (fun t => activeIds t.host.server) = some [bytes "ann", bytes "bob"] := by decide +kernel
    rcases Option.map_eq_some_iff.mp hend with ⟨t, hbind, hids⟩
    rcases Option.bind_eq_some_iff.mp hbind with ⟨s, hstart, hrun⟩
    exact ⟨s, t, hstart, hrun, hids,
      client_list_reply.1 5000 3 _ s t hstart (reachable_of_run hrun) _ 0 none⟩
  · have hend : ((Lab10.start 5000 3).bind fun s => run Lab10.step s
        (.main (.start true) :: Lab10.connect 4 "ann" 0 ++ Lab10.connect 5 "bob" 0)).map
          (fun t => activeIds t.host.server) = some [bytes "ann", bytes "bob"] := by decide +kernel
    rcases Option.map_eq_some_iff.mp hend with ⟨t, hbind, hids⟩
    rcases Option.bind_eq_some_iff.mp hbind with ⟨s, hstart, hrun⟩
    refine ⟨s, t, hstart, hrun, hids, fun handler => ?_⟩
    exact client_list_reply.2 5000 3 s t hstart (reachable_of_run hrun) 0 handler 0 _ 4 0 true
      (fun _ => true) (by decide)

/-- A name of 99 letters. -/
def longName (i : Nat) : List UInt8 := UInt8.ofNat (97 + i) :: List.replicate 98 120

/-- Eleven clients whose names are as long as names can be. -/
def crowd : List Lab11.Event := (List.range 11).flatMap fun i => joins (longName i)

/-- Their list is longer than a message, and taking the reply apart does not
    give their names. -/
theorem long_names_cut :
    ¬ ∀ port fd others s t, Lab11.start port fd others = some s → Reachable Lab11.step s t →
      ∀ client_addr now result,
        decodeList (Lab11.handle_list_request_udp t.host client_addr now result).message.content.str
          = some (activeIds t.host.server) := by
  intro hclaim
  have hend : ((Lab11.start 5000 3 fun _ => false).bind fun s => run Lab11.step s crowd).map
      (fun t => (listText t.host.server).length) = some 1128 := by decide +kernel
  rcases Option.map_eq_some_iff.mp hend with ⟨t, hbind, hlen⟩
  rcases Option.bind_eq_some_iff.mp hbind with ⟨s, hstart, hrun⟩
  have hreach := reachable_of_run hrun
  have hinv := Lab11.reachable_preserves Lab11.kept_registryInv
    (Lab11.registryInv_start hstart) hreach
  have hdecoded := hclaim 5000 3 _ s t hstart hreach { sin_addr := 1, sin_port := 2 } 0 none
  have hfits := ((decodeList_iff hinv.valid _ _ _ 0).mp hdecoded).2
  rw [hlen] at hfits
  exact absurd hfits (by decide)

end Chat

end OsLabs
