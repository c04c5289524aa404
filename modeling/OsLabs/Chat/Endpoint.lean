import OsLabs.Core.Inet
import OsLabs.Lab10.Requests
import OsLabs.Lab11.Server

/-!
# The Endpoint a Client Talks To

A client is started with the address of its server as a text and the port as an
integer. `client_init` keeps both, and `client_connect` converts them.

Neither says what was given when it does not fit. Of the text the first 15
bytes are kept, which are enough for any address, but a longer text is not an
address and what is kept of it may be one. The port is cut to 16 bits by
`htons`. The server does look at its port: `server_init` compares it with
`PORT_MIN` and `PORT_MAX`, and so does `parse_address`, which the client does
not use.

## Main definitions

* `serverAddr`: The address `client_connect` fills in.
* `Lab10.connectServer`, `Lab11.client_connect`: The two `client_connect`, and
  the address that the client then uses.
* `Denotes`: An address is what the arguments say.
* `Kept`: What is kept of the arguments says the same, or is refused.

## Theorems

* `serverAddr_init`: The address, from the arguments.
* `denotes_iff`: When it is the right one.
* `endpoint_iff`: The clients of both labs.
* `another_endpoint`: A port and a text that are cut.
-/

namespace OsLabs

namespace Chat

/-- The address `client_connect` fills in, unless `inet_pton` refuses the
    text. -/
def serverAddr (client : Client) : Option SockAddrIn :=
  (inet_pton client.server_ip.bytes).map fun sin_addr =>
    { sin_addr := sin_addr
      sin_port := htons (BitVec.ofInt 16 client.server_port) }

/-- The address is the one the text denotes, and the port the one given. -/
def Denotes (server_ip : List UInt8) (server_port : Int) (server_addr : SockAddrIn) : Prop :=
  inet_pton server_ip = some server_addr.sin_addr ∧
    ((htons server_addr.sin_port).toNat : Int) = server_port

/-- Nothing is cut off, or what is left of the text is no address. -/
def Kept (server_ip : List UInt8) (server_port : Int) : Prop :=
  inet_pton ((cstr server_ip).take 15) = none ∨
    strlen server_ip ≤ 15 ∧ 0 ≤ server_port ∧ server_port ≤ PORT_MAX

end Chat

open Chat

/-- `client_connect` with the address that is given to `connect`. Whether the
    server can be reached depends on the address. -/
def Lab10.connectServer (client : Client) (fd : Int) (reached : SockAddrIn → Bool) (now : TimeT)
    (rs : List Lab10.SendResult) : Option (Client × SockAddrIn) :=
  (serverAddr client).bind fun server_addr =>
    (Lab10.Requests.client_connect client fd true (reached server_addr) now rs).map fun out =>
      (out.1, server_addr)

/-- `client_connect`, or `none` when it returns -1: the client, and the message
    that has gone to the address kept in `server_addr`. The results of `socket`
    and `sendto` are `fd` and `result`. -/
def Lab11.client_connect (client : Client) (fd : Int) (now : TimeT) (result : Option Nat) :
    Option (Client × Lab11.Datagram) :=
  if fd = -1 then none
  else (serverAddr client).bind fun server_addr =>
    let client := { client with server_socket := fd }
    -- The message is not answered, so that nothing is known of the server.
    let ping := Lab11.send_message_protocol (fun k => k == fd) fd
      (client_send_list_request client now) server_addr result
    if ping.result = -1 then none
    else some ({ client with is_connected := true, is_running := true }, ping)

namespace Chat

variable {server_ip : List UInt8} {server_port : Int}

/-- `client_connect` reads 15 bytes of the text. -/
theorem serverAddr_init {client_id : List UInt8} {locks : Bool} {client : Client}
    (hinit : client_init client_id server_ip server_port locks = some client) :
    serverAddr client = (inet_pton ((cstr server_ip).take 15)).map fun sin_addr =>
      { sin_addr := sin_addr, sin_port := htons (BitVec.ofInt 16 server_port) } := by
  have hcopy := CharArray.cstr_strncpy (CharArray.zero 16) server_ip (by decide : 15 < 16)
    (CharArray.zero_getElem? (by decide))
  rw [client_init] at hinit
  -- Of the ways out of `client_init` only the last one leaves a client.
  split_ifs at hinit with hbad hlocks
  rw [Option.some.injEq] at hinit
  rw [serverAddr, ← hinit, ← inet_pton_cstr]
  exact congrArg _ (congrArg inet_pton hcopy)

/-- Sixteen bits hold the ports there are. -/
theorem port_kept_iff :
    ((BitVec.ofInt 16 server_port).toNat : Int) = server_port ↔
      0 ≤ server_port ∧ server_port ≤ PORT_MAX := by
  have hmax : PORT_MAX = 65535 := rfl
  rw [BitVec.toNat_ofInt, hmax]
  omega

/-- An address that is filled in is the right one if nothing has been cut off:
    a text that is longer is no address at all. -/
theorem denotes_iff {sin_addr : BitVec 32}
    (haddr : inet_pton ((cstr server_ip).take 15) = some sin_addr) :
    Denotes server_ip server_port
        { sin_addr := sin_addr, sin_port := htons (BitVec.ofInt 16 server_port) } ↔
      strlen server_ip ≤ 15 ∧ 0 ≤ server_port ∧ server_port ≤ PORT_MAX := by
  rw [Denotes, htons_htons, port_kept_iff]
  -- A text with an address in it is short, and a short text is kept whole.
  refine and_congr_left fun _ => ⟨inet_pton_length, fun hlen => ?_⟩
  rw [List.take_of_length_le hlen, inet_pton_cstr] at haddr
  exact haddr

/-- Every address that is filled in is the right one. -/
theorem kept_iff :
    (∀ sin_addr, inet_pton ((cstr server_ip).take 15) = some sin_addr →
      Denotes server_ip server_port
        { sin_addr := sin_addr, sin_port := htons (BitVec.ofInt 16 server_port) }) ↔
      Kept server_ip server_port := by
  unfold Kept
  cases haddr : inet_pton ((cstr server_ip).take 15) with
  | none => exact ⟨fun _ => Or.inl rfl, fun _ sin_addr hsome => (by cases hsome)⟩
  | some sin_addr =>
      refine ⟨fun h => Or.inr ((denotes_iff haddr).mp (h sin_addr rfl)), ?_⟩
      rintro (hnone | hkept) sin_addr' hsome
      · cases hnone
      · rw [← Option.some.inj hsome]
        exact (denotes_iff haddr).mpr hkept

/-- Some client is set up with the arguments. -/
theorem exists_client (server_ip : List UInt8) (server_port : Int) :
    ∃ client, client_init (bytes "ann") server_ip server_port true = some client := by
  have hname : (strlen (bytes "ann") ≥ MAX_CLIENT_NAME ||
      !validate_client_id (bytes "ann")) = false := by decide
  exact ⟨_, by rw [client_init, hname]; rfl⟩

/-- Whoever the clients of the two labs talk to, for all names, descriptors and
    results of the calls: it is the server named by the arguments exactly when
    these are kept. -/
theorem endpoint_iff (server_ip : List UInt8) (server_port : Int) :
    ((∀ client_id locks client, client_init client_id server_ip server_port locks = some client →
      ∀ fd reached now rs out, Lab10.connectServer client fd reached now rs = some out →
        Denotes server_ip server_port out.2) ↔ Kept server_ip server_port) ∧
    ((∀ client_id locks client, client_init client_id server_ip server_port locks = some client →
      ∀ fd now result out, Lab11.client_connect client fd now result = some out →
        Denotes server_ip server_port out.2.dest) ↔ Kept server_ip server_port) := by
  rcases exists_client server_ip server_port with ⟨ann, hann⟩
  constructor
  · rw [← kept_iff]
    constructor
    · intro h sin_addr haddr
      have hserver := serverAddr_init hann
      rw [haddr] at hserver
      -- The server can be reached, and closes the connection at once.
      refine h _ _ ann hann 3 (fun _ => true) 0 [.zero]
        ({ ann with server_socket := 3, is_connected := true, is_running := true }, _) ?_
      rw [Lab10.connectServer, hserver]
      rfl
    · intro h client_id locks client hinit fd reached now rs out hout
      rcases Option.bind_eq_some_iff.mp hout with ⟨server_addr, hserver, hconnect⟩
      rw [serverAddr_init hinit] at hserver
      rcases Option.map_eq_some_iff.mp hserver with ⟨sin_addr, haddr, rfl⟩
      rcases Option.map_eq_some_iff.mp hconnect with ⟨_, _, rfl⟩
      exact h sin_addr haddr
  · rw [← kept_iff]
    constructor
    · intro h sin_addr haddr
      have hserver := serverAddr_init hann
      rw [haddr] at hserver
      -- The message gets away, which is all that is asked.
      refine h _ _ ann hann 3 0 (some SIZEOF_MESSAGE)
        ({ ann with server_socket := 3, is_connected := true, is_running := true },
          Lab11.send_message_protocol (fun k => k == 3) 3
            (client_send_list_request { ann with server_socket := 3 } 0)
            { sin_addr := sin_addr, sin_port := htons (BitVec.ofInt 16 server_port) }
            (some SIZEOF_MESSAGE)) ?_
      rw [Lab11.client_connect, hserver]
      rfl
    · intro h client_id locks client hinit fd now result out hout
      unfold Lab11.client_connect at hout
      split_ifs at hout with hfd
      rcases Option.bind_eq_some_iff.mp hout with ⟨server_addr, hserver, hconnect⟩
      rw [serverAddr_init hinit] at hserver
      rcases Option.map_eq_some_iff.mp hserver with ⟨sin_addr, haddr, rfl⟩
      simp only [] at hconnect
      -- What has been sent has gone to the address filled in.
      split_ifs at hconnect with hsent
      rw [Option.some.injEq] at hconnect
      rw [← hconnect]
      exact h sin_addr haddr

/-- The port 70000 becomes 4464, and a text that is no address becomes one of
    another network. -/
theorem another_endpoint :
    (∃ client out, client_init (bytes "ann") (bytes "127.0.0.1") 70000 true = some client ∧
      Lab10.connectServer client 3 (fun _ => true) 0 [.accepted 1247] = some out ∧
      htons out.2.sin_port = 4464 ∧ ¬ Denotes (bytes "127.0.0.1") 70000 out.2) ∧
    (∃ client out, client_init (bytes "ann") (bytes "192.168.100.1000") 5000 true = some client ∧
      Lab11.client_connect client 3 0 (some SIZEOF_MESSAGE) = some out ∧
      some out.2.dest.sin_addr = inet_pton (bytes "192.168.100.100") ∧
      ¬ Denotes (bytes "192.168.100.1000") 5000 out.2.dest) := by
  constructor
  · have hport : ((client_init (bytes "ann") (bytes "127.0.0.1") 70000 true).bind fun client =>
        Lab10.connectServer client 3 (fun _ => true) 0 [.accepted 1247]).map
          (fun out => htons out.2.sin_port) = some 4464 := by decide +kernel
    rcases Option.map_eq_some_iff.mp hport with ⟨out, hrun, hout⟩
    rcases Option.bind_eq_some_iff.mp hrun with ⟨client, hinit, hconnect⟩
    refine ⟨client, out, hinit, hconnect, hout, fun hdenotes => ?_⟩
    have hsame := hdenotes.2
    rw [hout] at hsame
    revert hsame
    decide
  · have haddr : ((client_init (bytes "ann") (bytes "192.168.100.1000") 5000 true).bind
        fun client => Lab11.client_connect client 3 0 (some SIZEOF_MESSAGE)).map
          (fun out => some out.2.dest.sin_addr) = some (inet_pton (bytes "192.168.100.100")) := by
      decide +kernel
    have hnone : inet_pton (bytes "192.168.100.1000") = none := by decide +kernel
    rcases Option.map_eq_some_iff.mp haddr with ⟨out, hrun, hout⟩
    rcases Option.bind_eq_some_iff.mp hrun with ⟨client, hinit, hconnect⟩
    refine ⟨client, out, hinit, hconnect, hout, fun hdenotes => ?_⟩
    have hsome := hdenotes.1
    rw [hnone] at hsome
    cases hsome

end Chat

end OsLabs
