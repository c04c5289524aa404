import OsLabs.Chat.Causes
import OsLabs.Chat.Endpoint
import OsLabs.Chat.Listing
import OsLabs.Lab11.Frame

/-!
# The Clients and the Server Together

Any number of clients of lab11 and their server, with the network between them.
The server is the transition system of `Server`, and what a client reads from
its user is that of `Interactive`; here are the client's other thread, which
receives, and the datagrams on their way.

The network keeps every datagram that has ever been sent, so that one may be
delivered again, later than others, or not at all. It does not invent any, and a
datagram carries the address of the socket it was sent from. Of a client all
that is assumed is that `client_init` has accepted its arguments. Two of them
may have one name, and the address one was given need not be the server's.

The strings a client hands to `handle_user_input` are those of `Interactive`. One
that is too long for the copy the function makes of it is read as if it had been
copied whole.

What a client shows has then come a long way: a line was typed, the message made
of it was accepted by the server, another was built of that one, and accepted
again. On every part of the way something is noted that the next part needs.

## Main definitions

* `display_client_list`, `display_broadcast_message`, `display_private_message`,
  `handle_received_message`: What a client does with a message.
* `Peer`, `Site`, `Net`, `step`: The system.
* `FromPeer`, `FromServer`: Why a datagram is on its way.
* `Traced`: Where everything in a state of the system comes from.

## Theorems

* `traced_step`: It stays so.
* `broadcast_origin`, `private_origin`: What was typed for a text to be shown.
* `list_origin`: The clients of a list that is shown.
-/

namespace OsLabs

namespace Lab11

namespace Network

open Chat

section Display

-- What `localtime` and `strftime` make of a time in the source's `format_timestamp`.
variable (format_timestamp : TimeT → List UInt8)

def display_client_list (msg : Message) : List UInt8 :=
  bytes "\r[" ++ format_timestamp msg.timestamp ++ bytes "] Active clients:\n" ++
    msg.content.str ++ bytes "\n\r > "

def display_broadcast_message (msg : Message) : List UInt8 :=
  bytes "\r[" ++ format_timestamp msg.timestamp ++ bytes "] Broadcast from " ++
    msg.sender_id.str ++ bytes ": " ++ msg.content.str ++ bytes "\n\r > "

def display_private_message (msg : Message) : List UInt8 :=
  bytes "\r[" ++ format_timestamp msg.timestamp ++ bytes "] Private message from " ++
    msg.sender_id.str ++ bytes ": " ++ msg.content.str ++ bytes "\n\r > "

/-- `handle_received_message`: what is printed, and the message handed to
    `send_message_protocol`, if any. -/
def handle_received_message (client : Client) (msg : Message) (now : TimeT) :
    List UInt8 × Option Message :=
  if msg.type = MessageType.MSG_CLIENT_LIST.code then
    (display_client_list format_timestamp msg, none)
  else if msg.type = MessageType.MSG_BROADCAST.code then
    (display_broadcast_message format_timestamp msg, none)
  else if msg.type = MessageType.MSG_PRIVATE.code then
    (display_private_message format_timestamp msg, none)
  else if msg.type = MessageType.MSG_ALIVE.code then
    ([], some (client_send_alive_response client now))
  else if msg.type = MessageType.MSG_ERROR.code then
    (bytes "Server error: " ++ msg.content.str ++ bytes "\n", none)
  else (bytes "Received unknown message type: " ++ bytes (toString msg.type.toInt) ++ bytes "\n",
    none)

end Display

/-- What a client is started with: its arguments, and what will be typed. -/
structure Args where
  client_id : List UInt8
  server_ip : List UInt8
  server_port : Int
  stdin : List UInt8

/-- A client: its main thread with the client's record, the address it sends
    to, and the messages that its receive thread has handled, each with what it
    has printed for it. -/
structure Peer where
  session : Session
  server_addr : SockAddrIn
  shown : List (Message × List UInt8)

/-- A datagram on its way. -/
structure Packet where
  src : SockAddrIn
  dest : SockAddrIn
  image : Image

/-- The addresses of the sockets, all different. -/
structure Site (n : Nat) where
  server_addr : SockAddrIn
  addr : Fin n → SockAddrIn
  distinct : Function.Injective addr
  apart : ∀ p, addr p ≠ server_addr

/-- The system, with all datagrams that were ever sent. -/
structure Net (n : Nat) where
  server : Lab11.State
  peers : Fin n → Peer
  packets : List Packet

/-- What may happen next. The datagram a socket receives is named by its number
    among those that were sent. -/
inductive Event (n : Nat)
  /-- `client_connect` succeeds. -/
  | connect (p : Fin n) (fd : Int) (now : TimeT) (result : Option Nat)
  /-- The main thread of a client goes on. -/
  | session (p : Fin n) (e : SessionEvent)
  /-- The receive thread of a client takes a datagram. -/
  | arrive (p : Fin n) (k : Nat) (now : TimeT)
  /-- The server takes a datagram. -/
  | serve (k : Nat) (checked now : TimeT) (result : Option Nat)
  | dispatch (now : TimeT) (result : Option Nat) (results : Fin MAX_CLIENTS → Option Nat)
  | sweep (input : SweepInput)

variable {n : Nat}

def Net.setPeer (net : Net n) (p : Fin n) (peer : Peer) : Net n :=
  { net with peers := Function.update net.peers p peer }

/-- Messages sent from one socket to one address are on their way. Those for
    which `sendto` fails are among them, as if the network had lost them. -/
def Net.post (net : Net n) (src dest : SockAddrIn) (messages : List Message) : Net n :=
  { net with packets := net.packets ++ messages.map fun msg =>
      { src := src, dest := dest, image := msg.toImage } }

/-- A step of the server, with the datagrams that it sends. -/
def serverStep (site : Site n) (net : Net n) (e : Lab11.Event) : Option (Net n) :=
  (Lab11.step net.server e).map fun server =>
    { net with
      server := server
      packets := net.packets ++ (sent net.server e).map fun d =>
        { src := site.server_addr, dest := d.dest, image := d.message.toImage } }

variable (format_timestamp : TimeT → List UInt8)

/-- The threads of a client run between `client_connect` and the end of the
    program. Whether the client still `is_running` they look at between two
    calls only, so that a call that has begun may end afterwards. -/
def step (site : Site n) (net : Net n) : Event n → Option (Net n)
  | .connect p fd now result =>
    if (net.peers p).session.client.is_connected then none
    else (client_connect (net.peers p).session.client fd now result).map fun out =>
      (net.setPeer p
        { net.peers p with
          session := { (net.peers p).session with client := out.1 }
          server_addr := out.2.dest }).post (site.addr p) out.2.dest [out.2.message]
  | .session p e =>
    if (net.peers p).session.client.is_connected then
      (sessionStep (net.peers p).session e).map fun session =>
        (net.setPeer p { net.peers p with session := session }).post (site.addr p)
          (net.peers p).server_addr (session.sent.drop (net.peers p).session.sent.length)
    else none
  | .arrive p k now =>
    match net.packets[k]? with
    | none => none
    | some packet =>
      if packet.dest ≠ site.addr p ∨ !(net.peers p).session.client.is_connected then none
      else
        let msg := Message.ofImage packet.image
        -- A message that is not acceptable is reported as such, and the next one taken.
        if !validate_message msg now then some net
        else
          let out := handle_received_message format_timestamp (net.peers p).session.client msg now
          some ((net.setPeer p
            { net.peers p with
              shown := (net.peers p).shown ++ [(msg, out.1)] }).post (site.addr p)
                (net.peers p).server_addr out.2.toList)
  | .serve k checked now result =>
    match net.packets[k]? with
    | none => none
    | some packet =>
      if packet.dest ≠ site.server_addr then none
      else serverStep site net
        (.receive (Message.ofImage packet.image) packet.src checked now result)
  | .dispatch now result results => serverStep site net (.dispatch now result results)
  | .sweep input => serverStep site net (.sweep input)

/-- A client after `client_init`. -/
def Peer.start (client : Client) (stdin : List UInt8) : Peer where
  session := Session.start client stdin
  server_addr := { sin_addr := 0, sin_port := 0 }
  shown := []

/-- The server has been started, every client has been set up with its
    arguments, and nothing is on its way. -/
structure Begins (args : Fin n → Args) (net : Net n) : Prop where
  server : ∃ port fd others, Lab11.start port fd others = some net.server
  peers : ∀ p, ∃ client, client_init (args p).client_id (args p).server_ip (args p).server_port
    true = some client ∧ net.peers p = Peer.start client (args p).stdin
  packets : net.packets = []

/-- A client has sent the message. What it says was typed. -/
structure FromPeer (args : Args) (peer : Peer) (msg : Message) : Prop where
  connected : peer.session.client.is_connected = true
  sender : msg.sender_id.str = cstr args.client_id
  all : msg.type = MessageType.MSG_2ALL.code → ∀ now, validate_message msg now = true →
    ∃ line ∈ peer.session.calls, SaysAll line msg.content.str
  one : msg.type = MessageType.MSG_2ONE.code → ∀ now, validate_message msg now = true →
    ∃ line ∈ peer.session.calls, ∃ recipient, SaysOne line recipient msg.content.str ∧
      msg.recipient_id.str = recipient.take (MAX_CLIENT_NAME - 1)
  request : msg.type ≠ MessageType.MSG_BROADCAST.code ∧ msg.type ≠ MessageType.MSG_PRIVATE.code ∧
    msg.type ≠ MessageType.MSG_CLIENT_LIST.code

/-- The server has sent the message to an address. What it says was typed by the
    client it names, and the client at the address is one it is for. -/
structure FromServer (site : Site n) (args : Fin n → Args) (peers : Fin n → Peer)
    (dest : SockAddrIn) (msg : Message) : Prop where
  to_client : ∃ q, dest = site.addr q
  broadcast : msg.type = MessageType.MSG_BROADCAST.code →
    ∃ p, ∃ line ∈ (peers p).session.calls, SaysAll line msg.content.str ∧
      msg.sender_id.str = cstr (args p).client_id ∧
      ∀ q, dest = site.addr q → cstr (args q).client_id ≠ cstr (args p).client_id
  priv : msg.type = MessageType.MSG_PRIVATE.code →
    ∃ p, ∃ line ∈ (peers p).session.calls, ∃ recipient, SaysOne line recipient msg.content.str ∧
      msg.sender_id.str = cstr (args p).client_id ∧
      ∀ q, dest = site.addr q → cstr (args q).client_id = recipient.take (MAX_CLIENT_NAME - 1)
  list : msg.type = MessageType.MSG_CLIENT_LIST.code →
    ∃ ids : List (List UInt8), ids.Nodup ∧ msg.content.str = listOf ids ∧
      ∀ name ∈ ids, ∃ p, (peers p).session.client.is_connected = true ∧
        name = cstr (args p).client_id

/-- Every entry of a registry is a client under its own name and address. -/
def Enlisted (site : Site n) (args : Fin n → Args) (peers : Fin n → Peer) (server : Server) :
    Prop :=
  ∀ i, (server.clients i).is_active = true →
    ∃ p, (peers p).session.client.is_connected = true ∧
      (server.clients i).addr = site.addr p ∧
      (server.clients i).client_id.str = cstr (args p).client_id

/-- Where a datagram has come from. -/
def Origin (site : Site n) (args : Fin n → Args) (peers : Fin n → Peer) (packet : Packet) : Prop :=
  (∃ p, packet.src = site.addr p ∧ FromPeer (args p) (peers p) (Message.ofImage packet.image)) ∨
    packet.src = site.server_addr ∧
      FromServer site args peers packet.dest (Message.ofImage packet.image)

/-- A client has its name, and has called `handle_user_input` with strings that
    its buffer holds. -/
structure Typist (args : Args) (peer : Peer) : Prop where
  client_id : peer.session.client.client_id.str.take (MAX_CLIENT_NAME - 1) = cstr args.client_id
  calls : ∀ input ∈ peer.session.calls, cstr input = input ∧ input.length < BUFFER_SIZE

/-- Where everything in a state of the system has come from. -/
structure Traced (site : Site n) (args : Fin n → Args) (net : Net n) : Prop where
  sound : RegistryInv net.server.host.server
  named : ∀ p, Typist (args p) (net.peers p)
  enlisted : Enlisted site args net.peers net.server.host.server
  pending : ∀ msg addr, net.server.pending = some (msg, addr) →
    ∃ p, addr = site.addr p ∧ FromPeer (args p) (net.peers p) msg ∧
      ∃ now, validate_message msg now = true
  packets : ∀ packet ∈ net.packets, Origin site args net.peers packet
  shown : ∀ q, ∀ entry ∈ (net.peers q).shown,
    ((∃ p, FromPeer (args p) (net.peers p) entry.1) ∨
      FromServer site args net.peers (site.addr q) entry.1) ∧
    ∃ client now, entry.2 = (handle_received_message format_timestamp client entry.1 now).1

/-- The clients have gone on: what was typed stays typed, and what is connected
    stays connected. -/
def Later (peers peers' : Fin n → Peer) : Prop :=
  ∀ p, (peers p).session.calls ⊆ (peers' p).session.calls ∧
    ((peers p).session.client.is_connected = true →
      (peers' p).session.client.is_connected = true)

section Later

variable {site : Site n} {args : Fin n → Args} {peers peers' : Fin n → Peer}

/-- Only one client goes on. -/
theorem later_update {p : Fin n} {peer : Peer}
    (hcalls : (peers p).session.calls ⊆ peer.session.calls)
    (hconnected : (peers p).session.client.is_connected = true →
      peer.session.client.is_connected = true) :
    Later peers (Function.update peers p peer) := by
  intro q
  by_cases hq : q = p
  · rw [hq, Function.update_self]
    exact ⟨hcalls, hconnected⟩
  · rw [Function.update_of_ne hq]
    exact ⟨List.Subset.refl _, id⟩

theorem fromPeer_later (h : Later peers peers') {p : Fin n} {msg : Message}
    (hfrom : FromPeer (args p) (peers p) msg) : FromPeer (args p) (peers' p) msg where
  connected := (h p).2 hfrom.connected
  sender := hfrom.sender
  all htype now hvalid := by
    rcases hfrom.all htype now hvalid with ⟨line, hline, hsays⟩
    exact ⟨line, (h p).1 hline, hsays⟩
  one htype now hvalid := by
    rcases hfrom.one htype now hvalid with ⟨line, hline, hsays⟩
    exact ⟨line, (h p).1 hline, hsays⟩
  request := hfrom.request

theorem fromServer_later (h : Later peers peers') {dest : SockAddrIn} {msg : Message}
    (hfrom : FromServer site args peers dest msg) : FromServer site args peers' dest msg where
  to_client := hfrom.to_client
  broadcast htype := by
    rcases hfrom.broadcast htype with ⟨p, line, hline, hsays⟩
    exact ⟨p, line, (h p).1 hline, hsays⟩
  priv htype := by
    rcases hfrom.priv htype with ⟨p, line, hline, hsays⟩
    exact ⟨p, line, (h p).1 hline, hsays⟩
  list htype := by
    rcases hfrom.list htype with ⟨ids, hnodup, hcontent, hids⟩
    refine ⟨ids, hnodup, hcontent, fun name hname => ?_⟩
    rcases hids name hname with ⟨p, hp, hsame⟩
    exact ⟨p, (h p).2 hp, hsame⟩

theorem enlisted_later (h : Later peers peers') {server : Server}
    (henlisted : Enlisted site args peers server) : Enlisted site args peers' server := by
  intro i hi
  rcases henlisted i hi with ⟨p, hp, haddr, hname⟩
  exact ⟨p, (h p).2 hp, haddr, hname⟩

theorem origin_later (h : Later peers peers') {packet : Packet}
    (horigin : Origin site args peers packet) : Origin site args peers' packet := by
  rcases horigin with ⟨p, hsrc, hfrom⟩ | ⟨hsrc, hfrom⟩
  · exact Or.inl ⟨p, hsrc, fromPeer_later h hfrom⟩
  · exact Or.inr ⟨hsrc, fromServer_later h hfrom⟩

end Later

section Server

variable {site : Site n} {args : Fin n → Args} {peers : Fin n → Peer} {host : Host}
  {msg : Message} {now : TimeT} {result : Option Nat}

/-- No two types of messages have one code. -/
theorem code_ne {type other : MessageType} (h : type ≠ other) : type.code ≠ other.code := by
  revert h
  cases type <;> cases other <;> decide

/-- A message of any of the other types says nothing that was typed. -/
theorem fromServer_plain {dest : SockAddrIn} (type : MessageType) (htype : msg.type = type.code)
    (hdest : ∃ q, dest = site.addr q) (hbroadcast : type ≠ .MSG_BROADCAST)
    (hprivate : type ≠ .MSG_PRIVATE) (hlist : type ≠ .MSG_CLIENT_LIST) :
    FromServer site args peers dest msg where
  to_client := hdest
  broadcast h := absurd (htype.symm.trans h) (code_ne hbroadcast)
  priv h := absurd (htype.symm.trans h) (code_ne hprivate)
  list h := absurd (htype.symm.trans h) (code_ne hlist)

theorem enlisted_thinned {server server' : Server} (hthin : Thinned server server')
    (h : Enlisted site args peers server) : Enlisted site args peers server' := by
  intro i hi
  rcases hthin i hi with ⟨hactive, hid, haddr⟩
  rw [hid, haddr]
  exact h i hactive

/-- A client that is heard from is entered under its name and address. -/
theorem enlisted_enroll (h : Enlisted site args peers host.server) {p : Fin n}
    (hfrom : FromPeer (args p) (peers p) msg) :
    Enlisted site args peers (enroll host msg (site.addr p) now result).1.server := by
  have hcases := enrolled_cases host msg (site.addr p) now result
  generalize (enroll host msg (site.addr p) now result).1.server = server' at hcases ⊢
  generalize (enroll host msg (site.addr p) now result).2 = reply at hcases
  intro i hi
  cases hcases with
  | stranger absent stop => exact h i hi
  | refused absent other reply error => exact h i hi
  | known j found =>
      by_cases hij : i = j
      · rw [hij, setSlot_self]
        exact ⟨p, hfrom.connected, rfl, ((find_client_by_id_some found).2).trans hfrom.sender⟩
      · rw [setSlot_other _ _ hij] at hi ⊢
        exact h i hi
  | welcome j absent other valid free =>
      by_cases hij : i = j
      · have hself : (joined host.server j msg (site.addr p) now).clients j
            = heard (filled (host.server.clients j) host.server.server_socket (site.addr p)
              msg.sender_id.bytes now) (site.addr p) now := setSlot_self host.server j _
        rw [hij, hself]
        exact ⟨p, hfrom.connected, rfl,
          (filled_name _ _ (site.addr p) now valid).trans hfrom.sender⟩
      · have hother : (joined host.server j msg (site.addr p) now).clients i
            = host.server.clients i := setSlot_other host.server _ hij
        rw [hother] at hi ⊢
        exact h i hi

/-- The first section answers the sender, if it does, with an error. -/
theorem fromServer_enroll {p : Fin n} {d : Datagram}
    (h : (enroll host msg (site.addr p) now result).2 = some d) :
    FromServer site args peers d.dest d.message := by
  rcases enroll_cases host msg (site.addr p) now result with
    ⟨i, _, henroll⟩ | ⟨_, henroll | ⟨text, henroll⟩ | ⟨i, c, host', _, _, _, henroll⟩⟩
  · rw [henroll] at h
    cases h
  · rw [henroll] at h
    cases h
  · rw [henroll, Option.some.injEq] at h
    rw [← h]
    exact fromServer_plain .MSG_ERROR rfl ⟨p, rfl⟩ (by decide) (by decide) (by decide)
  · rw [henroll] at h
    cases h

/-- What an accepted message holds is short enough to be passed on whole. -/
theorem relayed {checked : TimeT} (hvalid : validate_message msg checked = true)
    (type : MessageType) (recipient : List UInt8) (now : TimeT) :
    (create_message type msg.sender_id.bytes recipient msg.content.bytes now).sender_id.str
        = msg.sender_id.str ∧
    (create_message type msg.sender_id.bytes recipient msg.content.bytes now).content.str
        = msg.content.str := by
  rcases validate_message_strings hvalid with ⟨hsender, _, hcontent⟩
  have hname : MAX_CLIENT_NAME = 100 := rfl
  have hsize : MAX_MESSAGE_SIZE = 1024 := rfl
  rw [create_message_sender, create_message_content]
  exact ⟨List.take_of_length_le (by rw [CharArray.str] at hsender; omega),
    List.take_of_length_le (by rw [CharArray.str] at hcontent; omega)⟩

/-- The names in the list are those of the registry. -/
theorem list_names (hsound : RegistryInv host.server)
    (h : Enlisted site args peers host.server) :
    (activeIds host.server).Nodup ∧ ∀ name ∈ activeIds host.server,
      ∃ p, (peers p).session.client.is_connected = true ∧ name = cstr (args p).client_id := by
  unfold activeIds idsOf
  constructor
  · refine List.Nodup.map_on ?_ ((List.nodup_finRange MAX_CLIENTS).filter _)
    intro i hi j hj hsame
    exact hsound.distinct i j (List.mem_filter.mp hi).2 (List.mem_filter.mp hj).2 hsame
  · intro name hname
    rcases List.mem_map.mp hname with ⟨i, hi, rfl⟩
    rcases h i (List.mem_filter.mp hi).2 with ⟨p, hp, _, hsame⟩
    exact ⟨p, hp, hsame⟩

/-- What the handlers send for a message that a client has sent. -/
theorem fromServer_dispatch (hsound : RegistryInv host.server)
    (henlisted : Enlisted site args peers host.server) {p : Fin n}
    (hfrom : FromPeer (args p) (peers p) msg) {checked : TimeT}
    (hvalid : validate_message msg checked = true) {results : Fin MAX_CLIENTS → Option Nat}
    {d : Datagram} (hd : d ∈ (dispatch host msg (site.addr p) now result results).2) :
    FromServer site args peers d.dest d.message := by
  unfold dispatch at hd
  split_ifs at hd with hlist hall hone hstop
  · rw [List.mem_singleton.mp hd]
    exact
      { to_client := ⟨p, rfl⟩
        broadcast := fun h => absurd h (code_ne (by decide : MessageType.MSG_CLIENT_LIST ≠ _))
        priv := fun h => absurd h (code_ne (by decide : MessageType.MSG_CLIENT_LIST ≠ _))
        list := fun _ => ⟨activeIds host.server, (list_names hsound henlisted).1,
          (lists_of_registryInv hsound serverName now).1, (list_names hsound henlisted).2⟩ }
  · rcases hfrom.all hall checked hvalid with ⟨line, hline, hsays⟩
    rcases List.mem_map.mp hd with ⟨i, hi, rfl⟩
    have hslot := (List.mem_filter.mp hi).2
    rw [Bool.and_eq_true] at hslot
    rcases henlisted i hslot.1 with ⟨q, _, haddr, hname⟩
    have hrelayed := relayed hvalid .MSG_BROADCAST [] now
    refine
      { to_client := ⟨q, haddr⟩
        broadcast := fun _ => ⟨p, line, hline, ?_, hrelayed.1.trans hfrom.sender, ?_⟩
        priv := fun h => absurd h (code_ne (by decide : MessageType.MSG_BROADCAST ≠ _))
        list := fun h => absurd h (code_ne (by decide : MessageType.MSG_BROADCAST ≠ _)) }
    · change SaysAll line (create_message _ _ _ _ _).content.str
      rw [hrelayed.2]
      exact hsays
    · -- The sender's own slot has been left out, and the name with it.
      intro q' hdest hsame
      have hqq : q' = q := site.distinct (hdest.symm.trans haddr)
      have hdiffers := hslot.2
      rw [strcmp_eq, Bool.not_eq_true', decide_eq_false_iff_not] at hdiffers
      refine hdiffers ?_
      change (host.server.clients i).client_id.str = msg.sender_id.str
      rw [hname, hfrom.sender, ← hqq, hsame]
  · rcases hfrom.one hone checked hvalid with ⟨line, hline, recipient, hsays, hrecipient⟩
    rw [Option.mem_toList, handle_2one_request_udp, Option.map_eq_some_iff] at hd
    rcases hd with ⟨i, hfound, rfl⟩
    rcases find_client_by_id_some hfound with ⟨hactive, hid⟩
    rcases henlisted i hactive with ⟨q, _, haddr, hname⟩
    have hrelayed := relayed hvalid .MSG_PRIVATE msg.recipient_id.bytes now
    refine
      { to_client := ⟨q, haddr⟩
        broadcast := fun h => absurd h (code_ne (by decide : MessageType.MSG_PRIVATE ≠ _))
        priv := fun _ => ⟨p, line, hline, recipient, ?_, hrelayed.1.trans hfrom.sender, ?_⟩
        list := fun h => absurd h (code_ne (by decide : MessageType.MSG_PRIVATE ≠ _)) }
    · change SaysOne line recipient (create_message _ _ _ _ _).content.str
      rw [hrelayed.2]
      exact hsays
    · intro q' hdest
      have hqq : q' = q := site.distinct (hdest.symm.trans haddr)
      rw [hqq, ← hname, hid]
      exact hrecipient
  · rw [List.mem_singleton.mp hd]
    exact fromServer_plain .MSG_STOP rfl ⟨p, rfl⟩ (by decide) (by decide) (by decide)
  · exact absurd hd List.not_mem_nil

/-- A sweep sends keepalive messages and nothing else. -/
theorem sweep_alive (input : SweepInput) (host : Host) :
    ∀ d ∈ (sweep input host).2, d.message.type = MessageType.MSG_ALIVE.code := by
  have hslot : ∀ (acc : Host × List Datagram) (i : Fin MAX_CLIENTS),
      (∀ d ∈ acc.2, d.message.type = MessageType.MSG_ALIVE.code) →
        ∀ d ∈ (sweepSlot input acc i).2, d.message.type = MessageType.MSG_ALIVE.code := by
    intro acc i hacc
    rcases sweepSlot_cases input acc i with hsame | ⟨c, counted, alive, rfl, _, rfl, rfl, hdone⟩
    · rw [hsame]
      exact hacc
    · rcases hdone with hdone | hdone | ⟨_, hdone⟩
      · rw [hdone]
        exact hacc
      all_goals
        rw [hdone]
        intro d hd
        rcases List.mem_append.mp hd with hd | hd
        · exact hacc d hd
        · rw [List.mem_singleton.mp hd]
          rfl
  exact foldl_preserves hslot _ (host, []) fun d hd => absurd hd List.not_mem_nil

end Server

section Clients

variable {s s' : Session} {e : SessionEvent}

/-- What a client is called and whether it is connected its main thread does
    not change. -/
theorem session_client (hstep : sessionStep s e = some s') :
    s'.client.client_id = s.client.client_id ∧
      s'.client.is_connected = s.client.is_connected := by
  cases e with
  | line now =>
      simp only [sessionStep] at hstep
      split_ifs at hstep
      rcases Option.map_eq_some_iff.mp hstep with ⟨got, _, rfl⟩
      have hcases := handle_user_input_cases s.client now (cstr_no_zero (stripNewline got.1))
      have hsame : handle_user_input s.client (cstr (stripNewline got.1)) now
          = handle_user_input s.client (stripNewline got.1) now := by
        unfold handle_user_input
        rw [cstr_cstr]
      rw [hsame] at hcases
      rcases hcases.2 with ⟨_, hclient⟩ | ⟨_, hclient⟩
      · simp only [hclient]
        exact ⟨rfl, rfl⟩
      · simp only [hclient]
        exact ⟨trivial, trivial⟩
  | stopped =>
      rw [sessionStep, Option.some.injEq] at hstep
      rw [← hstep]
      exact ⟨rfl, rfl⟩
  | _ =>
      simp only [sessionStep] at hstep
      split_ifs at hstep
      all_goals
        rw [← Option.some.inj hstep]
        exact ⟨rfl, rfl⟩

theorem session_calls (hstep : sessionStep s e = some s') : s.calls ⊆ s'.calls := by
  rcases sessionStep_cases hstep with ⟨_, input, _, hcalls⟩ | ⟨_, hcalls, _⟩
  · rw [hcalls]
    exact List.subset_append_left _ _
  · rw [hcalls]
    exact List.Subset.refl _

/-- A message that the main thread has just sent is caused by one of its
    strings. -/
theorem session_sent (hstep : sessionStep s e = some s') :
    ∀ msg ∈ s'.sent.drop s.sent.length, ∃ line ∈ s'.calls, ∃ now, Caused s.client line now msg := by
  have hnone : ∀ msg ∈ s.sent.drop s.sent.length,
      ∃ line ∈ s'.calls, ∃ now, Caused s.client line now msg := by
    rw [List.drop_length]
    exact fun msg hmsg => absurd hmsg List.not_mem_nil
  cases e with
  | line now =>
      simp only [sessionStep] at hstep
      split_ifs at hstep
      rcases Option.map_eq_some_iff.mp hstep with ⟨got, _, rfl⟩
      simp only [List.drop_left]
      intro msg hmsg
      exact ⟨_, List.mem_append_right _ (List.mem_singleton_self _), now, caused_of_sent hmsg⟩
  | stopped =>
      rw [sessionStep, Option.some.injEq] at hstep
      subst hstep
      exact hnone
  | _ =>
      simp only [sessionStep] at hstep
      split_ifs at hstep
      all_goals
        rw [Option.some.injEq] at hstep
        subst hstep
        exact hnone

/-- A message without a text is of the client whatever its type is. -/
theorem fromPeer_plain {args : Args} {peer : Peer} {client : Client} {now : TimeT}
    (type : MessageType) (hname : client.client_id.str.take (MAX_CLIENT_NAME - 1)
      = cstr args.client_id) (hconnected : peer.session.client.is_connected = true)
    (htype : type = .MSG_LIST ∨ type = .MSG_STOP ∨ type = .MSG_ALIVE_RESPONSE) :
    FromPeer args peer (clientMessage client type [] [] now) where
  connected := hconnected
  sender := (clientMessage_sender client type [] [] now).trans hname
  all h := by
    refine absurd h (code_ne ?_)
    rcases htype with rfl | rfl | rfl <;> decide
  one h := by
    refine absurd h (code_ne ?_)
    rcases htype with rfl | rfl | rfl <;> decide
  request := by
    refine ⟨code_ne ?_, code_ne ?_, code_ne ?_⟩
    all_goals rcases htype with rfl | rfl | rfl <;> decide

/-- A message with a text is the client's, too, when a line has caused it. -/
theorem fromPeer_caused {args : Args} {peer : Peer} {client : Client} {line : List UInt8}
    {now : TimeT} {msg : Message} (h : Caused client line now msg)
    (hname : client.client_id.str.take (MAX_CLIENT_NAME - 1) = cstr args.client_id)
    (hconnected : peer.session.client.is_connected = true) (hline : line ∈ peer.session.calls)
    (hcalls : ∀ input ∈ peer.session.calls, cstr input = input ∧ input.length < BUFFER_SIZE) :
    FromPeer args peer msg := by
  have hno : ∀ c ∈ line, c ≠ 0 := by
    rw [← (hcalls line hline).1]
    exact cstr_no_zero line
  have hshort : line.length < 2 ^ 31 := by
    have hlen := (hcalls line hline).2
    have hsize : BUFFER_SIZE = 2048 := rfl
    omega
  refine
    { connected := hconnected
      sender := ?_
      all := fun htype received hvalid => ⟨line, hline, caused_all h hno hshort htype hvalid⟩
      one := fun htype received hvalid => ⟨line, hline, caused_one h hno hshort htype hvalid⟩
      request := ?_ }
  · cases h with
    | plain type h => exact (clientMessage_sender client type [] [] now).trans hname
    | all text spoken => exact (clientMessage_sender client .MSG_2ALL [] text now).trans hname
    | one recipient text spoken =>
        exact (clientMessage_sender client .MSG_2ONE recipient text now).trans hname
  · cases h with
    | plain type h => exact (fromPeer_plain type hname hconnected (h.imp_right Or.inl)).request
    | all text spoken =>
        exact ⟨code_ne (by decide : MessageType.MSG_2ALL ≠ _),
          code_ne (by decide : MessageType.MSG_2ALL ≠ _),
          code_ne (by decide : MessageType.MSG_2ALL ≠ _)⟩
    | one recipient text spoken =>
        exact ⟨code_ne (by decide : MessageType.MSG_2ONE ≠ _),
          code_ne (by decide : MessageType.MSG_2ONE ≠ _),
          code_ne (by decide : MessageType.MSG_2ONE ≠ _)⟩

end Clients

section Steps

variable {format_timestamp : TimeT → List UInt8} {site : Site n} {args : Fin n → Args}
  {net net' : Net n}

/-- One client goes on, and sends messages of its own. -/
theorem traced_post (h : Traced format_timestamp site args net) {p : Fin n} {peer : Peer}
    (htypist : Typist (args p) peer) (hlater : Later net.peers (Function.update net.peers p peer))
    (hshown : ∀ entry ∈ peer.shown, entry ∈ (net.peers p).shown ∨
      ((∃ p', FromPeer (args p') (net.peers p') entry.1) ∨
        FromServer site args net.peers (site.addr p) entry.1) ∧
      ∃ client now, entry.2 = (handle_received_message format_timestamp client entry.1 now).1)
    {messages : List Message} (hsent : ∀ msg ∈ messages, FromPeer (args p) peer msg)
    (dest : SockAddrIn) :
    Traced format_timestamp site args ((net.setPeer p peer).post (site.addr p) dest messages) where
  sound := h.sound
  named q := by
    change Typist (args q) (Function.update net.peers p peer q)
    by_cases hq : q = p
    · subst hq
      rw [Function.update_self]
      exact htypist
    · rw [Function.update_of_ne hq]
      exact h.named q
  enlisted := enlisted_later hlater h.enlisted
  pending msg addr hpending := by
    rcases h.pending msg addr hpending with ⟨q, haddr, hfrom, hvalid⟩
    exact ⟨q, haddr, fromPeer_later hlater hfrom, hvalid⟩
  packets packet hpacket := by
    rcases List.mem_append.mp hpacket with hold | hnew
    · exact origin_later hlater (h.packets packet hold)
    · rcases List.mem_map.mp hnew with ⟨msg, hmsg, rfl⟩
      refine Or.inl ⟨p, rfl, ?_⟩
      change FromPeer (args p) (Function.update net.peers p peer p) (Message.ofImage msg.toImage)
      rw [Function.update_self, ofImage_toImage]
      exact hsent msg hmsg
  shown q entry hentry := by
    change entry ∈ (Function.update net.peers p peer q).shown at hentry
    have horigin : ((∃ p', FromPeer (args p') (net.peers p') entry.1) ∨
        FromServer site args net.peers (site.addr q) entry.1) ∧
        ∃ client now, entry.2 = (handle_received_message format_timestamp client entry.1 now).1 := by
      by_cases hq : q = p
      · rw [hq, Function.update_self] at hentry
        rw [hq]
        rcases hshown entry hentry with hold | hnew
        · exact h.shown p entry hold
        · exact hnew
      · rw [Function.update_of_ne hq] at hentry
        exact h.shown q entry hentry
    refine ⟨?_, horigin.2⟩
    rcases horigin.1 with ⟨p', hfrom⟩ | hfrom
    · exact Or.inl ⟨p', fromPeer_later hlater hfrom⟩
    · exact Or.inr (fromServer_later hlater hfrom)

/-- The server goes on. What it takes in has been sent by a client. -/
theorem traced_server (h : Traced format_timestamp site args net) {e : Lab11.Event}
    (hreceive : ∀ msg addr checked now result, e = .receive msg addr checked now result →
      ∃ p, addr = site.addr p ∧ FromPeer (args p) (net.peers p) msg)
    (hstep : serverStep site net e = some net') : Traced format_timestamp site args net' := by
  rcases Option.map_eq_some_iff.mp hstep with ⟨server, hserver, rfl⟩
  have hsound := step_preserves kept_registryInv net.server server e h.sound hserver
  -- What has to be shown is where the new registry and the new datagrams come from.
  have hmove : Enlisted site args net.peers server.host.server ∧
      (∀ msg addr, server.pending = some (msg, addr) →
        ∃ p, addr = site.addr p ∧ FromPeer (args p) (net.peers p) msg ∧
          ∃ now, validate_message msg now = true) ∧
      ∀ d ∈ sent net.server e, FromServer site args net.peers d.dest d.message := by
    cases e with
    | receive msg addr checked now result =>
        rcases hreceive msg addr checked now result rfl with ⟨p, rfl, hfrom⟩
        rcases step_receive hserver with ⟨hidle, ⟨hbad, rfl⟩ | ⟨hvalid, hhost, hpending⟩⟩
        · refine ⟨h.enlisted, h.pending, fun d hd => ?_⟩
          simp only [sent, hbad, Bool.not_false, if_true, ite_self] at hd
          exact absurd hd List.not_mem_nil
        · refine ⟨?_, ?_, ?_⟩
          · rw [hhost]
            exact enlisted_enroll h.enlisted hfrom
          · intro msg' addr' hsome
            rcases hpending with hnone | ⟨hkept, _⟩
            · rw [hnone] at hsome
              cases hsome
            · rw [hkept, Option.some.injEq, Prod.mk.injEq] at hsome
              rw [← hsome.1, ← hsome.2]
              exact ⟨p, rfl, hfrom, checked, hvalid⟩
          · intro d hd
            simp only [sent, hidle, hvalid, Option.isSome_none, Bool.not_true, Bool.false_eq_true,
              if_false, Option.mem_toList] at hd
            exact fromServer_enroll hd
    | dispatch now result results =>
        rcases Option.map_eq_some_iff.mp hserver with ⟨⟨msg, addr⟩, hpending, rfl⟩
        rcases h.pending msg addr hpending with ⟨p, rfl, hfrom, checked, hvalid⟩
        refine ⟨enlisted_thinned (thinned_dispatch _ _ _ _ _ _) h.enlisted, ?_, ?_⟩
        · intro msg' addr' hsome
          cases hsome
        · intro d hd
          simp only [sent, hpending] at hd
          exact fromServer_dispatch h.sound h.enlisted hfrom hvalid hd
    | sweep input =>
        have halive := sweep_alive input net.server.host
        rcases swept_sweep input net.server.host with ⟨hthin, haddressed⟩
        rw [Lab11.step, Option.some.injEq] at hserver
        subst hserver
        simp only [sent]
        generalize sweep input net.server.host = result at hthin haddressed halive ⊢
        refine ⟨enlisted_thinned hthin h.enlisted, h.pending, fun d hd => ?_⟩
        rcases haddressed d hd with ⟨i, hactive, _, hdest⟩
        rcases h.enlisted i hactive with ⟨p, _, haddr, _⟩
        exact fromServer_plain .MSG_ALIVE (halive d hd) ⟨p, hdest.trans haddr⟩ (by decide)
          (by decide) (by decide)
  refine
    { sound := hsound
      named := h.named
      enlisted := hmove.1
      pending := hmove.2.1
      packets := fun packet hpacket => ?_
      shown := h.shown }
  rcases List.mem_append.mp hpacket with hold | hnew
  · exact h.packets packet hold
  · rcases List.mem_map.mp hnew with ⟨d, hd, rfl⟩
    refine Or.inr ⟨rfl, ?_⟩
    rw [ofImage_toImage]
    exact hmove.2.2 d hd

/-- Whatever happens next, everything has come from somewhere. -/
theorem traced_step (h : Traced format_timestamp site args net) {e : Event n}
    (hstep : step format_timestamp site net e = some net') :
    Traced format_timestamp site args net' := by
  cases e with
  | connect p fd now result =>
      simp only [step] at hstep
      split_ifs at hstep with hidle
      rcases Option.map_eq_some_iff.mp hstep with ⟨⟨client, ping⟩, hconnect, rfl⟩
      unfold client_connect at hconnect
      split_ifs at hconnect with hfd
      rcases Option.bind_eq_some_iff.mp hconnect with ⟨server_addr, _, hsent⟩
      simp only [] at hsent
      split_ifs at hsent with hresult
      rw [Option.some.injEq, Prod.mk.injEq] at hsent
      rcases hsent with ⟨rfl, rfl⟩
      refine traced_post h ?_ ?_ ?_ ?_ _
      · exact ⟨(h.named p).client_id, (h.named p).calls⟩
      · exact later_update (List.Subset.refl _) fun _ => rfl
      · exact fun entry hentry => Or.inl hentry
      · intro msg hmsg
        rw [List.mem_singleton.mp hmsg]
        exact fromPeer_plain .MSG_LIST (h.named p).client_id rfl (Or.inl rfl)
  | session p e =>
      simp only [step] at hstep
      split_ifs at hstep with hconnected
      rcases Option.map_eq_some_iff.mp hstep with ⟨session, hsession, rfl⟩
      rcases session_client hsession with ⟨hid, hsame⟩
      have hname := (h.named p).client_id
      have hcalls := short_of_session hsession (h.named p).calls
      refine traced_post h ?_ ?_ ?_ ?_ _
      · exact ⟨by rw [hid]; exact hname, hcalls⟩
      · exact later_update (session_calls hsession) fun hc => hsame.trans hc
      · exact fun entry hentry => Or.inl hentry
      · intro msg hmsg
        rcases session_sent hsession msg hmsg with ⟨line, hline, now, hcaused⟩
        exact fromPeer_caused hcaused hname (hsame.trans hconnected) hline hcalls
  | arrive p k now =>
      simp only [step] at hstep
      cases hpacket : net.packets[k]? with
      | none =>
          rw [hpacket] at hstep
          cases hstep
      | some packet =>
          simp only [hpacket] at hstep
          have horigin := h.packets packet (List.mem_of_getElem? hpacket)
          split_ifs at hstep with hother hvalid
          · rw [← Option.some.inj hstep]
            exact h
          · rw [not_or, not_not, Bool.not_eq_true', Bool.not_eq_false] at hother
            rw [← Option.some.inj hstep]
            refine traced_post h ?_ ?_ ?_ ?_ _
            · exact ⟨(h.named p).client_id, (h.named p).calls⟩
            · exact later_update (List.Subset.refl _) fun hc => hc
            · intro entry hentry
              rcases List.mem_append.mp hentry with hold | hnew
              · exact Or.inl hold
              · rw [List.mem_singleton.mp hnew]
                refine Or.inr ⟨?_, _, _, rfl⟩
                rw [← hother.1]
                exact horigin.imp (fun ⟨q, _, hfrom⟩ => ⟨q, hfrom⟩) And.right
            · -- Only a keepalive message is answered.
              intro msg hmsg
              rw [Option.mem_toList] at hmsg
              unfold handle_received_message at hmsg
              split_ifs at hmsg
              rw [← Option.some.inj hmsg]
              exact fromPeer_plain .MSG_ALIVE_RESPONSE (h.named p).client_id hother.2
                (Or.inr (Or.inr rfl))
  | serve k checked now result =>
      simp only [step] at hstep
      cases hpacket : net.packets[k]? with
      | none =>
          rw [hpacket] at hstep
          cases hstep
      | some packet =>
          simp only [hpacket] at hstep
          split_ifs at hstep with hother
          refine traced_server h ?_ hstep
          intro msg addr checked' now' result' he
          cases he
          rcases h.packets packet (List.mem_of_getElem? hpacket) with hfrom | ⟨_, hfrom⟩
          · exact hfrom
          · -- The server sends to clients only, and so not to itself.
            rcases hfrom.to_client with ⟨q, hq⟩
            exact absurd (hq.symm.trans (not_not.mp hother)) (site.apart q)
  | dispatch now result results =>
      exact traced_server h (fun msg addr checked now' result' he => by cases he) hstep
  | sweep input =>
      exact traced_server h (fun msg addr checked now' result' he => by cases he) hstep

theorem traced_begins (h : Begins args net) : Traced format_timestamp site args net := by
  rcases h.server with ⟨port, fd, others, hstart⟩
  have hnone : ∀ i, (net.server.host.server.clients i).is_active = false ∧
      net.server.pending = none := by
    rcases Option.map_eq_some_iff.mp hstart with ⟨server, hinit, hserver⟩
    rw [← hserver, server_init_some hinit]
    exact fun i => ⟨rfl, rfl⟩
  refine
    { sound := registryInv_start hstart
      named := fun p => ?_
      enlisted := fun i hi => ?_
      pending := fun msg addr hpending => ?_
      packets := fun packet hpacket => ?_
      shown := fun q entry hentry => ?_ }
  · rcases h.peers p with ⟨client, hinit, hpeer⟩
    rw [hpeer]
    exact ⟨client_init_name hinit, fun input hinput => absurd hinput List.not_mem_nil⟩
  · rw [(hnone i).1] at hi
    cases hi
  · rw [(hnone ⟨0, by decide⟩).2] at hpending
    cases hpending
  · rw [h.packets] at hpacket
    exact absurd hpacket List.not_mem_nil
  · rcases h.peers q with ⟨client, _, hpeer⟩
    rw [hpeer] at hentry
    exact absurd hentry List.not_mem_nil

theorem traced_of_reaches (hbegins : Begins args net)
    (hreach : Reachable (step format_timestamp site) net net') :
    Traced format_timestamp site args net' :=
  hreach.invariant (traced_begins hbegins) fun _ _ _ h _ hstep => traced_step h hstep

end Steps

/-- A server and two clients, ann and bob. -/
def twoClients : Option (Net 2) :=
  (Lab11.start 5000 3 fun _ => false).bind fun server =>
    (client_init (bytes "ann") (bytes "127.0.0.1") 5000 true).bind fun ann =>
      (client_init (bytes "bob") (bytes "127.0.0.1") 5000 true).map fun bob =>
        { server := server
          peers := fun p => if p.val = 0 then Peer.start ann (bytes "2all hi\n2one bob ho\n")
            else Peer.start bob []
          packets := [] }

def twoArgs : Fin 2 → Args := fun p =>
  { client_id := if p.val = 0 then bytes "ann" else bytes "bob"
    server_ip := bytes "127.0.0.1"
    server_port := 5000
    stdin := if p.val = 0 then bytes "2all hi\n2one bob ho\n" else [] }

/-- The server is at 127.0.0.1, port 5000, as both are in memory. -/
def twoSite : Site 2 where
  server_addr := { sin_addr := 16777343, sin_port := 34835 }
  addr p := { sin_addr := 1, sin_port := BitVec.ofNat 16 p.val }
  distinct := by decide
  apart := by decide

theorem begins_twoClients {net : Net 2} (h : twoClients = some net) : Begins twoArgs net := by
  rcases Option.bind_eq_some_iff.mp h with ⟨server, hserver, h⟩
  rcases Option.bind_eq_some_iff.mp h with ⟨ann, hann, h⟩
  rcases Option.map_eq_some_iff.mp h with ⟨bob, hbob, rfl⟩
  refine ⟨⟨5000, 3, _, hserver⟩, fun p => ?_, rfl⟩
  by_cases hp : p.val = 0
  · refine ⟨ann, ?_, ?_⟩
    · simp only [twoArgs, if_pos hp]
      exact hann
    · simp only [twoArgs, if_pos hp]
  · refine ⟨bob, ?_, ?_⟩
    · simp only [twoArgs, if_neg hp]
      exact hbob
    · simp only [twoArgs, if_neg hp]

/-- The two connect, ann says something to everybody and to bob, and bob's client
    is given a list and what ann has said, the second thing first. -/
def conversation (ann bob : Fin n) : List (Event n) :=
  let handled := Event.dispatch 0 none fun _ => none
  [.connect ann 4 0 (some SIZEOF_MESSAGE), .connect bob 4 0 (some SIZEOF_MESSAGE),
    .serve 0 0 0 none, handled, .serve 1 0 0 none, handled,
    .session ann .test, .session ann (.line 0), .session ann .test, .session ann (.line 0),
    .serve 4 0 0 none, handled, .serve 5 0 0 none, handled,
    .arrive bob 7 0, .arrive bob 6 0, .arrive bob 3 0]

/-- What bob has been shown by then. -/
theorem shown_conversation : ∃ net net', Begins twoArgs net ∧
    Reachable (step (fun _ => []) twoSite) net net' ∧
    (net'.peers 1).shown.map (fun entry => entry.1.type)
      = [MessageType.MSG_PRIVATE.code, MessageType.MSG_BROADCAST.code,
        MessageType.MSG_CLIENT_LIST.code] := by
  have hend : (twoClients.bind fun net => run (step (fun _ => []) twoSite) net (conversation 0 1)).map
      (fun net => (net.peers 1).shown.map fun entry => entry.1.type)
        = some [MessageType.MSG_PRIVATE.code, MessageType.MSG_BROADCAST.code,
          MessageType.MSG_CLIENT_LIST.code] := by decide +kernel
  rcases Option.map_eq_some_iff.mp hend with ⟨net', hbind, htypes⟩
  rcases Option.bind_eq_some_iff.mp hbind with ⟨net, hnet, hrun⟩
  exact ⟨net, net', begins_twoClients hnet, reachable_of_run hrun, htypes⟩

/-- Something of a given type is among it. -/
theorem exists_shown {shown : List (Message × List UInt8)} {types : List (BitVec 32)}
    (h : shown.map (fun entry => entry.1.type) = types) {type : BitVec 32} (htype : type ∈ types) :
    ∃ entry ∈ shown, entry.1.type = type := by
  rw [← h] at htype
  exact List.mem_map.mp htype

section Origins

variable (site : Site n) (args : Fin n → Args) (net net' : Net n)

/-- A message that only the server sends has come from the server. -/
theorem fromServer_of_shown (hbegins : Begins args net)
    (hreach : Reachable (step format_timestamp site) net net') (q : Fin n)
    {entry : Message × List UInt8} (hentry : entry ∈ (net'.peers q).shown)
    (htype : entry.1.type = MessageType.MSG_BROADCAST.code ∨
      entry.1.type = MessageType.MSG_PRIVATE.code ∨
      entry.1.type = MessageType.MSG_CLIENT_LIST.code) :
    FromServer site args net'.peers (site.addr q) entry.1 ∧
      ∃ client now, entry.2 = (handle_received_message format_timestamp client entry.1 now).1 := by
  rcases (traced_of_reaches hbegins hreach).shown q entry hentry with ⟨⟨p, hfrom⟩ | hfrom, hshown⟩
  · rcases hfrom.request with ⟨hbroadcast, hprivate, hlist⟩
    rcases htype with h | h | h
    · exact absurd h hbroadcast
    · exact absurd h hprivate
    · exact absurd h hlist
  · exact ⟨hfrom, hshown⟩

/-- In every run of any clients and their server, over a network that loses,
    repeats and reorders datagrams: what a client shows as a broadcast was typed,
    word for word, behind `2all` in a line of a client with the name shown, and
    the client that shows it has another name. -/
theorem broadcast_origin (hbegins : Begins args net)
    (hreach : Reachable (step format_timestamp site) net net') (q : Fin n)
    (entry : Message × List UInt8) (hentry : entry ∈ (net'.peers q).shown)
    (htype : entry.1.type = MessageType.MSG_BROADCAST.code) :
    ∃ p, ∃ line ∈ (net'.peers p).session.calls, ∃ text, SaysAll line text ∧
      cstr (args q).client_id ≠ cstr (args p).client_id ∧
      entry.2 = bytes "\r[" ++ format_timestamp entry.1.timestamp ++ bytes "] Broadcast from " ++
        cstr (args p).client_id ++ bytes ": " ++ text ++ bytes "\n\r > " := by
  rcases fromServer_of_shown format_timestamp site args net net' hbegins hreach q hentry
    (Or.inl htype) with ⟨hfrom, client, now, hshown⟩
  rcases hfrom.broadcast htype with ⟨p, line, hline, hsays, hsender, hothers⟩
  refine ⟨p, line, hline, entry.1.content.str, hsays, hothers q rfl, ?_⟩
  have hlist : entry.1.type ≠ MessageType.MSG_CLIENT_LIST.code := by
    rw [htype]
    exact code_ne (by decide)
  rw [hshown, handle_received_message, if_neg hlist, if_pos htype, ← hsender]
  rfl

theorem broadcast_origin_two : ∃ net net', Begins twoArgs net ∧
    Reachable (step (fun _ => []) twoSite) net net' ∧
    ∃ entry ∈ (net'.peers 1).shown, ∃ p, ∃ line ∈ (net'.peers p).session.calls, ∃ text,
      SaysAll line text ∧ cstr (twoArgs 1).client_id ≠ cstr (twoArgs p).client_id ∧
      entry.2 = bytes "\r[" ++ [] ++ bytes "] Broadcast from " ++ cstr (twoArgs p).client_id ++
        bytes ": " ++ text ++ bytes "\n\r > " := by
  rcases shown_conversation with ⟨net, net', hbegins, hreach, htypes⟩
  rcases exists_shown htypes (by decide : MessageType.MSG_BROADCAST.code ∈ _) with
    ⟨entry, hentry, htype⟩
  exact ⟨net, net', hbegins, hreach, entry, hentry,
    broadcast_origin _ twoSite twoArgs net net' hbegins hreach 1 entry hentry htype⟩

/-- In every such run: what a client shows as a private message was typed, word
    for word, behind `2one` and a recipient in a line of a client with the name
    shown, and as much of the recipient as fits into a name is the name of the
    client that shows it. -/
theorem private_origin (hbegins : Begins args net)
    (hreach : Reachable (step format_timestamp site) net net') (q : Fin n)
    (entry : Message × List UInt8) (hentry : entry ∈ (net'.peers q).shown)
    (htype : entry.1.type = MessageType.MSG_PRIVATE.code) :
    ∃ p, ∃ line ∈ (net'.peers p).session.calls, ∃ recipient text,
      SaysOne line recipient text ∧
      cstr (args q).client_id = recipient.take (MAX_CLIENT_NAME - 1) ∧
      entry.2 = bytes "\r[" ++ format_timestamp entry.1.timestamp ++
        bytes "] Private message from " ++ cstr (args p).client_id ++ bytes ": " ++ text ++
        bytes "\n\r > " := by
  rcases fromServer_of_shown format_timestamp site args net net' hbegins hreach q hentry
    (Or.inr (Or.inl htype)) with ⟨hfrom, client, now, hshown⟩
  rcases hfrom.priv htype with ⟨p, line, hline, recipient, hsays, hsender, hothers⟩
  refine ⟨p, line, hline, recipient, entry.1.content.str, hsays, hothers q rfl, ?_⟩
  have hlist : entry.1.type ≠ MessageType.MSG_CLIENT_LIST.code := by
    rw [htype]
    exact code_ne (by decide)
  have hbroadcast : entry.1.type ≠ MessageType.MSG_BROADCAST.code := by
    rw [htype]
    exact code_ne (by decide)
  rw [hshown, handle_received_message, if_neg hlist, if_neg hbroadcast, if_pos htype, ← hsender]
  rfl

theorem private_origin_two : ∃ net net', Begins twoArgs net ∧
    Reachable (step (fun _ => []) twoSite) net net' ∧
    ∃ entry ∈ (net'.peers 1).shown, ∃ p, ∃ line ∈ (net'.peers p).session.calls,
      ∃ recipient text, SaysOne line recipient text ∧
      cstr (twoArgs 1).client_id = recipient.take (MAX_CLIENT_NAME - 1) ∧
      entry.2 = bytes "\r[" ++ [] ++ bytes "] Private message from " ++
        cstr (twoArgs p).client_id ++ bytes ": " ++ text ++ bytes "\n\r > " := by
  rcases shown_conversation with ⟨net, net', hbegins, hreach, htypes⟩
  rcases exists_shown htypes (by decide : MessageType.MSG_PRIVATE.code ∈ _) with
    ⟨entry, hentry, htype⟩
  exact ⟨net, net', hbegins, hreach, entry, hentry,
    private_origin _ twoSite twoArgs net net' hbegins hreach 1 entry hentry htype⟩

/-- In every such run: what a client shows as the list is the text of a list
    without repetitions of names of clients that have connected, as far as it
    fits into a message. -/
theorem list_origin (hbegins : Begins args net)
    (hreach : Reachable (step format_timestamp site) net net') (q : Fin n)
    (entry : Message × List UInt8) (hentry : entry ∈ (net'.peers q).shown)
    (htype : entry.1.type = MessageType.MSG_CLIENT_LIST.code) :
    ∃ ids : List (List UInt8), ids.Nodup ∧
      (∀ name ∈ ids, ∃ p, (net'.peers p).session.client.is_connected = true ∧
        name = cstr (args p).client_id) ∧
      entry.2 = bytes "\r[" ++ format_timestamp entry.1.timestamp ++ bytes "] Active clients:\n" ++
        listOf ids ++ bytes "\n\r > " := by
  rcases fromServer_of_shown format_timestamp site args net net' hbegins hreach q hentry
    (Or.inr (Or.inr htype)) with ⟨hfrom, client, now, hshown⟩
  rcases hfrom.list htype with ⟨ids, hnodup, hcontent, hids⟩
  refine ⟨ids, hnodup, hids, ?_⟩
  rw [hshown, handle_received_message, if_pos htype, ← hcontent]
  rfl

theorem list_origin_two : ∃ net net', Begins twoArgs net ∧
    Reachable (step (fun _ => []) twoSite) net net' ∧
    ∃ entry ∈ (net'.peers 1).shown, ∃ ids : List (List UInt8), ids.Nodup ∧
      (∀ name ∈ ids, ∃ p, (net'.peers p).session.client.is_connected = true ∧
        name = cstr (twoArgs p).client_id) ∧
      entry.2 = bytes "\r[" ++ [] ++ bytes "] Active clients:\n" ++ listOf ids ++
        bytes "\n\r > " := by
  rcases shown_conversation with ⟨net, net', hbegins, hreach, htypes⟩
  rcases exists_shown htypes (by decide : MessageType.MSG_CLIENT_LIST.code ∈ _) with
    ⟨entry, hentry, htype⟩
  exact ⟨net, net', hbegins, hreach, entry, hentry,
    list_origin _ twoSite twoArgs net net' hbegins hreach 1 entry hentry htype⟩

end Origins

end Network

end Lab11

end OsLabs
