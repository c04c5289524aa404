import OsLabs.Chat.Common

/-!
# The Chat Client

The messages a chat client sends, from `client.c` of lab10 and lab11, which
build them alike.

All of the client's functions fill in a zeroed record: the type, the client's
own name, the time, and for the two that carry text also the recipient, the
text and its length. `clientMessage` is that record and each function is an
application of it.

The server judges what arrives with `validate_message`, and the two sides do
not agree about length. The text is cut to the `MAX_MESSAGE_SIZE - 1` bytes
that fit, but the length sent along is that of the uncut text, so from
`MAX_MESSAGE_SIZE` bytes on the record contradicts itself and is refused. The
input buffer of the client is twice as large, so users reach this.
`client_message_agrees_iff` says for which texts the two sides agree. Besides
the short ones it names those whose length, cut to the 32 bits of
`content_length`, happens to be the length of the cut text.

## Main definitions

* `Client`, `client_init`: The client's record and its set-up.
* `clientMessage`: The record every sending function fills in.
* `client_send_list_request`, `client_send_2all`, `client_send_2one`,
  `client_send_stop`, `client_send_alive_response`: The message each of these
  hands to `send_message_protocol`, if any.
* `Agrees`: A message states its length and is accepted in time.
* `LengthFits`: The length sent along is that of the text sent.

## Theorems

* `clientMessage_valid_iff`: When a client's message is acceptable.
* `clientMessage_agrees_iff`: When it also states its length.
* `client_init_name`: The name a client is set up with.
* `long_text_refused`: Longer texts are refused at any time.
* `client_message_agrees_iff`: The agreement of client and server.
* `client_message_agrees_hello`: It covers an ordinary text.
* `client_message_1024_refused`: It does not cover a text of 1024 bytes.
-/

namespace OsLabs

namespace Chat

/-- The client's record, without its thread and its locks. -/
structure Client where
  server_socket : Int
  client_id : CharArray MAX_CLIENT_NAME
  server_ip : CharArray 16
  server_port : Int
  is_connected : Bool
  is_running : Bool
  deriving DecidableEq

/-- `client_init`, or `none` when it returns -1. Whether the locks and the
    condition variable can be created is `locks`. -/
def client_init (client_id server_ip : List UInt8) (server_port : Int) (locks : Bool) :
    Option Client :=
  if strlen client_id ≥ MAX_CLIENT_NAME || !validate_client_id client_id then none
  else if !locks then none
  else some
    { server_socket := -1
      client_id := (CharArray.zero MAX_CLIENT_NAME).strncpy client_id (MAX_CLIENT_NAME - 1)
      server_ip := (CharArray.zero 16).strncpy server_ip 15
      server_port := server_port
      is_connected := false
      is_running := false }

/-- The record a sending function fills in. A function without recipient or
    text leaves these fields zero, as copying the empty string does. -/
def clientMessage (client : Client) (type : MessageType) (recipient_id message : List UInt8)
    (now : TimeT) : Message where
  type := type.code
  sender_id := (CharArray.zero MAX_CLIENT_NAME).strncpy client.client_id.bytes (MAX_CLIENT_NAME - 1)
  recipient_id := (CharArray.zero MAX_CLIENT_NAME).strncpy recipient_id (MAX_CLIENT_NAME - 1)
  content := (CharArray.zero MAX_MESSAGE_SIZE).strncpy message (MAX_MESSAGE_SIZE - 1)
  timestamp := now
  content_length := BitVec.ofNat 32 (strlen message)

def client_send_list_request (client : Client) (now : TimeT) : Message :=
  clientMessage client .MSG_LIST [] [] now

/-- The message sent, or `none` when the call is refused. -/
def client_send_2all (client : Client) (message : List UInt8) (now : TimeT) : Option Message :=
  if strlen message = 0 then none else some (clientMessage client .MSG_2ALL [] message now)

/-- The message sent, or `none` when the call is refused. -/
def client_send_2one (client : Client) (recipient_id message : List UInt8) (now : TimeT) :
    Option Message :=
  if strlen message = 0 then none
  else some (clientMessage client .MSG_2ONE recipient_id message now)

def client_send_stop (client : Client) (now : TimeT) : Message :=
  clientMessage client .MSG_STOP [] [] now

def client_send_alive_response (client : Client) (now : TimeT) : Message :=
  clientMessage client .MSG_ALIVE_RESPONSE [] [] now

/-- Client and server agree on a message: it states the length of its content,
    and the server accepts it whenever it arrives in time, by a clock that is not
    at the ends of `time_t`. -/
def Agrees (msg : Message) : Prop :=
  msg.content_length.toInt = strlen msg.content.bytes ∧
  ∀ now, Ordinary now → Timely msg now → validate_message msg now = true

/-- The text is short enough not to be cut, or its length loses as much in the
    32 bits of `content_length` as the text loses in `content`. -/
def LengthFits (message : List UInt8) : Prop :=
  strlen message < MAX_MESSAGE_SIZE ∨ strlen message % 2 ^ 32 = MAX_MESSAGE_SIZE - 1

section Built

variable (client : Client) (type : MessageType) (recipient_id message : List UInt8) (now : TimeT)

theorem clientMessage_sender :
    (clientMessage client type recipient_id message now).sender_id.str
      = client.client_id.str.take (MAX_CLIENT_NAME - 1) :=
  CharArray.cstr_strncpy _ client.client_id.bytes (by decide) (CharArray.zero_getElem? (by decide))

theorem clientMessage_content :
    (clientMessage client type recipient_id message now).content.str
      = (cstr message).take (MAX_MESSAGE_SIZE - 1) :=
  CharArray.cstr_strncpy _ message (by decide) (CharArray.zero_getElem? (by decide))

/-- The length sent along is the length of the uncut text, as far as 32 bits
    can hold it. -/
theorem clientMessage_content_length :
    (clientMessage client type recipient_id message now).content_length.toInt
      = (strlen message : Int).bmod (2 ^ 32) :=
  BitVec.toInt_ofNat' _

/-- A client's message is acceptable in time exactly when the stated length
    is: its names and its text are terminated whatever their length was. -/
theorem clientMessage_valid_iff (t : TimeT) :
    validate_message (clientMessage client type recipient_id message now) t = true ↔
      (0 ≤ (strlen message : Int).bmod (2 ^ 32) ∧
        (strlen message : Int).bmod (2 ^ 32) < MAX_MESSAGE_SIZE) ∧
      Recent (clientMessage client type recipient_id message now) t := by
  have htype : type.code.toNat ≤ 9 := by cases type <;> decide
  have hlast : ∀ (n : Nat) (src : List UInt8), 0 < n →
      ((CharArray.zero n).strncpy src (n - 1)).bytes[n - 1]? = some 0 := by
    intro n src hn
    -- The copy stops before the last byte, which is still zero.
    have hlen : ((cstr src).take (n - 1)).length
        + (List.replicate (n - 1 - (cstr src).length) (0 : UInt8)).length = n - 1 := by
      rw [List.length_take, List.length_replicate]
      omega
    rw [CharArray.bytes_strncpy _ _ (Nat.sub_le n 1), ← List.append_assoc,
      List.getElem?_append_right (by rw [List.length_append]; omega), List.length_append, hlen,
      Nat.sub_self, List.getElem?_drop, Nat.add_zero]
    exact CharArray.zero_getElem? (by omega)
  rw [validate_message_iff, clientMessage_content_length]
  have hs := hlast MAX_CLIENT_NAME client.client_id.bytes (by decide)
  have hr := hlast MAX_CLIENT_NAME recipient_id (by decide)
  have hc := hlast MAX_MESSAGE_SIZE message (by decide)
  exact ⟨fun h => ⟨h.2.1, h.2.2.2.2.2⟩, fun h => ⟨htype, h.1, hs, hr, hc, h.2⟩⟩

/-- Client and server agree on a message exactly when its length fits. The
    stated length decides: once it is that of the text sent, it is within the
    limits as well. -/
theorem clientMessage_agrees_iff :
    Agrees (clientMessage client type recipient_id message now) ↔ LengthFits message := by
  have hstored : strlen (clientMessage client type recipient_id message now).content.bytes
      = min (MAX_MESSAGE_SIZE - 1) (strlen message) := by
    have hstr := clientMessage_content client type recipient_id message now
    rw [CharArray.str] at hstr
    rw [strlen, hstr, List.length_take, strlen]
  have hmax : MAX_MESSAGE_SIZE = 1024 := rfl
  rw [Agrees, hstored, clientMessage_content_length, LengthFits, hmax]
  constructor
  · -- The stated length, wrapped to 32 bits, equals that of the cut text.
    intro h
    have hlen := h.1
    rw [Int.bmod_def] at hlen
    omega
  · intro h
    have hlen : (strlen message : Int).bmod (2 ^ 32) = (min (1024 - 1) (strlen message) : Nat) := by
      rw [Int.bmod_def]
      omega
    refine ⟨hlen, fun t hordinary ht => ?_⟩
    rw [clientMessage_valid_iff, hlen, hmax]
    exact ⟨⟨by omega, by omega⟩, (recent_iff hordinary).mpr ht⟩

/-- A text from `MAX_MESSAGE_SIZE` bytes on, up to what an `int` can hold, is
    refused whenever it arrives. -/
theorem long_text_refused (hlong : MAX_MESSAGE_SIZE ≤ strlen message)
    (hint : strlen message < 2 ^ 31) (t : TimeT) :
    validate_message (clientMessage client type recipient_id message now) t = false := by
  rw [Bool.eq_false_iff]
  intro h
  have hlen := ((clientMessage_valid_iff client type recipient_id message now t).mp h).1.2
  rw [Int.bmod_def] at hlen
  have hmax : MAX_MESSAGE_SIZE = 1024 := rfl
  omega

end Built

/-- A valid name is short enough to be copied whole, twice. -/
theorem client_init_name {client_id server_ip : List UInt8} {server_port : Int} {locks : Bool}
    {client : Client} (hinit : client_init client_id server_ip server_port locks = some client) :
    client.client_id.str.take (MAX_CLIENT_NAME - 1) = cstr client_id := by
  rw [client_init] at hinit
  split_ifs at hinit with hbad hlocks
  rw [Option.some.injEq] at hinit
  have hlen : (cstr client_id).length ≤ MAX_CLIENT_NAME - 1 := by
    rw [Bool.or_eq_true, not_or, decide_eq_true_eq, strlen] at hbad
    omega
  have hstr := CharArray.cstr_strncpy (CharArray.zero MAX_CLIENT_NAME) client_id
    (by decide : MAX_CLIENT_NAME - 1 < MAX_CLIENT_NAME) (CharArray.zero_getElem? (by decide))
  rw [← hinit, hstr, List.take_take, Nat.min_self, List.take_of_length_le hlen]

/-- For a client set up under any valid name, any non-empty text and any
    recipient, both sending functions build a message, and client and server
    agree on it exactly when the length of the text fits: whatever clock reading
    is put into it, and for the readings of the server that are `Ordinary`. -/
theorem client_message_agrees_iff (client_id server_ip : List UInt8) (server_port : Int)
    (locks : Bool) (client : Client)
    (hinit : client_init client_id server_ip server_port locks = some client)
    (recipient_id message : List UInt8) (hmessage : strlen message ≠ 0) (now : TimeT) :
    (∃ msg, client_send_2all client message now = some msg ∧
      msg.sender_id.str = cstr client_id ∧ (Agrees msg ↔ LengthFits message)) ∧
    (∃ msg, client_send_2one client recipient_id message now = some msg ∧
      msg.sender_id.str = cstr client_id ∧ (Agrees msg ↔ LengthFits message)) := by
  have hname := client_init_name hinit
  constructor
  · refine ⟨clientMessage client .MSG_2ALL [] message now, ?_, ?_, ?_⟩
    · rw [client_send_2all, if_neg hmessage]
    · rw [clientMessage_sender, hname]
    · exact clientMessage_agrees_iff client .MSG_2ALL [] message now
  · refine ⟨clientMessage client .MSG_2ONE recipient_id message now, ?_, ?_, ?_⟩
    · rw [client_send_2one, if_neg hmessage]
    · rw [clientMessage_sender, hname]
    · exact clientMessage_agrees_iff client .MSG_2ONE recipient_id message now

theorem client_message_agrees_hello :
    ∃ client msg, client_init (bytes "ann") (bytes "127.0.0.1") 5000 true = some client ∧
      client_send_2all client (bytes "hello") 0 = some msg ∧ Agrees msg := by
  have hall := client_message_agrees_iff (bytes "ann") (bytes "127.0.0.1") 5000 true _ rfl
    (bytes "bob") (bytes "hello") (by decide) 0
  rcases hall.1 with ⟨msg, hmsg, _, hiff⟩
  exact ⟨_, msg, rfl, hmsg, hiff.mpr (Or.inl (by decide))⟩

/-- A text of 1024 letters is refused, so client and server do not always
    agree. -/
theorem client_message_1024_refused :
    ¬ ∀ (client_id server_ip : List UInt8) (server_port : Int) (locks : Bool) (client : Client),
      client_init client_id server_ip server_port locks = some client →
      ∀ (message : List UInt8) (now : TimeT), strlen message ≠ 0 →
        ∃ msg, client_send_2all client message now = some msg ∧ Agrees msg := by
  intro h
  have hlen : strlen (List.replicate 1024 97) = 1024 := by
    rw [strlen, cstr_of_no_zero (fun b hb => by rw [List.eq_of_mem_replicate hb]; decide),
      List.length_replicate]
  rcases h (bytes "ann") (bytes "127.0.0.1") 5000 true _ rfl (List.replicate 1024 97) 0
    (by rw [hlen]; decide) with ⟨msg, hmsg, hagrees⟩
  rw [client_send_2all, hlen, if_neg (by decide), Option.some.injEq] at hmsg
  subst hmsg
  -- The message is refused even at the moment it was sent.
  have hvalid := hagrees.2 0 ⟨by decide, by decide⟩ (by rw [Timely, clientMessage]; decide)
  rw [long_text_refused _ _ _ _ _ (by rw [hlen]; decide) (by rw [hlen]; decide)] at hvalid
  exact absurd hvalid (by decide)

end Chat

end OsLabs
