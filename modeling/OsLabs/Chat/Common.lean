import Mathlib.Data.BitVec
import OsLabs.Core.Memory

/-!
# Chat Messages

The part of `common.c` that lab10 (TCP) and lab11 (UDP) share: the record the
chat programs exchange, the checks on it, and the functions that build one.
The two files agree on everything modelled here.

A `Message` is sent as the bytes it occupies in memory, so besides its fields
it has an image of `sizeof(Message)` bytes, in the layout x86-64 gives it: the
enumeration is an unsigned 32-bit integer, and four bytes of padding stand
before the 64-bit timestamp and at the end. `Message.ofImage` reads the fields
of any image, which is what a receiver does with bytes from the network;
`ofImage_toImage` says nothing is lost on the way.

Integers keep their width. A `size_t` stored into `content_length` is cut to
32 bits, and times are added and subtracted in 64 bits and compared as the
signed numbers they stand for.

Characters are classified as the C locale does it, a byte above 127 being
neither a digit nor a letter.

## Main definitions

* `MessageType`, `MessageType.code`: The enumeration and its values.
* `Message`: The record, with `Message.ofImage` and `Message.toImage`.
* `validate_client_id`: Whether a string may be a client's name.
* `validate_message`: Whether a received record is acceptable.
* `create_message`: The record the servers build.
* `safe_strcpy`, `safe_strcat`: The bounded copy and append.
* `Timely`: A clock reading within the limits a message's timestamp sets.
* `Recent`, `Ordinary`: The tests of the timestamp, and the clock readings for
  which they are about these limits.

## Theorems

* `ofImage_toImage`: A message is recovered from its image.
* `validate_client_id_iff`: What makes a name valid.
* `recent_iff`: What the tests of the timestamp are about.
* `validate_message_iff`: What makes a message acceptable.
* `validate_message_strings`: An acceptable message's names are terminated.
* `create_message_content_length`: The length a built message states.
* `create_message_accepted`: What a built message holds, and that a receiver
  accepts it.
* `last_second_refused`: A clock at the end of `time_t`.
* `str_safe_strcpy`, `str_safe_strcat`: What a safe copy and a safe append
  leave in an array.
* `str_safe_strcat_take`: What one more append adds to a text that may be cut.
-/

namespace OsLabs

namespace Chat

def MAX_CLIENT_NAME : Nat := 100
def MAX_MESSAGE_SIZE : Nat := 1024
def MAX_CLIENTS : Nat := 255
def PORT_MIN : Int := 1024
def PORT_MAX : Int := 65535

/-- `time_t`, read as a signed number by `BitVec.toInt`. -/
abbrev TimeT := BitVec 64

inductive MessageType
  | MSG_LIST
  | MSG_2ALL
  | MSG_2ONE
  | MSG_STOP
  | MSG_ALIVE
  | MSG_ALIVE_RESPONSE
  | MSG_ERROR
  | MSG_CLIENT_LIST
  | MSG_BROADCAST
  | MSG_PRIVATE
  deriving DecidableEq

/-- The value of an enumerator. -/
def MessageType.code : MessageType → BitVec 32
  | .MSG_LIST => 0
  | .MSG_2ALL => 1
  | .MSG_2ONE => 2
  | .MSG_STOP => 3
  | .MSG_ALIVE => 4
  | .MSG_ALIVE_RESPONSE => 5
  | .MSG_ERROR => 6
  | .MSG_CLIENT_LIST => 7
  | .MSG_BROADCAST => 8
  | .MSG_PRIVATE => 9

/-- A message. The `type` is whatever 32 bits the record holds, an enumerator
    or not. -/
structure Message where
  type : BitVec 32
  sender_id : CharArray MAX_CLIENT_NAME
  recipient_id : CharArray MAX_CLIENT_NAME
  content : CharArray MAX_MESSAGE_SIZE
  timestamp : TimeT
  content_length : BitVec 32
  deriving DecidableEq

/-- `sizeof(Message)`. -/
def SIZEOF_MESSAGE : Nat := 1248

/-- The bytes a message occupies. -/
abbrev Image := CharArray SIZEOF_MESSAGE

/-- The fields of a message, read from its bytes. -/
def Message.ofImage (image : Image) : Message where
  type := BitVec.ofNat 32 (leNat (image.slice 0 4 (by decide)).bytes)
  sender_id := image.slice 4 MAX_CLIENT_NAME (by decide)
  recipient_id := image.slice 104 MAX_CLIENT_NAME (by decide)
  content := image.slice 204 MAX_MESSAGE_SIZE (by decide)
  timestamp := BitVec.ofNat 64 (leNat (image.slice 1232 8 (by decide)).bytes)
  content_length := BitVec.ofNat 32 (leNat (image.slice 1240 4 (by decide)).bytes)

/-- The bytes of a message, its padding zero. -/
def Message.toImage (msg : Message) : Image where
  bytes := leBytes 4 msg.type.toNat ++ (msg.sender_id.bytes ++ (msg.recipient_id.bytes ++
    (msg.content.bytes ++ (List.replicate 4 0 ++ (leBytes 8 msg.timestamp.toNat ++
    (leBytes 4 msg.content_length.toNat ++ List.replicate 4 0))))))
  length_eq := by
    simp only [List.length_append, leBytes_length, CharArray.length_eq, List.length_replicate]
    rfl

theorem ofNat_leNat_leBytes (w k : Nat) (hw : 2 ^ w = 256 ^ k) (v : BitVec w) :
    BitVec.ofNat w (leNat (leBytes k v.toNat)) = v := by
  rw [leNat_leBytes, ← hw, Nat.mod_eq_of_lt v.isLt, BitVec.ofNat_toNat, BitVec.setWidth_eq]

/-- A message is recovered from its image. The image is walked from the front,
    one field at a time. -/
theorem ofImage_toImage (msg : Message) : Message.ofImage msg.toImage = msg := by
  have ht := leBytes_length 4 msg.type.toNat
  have hs := msg.sender_id.length_eq
  have hr := msg.recipient_id.length_eq
  have hc := msg.content.length_eq
  have hw := leBytes_length 8 msg.timestamp.toNat
  have hl := leBytes_length 4 msg.content_length.toNat
  have d0 : msg.toImage.bytes.drop 0 = leBytes 4 msg.type.toNat ++ _ := rfl
  have d1 : msg.toImage.bytes.drop 4 = _ := drop_next d0 ht
  have d2 : msg.toImage.bytes.drop 104 = _ := drop_next d1 hs
  have d3 : msg.toImage.bytes.drop 204 = _ := drop_next d2 hr
  have d4 : msg.toImage.bytes.drop 1228 = _ := drop_next d3 hc
  have d5 : msg.toImage.bytes.drop 1232 = _ := drop_next d4 List.length_replicate
  have d6 : msg.toImage.bytes.drop 1240 = _ := drop_next d5 hw
  rw [Message.ofImage, CharArray.bytes_slice _ _ d0 ht, CharArray.bytes_slice _ _ d5 hw,
    CharArray.bytes_slice _ _ d6 hl, ofNat_leNat_leBytes 32 4 (by decide),
    ofNat_leNat_leBytes 64 8 (by decide), ofNat_leNat_leBytes 32 4 (by decide),
    CharArray.ext (CharArray.bytes_slice _ _ d1 hs),
    CharArray.ext (CharArray.bytes_slice _ _ d2 hr),
    CharArray.ext (CharArray.bytes_slice _ _ d3 hc)]

/-- `isdigit` in the C locale. -/
def isdigit (c : UInt8) : Bool := 48 ≤ c && c ≤ 57

/-- `isalnum` in the C locale. -/
def isalnum (c : UInt8) : Bool := isdigit c || (65 ≤ c && c ≤ 90) || (97 ≤ c && c ≤ 122)

/-- `validate_client_id`: the underscore is byte 95. -/
def validate_client_id (id : List UInt8) : Bool :=
  let s := cstr id
  if s.length = 0 || s.length ≥ MAX_CLIENT_NAME then false
  else if isdigit (s.headD 0) then false
  else s.all fun c => isalnum c || c == 95

/-- `validate_message`, `now` being what `time(NULL)` returns in it. The bounds
    for the timestamp are computed in the 64 bits of `time_t`. Beyond their ends,
    where C does not say what happens, they wrap. -/
def validate_message (message : Message) (now : TimeT) : Bool :=
  if message.type.toNat < MessageType.MSG_LIST.code.toNat
      || message.type.toNat > MessageType.MSG_PRIVATE.code.toNat then false
  else if message.content_length.toInt < 0 || message.content_length.toInt ≥ MAX_MESSAGE_SIZE then
    false
  else if message.sender_id.bytes[MAX_CLIENT_NAME - 1]? ≠ some 0 then false
  else if message.recipient_id.bytes[MAX_CLIENT_NAME - 1]? ≠ some 0 then false
  else if message.content.bytes[MAX_MESSAGE_SIZE - 1]? ≠ some 0 then false
  else if message.timestamp.toInt < (now - 3600#64).toInt then false
  else if message.timestamp.toInt > (now + 300#64).toInt then false
  else true

/-- `create_message`, `now` being what `time(NULL)` returns in it. No caller
    passes `NULL`. -/
def create_message (type : MessageType) (sender recipient content : List UInt8) (now : TimeT) :
    Message :=
  let stored := ((CharArray.zero MAX_MESSAGE_SIZE).strncpy content (MAX_MESSAGE_SIZE - 1)).set
    (MAX_MESSAGE_SIZE - 1) 0
  { type := type.code
    timestamp := now
    sender_id := ((CharArray.zero MAX_CLIENT_NAME).strncpy sender (MAX_CLIENT_NAME - 1)).set
      (MAX_CLIENT_NAME - 1) 0
    recipient_id := ((CharArray.zero MAX_CLIENT_NAME).strncpy recipient (MAX_CLIENT_NAME - 1)).set
      (MAX_CLIENT_NAME - 1) 0
    content := stored
    content_length := BitVec.ofNat 32 (strlen stored.bytes) }

def safe_strcpy {n : Nat} (dest : CharArray n) (src : List UInt8) (dest_size : Nat) :
    CharArray n :=
  if dest_size = 0 then dest
  else (dest.strncpy src (dest_size - 1)).set (dest_size - 1) 0

def safe_strcat {n : Nat} (dest : CharArray n) (src : List UInt8) (dest_size : Nat) :
    CharArray n :=
  if dest_size = 0 then dest
  else if strlen dest.bytes ≥ dest_size - 1 then dest
  else dest.strncat src (dest_size - strlen dest.bytes - 1)

/-- A clock reading no earlier than 300 s before the message's timestamp and
    no later than 3600 s after it. -/
def Timely (message : Message) (now : TimeT) : Prop :=
  message.timestamp.toInt - 300 ≤ now.toInt ∧ now.toInt ≤ message.timestamp.toInt + 3600

instance (message : Message) (now : TimeT) : Decidable (Timely message now) :=
  inferInstanceAs (Decidable (_ ∧ _))

/-- The message passes the tests of its timestamp. -/
def Recent (message : Message) (now : TimeT) : Prop :=
  (now - 3600#64).toInt ≤ message.timestamp.toInt ∧
    message.timestamp.toInt ≤ (now + 300#64).toInt

/-- A clock reading for which both bounds are within `time_t`. -/
def Ordinary (now : TimeT) : Prop :=
  -2 ^ 63 + 3600 ≤ now.toInt ∧ now.toInt < 2 ^ 63 - 300

/-- At such a reading the tests are about the time that has passed. -/
theorem recent_iff {message : Message} {now : TimeT} (h : Ordinary now) :
    Recent message now ↔ Timely message now := by
  have hlow : (now - 3600#64).toInt = now.toInt - 3600 := by
    rw [BitVec.toInt_sub]
    change (now.toInt - 3600).bmod (2 ^ 64) = _
    exact Int.bmod_eq_of_le (by have := h.1; omega) (by have := h.2; omega)
  have hhigh : (now + 300#64).toInt = now.toInt + 300 := by
    rw [BitVec.toInt_add]
    change (now.toInt + 300).bmod (2 ^ 64) = _
    exact Int.bmod_eq_of_le (by have := h.1; omega) (by have := h.2; omega)
  rw [Recent, Timely, hlow, hhigh]
  omega

theorem validate_client_id_iff (id : List UInt8) :
    validate_client_id id = true ↔
      0 < strlen id ∧ strlen id < MAX_CLIENT_NAME ∧ isdigit ((cstr id).headD 0) = false ∧
      ∀ c ∈ cstr id, isalnum c = true ∨ c = 95 := by
  rw [validate_client_id, strlen]
  by_cases hlen : (cstr id).length = 0 ∨ (cstr id).length ≥ MAX_CLIENT_NAME
  · rw [if_pos (by simpa only [Bool.or_eq_true, decide_eq_true_eq] using hlen)]
    exact ⟨fun h => absurd h (by decide), fun h => by omega⟩
  · rw [if_neg (by simpa only [Bool.or_eq_true, decide_eq_true_eq] using hlen)]
    by_cases hdigit : isdigit ((cstr id).headD 0) = true
    · rw [if_pos hdigit]
      exact ⟨fun h => absurd h (by decide), fun h => absurd h.2.2.1 (by rw [hdigit]; decide)⟩
    · rw [if_neg hdigit, List.all_eq_true]
      simp only [Bool.or_eq_true, beq_iff_eq]
      have hfalse : isdigit ((cstr id).headD 0) = false := Bool.eq_false_iff.mpr hdigit
      exact ⟨fun h => ⟨by omega, by omega, hfalse, h⟩, fun h => h.2.2.2⟩

/-- A name is judged by the string it denotes. -/
theorem validate_client_id_cstr (id : List UInt8) :
    validate_client_id (cstr id) = validate_client_id id := by
  rw [validate_client_id, validate_client_id, cstr_cstr]

/-- What makes a message acceptable. The first test on the type compares an
    unsigned number with zero, so it never fails. -/
theorem validate_message_iff (message : Message) (now : TimeT) :
    validate_message message now = true ↔
      message.type.toNat ≤ 9 ∧
      (0 ≤ message.content_length.toInt ∧ message.content_length.toInt < MAX_MESSAGE_SIZE) ∧
      message.sender_id.bytes[MAX_CLIENT_NAME - 1]? = some 0 ∧
      message.recipient_id.bytes[MAX_CLIENT_NAME - 1]? = some 0 ∧
      message.content.bytes[MAX_MESSAGE_SIZE - 1]? = some 0 ∧ Recent message now := by
  have hlow : MessageType.MSG_LIST.code.toNat = 0 := rfl
  have hhigh : MessageType.MSG_PRIVATE.code.toNat = 9 := rfl
  rw [validate_message, Recent, hlow, hhigh]
  simp only [Bool.or_eq_true, decide_eq_true_eq]
  -- One case for each test that refuses, and the last for none.
  split_ifs with h1 h2 h3 h4 h5 h6 h7
  · exact ⟨fun h => absurd h (by decide), fun h => by omega⟩
  · exact ⟨fun h => absurd h (by decide), fun h => by omega⟩
  · exact ⟨fun h => absurd h (by decide), fun h => absurd h.2.2.1 h3⟩
  · exact ⟨fun h => absurd h (by decide), fun h => absurd h.2.2.2.1 h4⟩
  · exact ⟨fun h => absurd h (by decide), fun h => absurd h.2.2.2.2.1 h5⟩
  · exact ⟨fun h => absurd h (by decide), fun h => by omega⟩
  · exact ⟨fun h => absurd h (by decide), fun h => by omega⟩
  · exact ⟨fun _ => ⟨by omega, by omega, not_not.mp h3, not_not.mp h4, not_not.mp h5, by omega⟩,
      fun _ => rfl⟩

/-- The names in an acceptable message are terminated inside their arrays. -/
theorem validate_message_strings {message : Message} {now : TimeT}
    (h : validate_message message now = true) :
    message.sender_id.str.length < MAX_CLIENT_NAME ∧
    message.recipient_id.str.length < MAX_CLIENT_NAME ∧
    message.content.str.length < MAX_MESSAGE_SIZE := by
  rcases (validate_message_iff message now).mp h with ⟨_, _, hs, hr, hc, _⟩
  have hsl := message.sender_id.strlen_lt hs
  have hrl := message.recipient_id.strlen_lt hr
  have hcl := message.content.strlen_lt hc
  exact ⟨Nat.lt_of_le_of_lt hsl (by decide), Nat.lt_of_le_of_lt hrl (by decide),
    Nat.lt_of_le_of_lt hcl (by decide)⟩

/-- A copy into a zeroed array with a terminator at its end holds the first
    bytes of the string. -/
theorem str_strncpy_zero {n : Nat} (src : List UInt8) {k : Nat} (hk : k < n) :
    (((CharArray.zero n).strncpy src k).set k 0).str = (cstr src).take k := by
  rw [CharArray.strncpy_set _ _ hk]
  exact CharArray.cstr_strncpy _ src hk (CharArray.set_getElem? _ hk 0)

/-- Behind the string such a copy leaves nothing but zeros. -/
theorem bytes_strncpy_zero {n : Nat} (src : List UInt8) {k : Nat} (hk : k < n) :
    (((CharArray.zero n).strncpy src k).set k 0).bytes
      = (cstr src).take k ++ List.replicate (n - ((cstr src).take k).length) 0 := by
  have hset : (CharArray.zero n).set k 0 = CharArray.zero n := by
    refine CharArray.ext ?_
    change (List.replicate n (0 : UInt8)).set k 0 = List.replicate n 0
    rw [List.set_replicate_self]
  have hdrop : (CharArray.zero n).bytes.drop k = List.replicate (n - k) 0 := List.drop_replicate
  -- The padding and what was in the array before are zeros alike.
  rw [CharArray.strncpy_set _ _ hk, hset, CharArray.bytes_strncpy _ _ (Nat.le_of_lt hk), hdrop,
    List.replicate_append_replicate, List.length_take]
  congr 2
  omega

/-- What a safe copy leaves in an array. -/
theorem str_safe_strcpy {n : Nat} (dest : CharArray n) (src : List UInt8) {dest_size : Nat}
    (hpos : 0 < dest_size) (hsize : dest_size ≤ n) :
    (safe_strcpy dest src dest_size).str = (cstr src).take (dest_size - 1) := by
  rw [safe_strcpy, if_neg (by omega), CharArray.strncpy_set _ _ (by omega)]
  exact CharArray.cstr_strncpy _ src (by omega) (CharArray.set_getElem? _ (by omega) 0)

/-- A safe copy of a string that fits fills the part of the array it may write
    to with zeros. -/
theorem bytes_safe_strcpy {n : Nat} (dest : CharArray n) {src : List UInt8} {dest_size : Nat}
    (hlen : strlen src < dest_size) (hsize : dest_size ≤ n) :
    (safe_strcpy dest src dest_size).bytes
      = cstr src ++ List.replicate (dest_size - strlen src) 0 ++ dest.bytes.drop dest_size := by
  obtain ⟨k, rfl⟩ : ∃ k, dest_size = k + 1 := ⟨dest_size - 1, by omega⟩
  have hfits : (cstr src).length ≤ k := Nat.le_of_lt_succ hlen
  have hdrop : (dest.set k 0).bytes.drop k = 0 :: dest.bytes.drop (k + 1) := by
    have hk : k < dest.bytes.length := by rw [dest.length_eq]; omega
    change (dest.bytes.set k 0).drop k = _
    rw [List.drop_set, if_neg (Nat.lt_irrefl k), Nat.sub_self, List.drop_eq_getElem_cons hk]
    rfl
  have hzeros : k + 1 - strlen src = k - (cstr src).length + 1 := Nat.succ_sub hfits
  rw [safe_strcpy, if_neg (Nat.succ_ne_zero k), Nat.add_sub_cancel,
    CharArray.strncpy_set _ _ (by omega), CharArray.bytes_strncpy _ _ (by omega), hdrop,
    List.take_of_length_le hfits, hzeros, List.replicate_succ']
  simp only [List.append_assoc, List.singleton_append]

/-- A safe append leaves the first bytes of the two strings together. -/
theorem str_safe_strcat {n : Nat} (dest : CharArray n) (src : List UInt8) {dest_size : Nat}
    (hsize : dest_size ≤ n) (hlen : dest.str.length < dest_size) :
    (safe_strcat dest src dest_size).str = (dest.str ++ cstr src).take (dest_size - 1) := by
  rw [safe_strcat, if_neg (by omega)]
  change (if dest.str.length ≥ dest_size - 1 then dest
    else dest.strncat src (dest_size - dest.str.length - 1)).str = _
  by_cases hfull : dest.str.length ≥ dest_size - 1
  · -- There is room for no more than the string that is there.
    rw [if_pos hfull, List.take_append_of_le_length (by omega), List.take_of_length_le (by omega)]
  · have hall : dest.str.take (dest_size - 1) = dest.str := List.take_of_length_le (by omega)
    rw [if_neg hfull, CharArray.str_strncat _ _ (by omega), List.take_append, hall]
    congr 2
    omega

/-- A safe append to what safe copies and appends have left. -/
theorem str_safe_strcat_take {n : Nat} {dest : CharArray n} {text : List UInt8} {dest_size : Nat}
    (hpos : 0 < dest_size) (hsize : dest_size ≤ n) (h : dest.str = text.take (dest_size - 1))
    (src : List UInt8) :
    (safe_strcat dest src dest_size).str = (text ++ cstr src).take (dest_size - 1) := by
  have hlen : dest.str.length < dest_size := by
    rw [h, List.length_take]
    omega
  rw [str_safe_strcat dest src hsize hlen, h, List.take_append, List.take_take, Nat.min_self,
    List.take_append, List.length_take]
  -- Bytes are added only where the first text left room.
  congr 2
  omega

section Built

variable (type : MessageType) (sender recipient content : List UInt8) (now : TimeT)

theorem create_message_type :
    (create_message type sender recipient content now).type = type.code := rfl

theorem create_message_sender :
    (create_message type sender recipient content now).sender_id.str
      = (cstr sender).take (MAX_CLIENT_NAME - 1) :=
  str_strncpy_zero sender (by decide)

theorem create_message_recipient :
    (create_message type sender recipient content now).recipient_id.str
      = (cstr recipient).take (MAX_CLIENT_NAME - 1) :=
  str_strncpy_zero recipient (by decide)

theorem create_message_content :
    (create_message type sender recipient content now).content.str
      = (cstr content).take (MAX_MESSAGE_SIZE - 1) :=
  str_strncpy_zero content (by decide)

/-- A built message states the length of the content it holds. -/
theorem create_message_content_length :
    (create_message type sender recipient content now).content_length.toInt
      = (create_message type sender recipient content now).content.str.length := by
  have hlen : (create_message type sender recipient content now).content.str.length
      ≤ MAX_MESSAGE_SIZE - 1 := by
    rw [create_message_content]
    exact List.length_take_le _ _
  have hmax : MAX_MESSAGE_SIZE = 1024 := rfl
  -- A length below the size of the array does not wrap.
  change (BitVec.ofNat 32 _).toInt = _
  rw [BitVec.toInt_ofNat', Int.bmod_eq_of_le (by omega) _]
  · rfl
  · change ((create_message type sender recipient content now).content.str.length : Int) < _
    omega

/-- A built message is acceptable at every time its timestamp allows. -/
theorem validate_message_create {received : TimeT}
    (htime : Recent (create_message type sender recipient content now) received) :
    validate_message (create_message type sender recipient content now) received = true := by
  have hcode : type.code.toNat ≤ 9 := by cases type <;> decide
  have hlen := create_message_content_length type sender recipient content now
  have hcontent : (create_message type sender recipient content now).content.str.length
      < MAX_MESSAGE_SIZE := by
    rw [create_message_content]
    exact Nat.lt_of_le_of_lt (List.length_take_le _ _) (by decide)
  refine (validate_message_iff _ received).mpr
    ⟨hcode, ⟨by omega, by omega⟩, ?_, ?_, ?_, htime⟩
  -- The last byte of every array is the terminator the function writes.
  · exact CharArray.set_getElem? _ (by decide) 0
  · exact CharArray.set_getElem? _ (by decide) 0
  · exact CharArray.set_getElem? _ (by decide) 0

/-- A built message holds the longest prefixes of its three strings that fit,
    zeros after them and the length of its content, and every receiver whose
    clock is no more than 300 s behind the builder's and no more than 3600 s
    ahead of it accepts the message, unless its bounds are beyond the ends of
    `time_t`. -/
theorem create_message_accepted (received : TimeT) (hlow : now.toInt - 300 ≤ received.toInt)
    (hhigh : received.toInt ≤ now.toInt + 3600) (hreceived : Ordinary received) :
    let message := create_message type sender recipient content now
    let name := fun s : List UInt8 => (cstr s).take (MAX_CLIENT_NAME - 1)
    let text := (cstr content).take (MAX_MESSAGE_SIZE - 1)
    message.sender_id.bytes
        = name sender ++ List.replicate (MAX_CLIENT_NAME - (name sender).length) 0 ∧
    message.recipient_id.bytes
        = name recipient ++ List.replicate (MAX_CLIENT_NAME - (name recipient).length) 0 ∧
    message.content.bytes = text ++ List.replicate (MAX_MESSAGE_SIZE - text.length) 0 ∧
    message.content_length.toInt = message.content.str.length ∧
    message.type = type.code ∧ message.timestamp = now ∧
    validate_message message received = true :=
  ⟨bytes_strncpy_zero sender (by decide), bytes_strncpy_zero recipient (by decide),
    bytes_strncpy_zero content (by decide),
    create_message_content_length type sender recipient content now, rfl, rfl,
    validate_message_create type sender recipient content now
      ((recent_iff hreceived).mpr ⟨hlow, hhigh⟩)⟩

/-- A name and a text too long for their arrays, received an hour later. -/
theorem create_message_accepted_long :
    validate_message (create_message .MSG_2ONE (List.replicate 150 97) (bytes "bob")
      (List.replicate 2000 98) 5000#64) 8600#64 = true := by
  have hordinary : Ordinary 8600#64 := ⟨by decide, by decide⟩
  have h := create_message_accepted .MSG_2ONE (List.replicate 150 97) (bytes "bob")
    (List.replicate 2000 98) 5000#64 8600#64 (by decide) (by decide) hordinary
  exact h.2.2.2.2.2.2

/-- In the last second of `time_t` a message is refused that has just been built:
    300 s later is before it. -/
theorem last_second_refused :
    ¬ ∀ (now received : TimeT), now.toInt - 300 ≤ received.toInt →
      received.toInt ≤ now.toInt + 3600 →
      validate_message (create_message .MSG_LIST (bytes "ann") [] [] now) received = true := by
  intro hclaim
  have hlast := hclaim 0x7fffffffffffffff#64 0x7fffffffffffffff#64 (by decide) (by decide)
  rcases (validate_message_iff _ _).mp hlast with ⟨_, _, _, _, _, hrecent⟩
  exact absurd hrecent.2 (by decide)

end Built

end Chat

end OsLabs
