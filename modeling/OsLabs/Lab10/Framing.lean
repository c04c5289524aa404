import OsLabs.Chat.Common

/-!
# Messages on a Byte Stream

How lab10 sends a `Message` over TCP, from `lab10/src/common.c`. The sender
hands the bytes of the record to `send` until all of them have been accepted,
and the receiver calls `recv` until as many have arrived. Either call may
transfer only part of what it is asked to, and either may be interrupted, so
both functions are loops whose number of rounds the operating system decides.

The decisions of the operating system are a list of results, one for each
call, that the loop consumes from the front. A loop that runs out of results
is still waiting, which is `none`. A result that transfers data carries a
number, and transfers one byte more than it says or as many as there are,
whichever is less, so that no result of this kind transfers nothing unless
there is nothing.

What the two loops owe each other is that every split on one side and every
split on the other compose to the identity. Each loop is therefore described
on its own, by what it transfers once it has seen enough results with data,
and the two descriptions meet in the bytes of the stream. Results without
data are retried and count for nothing, so any number of them may be mixed
in.

## Main definitions

* `SendResult`, `RecvResult`: What one call of `send` or `recv` returns.
* `sendLoop`, `send_message_protocol`: Sending one message.
* `recvLoop`, `receive_message_protocol`: Receiving one message.
* `sendAll`, `receiveAll`: Sending and receiving one after another.
* `SendsWell`, `RecvsWell`: No call fails, and enough of them carry data.

## Theorems

* `sendLoop_complete`: The sending loop puts the whole record on the stream.
* `recvLoop_complete`: The receiving loop takes a whole record off it.
* `recvLoop_end`: The receiving loop at the end of the stream.
* `sendAll_complete`, `receiveAll_complete`: The same for many messages.
* `receive_message`: Receiving a message that stands at the front.
* `receiveAll_sendAll`: What is sent is received, however it is split.
-/

namespace OsLabs

namespace Lab10

open Chat

/-- What a call of `send` returns: a number of bytes accepted, zero, or -1
    with one of three kinds of `errno`. -/
inductive SendResult
  | accepted (k : Nat)
  | zero
  | eintr
  | eagain
  | error
  deriving DecidableEq

/-- What a call of `recv` returns: data, or the zero that marks the end of the
    stream when there is none left, or -1 with one of three kinds of
    `errno`. -/
inductive RecvResult
  | data (k : Nat)
  | eintr
  | eagain
  | error
  deriving DecidableEq

/-- The loop of `send_message_protocol`. The result is the value returned, the
    bytes the calls have accepted and the results not used. -/
def sendLoop (buffer : List UInt8) : (bytes_sent : Nat) → List SendResult →
    Option (Int × List UInt8 × List SendResult)
  | bytes_sent, [] =>
    if bytes_sent < buffer.length then none else some (bytes_sent, [], [])
  | bytes_sent, r :: rs =>
    if bytes_sent < buffer.length then
      match r with
      | .eintr => sendLoop buffer bytes_sent rs
      | .eagain => sendLoop buffer bytes_sent rs
      | .error => some (-1, [], rs)
      | .zero => some (0, [], rs)
      | .accepted k =>
        let result := min (k + 1) (buffer.length - bytes_sent)
        (sendLoop buffer (bytes_sent + result) rs).map fun out =>
          (out.1, (buffer.drop bytes_sent).take result ++ out.2.1, out.2.2)
    else some (bytes_sent, [], r :: rs)

def send_message_protocol (socketfd : Int) (message : Image) (rs : List SendResult) :
    Option (Int × List UInt8 × List SendResult) :=
  if socketfd < 0 then some (-1, [], rs) else sendLoop message.bytes 0 rs

/-- How the loop of `receive_message_protocol` is left: with a full buffer, or
    by returning early. -/
inductive LoopExit
  | full (buffer : List UInt8)
  | early (ret : Int)
  deriving DecidableEq

/-- The loop of `receive_message_protocol`. The stream is what has not been
    read yet, and nothing follows it. The result is how the loop is left, the
    rest of the stream and the results not used. -/
def recvLoop : (stream buffer : List UInt8) → List RecvResult →
    Option (LoopExit × List UInt8 × List RecvResult)
  | stream, buffer, [] =>
    if buffer.length < SIZEOF_MESSAGE then none else some (.full buffer, stream, [])
  | stream, buffer, r :: rs =>
    if buffer.length < SIZEOF_MESSAGE then
      match r with
      | .eintr => recvLoop stream buffer rs
      | .eagain => recvLoop stream buffer rs
      | .error => some (.early (-1), stream, rs)
      | .data k =>
        let result := min (k + 1) (min (SIZEOF_MESSAGE - buffer.length) stream.length)
        if result = 0 then some (.early (if buffer.length = 0 then 0 else -1), stream, rs)
        else recvLoop (stream.drop result) (buffer ++ stream.take result) rs
    else some (.full buffer, stream, r :: rs)

/-- `receive_message_protocol`, `now` being the time at which the message is
    checked: the value returned, the record filled in, the rest of the stream
    and the results not used. -/
def receive_message_protocol (socketfd : Int) (now : TimeT) (stream : List UInt8)
    (rs : List RecvResult) : Option ((Int × Image) × List UInt8 × List RecvResult) :=
  if socketfd < 0 then some ((-1, CharArray.zero SIZEOF_MESSAGE), stream, rs)
  else (recvLoop stream [] rs).map fun out =>
    match out.1 with
    | .early ret => ((ret, CharArray.zero SIZEOF_MESSAGE), out.2)
    | .full buffer =>
      let message := CharArray.ofList SIZEOF_MESSAGE buffer
      if validate_message (Message.ofImage message) now then ((buffer.length, message), out.2)
      else ((-1, message), out.2)

/-- Sending messages one after another: the values returned, the stream, and
    the results not used. -/
def sendAll (socketfd : Int) : List Image → List SendResult →
    Option (List Int × List UInt8 × List SendResult)
  | [], rs => some ([], [], rs)
  | m :: ms, rs =>
    (send_message_protocol socketfd m rs).bind fun one =>
      (sendAll socketfd ms one.2.2).map fun out =>
        (one.1 :: out.1, one.2.1 ++ out.2.1, out.2.2)

/-- Receiving one message after another, at the given times: what each call
    returned, the rest of the stream, and the results not used. -/
def receiveAll (socketfd : Int) : List TimeT → List UInt8 → List RecvResult →
    Option (List (Int × Image) × List UInt8 × List RecvResult)
  | [], stream, rs => some ([], stream, rs)
  | now :: nows, stream, rs =>
    (receive_message_protocol socketfd now stream rs).bind fun one =>
      (receiveAll socketfd nows one.2.1 one.2.2).map fun out => (one.1 :: out.1, out.2)

def SendResult.carries : SendResult → Bool
  | .accepted _ => true
  | _ => false

def RecvResult.carries : RecvResult → Bool
  | .data _ => true
  | _ => false

/-- No call of `send` fails for good, and at least `n` of them transfer
    something. -/
def SendsWell (n : Nat) (rs : List SendResult) : Prop :=
  (∀ r ∈ rs, r ≠ .error ∧ r ≠ .zero) ∧ n ≤ rs.countP SendResult.carries

/-- No call of `recv` fails for good, and at least `n` of them return data or
    the end of the stream. -/
def RecvsWell (n : Nat) (rs : List RecvResult) : Prop :=
  (∀ r ∈ rs, r ≠ .error) ∧ n ≤ rs.countP RecvResult.carries

theorem sendLoop_done (buffer : List UInt8) {bytes_sent : Nat}
    (hdone : ¬ bytes_sent < buffer.length) (rs : List SendResult) :
    sendLoop buffer bytes_sent rs = some ((bytes_sent : Int), [], rs) := by
  cases rs with
  | nil => rw [sendLoop, if_neg hdone]
  | cons r rs =>
      unfold sendLoop
      rw [if_neg hdone]

theorem recvLoop_done (stream : List UInt8) {buffer : List UInt8}
    (hdone : ¬ buffer.length < SIZEOF_MESSAGE) (rs : List RecvResult) :
    recvLoop stream buffer rs = some (.full buffer, stream, rs) := by
  cases rs with
  | nil => rw [recvLoop, if_neg hdone]
  | cons r rs =>
      unfold recvLoop
      rw [if_neg hdone]

/-- The sending loop puts the rest of the buffer on the stream, using up at
    most one result with data for each byte. The induction is on the results;
    only those with data move the loop forward. -/
theorem sendLoop_complete (buffer : List UInt8) (n : Nat) (rs : List SendResult) :
    ∀ bytes_sent, bytes_sent ≤ buffer.length →
      SendsWell (buffer.length - bytes_sent + n) rs →
      ∃ rest, sendLoop buffer bytes_sent rs
          = some ((buffer.length : Int), buffer.drop bytes_sent, rest) ∧ SendsWell n rest := by
  induction rs with
  | nil =>
      intro sent hle hwell
      have hcount := hwell.2
      rw [List.countP_nil] at hcount
      -- No results are left, so no bytes can be: each would need one.
      have hdone : sent = buffer.length := by omega
      refine ⟨[], ?_, hwell.1, by omega⟩
      rw [sendLoop, if_neg (by omega), hdone, List.drop_length]
  | cons r rs ih =>
      intro sent hle hwell
      rcases hwell with ⟨hclean, hcount⟩
      have hrest : ∀ r' ∈ rs, r' ≠ .error ∧ r' ≠ .zero :=
        fun r' hr' => hclean r' (List.mem_cons_of_mem r hr')
      rw [List.countP_cons] at hcount
      by_cases hlt : sent < buffer.length
      · cases r with
        | error => exact absurd rfl (hclean _ List.mem_cons_self).1
        | zero => exact absurd rfl (hclean _ List.mem_cons_self).2
        | eintr =>
            simp only [SendResult.carries, Bool.false_eq_true, if_false] at hcount
            rw [sendLoop, if_pos hlt]
            exact ih sent hle ⟨hrest, hcount⟩
        | eagain =>
            simp only [SendResult.carries, Bool.false_eq_true, if_false] at hcount
            rw [sendLoop, if_pos hlt]
            exact ih sent hle ⟨hrest, hcount⟩
        | accepted k =>
            simp only [SendResult.carries, if_true] at hcount
            -- At least one byte is accepted, which pays for the result used.
            have hpos : 1 ≤ min (k + 1) (buffer.length - sent) := by omega
            rcases ih (sent + min (k + 1) (buffer.length - sent)) (by omega)
              ⟨hrest, by omega⟩ with ⟨rest, hloop, hwell'⟩
            refine ⟨rest, ?_, hwell'⟩
            rw [sendLoop, if_pos hlt]
            simp only [hloop, Option.map_some]
            rw [← List.drop_drop, List.take_append_drop]
      · have hdone : sent = buffer.length := by omega
        refine ⟨r :: rs, ?_, hclean, ?_⟩
        · rw [sendLoop_done buffer hlt, hdone, List.drop_length]
        · rw [List.countP_cons]
          omega

/-- The receiving loop takes the missing part of a record off the stream, when
    the stream has it. -/
theorem recvLoop_complete (n : Nat) (rs : List RecvResult) :
    ∀ (stream buffer : List UInt8), buffer.length ≤ SIZEOF_MESSAGE →
      SIZEOF_MESSAGE - buffer.length ≤ stream.length →
      RecvsWell (SIZEOF_MESSAGE - buffer.length + n) rs →
      ∃ rest, recvLoop stream buffer rs
          = some (.full (buffer ++ stream.take (SIZEOF_MESSAGE - buffer.length)),
              stream.drop (SIZEOF_MESSAGE - buffer.length), rest) ∧ RecvsWell n rest := by
  induction rs with
  | nil =>
      intro stream buffer hle hstream hwell
      have hcount := hwell.2
      rw [List.countP_nil] at hcount
      refine ⟨[], ?_, hwell.1, by omega⟩
      rw [recvLoop, if_neg (by omega), show SIZEOF_MESSAGE - buffer.length = 0 by omega,
        List.take_zero, List.drop_zero, List.append_nil]
  | cons r rs ih =>
      intro stream buffer hle hstream hwell
      rcases hwell with ⟨hclean, hcount⟩
      have hrest : ∀ r' ∈ rs, r' ≠ .error := fun r' hr' => hclean r' (List.mem_cons_of_mem r hr')
      rw [List.countP_cons] at hcount
      by_cases hlt : buffer.length < SIZEOF_MESSAGE
      · cases r with
        | error => exact absurd rfl (hclean _ List.mem_cons_self)
        | eintr =>
            simp only [RecvResult.carries, Bool.false_eq_true, if_false] at hcount
            rw [recvLoop, if_pos hlt]
            exact ih stream buffer hle hstream ⟨hrest, hcount⟩
        | eagain =>
            simp only [RecvResult.carries, Bool.false_eq_true, if_false] at hcount
            rw [recvLoop, if_pos hlt]
            exact ih stream buffer hle hstream ⟨hrest, hcount⟩
        | data k =>
            simp only [RecvResult.carries, if_true] at hcount
            rw [recvLoop, if_pos hlt]
            -- The stream has all that is missing, so only the room in the
            -- buffer limits what this call reads.
            have hres : min (k + 1) (min (SIZEOF_MESSAGE - buffer.length) stream.length)
                = min (k + 1) (SIZEOF_MESSAGE - buffer.length) := by omega
            simp only [hres]
            rw [if_neg (by omega)]
            have htake : (stream.take (min (k + 1) (SIZEOF_MESSAGE - buffer.length))).length
                = min (k + 1) (SIZEOF_MESSAGE - buffer.length) := by
              rw [List.length_take]
              omega
            have hlen : (buffer ++ stream.take (min (k + 1) (SIZEOF_MESSAGE - buffer.length))).length
                = buffer.length + min (k + 1) (SIZEOF_MESSAGE - buffer.length) := by
              rw [List.length_append, htake]
            rcases ih (stream.drop (min (k + 1) (SIZEOF_MESSAGE - buffer.length)))
              (buffer ++ stream.take (min (k + 1) (SIZEOF_MESSAGE - buffer.length)))
              (by omega) (by rw [List.length_drop]; omega) ⟨hrest, by omega⟩ with
              ⟨rest, hloop, hwell'⟩
            refine ⟨rest, ?_, hwell'⟩
            -- What this call read and what the rest of the loop reads are the
            -- two parts of what was missing.
            have hsplit : SIZEOF_MESSAGE - buffer.length
                = min (k + 1) (SIZEOF_MESSAGE - buffer.length)
                  + (SIZEOF_MESSAGE
                    - (buffer ++ stream.take (min (k + 1) (SIZEOF_MESSAGE - buffer.length))).length)
                := by omega
            rw [hloop, List.drop_drop, ← hsplit, List.append_assoc, ← List.take_add, ← hsplit]
      · refine ⟨r :: rs, ?_, hclean, by rw [List.countP_cons]; omega⟩
        rw [recvLoop_done stream hlt, show SIZEOF_MESSAGE - buffer.length = 0 by omega,
          List.take_zero, List.drop_zero, List.append_nil]

/-- At the end of the stream the receiving loop returns early: with 0 when
    nothing of a record has arrived, with -1 when part of one has. -/
theorem recvLoop_end (rs : List RecvResult) :
    ∀ (stream buffer : List UInt8), buffer.length + stream.length < SIZEOF_MESSAGE →
      RecvsWell (stream.length + 1) rs →
      ∃ rest, recvLoop stream buffer rs
          = some (.early (if buffer.length + stream.length = 0 then 0 else -1), [], rest) := by
  induction rs with
  | nil =>
      intro stream buffer _ hwell
      have hcount := hwell.2
      rw [List.countP_nil] at hcount
      omega
  | cons r rs ih =>
      intro stream buffer hshort hwell
      rcases hwell with ⟨hclean, hcount⟩
      have hrest : ∀ r' ∈ rs, r' ≠ .error := fun r' hr' => hclean r' (List.mem_cons_of_mem r hr')
      rw [List.countP_cons] at hcount
      cases r with
      | error => exact absurd rfl (hclean _ List.mem_cons_self)
      | eintr =>
          simp only [RecvResult.carries, Bool.false_eq_true, if_false] at hcount
          rw [recvLoop, if_pos (by omega)]
          exact ih stream buffer hshort ⟨hrest, hcount⟩
      | eagain =>
          simp only [RecvResult.carries, Bool.false_eq_true, if_false] at hcount
          rw [recvLoop, if_pos (by omega)]
          exact ih stream buffer hshort ⟨hrest, hcount⟩
      | data k =>
          simp only [RecvResult.carries, if_true] at hcount
          rw [recvLoop, if_pos (by omega)]
          by_cases hempty : stream = []
          · -- `recv` returns zero: what the buffer holds decides between 0 and -1.
            refine ⟨rs, ?_⟩
            simp only [hempty, List.length_nil, Nat.min_zero, if_true, Nat.add_zero]
          · have hpos : 0 < stream.length := List.length_pos_iff.mpr hempty
            -- Here it is the stream that limits the call.
            have hres : min (k + 1) (min (SIZEOF_MESSAGE - buffer.length) stream.length)
                = min (k + 1) stream.length := by omega
            simp only [hres]
            rw [if_neg (by omega)]
            have hlen : (buffer ++ stream.take (min (k + 1) stream.length)).length
                + (stream.drop (min (k + 1) stream.length)).length
                = buffer.length + stream.length := by
              rw [List.length_append, List.length_take, List.length_drop]
              omega
            rcases ih (stream.drop (min (k + 1) stream.length))
              (buffer ++ stream.take (min (k + 1) stream.length)) (by omega)
              ⟨hrest, by rw [List.length_drop]; omega⟩ with ⟨rest, hloop⟩
            exact ⟨rest, by rw [hloop, hlen]⟩

/-- Sending a list of messages puts their bytes on the stream, one after
    another, and every call returns `sizeof(Message)`. -/
theorem sendAll_complete (socketfd : Int) (hfd : 0 ≤ socketfd) (ms : List Image) :
    ∀ rs : List SendResult, SendsWell (SIZEOF_MESSAGE * ms.length) rs →
      ∃ rest, sendAll socketfd ms rs
        = some (ms.map fun _ => (SIZEOF_MESSAGE : Int), (ms.map CharArray.bytes).flatten, rest) := by
  induction ms with
  | nil => intro rs _; exact ⟨rs, rfl⟩
  | cons m ms ih =>
      intro rs hwell
      -- The budget of results splits into one record's and that of the rest.
      have hsize : SIZEOF_MESSAGE * (m :: ms).length
          = m.bytes.length - 0 + SIZEOF_MESSAGE * ms.length := by
        rw [List.length_cons, Nat.mul_succ, m.length_eq]
        omega
      rw [hsize] at hwell
      rcases sendLoop_complete m.bytes _ rs 0 (Nat.zero_le _) hwell with ⟨rest, hone, hwell'⟩
      rcases ih rest hwell' with ⟨rest', hall⟩
      refine ⟨rest', ?_⟩
      rw [sendAll, send_message_protocol, if_neg (by omega), hone, Option.bind_some, hall,
        Option.map_some, List.drop_zero, m.length_eq]
      rfl

/-- Receiving from a stream that starts with a message's bytes returns that
    message, if it is acceptable at the time. -/
theorem receive_message (socketfd : Int) (hfd : 0 ≤ socketfd) (m : Image) (now : TimeT)
    (hvalid : validate_message (Message.ofImage m) now = true) (stream : List UInt8) (n : Nat)
    (rs : List RecvResult) (hwell : RecvsWell (SIZEOF_MESSAGE + n) rs) :
    ∃ rest, receive_message_protocol socketfd now (m.bytes ++ stream) rs
      = some (((SIZEOF_MESSAGE : Int), m), stream, rest) ∧ RecvsWell n rest := by
  rcases recvLoop_complete n rs (m.bytes ++ stream) [] (Nat.zero_le _)
    (by rw [List.length_nil, List.length_append, m.length_eq]; omega) hwell with
    ⟨rest, hloop, hrest⟩
  refine ⟨rest, ?_, hrest⟩
  rw [List.length_nil, Nat.sub_zero, List.nil_append, List.take_left' m.length_eq,
    List.drop_left' m.length_eq] at hloop
  rw [receive_message_protocol, if_neg (by omega), hloop, Option.map_some]
  simp only [CharArray.ofList_bytes, hvalid, if_true, m.length_eq]

/-- Receiving a list of messages from a stream that starts with their bytes
    returns them, each with the value `sizeof(Message)`. -/
theorem receiveAll_complete (socketfd : Int) (hfd : 0 ≤ socketfd) (part : List UInt8) (n : Nat)
    {ms : List Image} {nows : List TimeT}
    (hvalid : List.Forall₂ (fun m now => validate_message (Message.ofImage m) now = true) ms nows) :
    ∀ rs : List RecvResult, RecvsWell (SIZEOF_MESSAGE * ms.length + n) rs →
      ∃ rest, receiveAll socketfd nows ((ms.map CharArray.bytes).flatten ++ part) rs
        = some (ms.map fun m => ((SIZEOF_MESSAGE : Int), m), part, rest) ∧ RecvsWell n rest := by
  induction hvalid with
  | nil =>
      intro rs hwell
      rw [List.length_nil, Nat.mul_zero, Nat.zero_add] at hwell
      exact ⟨rs, rfl, hwell⟩
  | @cons m now ms nows hm _ ih =>
      intro rs hwell
      rw [List.length_cons, show SIZEOF_MESSAGE * (ms.length + 1) + n
        = SIZEOF_MESSAGE + (SIZEOF_MESSAGE * ms.length + n) by rw [Nat.mul_succ]; omega] at hwell
      rcases receive_message socketfd hfd m now hm _ _ rs hwell with ⟨rest, hone, hwell'⟩
      rcases ih rest hwell' with ⟨rest', hall, hwell''⟩
      refine ⟨rest', ?_, hwell''⟩
      rw [List.map_cons, List.flatten_cons, List.append_assoc, receiveAll, hone, Option.bind_some,
        hall]
      rfl

/-- Whatever the calls of `send` and of `recv` do, short of failing for good,
    the messages sent one after another are received one after another, byte
    for byte, each call returning `sizeof(Message)`. If the stream then ends at
    a message boundary the next call returns 0, and if it ends inside a
    message it returns -1. -/
theorem receiveAll_sendAll (sender receiver : Int) (hsender : 0 ≤ sender)
    (hreceiver : 0 ≤ receiver) (ms : List Image) (nows : List TimeT)
    (hvalid : List.Forall₂ (fun m now => validate_message (Message.ofImage m) now = true) ms nows)
    (part : List UInt8) (hpart : part.length < SIZEOF_MESSAGE)
    (sends : List SendResult) (hsends : SendsWell (SIZEOF_MESSAGE * ms.length) sends)
    (recvs : List RecvResult)
    (hrecvs : RecvsWell (SIZEOF_MESSAGE * ms.length + (part.length + 1)) recvs) (last : TimeT) :
    ∃ stream sends' recvs' recvs'' message,
      sendAll sender ms sends
        = some (ms.map fun _ => (SIZEOF_MESSAGE : Int), stream, sends') ∧
      receiveAll receiver nows (stream ++ part) recvs
        = some (ms.map fun m => ((SIZEOF_MESSAGE : Int), m), part, recvs') ∧
      receive_message_protocol receiver last part recvs'
        = some ((if part = [] then 0 else -1, message), [], recvs'') := by
  rcases sendAll_complete sender hsender ms sends hsends with ⟨sends', hsend⟩
  rcases receiveAll_complete receiver hreceiver part _ hvalid recvs hrecvs with
    ⟨recvs', hrecv, hwell⟩
  rcases recvLoop_end recvs' part [] (by rw [List.length_nil]; omega) hwell with ⟨recvs'', hend⟩
  refine ⟨_, sends', recvs', recvs'', CharArray.zero SIZEOF_MESSAGE, hsend, hrecv, ?_⟩
  rw [receive_message_protocol, if_neg (by omega), hend]
  simp only [Option.map_some, List.length_nil, Nat.zero_add, List.length_eq_zero_iff]

/-- One request, sent and received a byte at a time with interruptions, and a
    stream that then breaks off inside the next message. -/
theorem receiveAll_sendAll_request :
    ∃ stream sends' recvs' recvs'' message,
      sendAll 3 [(create_message .MSG_LIST (bytes "ann") [] [] 0).toImage]
          (.eintr :: List.replicate SIZEOF_MESSAGE (.accepted 0))
        = some ([1248], stream, sends') ∧
      receiveAll 4 [0] (stream ++ [7]) (.eagain :: List.replicate 1250 (.data 0))
        = some ([(1248, (create_message .MSG_LIST (bytes "ann") [] [] 0).toImage)], [7], recvs') ∧
      receive_message_protocol 4 0 [7] recvs' = some ((-1, message), [], recvs'') := by
  have hvalid : validate_message (Message.ofImage
      (create_message .MSG_LIST (bytes "ann") [] [] 0).toImage) 0 = true := by
    rw [ofImage_toImage]
    decide +kernel
  refine receiveAll_sendAll 3 4 (by decide) (by decide) _ [0] (.cons hvalid .nil) [7] (by decide)
    _ ⟨?_, ?_⟩ _ ⟨?_, ?_⟩ 0
  · refine List.forall_mem_cons.mpr ⟨by decide, fun r hr => ?_⟩
    rw [List.eq_of_mem_replicate hr]
    decide
  · rw [List.countP_cons, List.countP_replicate]
    decide
  · refine List.forall_mem_cons.mpr ⟨by decide, fun r hr => ?_⟩
    rw [List.eq_of_mem_replicate hr]
    decide
  · rw [List.countP_cons, List.countP_replicate]
    decide

end Lab10

end OsLabs
