import Mathlib.Data.Nat.Digits.Lemmas
import OsLabs.Core.Tally
import OsLabs.Lab6.Handshake
import OsLabs.Lab6.Registration
import OsLabs.Lab6.Relay

/-!
# The Queues Between the Programs

Any number of POSIX clients and their server, with the message queues between
them. A queue holds `MAX_MSG` messages, and `mq_send` waits while it is full. So
a pass of the server's loop is no longer one step: the calls of `mq_send` it
makes are `outbox`, and they are made one after the other.

Of the clients all that is left out is the user's input: `buf` may hold any
string when `fgets` has returned. They have opened both queues at the start. A
client ends with `kill`, and from then on nobody reads its queue. The server
does not notice, and has the queue open still. It goes on to send to it until
the queue is full, and then waits there for ever.

The descriptor of a client's queue is the number of the client.

## Main definitions

* `Phase`, `Post`, `Net`: Where the clients are, what has been sent to the
  server, and the system.
* `step`, `start`: The system as a transition system.
* `relay`: What a client is sent for a message to the server.
* `Flow`, `Joined`: What is on its way, and who is registered where.
* `Clean`: What a client finds on its stack does not change its number.
* `Stalled`: The server waits for a client that is gone.

## Theorems

* `received_in_order`: What the clients receive, and in which order.
* `left_behind`: What happens after a client has left.
* `who_goes_on`: What keeps the programs from going on.
-/

namespace OsLabs

namespace Lab6

namespace Queues

def MAX_MSG : Nat := 10

/-- Where a client is. Its child runs from `reading` to `leaving`. -/
inductive Phase
  /-- At `mq_send` of `INIT`. -/
  | starting
  /-- At `mq_receive` for its number. -/
  | asking
  /-- At `fgets`. -/
  | reading (id : Int)
  /-- At `mq_send`, with what `buf` holds after `fgets`. -/
  | sending (id : Int) (input : List UInt8)
  /-- At `kill`. -/
  | leaving
  | left
  /-- It has left because of a bad answer to `INIT`. -/
  | failed
  deriving DecidableEq

/-- The child of the client is at `mq_receive`. -/
def Phase.listens : Phase → Bool
  | .reading _ => true
  | .sending _ _ => true
  | .leaving => true
  | _ => false

/-- A message that a client has put into the server's queue. -/
inductive Post (n : Nat)
  | init (p : Fin n)
  | line (p : Fin n) (id : Int) (input : List UInt8)

structure Net (n : Nat) where
  server : Lab6.State
  /-- The calls of `mq_send` that the server has still to make in its pass. -/
  outbox : List Send
  server_queue : List (List UInt8)
  phase : Fin n → Phase
  queue : Fin n → List (List UInt8)
  /-- What the client has taken from its queue: its number, and what its child
      has printed. -/
  received : Fin n → List (List UInt8)
  /-- The messages the server has taken, and those that are in its queue. -/
  handled : List (Post n)
  waiting : List (Post n)
  /-- All calls of `mq_send` of the passes begun. -/
  calls : List Send

/-- The numbers of the processes. -/
structure Site (n : Nat) where
  pid : Fin n → Nat
  distinct : Function.Injective pid
  small : ∀ p, pid p < 2 ^ 31

inductive Event (n : Nat)
  | init (p : Fin n)
  /-- A client reads its number. -/
  | connect (p : Fin n) (stack : Stack) (overflowed : Int)
  /-- `fgets` returns. -/
  | input (p : Fin n) (input : List UInt8)
  | send (p : Fin n)
  | leave (p : Fin n)
  /-- A child prints a message. -/
  | print (p : Fin n)
  /-- The server takes a message. -/
  | serve (queue_name : CharArray 64) (overflowed : Int)
  /-- It makes a call of `mq_send`. -/
  | deliver

section Program

variable {n : Nat} (site : Site n)

def client_queue (p : Fin n) : List UInt8 := snprintf 73 (bytes "/client_" ++ numeral (site.pid p))

def init_msg (p : Fin n) : List UInt8 := snprintf 134 (bytes "INIT " ++ client_queue site p)

/-- The text of a message. -/
def Post.text : Post n → List UInt8
  | .init p => init_msg site p
  | .line _ id input => (client_line id input).getD (bytes "EXIT")

/-- `mq_open` for a queue that has not been unlinked. -/
def mq_open (net : Net n) (path : List UInt8) : Int :=
  match firstSlot fun p => client_queue site p = path ∧ net.phase p ≠ .left with
  | some p => p
  | none => -1

/-- What a pass of the server finds. -/
def outcome (net : Net n) (msg : List UInt8) (queue_name : CharArray 64) (overflowed : Int) :
    Outcome :=
  let o : Outcome :=
    { queue_name := queue_name, overflowed := overflowed, mq_open := -1
      mq_send := fun _ text => decide (text.length ≤ MSG_SIZE) }
  { o with mq_open := mq_open site net (queueName (cstr msg) o).str }

/-- The calls of `mq_send` of one pass. -/
def newCalls (s s' : Lab6.State) : List Send :=
  s'.replies.drop s.replies.length ++ s'.broadcasts.drop s.broadcasts.length

/-- `mq_send` for the server's queue. -/
def post (net : Net n) (p : Fin n) (entry : Post n) (next : Phase) : Option (Net n) :=
  if net.server_queue.length < MAX_MSG then
    some { net with
      server_queue := net.server_queue ++ [entry.text site]
      waiting := net.waiting ++ [entry]
      phase := Function.update net.phase p next }
  else none

/-- Where a client goes on after `mq_send` for a line. -/
def afterLine (id : Int) (input : List UInt8) : Phase :=
  if (client_line id input).isNone ∨ cstr (lineOf input) = [] then .leaving else .reading id

/-- Taking a message from the queue of a client. -/
def take (net : Net n) (p : Fin n) (msg : List UInt8) (rest : List (List UInt8)) : Net n :=
  { net with
    queue := Function.update net.queue p rest
    received := Function.update net.received p (net.received p ++ [msg]) }

def step (net : Net n) : Event n → Option (Net n)
  | .init p =>
    match net.phase p with
    | .starting => post site net p (.init p) .asking
    | _ => none
  | .connect p stack overflowed =>
    match net.phase p, net.queue p with
    | .asking, reply :: rest =>
      some { take net p reply rest with
        phase := Function.update net.phase p
          ((read_id overflowed stack reply).elim .failed .reading) }
    | _, _ => none
  | .input p input =>
    match net.phase p with
    | .reading id =>
      if input.length ≤ MSG_SIZE then
        some { net with phase := Function.update net.phase p (.sending id input) }
      else none
    | _ => none
  | .send p =>
    match net.phase p with
    | .sending id input =>
      if ((Post.line p id input).text site).length ≤ MSG_SIZE then
        post site net p (.line p id input) (afterLine id input)
      else
        -- Only a line can be too long.
        some { net with phase := Function.update net.phase p (afterLine id input) }
    | _ => none
  | .leave p =>
    match net.phase p with
    | .leaving => some { net with phase := Function.update net.phase p .left }
    | _ => none
  | .print p =>
    if (net.phase p).listens then
      match net.queue p with
      | msg :: rest => some (take net p msg rest)
      | [] => none
    else none
  | .serve queue_name overflowed =>
    match net.outbox, net.server_queue with
    | [], msg :: rest =>
      (Lab6.step net.server (.message msg (outcome site net msg queue_name overflowed))).map
        fun server =>
          { net with
            server := server
            outbox := newCalls net.server server
            calls := net.calls ++ newCalls net.server server
            server_queue := rest
            handled := net.handled ++ net.waiting.take 1
            waiting := net.waiting.drop 1 }
    | _, _ => none
  | .deliver =>
    match net.outbox with
    | [] => none
    | d :: outbox =>
      if d.ok then
        if ∃ p : Fin n, d.mqd = p ∧ MAX_MSG ≤ (net.queue p).length then none
        else some { net with
          outbox := outbox
          queue := fun p => if d.mqd = p then net.queue p ++ [d.text] else net.queue p }
      else some { net with outbox := outbox }

def start (n : Nat) : Net n where
  server := Lab6.start
  outbox := []
  server_queue := []
  phase _ := .starting
  queue _ := []
  received _ := []
  handled := []
  waiting := []
  calls := []

end Program

section Names

variable {n : Nat} (site : Site n)

theorem length_numeral {k : Nat} (h : k < 2 ^ 31) : (numeral k).length ≤ 10 := by
  unfold numeral
  by_cases hk : k = 0
  · rw [if_pos hk]
    decide
  · rw [if_neg hk, List.length_map, List.length_reverse]
    exact (Nat.digits_length_le_iff (by decide) k).mpr (h.trans (by decide))

theorem client_queue_eq (p : Fin n) :
    client_queue site p = bytes "/client_" ++ numeral (site.pid p) := by
  have hlen := length_numeral (site.small p)
  have hfix : (bytes "/client_").length = 8 := rfl
  rw [client_queue, snprintf]
  refine List.take_of_length_le ?_
  rw [List.length_append]
  omega

theorem length_client_queue (p : Fin n) : (client_queue site p).length ≤ 18 := by
  have hlen := length_numeral (site.small p)
  have hfix : (bytes "/client_").length = 8 := rfl
  rw [client_queue_eq, List.length_append]
  omega

theorem init_msg_eq (p : Fin n) : init_msg site p = bytes "INIT " ++ client_queue site p := by
  have hlen := length_client_queue site p
  have hfix : (bytes "INIT ").length = 5 := rfl
  rw [init_msg, snprintf]
  refine List.take_of_length_le ?_
  rw [List.length_append]
  omega

theorem length_init_msg (p : Fin n) : (init_msg site p).length ≤ MSG_SIZE := by
  have hlen := length_client_queue site p
  have hfix : (bytes "INIT ").length = 5 := rfl
  have hsize : MSG_SIZE = 1024 := rfl
  rw [init_msg_eq, List.length_append]
  omega

theorem client_queue_injective : Function.Injective (client_queue site) := by
  intro p q h
  rw [client_queue_eq, client_queue_eq] at h
  have hnumeral := congrArg ofNumeral (List.append_cancel_left h)
  rw [ofNumeral_numeral, ofNumeral_numeral] at hnumeral
  exact site.distinct hnumeral

/-- Nothing in the name is white space or ends a string. -/
theorem client_queue_plain (p : Fin n) :
    ∀ c ∈ client_queue site p, isBlank c = false ∧ c ≠ 0 := by
  intro c hc
  rw [client_queue_eq] at hc
  rcases List.mem_append.mp hc with hc | hc
  · exact (by decide +kernel : ∀ c ∈ bytes "/client_", isBlank c = false ∧ c ≠ 0) c hc
  · have hdigit := isDecimal_numeral _ c hc
    refine ⟨(digit_not_other hdigit).1, fun hzero => ?_⟩
    rw [hzero] at hdigit
    exact absurd hdigit (by decide)

theorem init_msg_str (p : Fin n) : cstr (init_msg site p) = init_msg site p := by
  refine cstr_of_no_zero fun c hc => ?_
  rw [init_msg_eq] at hc
  rcases List.mem_append.mp hc with hc | hc
  · exact (by decide +kernel : ∀ c ∈ bytes "INIT ", c ≠ 0) c hc
  · exact (client_queue_plain site p c hc).2

theorem initName_init_msg (p : Fin n) :
    initName (init_msg site p) = some (client_queue site p) := by
  have hdrop : (init_msg site p).drop 5 = client_queue site p := by
    rw [init_msg_eq]
    rfl
  have hbegin : (bytes "INIT ").isPrefixOf (init_msg site p) = true := by
    rw [init_msg_eq]
    rfl
  have hword : firstWord (client_queue site p) = client_queue site p := by
    have hskip : (client_queue site p).dropWhile isBlank = client_queue site p := by
      rw [client_queue_eq]
      rfl
    rw [firstWord, hskip]
    refine List.takeWhile_eq_self_iff.mpr fun c hc => ?_
    rw [(client_queue_plain site p c hc).1]
    rfl
  have hne : client_queue site p ≠ [] := by
    rw [client_queue_eq]
    exact List.cons_ne_nil _ _
  unfold initName
  rw [init_msg_str, hdrop, hword, if_pos ⟨hbegin, hne⟩]

/-- A client's `INIT` opens its queue. -/
theorem mq_open_init (net : Net n) (p : Fin n) (hphase : net.phase p ≠ .left)
    (queue_name : CharArray 64) (overflowed : Int) :
    (outcome site net (init_msg site p) queue_name overflowed).mq_open = p := by
  have hlen := length_client_queue site p
  unfold outcome
  simp only []
  rw [queueName_str (initName_init_msg site p), List.take_of_length_le (by omega)]
  unfold mq_open
  cases hslot : firstSlot fun q =>
      client_queue site q = client_queue site p ∧ net.phase q ≠ .left with
  | none =>
      have hp := firstSlot_eq_none_iff.mp hslot p
      exact absurd ⟨rfl, hphase⟩ (of_decide_eq_false hp)
  | some q =>
      have hq := of_decide_eq_true (firstSlot_some hslot)
      rw [client_queue_injective site hq.1]

end Names

/-- A message to the server that asks for a registration. -/
def Post.init? {n : Nat} : Post n → Option (Fin n)
  | .init p => some p
  | .line _ _ _ => none

/-- The number the client has read. -/
def Phase.id? : Phase → Option Int
  | .reading id => some id
  | .sending id _ => some id
  | _ => none

/-- The client has not got its number yet. -/
def Phase.unanswered : Phase → Bool
  | .starting => true
  | .asking => true
  | _ => false

/-- What calls of `mq_send` put into a client's queue. -/
def toClient {n : Nat} (j : Fin n) (calls : List Send) : List (List UInt8) :=
  (calls.filter fun d => d.ok && decide (d.mqd = (j : Int))).map Send.text

/-- What a client is sent for a message to the server, apart from its number. -/
def relay {n : Nat} (j : Fin n) : Post n → Option (List UInt8)
  | .init _ => none
  | .line p id input =>
    if (client_line id input).isSome ∧ p ≠ j ∧ textOf input ≠ [] ∧
        8 + (textOf input).length ≤ MSG_SIZE then
      some (bytes "From " ++ intNumeral id ++ bytes ": " ++ textOf input)
    else none

/-- The client has a slot, and has been sent its number and all that the server
    has taken since its `INIT`. -/
structure Registered {n : Nat} (server : Lab6.State) (handled : List (Post n)) (calls : List Send)
    (j : Fin n) (i : Fin MAX_CLIENTS) : Prop where
  active : (server.clients i).active = true
  mqd : (server.clients i).mqd = (j : Int)
  told : ∃ before later, handled = before ++ .init j :: later ∧
    toClient j calls = idText i :: later.filterMap (relay j)

/-- What is on its way. -/
structure Flow {n : Nat} (site : Site n) (net : Net n) : Prop where
  fifo : ∀ j, net.received j ++ (net.queue j ++ toClient j net.outbox) = toClient j net.calls
  waiting : net.waiting.map (Post.text site) = net.server_queue

/-- Who is registered where. -/
structure Joined {n : Nat} (site : Site n) (net : Net n) : Prop where
  once : ((net.handled ++ net.waiting).filterMap Post.init?).Nodup
  starting : ∀ j, net.phase j = .starting → .init j ∉ net.handled ++ net.waiting
  silent : ∀ j, net.received j = [] ↔ (net.phase j).unanswered = true
  registered : ∀ j, (∃ i, Registered net.server net.handled net.calls j i) ∨
    toClient j net.calls = [] ∧
      ∀ i, (net.server.clients i).active = true → (net.server.clients i).mqd ≠ (j : Int)
  apart : ∀ i i', (net.server.clients i).active = true → (net.server.clients i').active = true →
    (net.server.clients i).mqd = (net.server.clients i').mqd → i = i'
  known : ∀ j id, (net.phase j).id? = some id →
    ∃ i, Registered net.server net.handled net.calls j i ∧ id = (i : Int)
  lines : ∀ p id input, .line p id input ∈ net.handled ++ net.waiting →
    (∃ i, Registered net.server net.handled net.calls p i ∧ id = (i : Int)) ∧
      ((Post.line p id input).text site).length ≤ MSG_SIZE

/-- The client takes no more messages from its queue. -/
def Phase.gone : Phase → Bool
  | .left => true
  | .failed => true
  | _ => false

/-- The server waits for room in the queue of a client that is gone. -/
def Stalled {n : Nat} (net : Net n) (j : Fin n) : Prop :=
  (net.phase j).gone = true ∧ MAX_MSG ≤ (net.queue j).length ∧
    ∃ d outbox, net.outbox = d :: outbox ∧ d.ok = true ∧ d.mqd = (j : Int)

/-- A step that does not wait for the user. -/
def Event.internal {n : Nat} : Event n → Bool
  | .input _ _ => false
  | _ => true

/-- The digits on a client's stack do not change the number it reads. -/
def Clean {n : Nat} (net : Net n) : Event n → Prop
  | .connect p stack _ => ∀ i : Fin MAX_CLIENTS,
      (net.queue p).head? = some (idText i) → Undisturbed stack i
  | _ => True

instance (stack : Stack) (slot : Nat) : Decidable (Undisturbed stack slot) :=
  inferInstanceAs (Decidable (_ ∨ _ ∧ _))

instance {n : Nat} (net : Net n) : ∀ e, Decidable (Clean net e)
  | .connect _ _ _ => inferInstanceAs (Decidable (∀ _ : Fin MAX_CLIENTS, _ → _))
  | .init _ => inferInstanceAs (Decidable True)
  | .input _ _ => inferInstanceAs (Decidable True)
  | .send _ => inferInstanceAs (Decidable True)
  | .leave _ => inferInstanceAs (Decidable True)
  | .print _ => inferInstanceAs (Decidable True)
  | .serve _ _ => inferInstanceAs (Decidable True)
  | .deliver => inferInstanceAs (Decidable True)

/-- While its child runs a client has its number and is not gone. -/
theorem listens_not {phase : Phase} (h : phase.listens = true) :
    phase.gone = false ∧ phase.unanswered = false := by
  cases phase with
  | reading id => exact ⟨rfl, rfl⟩
  | sending id input => exact ⟨rfl, rfl⟩
  | leaving => exact ⟨rfl, rfl⟩
  | _ => cases h

section Flow

variable {n : Nat} {site : Site n} {net net' : Net n}

theorem toClient_append (j : Fin n) (calls calls' : List Send) :
    toClient j (calls ++ calls') = toClient j calls ++ toClient j calls' := by
  unfold toClient
  rw [List.filter_append, List.map_append]

theorem flow_start : Flow site (start n) where
  fifo _ := rfl
  waiting := rfl

theorem post_eq {p : Fin n} {entry : Post n} {next : Phase}
    (hpost : post site net p entry next = some net') : net' = { net with
      server_queue := net.server_queue ++ [entry.text site]
      waiting := net.waiting ++ [entry]
      phase := Function.update net.phase p next } := by
  unfold post at hpost
  split_ifs at hpost
  exact (Option.some.inj hpost).symm

theorem flow_post (h : Flow site net) {p : Fin n} {entry : Post n} {next : Phase}
    (hpost : post site net p entry next = some net') : Flow site net' := by
  rw [post_eq hpost]
  refine ⟨h.fifo, ?_⟩
  change (net.waiting ++ [entry]).map (Post.text site) = _
  rw [List.map_append, h.waiting]
  rfl

/-- Taking a message moves it. -/
theorem take_fifo {p : Fin n} {msg : List UInt8} {rest : List (List UInt8)}
    (hqueue : net.queue p = msg :: rest) (j : Fin n) :
    (take net p msg rest).received j ++ (take net p msg rest).queue j =
      net.received j ++ net.queue j := by
  unfold take
  by_cases hj : j = p
  · rw [hj]
    change Function.update net.received p _ p ++ Function.update net.queue p rest p = _
    rw [Function.update_self, Function.update_self, hqueue, List.append_assoc]
    rfl
  · change Function.update net.received p _ j ++ Function.update net.queue p rest j = _
    rw [Function.update_of_ne hj, Function.update_of_ne hj]

theorem flow_take (h : Flow site net) {p : Fin n} {msg : List UInt8} {rest : List (List UInt8)}
    (hqueue : net.queue p = msg :: rest) : Flow site (take net p msg rest) := by
  refine ⟨fun j => ?_, h.waiting⟩
  rw [← List.append_assoc, take_fifo hqueue, List.append_assoc]
  exact h.fifo j

/-- What making a call of `mq_send` is. -/
theorem deliver_eq (hstep : step site net .deliver = some net') :
    ∃ d outbox, net.outbox = d :: outbox ∧
      (d.ok = true ∧ (∀ p : Fin n, d.mqd = p → (net.queue p).length < MAX_MSG) ∧
        net' = { net with
          outbox := outbox
          queue := fun p => if d.mqd = p then net.queue p ++ [d.text] else net.queue p } ∨
      d.ok = false ∧ net' = { net with outbox := outbox }) := by
  simp only [step] at hstep
  split at hstep
  · cases hstep
  · rename_i d outbox houtbox
    refine ⟨d, outbox, houtbox, ?_⟩
    split_ifs at hstep with hok hroom
    · cases hstep
      refine Or.inl ⟨hok, fun p hp => ?_, rfl⟩
      by_contra hfull
      exact hroom ⟨p, hp, Nat.le_of_not_lt hfull⟩
    · cases hstep
      exact Or.inr ⟨Bool.eq_false_of_not_eq_true hok, rfl⟩

theorem flow_deliver (h : Flow site net) (hstep : step site net .deliver = some net') :
    Flow site net' := by
  have hfifo := h.fifo
  rcases deliver_eq hstep with ⟨d, outbox, houtbox, ⟨hok, _, rfl⟩ | ⟨hfail, rfl⟩⟩
  · refine ⟨fun j => ?_, h.waiting⟩
    rw [← hfifo j, houtbox]
    congr 1
    change (if d.mqd = (j : Int) then net.queue j ++ [d.text] else net.queue j) ++
      toClient j outbox = _
    unfold toClient
    by_cases hj : d.mqd = (j : Int)
    · simp [hj, hok]
    · simp [hj]
  · refine ⟨fun j => ?_, h.waiting⟩
    rw [← hfifo j, houtbox]
    unfold toClient
    simp [hfail]

/-- What a pass of the server's loop is. -/
theorem serve_eq {queue_name : CharArray 64} {overflowed : Int}
    (hstep : step site net (.serve queue_name overflowed) = some net') :
    ∃ msg rest, net.outbox = [] ∧ net.server_queue = msg :: rest ∧
      net.server.running = true ∧ msg.length ≤ MSG_SIZE ∧
      net' = { net with
        server := handle net.server msg (outcome site net msg queue_name overflowed)
        outbox := newCalls net.server
          (handle net.server msg (outcome site net msg queue_name overflowed))
        calls := net.calls ++ newCalls net.server
          (handle net.server msg (outcome site net msg queue_name overflowed))
        server_queue := rest
        handled := net.handled ++ net.waiting.take 1
        waiting := net.waiting.drop 1 } := by
  simp only [step] at hstep
  split at hstep
  · rename_i msg rest houtbox hqueue
    rcases Option.map_eq_some_iff.mp hstep with ⟨server, hserver, rfl⟩
    rw [Lab6.step] at hserver
    split_ifs at hserver with hrun
    cases hserver
    exact ⟨msg, rest, houtbox, hqueue, hrun.1, hrun.2, rfl⟩
  · cases hstep

theorem flow_serve (h : Flow site net) {queue_name : CharArray 64} {overflowed : Int}
    (hstep : step site net (.serve queue_name overflowed) = some net') : Flow site net' := by
  rcases serve_eq hstep with ⟨msg, rest, houtbox, hqueue, _, _, rfl⟩
  refine ⟨fun j => ?_, ?_⟩
  · have hfifo := h.fifo j
    rw [houtbox] at hfifo
    change net.received j ++ (net.queue j ++ toClient j _) = toClient j (net.calls ++ _)
    rw [toClient_append, ← hfifo]
    simp [toClient]
  · change (net.waiting.drop 1).map (Post.text site) = rest
    rw [List.map_drop, h.waiting, hqueue]
    rfl

theorem flow_step (h : Flow site net) {e : Event n} (hstep : step site net e = some net') :
    Flow site net' := by
  cases e with
  | init p =>
      simp only [step] at hstep
      split at hstep
      · exact flow_post h hstep
      · cases hstep
  | connect p stack overflowed =>
      simp only [step] at hstep
      split at hstep
      · rename_i reply rest _ hqueue
        cases hstep
        have hflow := flow_take h hqueue
        exact ⟨hflow.fifo, hflow.waiting⟩
      · cases hstep
  | input p input =>
      simp only [step] at hstep
      split at hstep
      · split_ifs at hstep
        cases hstep
        exact ⟨h.fifo, h.waiting⟩
      · cases hstep
  | send p =>
      simp only [step] at hstep
      split at hstep
      · split_ifs at hstep
        · exact flow_post h hstep
        · cases hstep
          exact ⟨h.fifo, h.waiting⟩
      · cases hstep
  | leave p =>
      simp only [step] at hstep
      split at hstep
      · cases hstep
        exact ⟨h.fifo, h.waiting⟩
      · cases hstep
  | print p =>
      simp only [step] at hstep
      split_ifs at hstep
      split at hstep
      · rename_i msg rest hqueue
        cases hstep
        exact flow_take h hqueue
      · cases hstep
  | serve queue_name overflowed => exact flow_serve h hstep
  | deliver => exact flow_deliver h hstep

end Flow

section Serving

variable {n : Nat} {site : Site n} {s s' : Lab6.State} {o : Outcome}

theorem newCalls_append {replies broadcasts : List Send}
    (hreplies : s'.replies = s.replies ++ replies)
    (hbroadcasts : s'.broadcasts = s.broadcasts ++ broadcasts) :
    newCalls s s' = replies ++ broadcasts := by
  rw [newCalls, hreplies, hbroadcasts, List.drop_left, List.drop_left]

theorem newCalls_self (s : Lab6.State) : newCalls s s = [] :=
  newCalls_append (List.append_nil _).symm (List.append_nil _).symm

/-- An `INIT` finds no slot, or the client's number is on its way. -/
theorem handle_init_msg (site : Site n) (s : Lab6.State) (p : Fin n) (hopen : o.mq_open = (p : Int))
    (hsend : o.mq_send = fun _ text => decide (text.length ≤ MSG_SIZE)) :
    handle s (init_msg site p) o = s ∨ ∃ i client, s.freeSlot = some i ∧ client.active = true ∧
      client.mqd = (p : Int) ∧ handle s (init_msg site p) o = { s with
        clients := Function.update s.clients i client
        replies := s.replies ++ [{ slot := i, mqd := p, text := idText i, ok := true }] } := by
  have hbegin : (bytes "INIT ").isPrefixOf (init_msg site p) = true := by
    rw [init_msg_eq]
    rfl
  have hne : (p : Int) ≠ -1 := by omega
  unfold handle
  simp only []
  rw [init_msg_str, if_pos hbegin, handle_INIT]
  cases hfree : s.freeSlot with
  | none =>
      left
      rfl
  | some i =>
      have hok : o.mq_send i (idText i) = true := by
        rw [hsend]
        have hlen := length_idText i
        have hsize : MSG_SIZE = 1024 := rfl
        exact decide_eq_true (by omega)
      let client : Client :=
        { active := true, mqd := p
          name := (s.clients i).name.strncpy (queueName (init_msg site p) o).bytes 64 }
      refine Or.inr ⟨i, client, rfl, rfl, rfl, ?_⟩
      simp only [hopen, if_neg hne, hok, client]

theorem mem_broadcast {sender : Int} {text : List UInt8} {d : Send}
    (h : d ∈ broadcast s sender text o) :
    (s.clients d.slot).active = true ∧ d.mqd = (s.clients d.slot).mqd := by
  rcases List.mem_flatMap.mp h with ⟨i, _, hd⟩
  split_ifs at hd with hi
  · rw [List.mem_singleton.mp hd]
    exact ⟨hi.1, rfl⟩
  · cases hd

/-- What a client with a slot is sent for a line. -/
theorem toClient_broadcast {i : Fin MAX_CLIENTS} {j : Fin n}
    (hactive : (s.clients i).active = true) (hmqd : (s.clients i).mqd = (j : Int))
    (hapart : ∀ i', (s.clients i').active = true → (s.clients i').mqd = (j : Int) → i' = i)
    (sender : Int) (text : List UInt8) :
    toClient j (broadcast s sender text o) =
      if (i : Int) ≠ sender ∧ o.mq_send i (fromText sender text) = true then
        [fromText sender text]
      else [] := by
  have hfilter : (broadcast s sender text o).filter (fun d => d.ok && decide (d.mqd = (j : Int))) =
      ((broadcast s sender text o).filter fun d => d.slot = i).filter Send.ok := by
    rw [List.filter_filter]
    refine List.filter_congr fun d hd => ?_
    rcases mem_broadcast hd with ⟨hd, hdmqd⟩
    congr 1
    refine decide_eq_decide.mpr ⟨fun h => hapart d.slot hd (hdmqd.symm.trans h), fun h => ?_⟩
    rw [hdmqd, h, hmqd]
  unfold toClient
  rw [hfilter, filter_broadcast]
  by_cases hi : (i : Int) ≠ sender
  · rw [if_pos ⟨hactive, hi⟩]
    cases hok : o.mq_send i (fromText sender text) with
    | true => simp [hi]
    | false => simp
  · rw [if_neg fun h => hi h.2, if_neg fun h => hi h.1]
    rfl

/-- A client without a slot is sent nothing. -/
theorem toClient_broadcast_none {j : Fin n}
    (hnone : ∀ i, (s.clients i).active = true → (s.clients i).mqd ≠ (j : Int)) (sender : Int)
    (text : List UInt8) : toClient j (broadcast s sender text o) = [] := by
  unfold toClient
  rw [List.map_eq_nil_iff, List.filter_eq_nil_iff]
  intro d hd
  rcases mem_broadcast hd with ⟨hactive, hmqd⟩
  have hne := hnone d.slot hactive
  rw [← hmqd] at hne
  simp [hne]

/-- `EXIT` ends the server. -/
theorem handle_exit : handle s (bytes "EXIT") o = { s with running := false } := by
  have hstr : cstr (bytes "EXIT") = bytes "EXIT" := by decide +kernel
  have hinit : ¬ (bytes "INIT ").isPrefixOf (bytes "EXIT") = true := by decide +kernel
  have hmsg : ¬ (bytes "MSG ").isPrefixOf (bytes "EXIT") = true := by decide +kernel
  unfold handle
  simp only []
  rw [hstr, if_neg hinit, if_neg hmsg, if_pos rfl]

/-- What the server makes of a line, as its clients see it. -/
theorem handle_line {p : Fin n} {i : Fin MAX_CLIENTS} {input : List UInt8}
    (hsend : o.mq_send = fun _ text => decide (text.length ≤ MSG_SIZE))
    (hlen : ((Post.line p i input).text site).length ≤ MSG_SIZE)
    (hp : (s.clients i).active = true ∧ (s.clients i).mqd = (p : Int))
    (hapart : ∀ i i', (s.clients i).active = true → (s.clients i').active = true →
      (s.clients i).mqd = (s.clients i').mqd → i = i') :
    (handle s ((Post.line p i input).text site) o).clients = s.clients ∧
      ∀ j : Fin n,
        (∀ i', (s.clients i').active = true → (s.clients i').mqd = (j : Int) →
          toClient j (newCalls s (handle s ((Post.line p i input).text site) o)) =
            (relay j (.line p i input)).toList) ∧
        ((∀ i', (s.clients i').active = true → (s.clients i').mqd ≠ (j : Int)) →
          toClient j (newCalls s (handle s ((Post.line p i input).text site) o)) = []) := by
  cases hout : client_line i input with
  | none =>
      have htext : (Post.line p i input).text site = bytes "EXIT" := by
        rw [Post.text, hout]
        rfl
      have hnew : newCalls s { s with running := false } = [] := newCalls_self s
      rw [htext, handle_exit, hnew]
      refine ⟨rfl, fun j => ⟨fun _ _ _ => ?_, fun _ => rfl⟩⟩
      rw [relay, hout]
      rfl
  | some out =>
      have htext : (Post.line p i input).text site = out := by
        rw [Post.text, hout]
        rfl
      rw [htext] at hlen
      rw [htext, handle_sent s hout hlen o]
      by_cases hnil : textOf input = []
      · rw [if_pos hnil]
        rw [newCalls_self]
        refine ⟨rfl, fun j => ⟨fun _ _ _ => ?_, fun _ => rfl⟩⟩
        rw [relay, if_neg fun h => h.2.2.1 hnil]
        rfl
      · rw [if_neg hnil]
        have hnew : newCalls s
            { s with broadcasts := s.broadcasts ++ broadcast s i (textOf input) o } =
            broadcast s i (textOf input) o := by
          rw [newCalls, List.drop_length, List.drop_left, List.nil_append]
        rw [hnew]
        refine ⟨rfl, fun j => ⟨fun i' hactive hmqd => ?_, fun hnone =>
          toClient_broadcast_none hnone _ _⟩⟩
        have hfrom := fromText_slot i (length_textOf hout hlen)
        have hother : (i' : Int) ≠ i ↔ p ≠ j := by
          rw [val_ne]
          refine not_congr ⟨fun h => ?_, fun h => hapart i' i hactive hp.1 ?_⟩
          · rw [h, hp.2] at hmqd
            exact Fin.ext (Int.ofNat_inj.mp hmqd)
          · rw [hmqd, hp.2, h]
        have honly : ∀ i'', (s.clients i'').active = true → (s.clients i'').mqd = (j : Int) →
            i'' = i' := fun i'' ha hm => hapart i'' i' ha hactive (hm.trans hmqd.symm)
        rw [toClient_broadcast hactive hmqd honly, hsend, hfrom, relay, hout]
        simp only [hother, length_from, decide_eq_true_eq]
        by_cases hfits : p ≠ j ∧ 8 + (textOf input).length ≤ MSG_SIZE
        · rw [if_pos hfits, if_pos ⟨rfl, hfits.1, hnil, hfits.2⟩]
          rfl
        · rw [if_neg hfits, if_neg fun h => hfits ⟨h.2.1, h.2.2.2⟩]
          rfl

end Serving

section Registration

variable {n : Nat} {site : Site n} {net net' : Net n}

/-- The server takes another message, and sends the client what is due. -/
theorem Registered.next {server server' : Lab6.State} {handled : List (Post n)}
    {calls new : List Send} {j : Fin n} {i : Fin MAX_CLIENTS} {entry : Post n}
    (h : Registered server handled calls j i)
    (hactive : (server'.clients i).active = true) (hmqd : (server'.clients i).mqd = (j : Int))
    (hnew : toClient j new = (relay j entry).toList) :
    Registered server' (handled ++ [entry]) (calls ++ new) j i := by
  rcases h.told with ⟨before, later, hhandled, htold⟩
  refine ⟨hactive, hmqd, before, later ++ [entry], ?_, ?_⟩
  · rw [hhandled, List.append_assoc]
    rfl
  · rw [toClient_append, htold, hnew, List.filterMap_append]
    cases hrelay : relay j entry <;> simp [hrelay]

theorem joined_start : Joined site (start n) where
  once := List.nodup_nil
  starting _ _ := List.not_mem_nil
  silent _ := ⟨fun _ => rfl, fun _ => rfl⟩
  registered _ := Or.inr ⟨rfl, fun _ h => by cases h⟩
  apart _ _ h := by cases h
  known _ _ h := by cases h
  lines _ _ _ h := by cases h

/-- Nothing changes but where the clients are. -/
theorem joined_congr (h : Joined site net) (hserver : net'.server = net.server)
    (hhandled : net'.handled = net.handled) (hwaiting : net'.waiting = net.waiting)
    (hcalls : net'.calls = net.calls)
    (hstarting : ∀ j, net'.phase j = .starting → net.phase j = .starting)
    (hsilent : ∀ j, net'.received j = [] ↔ (net'.phase j).unanswered = true)
    (hknown : ∀ j id, (net'.phase j).id? = some id →
      ∃ i, Registered net.server net.handled net.calls j i ∧ id = (i : Int)) :
    Joined site net' := by
  constructor
  · rw [hhandled, hwaiting]
    exact h.once
  · rw [hhandled, hwaiting]
    exact fun j hj => h.starting j (hstarting j hj)
  · exact hsilent
  · rw [hserver, hhandled, hcalls]
    exact h.registered
  · rw [hserver]
    exact h.apart
  · rw [hserver, hhandled, hcalls]
    exact hknown
  · rw [hserver, hhandled, hwaiting, hcalls]
    exact h.lines

theorem starting_update {phase : Fin n → Phase} {p : Fin n} {next : Phase}
    (hnext : next ≠ .starting) (j : Fin n) (hj : Function.update phase p next j = .starting) :
    phase j = .starting := by
  by_cases hjp : j = p
  · rw [hjp, Function.update_self] at hj
    exact absurd hj hnext
  · rwa [Function.update_of_ne hjp] at hj

theorem silent_update (h : Joined site net) {p : Fin n} {next : Phase}
    (hnext : next.unanswered = (net.phase p).unanswered) (j : Fin n) :
    net.received j = [] ↔ (Function.update net.phase p next j).unanswered = true := by
  by_cases hjp : j = p
  · rw [hjp, Function.update_self, hnext]
    exact h.silent p
  · rw [Function.update_of_ne hjp]
    exact h.silent j

theorem known_update (h : Joined site net) {p : Fin n} {next : Phase}
    (hnext : ∀ id, next.id? = some id →
      ∃ i, Registered net.server net.handled net.calls p i ∧ id = (i : Int)) (j : Fin n) (id : Int)
    (hj : (Function.update net.phase p next j).id? = some id) :
    ∃ i, Registered net.server net.handled net.calls j i ∧ id = (i : Int) := by
  by_cases hjp : j = p
  · rw [hjp, Function.update_self] at hj
    rw [hjp]
    exact hnext id hj
  · rw [Function.update_of_ne hjp] at hj
    exact h.known j id hj

/-- A client goes on without a message. -/
theorem joined_move (h : Joined site net) {p : Fin n} {next : Phase} (hstarting : next ≠ .starting)
    (hsilent : next.unanswered = (net.phase p).unanswered)
    (hknown : ∀ id, next.id? = some id → (net.phase p).id? = some id) :
    Joined site { net with phase := Function.update net.phase p next } :=
  joined_congr h rfl rfl rfl rfl (starting_update hstarting) (silent_update h hsilent)
    (known_update h fun id hid => h.known p id (hknown id hid))

/-- A client puts a message into the server's queue. -/
theorem joined_post (h : Joined site net) {p : Fin n} {entry : Post n} {next : Phase}
    (hpost : post site net p entry next = some net') (hstarting : next ≠ .starting)
    (hsilent : next.unanswered = (net.phase p).unanswered)
    (hknown : ∀ id, next.id? = some id → (net.phase p).id? = some id)
    (hinit : ∀ q, entry = .init q → q = p ∧ net.phase p = .starting)
    (hline : ∀ q id input, entry = .line q id input →
      q = p ∧ (net.phase p).id? = some id ∧ (entry.text site).length ≤ MSG_SIZE) :
    Joined site net' := by
  rw [post_eq hpost]
  have hmove := joined_move h hstarting hsilent hknown
  constructor
  · change ((net.handled ++ (net.waiting ++ [entry])).filterMap Post.init?).Nodup
    rw [← List.append_assoc, List.filterMap_append]
    cases hentry : entry with
    | line q id input =>
        have hnone : [Post.line q id input].filterMap Post.init? = [] := rfl
        rw [hnone, List.append_nil]
        exact h.once
    | init q =>
        rcases hinit q hentry with ⟨rfl, hphase⟩
        refine List.nodup_append.mpr ⟨h.once, List.nodup_singleton q, fun a ha b hb => ?_⟩
        rw [List.mem_singleton.mp hb]
        intro haq
        rw [haq] at ha
        rcases List.mem_filterMap.mp ha with ⟨entry', hmem, hinit'⟩
        cases entry' with
        | line _ _ _ => cases hinit'
        | init q' =>
            cases hinit'
            exact h.starting q hphase hmem
  · intro j hj
    change Post.init j ∉ net.handled ++ (net.waiting ++ [entry])
    rw [← List.append_assoc]
    intro hmem
    rcases List.mem_append.mp hmem with hmem | hmem
    · exact hmove.starting j hj hmem
    · -- Then it is the client that has just moved on.
      rcases hinit j (List.mem_singleton.mp hmem).symm with ⟨rfl, _⟩
      change Function.update net.phase j next j = .starting at hj
      rw [Function.update_self] at hj
      exact hstarting hj
  · exact hmove.silent
  · exact h.registered
  · exact h.apart
  · exact hmove.known
  · intro q id input hmem
    change Post.line q id input ∈ net.handled ++ (net.waiting ++ [entry]) at hmem
    rw [← List.append_assoc] at hmem
    rcases List.mem_append.mp hmem with hmem | hmem
    · exact h.lines q id input hmem
    · rcases hline q id input (List.mem_singleton.mp hmem).symm with ⟨rfl, hid, hlen⟩
      rw [List.mem_singleton.mp hmem]
      exact ⟨h.known q id hid, hlen⟩

/-- The server takes a message: what it has to do for that. -/
theorem joined_serve_of (h : Joined site net) {entry : Post n} {rest : List (Post n)}
    (hwaiting : net.waiting = entry :: rest) {server : Lab6.State} {new : List Send}
    (hserver : net'.server = server) (hhandled : net'.handled = net.handled ++ [entry])
    (hrest : net'.waiting = rest) (hcalls : net'.calls = net.calls ++ new)
    (hphase : net'.phase = net.phase) (hreceived : net'.received = net.received)
    (hkeep : ∀ j i, Registered net.server net.handled net.calls j i →
      Registered server (net.handled ++ [entry]) (net.calls ++ new) j i)
    (hregistered : ∀ j, (∃ i, Registered server (net.handled ++ [entry]) (net.calls ++ new) j i) ∨
      toClient j (net.calls ++ new) = [] ∧
        ∀ i, (server.clients i).active = true → (server.clients i).mqd ≠ (j : Int))
    (hapart : ∀ i i', (server.clients i).active = true → (server.clients i').active = true →
      (server.clients i).mqd = (server.clients i').mqd → i = i') :
    Joined site net' := by
  have hall : net'.handled ++ net'.waiting = net.handled ++ net.waiting := by
    rw [hhandled, hrest, hwaiting, List.append_assoc]
    rfl
  constructor
  · rw [hall]
    exact h.once
  · rw [hall, hphase]
    exact h.starting
  · rw [hphase, hreceived]
    exact h.silent
  · rw [hserver, hhandled, hcalls]
    exact hregistered
  · rw [hserver]
    exact hapart
  · rw [hserver, hhandled, hcalls, hphase]
    intro j id hid
    rcases h.known j id hid with ⟨i, hi, hslot⟩
    exact ⟨i, hkeep j i hi, hslot⟩
  · rw [hserver, hhandled, hcalls, ← hhandled, hall]
    intro p id input hmem
    rcases h.lines p id input hmem with ⟨⟨i, hi, hslot⟩, hlen⟩
    rw [hhandled]
    exact ⟨⟨i, hkeep p i hi, hslot⟩, hlen⟩

/-- A client whose `INIT` is in the server's queue has no slot. -/
theorem unregistered_of_waiting (h : Joined site net) {p : Fin n} {rest : List (Post n)}
    (hwaiting : net.waiting = .init p :: rest) :
    toClient p net.calls = [] ∧
      ∀ i, (net.server.clients i).active = true → (net.server.clients i).mqd ≠ (p : Int) := by
  rcases h.registered p with ⟨i, hi⟩ | hnone
  · rcases hi.told with ⟨before, later, hhandled, _⟩
    have honce := h.once
    rw [hhandled, hwaiting] at honce
    simp [Post.init?, List.filterMap_append, List.nodup_append] at honce
  · exact hnone

/-- The client is given a slot. -/
theorem joined_admit (h : Joined site net) {p : Fin n} {rest : List (Post n)}
    (hwaiting : net.waiting = .init p :: rest) {i : Fin MAX_CLIENTS} {client : Client}
    {server : Lab6.State} (hfree : net.server.freeSlot = some i) (hactive : client.active = true)
    (hmqd : client.mqd = (p : Int))
    (hs' : server = { net.server with
      clients := Function.update net.server.clients i client
      replies := net.server.replies ++ [{ slot := i, mqd := p, text := idText i, ok := true }] })
    (hserver : net'.server = server) (hhandled : net'.handled = net.handled ++ [.init p])
    (hrest : net'.waiting = rest) (hcalls : net'.calls = net.calls ++ newCalls net.server server)
    (hphase : net'.phase = net.phase) (hreceived : net'.received = net.received) :
    Joined site net' := by
  rcases unregistered_of_waiting h hwaiting with ⟨hnothing, hslots⟩
  have hnew : newCalls net.server server =
      [{ slot := i, mqd := p, text := idText i, ok := true }] := by
    rw [hs', newCalls, List.drop_left, List.drop_length, List.append_nil]
  have hothers : ∀ j : Fin n, j ≠ p → toClient j
      [{ slot := i, mqd := p, text := idText i, ok := true }] = [] := by
    intro j hj
    have hne : ((p : Nat) : Int) ≠ (j : Int) := fun hp => hj (Fin.ext (Int.ofNat_inj.mp hp)).symm
    simp [toClient, hne]
  have hold : ∀ i', (net.server.clients i').active = true → server.clients i' =
      net.server.clients i' := by
    intro i' hi'
    have hne : i' ≠ i := by
      rintro rfl
      rw [freeSlot_inactive hfree] at hi'
      cases hi'
    rw [hs']
    exact Function.update_of_ne hne _ _
  have hslot : server.clients i = client := by
    rw [hs']
    exact Function.update_self _ _ _
  have hactive' : ∀ i', (server.clients i').active = true →
      i' = i ∨ (net.server.clients i').active = true ∧
        server.clients i' = net.server.clients i' := by
    intro i' hi'
    by_cases hii : i' = i
    · exact Or.inl hii
    · have hsame : server.clients i' = net.server.clients i' := by
        rw [hs']
        exact Function.update_of_ne hii _ _
      rw [hsame] at hi'
      exact Or.inr ⟨hi', hsame⟩
  have hkeep : ∀ j i', Registered net.server net.handled net.calls j i' → Registered server
      (net.handled ++ [.init p])
      (net.calls ++ [{ slot := i, mqd := p, text := idText i, ok := true }]) j i' := by
    intro j i' hj
    have hjp : j ≠ p := by
      rintro rfl
      exact hslots i' hj.active hj.mqd
    refine hj.next ?_ ?_ (hothers j hjp)
    · rw [hold i' hj.active]
      exact hj.active
    · rw [hold i' hj.active]
      exact hj.mqd
  rw [hnew] at hcalls
  refine joined_serve_of h hwaiting hserver hhandled hrest hcalls hphase hreceived hkeep
    (fun j => ?_) ?_
  · by_cases hjp : j = p
    · refine Or.inl ⟨i, ?_, ?_, net.handled, [], ?_, ?_⟩
      · rw [hslot]
        exact hactive
      · rw [hslot, hjp]
        exact hmqd
      · rw [hjp]
      · rw [hjp, toClient_append, hnothing]
        simp [toClient]
    · rcases h.registered j with ⟨i', hj⟩ | ⟨hnone, hnoslot⟩
      · exact Or.inl ⟨i', hkeep j i' hj⟩
      · refine Or.inr ⟨by rw [toClient_append, hnone, hothers j hjp]; rfl, fun i' hi' => ?_⟩
        rcases hactive' i' hi' with rfl | ⟨hi', hsame⟩
        · rw [hslot, hmqd]
          exact fun hpj => hjp (Fin.ext (Int.ofNat_inj.mp hpj)).symm
        · rw [hsame]
          exact hnoslot i' hi'
  · -- The slots of the others are not this client's.
    intro i₁ i₂ h₁ h₂ hsame
    rcases hactive' i₁ h₁ with rfl | ⟨h₁, hsame₁⟩
    · rcases hactive' i₂ h₂ with rfl | ⟨h₂, hsame₂⟩
      · rfl
      · rw [hslot, hsame₂, hmqd] at hsame
        exact absurd hsame.symm (hslots i₂ h₂)
    · rcases hactive' i₂ h₂ with rfl | ⟨h₂, hsame₂⟩
      · rw [hslot, hsame₁, hmqd] at hsame
        exact absurd hsame (hslots i₁ h₁)
      · rw [hsame₁, hsame₂] at hsame
        exact h.apart i₁ i₂ h₁ h₂ hsame

theorem joined_serve (hflow : Flow site net) (h : Joined site net) {queue_name : CharArray 64}
    {overflowed : Int} (hstep : step site net (.serve queue_name overflowed) = some net') :
    Joined site net' := by
  rcases serve_eq hstep with ⟨msg, queue, _, hqueue, _, _, rfl⟩
  have htexts := hflow.waiting
  rw [hqueue] at htexts
  cases hwaiting : net.waiting with
  | nil =>
      rw [hwaiting] at htexts
      cases htexts
  | cons entry rest =>
      rw [hwaiting, List.map_cons, List.cons.injEq] at htexts
      rcases htexts with ⟨rfl, _⟩
      cases entry with
      | init p =>
          rcases unregistered_of_waiting h hwaiting with ⟨hnothing, hslots⟩
          have hphase : net.phase p ≠ .left := by
            have hfifo := hflow.fifo p
            rw [hnothing] at hfifo
            have hasking := (h.silent p).mp (List.append_eq_nil_iff.mp hfifo).1
            intro hleft
            rw [hleft] at hasking
            cases hasking
          rcases handle_init_msg site net.server p
            (mq_open_init site net p hphase queue_name overflowed) rfl with
            hsame | ⟨i, client, hfree, hactive, hmqd, hs'⟩
          · -- No slot is free, and the client will wait for ever.
            have hkeep : ∀ j i, Registered net.server net.handled net.calls j i →
                Registered net.server (net.handled ++ [.init p]) (net.calls ++ []) j i :=
              fun j i hj => hj.next hj.active hj.mqd rfl
            refine joined_serve_of h hwaiting hsame rfl rfl ?_ rfl rfl hkeep (fun j => ?_) h.apart
            · change net.calls ++ newCalls net.server (handle net.server (init_msg site p)
                (outcome site net (init_msg site p) queue_name overflowed)) = _
              rw [hsame, newCalls_self]
            · rcases h.registered j with ⟨i, hj⟩ | ⟨hnone, hnoslot⟩
              · exact Or.inl ⟨i, hkeep j i hj⟩
              · exact Or.inr ⟨by rw [List.append_nil, hnone], hnoslot⟩
          · exact joined_admit h hwaiting hfree hactive hmqd hs' rfl rfl rfl rfl rfl rfl
      | line p id input =>
          have hmem : Post.line p id input ∈ net.handled ++ net.waiting := by
            rw [hwaiting]
            exact List.mem_append_right _ List.mem_cons_self
          rcases h.lines p id input hmem with ⟨⟨i, hi, rfl⟩, hlen⟩
          have hline := handle_line
            (o := outcome site net ((Post.line p i input).text site) queue_name overflowed) rfl hlen
            ⟨hi.active, hi.mqd⟩ h.apart
          have hkeep : ∀ j i', Registered net.server net.handled net.calls j i' → Registered
              (handle net.server ((Post.line p i input).text site)
                (outcome site net ((Post.line p i input).text site) queue_name overflowed))
              (net.handled ++ [.line p i input]) (net.calls ++ newCalls net.server
                (handle net.server ((Post.line p i input).text site)
                  (outcome site net ((Post.line p i input).text site) queue_name overflowed)))
              j i' := by
            intro j i' hj
            refine hj.next ?_ ?_ ((hline.2 j).1 i' hj.active hj.mqd)
            · rw [hline.1]
              exact hj.active
            · rw [hline.1]
              exact hj.mqd
          refine joined_serve_of h hwaiting rfl rfl rfl rfl rfl rfl hkeep (fun j => ?_) ?_
          · rcases h.registered j with ⟨i', hj⟩ | ⟨hnone, hslots⟩
            · exact Or.inl ⟨i', hkeep j i' hj⟩
            · refine Or.inr ⟨?_, ?_⟩
              · rw [toClient_append, hnone, (hline.2 j).2 hslots]
                rfl
              · rw [hline.1]
                exact hslots
          · rw [hline.1]
            exact h.apart

/-- Only the number a client reads may be another one than it was sent. -/
theorem joined_connect (hflow : Flow site net) (h : Joined site net) {p : Fin n} {stack : Stack}
    {overflowed : Int} (hclean : Clean net (.connect p stack overflowed))
    (hstep : step site net (.connect p stack overflowed) = some net') : Joined site net' := by
  simp only [step] at hstep
  split at hstep
  · rename_i reply rest hphase hqueue
    cases hstep
    have hnone : net.received p = [] := (h.silent p).mpr (by rw [hphase]; rfl)
    have hfifo := hflow.fifo p
    rw [hnone, hqueue] at hfifo
    rcases h.registered p with ⟨i, hi⟩ | ⟨hnothing, _⟩
    · rcases hi.told with ⟨before, later, hhandled, htold⟩
      rw [htold] at hfifo
      have hreply : reply = idText i := (List.cons.inj hfifo).1
      have hread : read_id overflowed stack reply = some (i : Int) := by
        rw [hreply]
        refine (read_id_iff stack i).mpr (hclean i ?_) overflowed
        rw [hqueue, hreply]
        rfl
      have hnext : (read_id overflowed stack reply).elim .failed .reading = Phase.reading i := by
        rw [hread]
        rfl
      rw [hnext]
      refine joined_congr h rfl rfl rfl rfl (starting_update (by simp)) (fun j => ?_)
        (known_update h fun id hid => ?_)
      · change Function.update net.received p _ j = [] ↔
          (Function.update net.phase p _ j).unanswered = true
        by_cases hj : j = p
        · rw [hj, Function.update_self, Function.update_self, hnone]
          simp [Phase.unanswered]
        · rw [Function.update_of_ne hj, Function.update_of_ne hj]
          exact h.silent j
      · cases hid
        exact ⟨i, hi, rfl⟩
    · rw [hnothing] at hfifo
      cases hfifo
  · cases hstep

theorem joined_step (hflow : Flow site net) (h : Joined site net) {e : Event n}
    (hclean : Clean net e) (hstep : step site net e = some net') : Joined site net' := by
  cases e with
  | init p =>
      simp only [step] at hstep
      split at hstep
      · rename_i hphase
        refine joined_post h hstep (by simp) (by rw [hphase]; rfl) (fun id hid => by cases hid)
          (fun q hq => ?_) (fun q id input hq => by cases hq)
        cases hq
        exact ⟨rfl, hphase⟩
      · cases hstep
  | connect p stack overflowed => exact joined_connect hflow h hclean hstep
  | input p input =>
      simp only [step] at hstep
      split at hstep
      · rename_i id hphase
        split_ifs at hstep
        cases hstep
        exact joined_move h (by simp) (by rw [hphase]; rfl) fun id' hid => by rw [hphase]; exact hid
      · cases hstep
  | send p =>
      simp only [step] at hstep
      split at hstep
      · rename_i id input hphase
        have hnext : afterLine id input = .leaving ∨ afterLine id input = .reading id := by
          unfold afterLine
          split_ifs
          · exact Or.inl rfl
          · exact Or.inr rfl
        have hstarting : afterLine id input ≠ .starting := by
          rcases hnext with hnext | hnext <;> simp [hnext]
        have hsilent : (afterLine id input).unanswered = (net.phase p).unanswered := by
          rw [hphase]
          rcases hnext with hnext | hnext <;> rw [hnext] <;> rfl
        have hknown : ∀ id', (afterLine id input).id? = some id' →
            (net.phase p).id? = some id' := by
          rw [hphase]
          rcases hnext with hnext | hnext <;> rw [hnext]
          · exact fun id' hid => by cases hid
          · exact fun id' hid => hid
        split_ifs at hstep with hlen
        · refine joined_post h hstep hstarting hsilent hknown (fun q hq => by cases hq)
            (fun q id' input' hq => ?_)
          cases hq
          exact ⟨rfl, by rw [hphase]; rfl, hlen⟩
        · cases hstep
          exact joined_move h hstarting hsilent hknown
      · cases hstep
  | leave p =>
      simp only [step] at hstep
      split at hstep
      · rename_i hphase
        cases hstep
        exact joined_move h (by simp) (by rw [hphase]; rfl) fun id hid => by cases hid
      · cases hstep
  | print p =>
      simp only [step] at hstep
      split_ifs at hstep with hlistens
      split at hstep
      · rename_i msg rest hqueue
        cases hstep
        refine joined_congr h rfl rfl rfl rfl (fun _ hj => hj) (fun j => ?_) h.known
        change Function.update net.received p _ j = [] ↔ _
        by_cases hj : j = p
        · have hanswered : (net.phase p).unanswered = false := (listens_not hlistens).2
          rw [hj, Function.update_self]
          change _ ↔ (net.phase p).unanswered = true
          rw [hanswered]
          simp
        · rw [Function.update_of_ne hj]
          exact h.silent j
      · cases hstep
  | serve queue_name overflowed => exact joined_serve hflow h hstep
  | deliver =>
      rcases deliver_eq hstep with ⟨d, outbox, _, ⟨_, _, rfl⟩ | ⟨_, rfl⟩⟩
      · exact ⟨h.once, h.starting, h.silent, h.registered, h.apart, h.known, h.lines⟩
      · exact ⟨h.once, h.starting, h.silent, h.registered, h.apart, h.known, h.lines⟩

theorem sound_of_reaches (h : Reaches (step site) Clean (start n) net) :
    Flow site net ∧ Joined site net := by
  have hnext : ∀ v e w, Flow site v ∧ Joined site v → Clean v e → step site v e = some w →
      Flow site w ∧ Joined site w := by
    intro v e w hv hclean hstep
    exact ⟨flow_step hv.1 hstep, joined_step hv.1 hv.2 hclean hstep⟩
  exact h.invariant ⟨flow_start, joined_start⟩ hnext

end Registration

section Order

variable {n : Nat} {site : Site n} {net : Net n}

/-- What a client has been sent is known from when it has received something. -/
theorem registered_of_received (hflow : Flow site net) (h : Joined site net) {j : Fin n}
    (hreceived : net.received j ≠ []) :
    ∃ i, Registered net.server net.handled net.calls j i := by
  rcases h.registered j with hi | ⟨hnothing, _⟩
  · exact hi
  · have hfifo := hflow.fifo j
    rw [hnothing] at hfifo
    exact absurd (List.append_eq_nil_iff.mp hfifo).1 hreceived

/-- The numbers tell the clients apart. -/
theorem id_eq_iff (h : Joined site net) {p q : Fin n} {id id' : Int} {input input' : List UInt8}
    (hp : Post.line p id input ∈ net.handled ++ net.waiting)
    (hq : Post.line q id' input' ∈ net.handled ++ net.waiting) : id = id' ↔ p = q := by
  rcases (h.lines p id input hp).1 with ⟨i, hi, rfl⟩
  rcases (h.lines q id' input' hq).1 with ⟨i', hi', rfl⟩
  constructor
  · intro hids
    have hslots : i = i' := Fin.ext (Int.ofNat_inj.mp hids)
    have hmqd := hi.mqd
    rw [hslots, hi'.mqd] at hmqd
    exact Fin.ext (Int.ofNat_inj.mp hmqd).symm
  · intro hpq
    rw [h.apart i i' hi.active hi'.active (by rw [hi.mqd, hi'.mqd, hpq])]

/-- Two processes. -/
def twoSite : Site 2 where
  pid p := 7 + p
  distinct _ _ h := Fin.ext (Nat.add_left_cancel h)
  small p := by omega

/-- A client connects. -/
def connecting (p : Fin 2) : List (Event 2) :=
  [.init p, .serve (CharArray.zero 64) 0, .deliver, .connect p (CharArray.zero (MSG_SIZE + 19)) 0]

/-- A client sends a line, and the server takes it. -/
def sendingLine (p : Fin 2) : List (Event 2) :=
  [.input p (bytes "hi\n"), .send p, .serve (CharArray.zero 64) 0]

/-- What a client receives is its number, and then in one order for all clients
    what the others have sent since its `INIT`. -/
theorem received_in_order (net : Net n) (h : Reaches (step site) Clean (start n) net) :
    (∀ j, net.received j = [] ∨ ∃ (i : Fin MAX_CLIENTS) (before later : List (Post n)),
      net.handled ++ net.waiting = before ++ .init j :: later ∧
      net.received j <+: idText i :: later.filterMap (relay j) ∧
      (net.waiting = [] → net.outbox = [] → net.queue j = [] →
        net.received j = idText i :: later.filterMap (relay j))) ∧
    (∀ p id input q id' input', Post.line p id input ∈ net.handled ++ net.waiting →
      Post.line q id' input' ∈ net.handled ++ net.waiting → (id = id' ↔ p = q)) := by
  rcases sound_of_reaches h with ⟨hflow, hjoined⟩
  refine ⟨fun j => ?_, fun p id input q id' input' => id_eq_iff hjoined⟩
  by_cases hreceived : net.received j = []
  · exact Or.inl hreceived
  · rcases registered_of_received hflow hjoined hreceived with ⟨i, hi⟩
    rcases hi.told with ⟨before, later, hhandled, htold⟩
    have hfifo := hflow.fifo j
    rw [htold] at hfifo
    refine Or.inr ⟨i, before, later ++ net.waiting, ?_, ?_, fun hwaiting houtbox hqueue => ?_⟩
    · rw [hhandled, List.append_assoc]
      rfl
    · rw [List.filterMap_append, ← List.cons_append, ← hfifo]
      exact (List.prefix_append _ _).trans (List.prefix_append _ _)
    · rw [houtbox, hqueue] at hfifo
      rw [hwaiting, List.append_nil, ← hfifo]
      exact (List.append_nil _).symm

/-- Client 0 has printed the line of the other. -/
theorem received_in_order_run : ∃ net, Reaches (step twoSite) Clean (start 2) net ∧
    ∃ (i : Fin MAX_CLIENTS) (later : List (Post 2)),
      idText i :: later.filterMap (relay 0) = [bytes "ID 0", bytes "From 1: hi"] := by
  let es := connecting 0 ++ connecting 1 ++ sendingLine 1 ++ [.deliver, .print 0]
  have hrun : (run (step twoSite) (start 2) es).map (fun net =>
      (net.received 0, net.waiting.length, net.outbox.length, (net.queue 0).length)) =
      some ([bytes "ID 0", bytes "From 1: hi"], 0, 0, 0) := by decide +kernel
  have hclean : Meets (step twoSite) Clean (start 2) es := by decide +kernel
  rcases Option.map_eq_some_iff.mp hrun with ⟨net, hnet, hlast⟩
  simp only [Prod.mk.injEq, List.length_eq_zero_iff] at hlast
  rcases hlast with ⟨hreceived, hwaiting, houtbox, hqueue⟩
  have hreach := reaches_of_run hnet hclean
  refine ⟨net, hreach, ?_⟩
  rcases (received_in_order net hreach).1 0 with hnone | ⟨i, _, later, _, _, hall⟩
  · rw [hreceived] at hnone
    cases hnone
  · exact ⟨i, later, by rw [← hall hwaiting houtbox hqueue, hreceived]⟩

end Order

section Leaving

variable {n : Nat} {site : Site n} {net net' : Net n}

/-- A step of one client is none of a client that is gone. -/
theorem update_gone {α : Type} {f : Fin n → α} {p q : Fin n} {a : α}
    (hp : (net.phase p).gone = false) (hq : (net.phase q).gone = true) :
    Function.update f p a q = f q := by
  refine Function.update_of_ne (fun hqp => ?_) _ _
  rw [hqp, hp] at hq
  cases hq

/-- What the steps of the clients leave alone. -/
structure Beside (net net' : Net n) : Prop where
  server : net'.server = net.server
  handled : net'.handled = net.handled
  outbox : net'.outbox = net.outbox
  queues : ∀ p, net'.received p ++ net'.queue p = net.received p ++ net.queue p
  shorter : ∀ p, (net'.queue p).length ≤ (net.queue p).length
  gone : ∀ p, (net.phase p).gone = true →
    net'.phase p = net.phase p ∧ net'.received p = net.received p

theorem beside_phase {p : Fin n} {next : Phase} (hp : (net.phase p).gone = false) :
    Beside net { net with phase := Function.update net.phase p next } :=
  ⟨rfl, rfl, rfl, fun _ => rfl, fun _ => Nat.le_refl _, fun _ hq => ⟨update_gone hp hq, rfl⟩⟩

theorem beside_post {p : Fin n} {entry : Post n} {next : Phase} (hp : (net.phase p).gone = false)
    (hpost : post site net p entry next = some net') : Beside net net' := by
  rw [post_eq hpost]
  exact ⟨rfl, rfl, rfl, fun _ => rfl, fun _ => Nat.le_refl _, fun _ hq =>
    ⟨update_gone hp hq, rfl⟩⟩

theorem beside_take {p : Fin n} {msg : List UInt8} {rest : List (List UInt8)}
    (hp : (net.phase p).gone = false) (hqueue : net.queue p = msg :: rest) :
    Beside net (take net p msg rest) := by
  refine ⟨rfl, rfl, rfl, take_fifo hqueue, fun q => ?_, fun _ hq => ⟨rfl, update_gone hp hq⟩⟩
  change (Function.update net.queue p rest q).length ≤ _
  by_cases hq : q = p
  · rw [hq, Function.update_self, hqueue, List.length_cons]
    omega
  · rw [Function.update_of_ne hq]

/-- A step is one of the server, or it leaves the server alone. -/
theorem step_parts {e : Event n} (hstep : step site net e = some net') :
    (∃ queue_name overflowed, e = .serve queue_name overflowed) ∨ e = .deliver ∨
      Beside net net' := by
  cases e with
  | init p =>
      simp only [step] at hstep
      split at hstep
      · rename_i hphase
        exact Or.inr (Or.inr (beside_post (by rw [hphase]; rfl) hstep))
      · cases hstep
  | connect p stack overflowed =>
      simp only [step] at hstep
      split at hstep
      · rename_i reply rest hphase hqueue
        cases hstep
        have hp : (net.phase p).gone = false := by rw [hphase]; rfl
        have htake := beside_take hp hqueue
        exact Or.inr (Or.inr ⟨rfl, rfl, rfl, htake.queues, htake.shorter, fun q hq =>
          ⟨update_gone hp hq, (htake.gone q hq).2⟩⟩)
      · cases hstep
  | input p input =>
      simp only [step] at hstep
      split at hstep
      · rename_i id hphase
        split_ifs at hstep
        cases hstep
        exact Or.inr (Or.inr (beside_phase (by rw [hphase]; rfl)))
      · cases hstep
  | send p =>
      simp only [step] at hstep
      split at hstep
      · rename_i id input hphase
        have hp : (net.phase p).gone = false := by rw [hphase]; rfl
        split_ifs at hstep
        · exact Or.inr (Or.inr (beside_post hp hstep))
        · cases hstep
          exact Or.inr (Or.inr (beside_phase hp))
      · cases hstep
  | leave p =>
      simp only [step] at hstep
      split at hstep
      · rename_i hphase
        cases hstep
        exact Or.inr (Or.inr (beside_phase (by rw [hphase]; rfl)))
      · cases hstep
  | print p =>
      simp only [step] at hstep
      split_ifs at hstep with hlistens
      split at hstep
      · rename_i msg rest hqueue
        cases hstep
        exact Or.inr (Or.inr (beside_take (listens_not hlistens).1 hqueue))
      · cases hstep
  | serve queue_name overflowed => exact Or.inl ⟨queue_name, overflowed, rfl⟩
  | deliver => exact Or.inr (Or.inl rfl)

/-- The server stays where it is. -/
theorem stalled_step {j : Fin n} (h : Stalled net j) {e : Event n}
    (hstep : step site net e = some net') : Stalled net' j ∧ Beside net net' := by
  rcases h with ⟨hgone, hfull, d, outbox, houtbox, hok, hmqd⟩
  have hbeside : Beside net net' := by
    rcases step_parts hstep with ⟨queue_name, overflowed, rfl⟩ | rfl | hbeside
    · rcases serve_eq hstep with ⟨_, _, hnone, _⟩
      rw [houtbox] at hnone
      cases hnone
    · rcases deliver_eq hstep with ⟨d', outbox', hsame, hcall⟩
      rw [houtbox] at hsame
      cases hsame
      rcases hcall with ⟨_, hroom, _⟩ | ⟨hfail, _⟩
      · exact absurd (hroom j hmqd) (Nat.not_lt.mpr hfull)
      · rw [hok] at hfail
        cases hfail
    · exact hbeside
  rcases hbeside.gone j hgone with ⟨hphase, hreceived⟩
  have hqueue : net'.queue j = net.queue j := by
    have hsame := hbeside.queues j
    rw [hreceived] at hsame
    exact List.append_cancel_left hsame
  refine ⟨⟨?_, ?_, d, outbox, ?_, hok, hmqd⟩, hbeside⟩
  · rw [hphase]
    exact hgone
  · rw [hqueue]
    exact hfull
  · rw [hbeside.outbox]
    exact houtbox

theorem Beside.trans {net₁ net₂ net₃ : Net n} (h : Beside net₁ net₂) (h' : Beside net₂ net₃) :
    Beside net₁ net₃ := by
  refine ⟨h'.server.trans h.server, h'.handled.trans h.handled, h'.outbox.trans h.outbox,
    fun p => (h'.queues p).trans (h.queues p), fun p => (h'.shorter p).trans (h.shorter p),
    fun p hp => ?_⟩
  rcases h.gone p hp with ⟨hphase, hreceived⟩
  rcases h'.gone p (by rw [hphase]; exact hp) with ⟨hphase', hreceived'⟩
  exact ⟨hphase'.trans hphase, hreceived'.trans hreceived⟩

theorem stalled_run {j : Fin n} (h : Stalled net j) (hrun : Reaches (step site) Clean net net') :
    Beside net net' := by
  have hstart : Beside net net := ⟨rfl, rfl, rfl, fun _ => rfl, fun _ => Nat.le_refl _,
    fun _ _ => ⟨rfl, rfl⟩⟩
  have hnext : ∀ v e w, Stalled v j ∧ Beside net v → Clean v e → step site v e = some w →
      Stalled w j ∧ Beside net w := by
    intro v e w hv _ hstep
    rcases stalled_step hv.1 hstep with ⟨hstalled, hbeside⟩
    exact ⟨hstalled, hv.2.trans hbeside⟩
  have hlast : Stalled net' j ∧ Beside net net' := hrun.invariant ⟨h, hstart⟩ hnext
  exact hlast.2

/-- A pass of the server's loop puts one message at most into a queue. -/
theorem newCalls_le {s s' : Lab6.State} {e : Lab6.Event} (hstep : Lab6.step s e = some s')
    (hapart : ∀ i i', (s.clients i).active = true → (s.clients i').active = true →
      (s.clients i).mqd = (s.clients i').mqd → i = i') (j : Fin n) :
    (toClient j (newCalls s s')).length ≤ 1 := by
  rcases step_moves hstep with ⟨buf, o, rfl⟩ | ⟨sender, text, o, rfl⟩ | rfl | rfl
  · rcases handle_INIT_cases s buf o with hsame | ⟨slot, reply, client, _, _, _, _, _, hs'⟩
    · rw [hsame, newCalls_self]
      exact Nat.zero_le 1
    · have hnew : newCalls s (handle_INIT s buf o) = [reply] := by
        rw [hs', newCalls, List.drop_left, List.drop_length, List.append_nil]
      rw [hnew, toClient, List.length_map]
      exact List.length_filter_le _ _
  · have hnew : newCalls s { s with broadcasts := s.broadcasts ++ broadcast s sender text o } =
        broadcast s sender text o := by
      rw [newCalls, List.drop_length, List.drop_left, List.nil_append]
    rw [hnew]
    by_cases hslot : ∃ i, (s.clients i).active = true ∧ (s.clients i).mqd = (j : Int)
    · rcases hslot with ⟨i, hactive, hmqd⟩
      have honly : ∀ i', (s.clients i').active = true → (s.clients i').mqd = (j : Int) →
          i' = i := fun i' ha hm => hapart i' i ha hactive (hm.trans hmqd.symm)
      rw [toClient_broadcast hactive hmqd honly]
      split_ifs
      · exact Nat.le_refl 1
      · exact Nat.zero_le 1
    · rw [toClient_broadcast_none fun i hactive hmqd => hslot ⟨i, hactive, hmqd⟩]
      exact Nat.zero_le 1
  · have hnew : newCalls s { s with running := false } = [] := newCalls_self s
    rw [hnew]
    exact Nat.zero_le 1
  · rw [newCalls_self]
    exact Nat.zero_le 1

/-- What is in a client's queue, or about to be. -/
def Bounded (net : Net n) : Prop :=
  ∀ j, (net.queue j).length ≤ MAX_MSG ∧ (toClient j net.outbox).length ≤ 1

theorem bounded_step (hjoined : Joined site net) (h : Bounded net) {e : Event n}
    (hstep : step site net e = some net') : Bounded net' := by
  intro j
  rcases step_parts hstep with ⟨queue_name, overflowed, rfl⟩ | rfl | hbeside
  · rcases serve_eq hstep with ⟨msg, rest, _, _, hrunning, hlen, rfl⟩
    have hserved : Lab6.step net.server
        (.message msg (outcome site net msg queue_name overflowed)) = some
          (handle net.server msg (outcome site net msg queue_name overflowed)) :=
      if_pos ⟨hrunning, hlen⟩
    exact ⟨(h j).1, newCalls_le hserved hjoined.apart j⟩
  · rcases deliver_eq hstep with ⟨d, outbox, houtbox, hcall⟩
    have hold := h j
    have hless : (toClient j outbox).length ≤ (toClient j net.outbox).length := by
      rw [houtbox, ← List.singleton_append, toClient_append, List.length_append]
      omega
    rcases hcall with ⟨_, hroom, rfl⟩ | ⟨_, rfl⟩
    · refine ⟨?_, hless.trans hold.2⟩
      change (if d.mqd = (j : Int) then net.queue j ++ [d.text] else net.queue j).length ≤ MAX_MSG
      by_cases hj : d.mqd = (j : Int)
      · rw [if_pos hj, List.length_append, List.length_singleton]
        exact hroom j hj
      · rw [if_neg hj]
        exact hold.1
    · exact ⟨hold.1, hless.trans hold.2⟩
  · rw [hbeside.outbox]
    exact ⟨(hbeside.shorter j).trans (h j).1, (h j).2⟩

/-- The place of a client's `INIT` is the only one. -/
theorem init_notMem {before later : List (Post n)} {j : Fin n}
    (h : ((before ++ .init j :: later).filterMap Post.init?).Nodup) :
    .init j ∉ before ∧ .init j ∉ later := by
  have hfilter : (before ++ .init j :: later).filterMap Post.init? =
      before.filterMap Post.init? ++ j :: later.filterMap Post.init? := by
    rw [List.filterMap_append]
    rfl
  rw [hfilter, List.nodup_middle, List.nodup_cons, List.mem_append, not_or] at h
  exact ⟨fun hmem => h.1.1 (List.mem_filterMap.mpr ⟨_, hmem, rfl⟩),
    fun hmem => h.1.2 (List.mem_filterMap.mpr ⟨_, hmem, rfl⟩)⟩

theorem unanswered_of_gone {phase : Phase} (h : phase.gone = true) : phase.unanswered = false := by
  cases phase with
  | left => rfl
  | failed => rfl
  | _ => cases h

/-- A client that is gone stays where it is, and what the server has taken it has
    taken. -/
theorem gone_step {j : Fin n} (hgone : (net.phase j).gone = true) {e : Event n}
    (hstep : step site net e = some net') :
    net'.phase j = net.phase j ∧ net'.received j = net.received j ∧
      net.handled <+: net'.handled := by
  rcases step_parts hstep with ⟨queue_name, overflowed, rfl⟩ | rfl | hbeside
  · rcases serve_eq hstep with ⟨_, _, _, _, _, _, rfl⟩
    exact ⟨rfl, rfl, List.prefix_append _ _⟩
  · rcases deliver_eq hstep with ⟨_, _, _, ⟨_, _, rfl⟩ | ⟨_, rfl⟩⟩
    · exact ⟨rfl, rfl, List.prefix_refl _⟩
    · exact ⟨rfl, rfl, List.prefix_refl _⟩
  · rcases hbeside.gone j hgone with ⟨hphase, hreceived⟩
    exact ⟨hphase, hreceived, [], by rw [hbeside.handled, List.append_nil]⟩

theorem gone_run {j : Fin n} (hgone : (net.phase j).gone = true)
    (hrun : Reaches (step site) Clean net net') :
    net'.phase j = net.phase j ∧ net'.received j = net.received j ∧
      net.handled <+: net'.handled := by
  have hnext : ∀ v e w, (v.phase j = net.phase j ∧ v.received j = net.received j ∧
      net.handled <+: v.handled) → Clean v e → step site v e = some w →
      (w.phase j = net.phase j ∧ w.received j = net.received j ∧ net.handled <+: w.handled) := by
    intro v e w hv _ hstep
    have hgone' : (v.phase j).gone = true := by
      rw [hv.1]
      exact hgone
    rcases gone_step hgone' hstep with ⟨hphase, hreceived, hhandled⟩
    exact ⟨hphase.trans hv.1, hreceived.trans hv.2.1, hv.2.2.trans hhandled⟩
  exact hrun.invariant ⟨rfl, rfl, List.prefix_refl _⟩ hnext

theorem bounded_of_reaches (h : Reaches (step site) Clean (start n) net) : Bounded net := by
  have hstart : Bounded (start n) := fun _ => ⟨Nat.zero_le _, Nat.zero_le _⟩
  have hnext : ∀ v e w, (Flow site v ∧ Joined site v) ∧ Bounded v → Clean v e →
      step site v e = some w → (Flow site w ∧ Joined site w) ∧ Bounded w := by
    intro v e w hv hclean hstep
    exact ⟨⟨flow_step hv.1.1 hstep, joined_step hv.1.1 hv.1.2 hclean hstep⟩,
      bounded_step hv.1.2 hv.2 hstep⟩
  have hlast : (Flow site net ∧ Joined site net) ∧ Bounded net :=
    h.invariant ⟨⟨flow_start, joined_start⟩, hstart⟩ hnext
  exact hlast.2

/-- After a client has left, the server takes only so many more lines for it. Once
    it waits for room in that client's queue, it stays there, and the others get
    no more than what is in their queues. -/
theorem left_behind (net net' : Net n) (h : Reaches (step site) Clean (start n) net) (j : Fin n)
    (hgone : (net.phase j).gone = true) (hlater : Reaches (step site) Clean net net') :
    net'.received j = net.received j ∧
    (∃ more, net'.handled = net.handled ++ more ∧
      (more.filterMap (relay j)).length ≤ MAX_MSG + 1) ∧
    (Stalled net j → net'.server = net.server ∧ net'.outbox = net.outbox ∧
      net'.handled = net.handled ∧
      ∀ p, net'.received p ++ net'.queue p = net.received p ++ net.queue p) := by
  rcases sound_of_reaches h with ⟨hflow, hjoined⟩
  have hreach' := h.trans hlater
  rcases sound_of_reaches hreach' with ⟨hflow', hjoined'⟩
  rcases gone_run hgone hlater with ⟨_, hreceived, more, hmore⟩
  refine ⟨hreceived, ⟨more, hmore.symm, ?_⟩, fun hstalled => ?_⟩
  · have hanswered : net.received j ≠ [] := by
      intro hnone
      have hunanswered := (hjoined.silent j).mp hnone
      rw [unanswered_of_gone hgone] at hunanswered
      cases hunanswered
    rcases registered_of_received hflow hjoined hanswered with ⟨i, hi⟩
    rcases registered_of_received hflow' hjoined' (hreceived ▸ hanswered) with ⟨i', hi'⟩
    rcases hi.told with ⟨before, later, hhandled, htold⟩
    rcases hi'.told with ⟨before', later', hhandled', htold'⟩
    -- Both descriptions begin at the same `INIT`.
    have honce := hjoined'.once
    rw [← hmore, hhandled, List.append_assoc, List.append_assoc, List.cons_append] at honce
    rcases init_notMem honce with ⟨hbefore, hafter⟩
    rw [← hmore, hhandled, List.append_assoc, List.cons_append] at hhandled'
    have hsame := ((List.append_cons_inj_of_notMem hbefore fun hmem =>
      hafter (by rw [← List.append_assoc]; exact List.mem_append_left _ hmem)).mp hhandled').2.2
    have hfifo := congrArg List.length (hflow.fifo j)
    have hfifo' := congrArg List.length (hflow'.fifo j)
    rcases bounded_of_reaches hreach' j with ⟨hqueue, houtbox⟩
    rw [htold, List.length_append, List.length_cons] at hfifo
    rw [htold', ← hsame, hreceived, List.filterMap_append, List.length_append, List.length_append,
      List.length_cons, List.length_append] at hfifo'
    omega
  · have hbeside := stalled_run hstalled hlater
    exact ⟨hbeside.server, hbeside.outbox, hbeside.handled, hbeside.queues⟩

/-- One client leaves, and its queue is full after ten lines of the other, which
    then sends one more. -/
def fillsQueue (p q : Fin 2) : List (Event 2) :=
  connecting p ++ connecting q ++
    [.input p (bytes "\n"), .send p, .serve (CharArray.zero 64) 0, .leave p] ++
    (List.replicate 10 (sendingLine q ++ [.deliver])).flatten ++ sendingLine q

/-- Then the server waits for the client that is gone, and the other one for its
    user. -/
theorem stalled_fillsQueue : ∃ net, Reaches (step twoSite) Clean (start 2) net ∧ Stalled net 0 ∧
    net.server.running = true ∧ net.phase 0 = .left ∧ net.phase 1 = .reading 1 ∧
    net.received 1 = [bytes "ID 1"] ∧ net.queue 1 = [] := by
  have hphases : (run (step twoSite) (start 2) (fillsQueue 0 1)).map (fun net =>
      (net.phase 0, net.phase 1, net.server.running)) = some (.left, .reading 1, true) := by
    decide +kernel
  have hqueues : (run (step twoSite) (start 2) (fillsQueue 0 1)).map (fun net =>
      ((net.queue 0).length, net.received 1, net.queue 1)) = some (10, [bytes "ID 1"], []) := by
    decide +kernel
  have hcalls : (run (step twoSite) (start 2) (fillsQueue 0 1)).map (fun net =>
      net.outbox.map fun d => (d.ok, d.mqd)) = some [(true, 0)] := by decide +kernel
  have hclean : Meets (step twoSite) Clean (start 2) (fillsQueue 0 1) := by decide +kernel
  rcases Option.map_eq_some_iff.mp hphases with ⟨net, hnet, hlast⟩
  rw [hnet] at hqueues hcalls
  simp only [Option.map_some, Option.some.injEq, Prod.mk.injEq] at hlast hqueues
  simp only [Option.map_some, Option.some.injEq, List.map_eq_singleton_iff, Prod.mk.injEq] at hcalls
  rcases hlast with ⟨hleft, hreading, hrunning⟩
  rcases hqueues with ⟨hfull, hreceived, hqueue⟩
  rcases hcalls with ⟨d, houtbox, hok, hmqd⟩
  have hgone : (net.phase 0).gone = true := by
    rw [hleft]
    rfl
  exact ⟨net, reaches_of_run hnet hclean, ⟨hgone, hfull.ge, d, [], houtbox, hok, hmqd⟩, hrunning,
    hleft, hreading, hreceived, hqueue⟩

/-- Client 0 leaves, and its queue is full after ten lines of the other. -/
theorem left_behind_run : ∃ net, Reaches (step twoSite) Clean (start 2) net ∧
    ∀ net', Reaches (step twoSite) Clean net net' →
      net'.handled = net.handled ∧ net'.received 1 ++ net'.queue 1 = [bytes "ID 1"] := by
  rcases stalled_fillsQueue with ⟨net, hreach, hstalled, _, _, _, hreceived, hqueue⟩
  refine ⟨net, hreach, fun net' hlater => ?_⟩
  have hend := (left_behind net net' hreach 0 hstalled.1 hlater).2.2 hstalled
  refine ⟨hend.2.2.1, (hend.2.2.2 1).trans ?_⟩
  rw [hreceived, hqueue]
  rfl

end Leaving

section Waiting

variable {n : Nat} {site : Site n} {net : Net n}

theorem undisturbed_zero (slot : Nat) : Undisturbed (CharArray.zero (MSG_SIZE + 19)) slot :=
  Or.inl (by decide +kernel)

/-- A client that has something in its queue takes it, or is gone. -/
theorem gone_of_waiting (hflow : Flow site net) (hjoined : Joined site net) {p : Fin n}
    (hnone : ∀ e : Event n, e.internal = true → Clean net e → step site net e = none)
    (hqueue : net.queue p ≠ []) : (net.phase p).gone = true := by
  rcases List.exists_cons_of_ne_nil hqueue with ⟨msg, rest, hcons⟩
  have hprint : (net.phase p).listens = false := by
    cases hlistens : (net.phase p).listens with
    | false => rfl
    | true =>
        have hstep := hnone (.print p) rfl trivial
        simp [step, hlistens, hcons] at hstep
  cases hphase : net.phase p with
  | starting =>
      have hfifo := hflow.fifo p
      rcases hjoined.registered p with ⟨i, hi⟩ | ⟨hnothing, _⟩
      · rcases hi.told with ⟨before, later, hhandled, _⟩
        refine absurd (List.mem_append_left _ ?_) (hjoined.starting p hphase)
        rw [hhandled]
        exact List.mem_append_right _ List.mem_cons_self
      · rw [hnothing] at hfifo
        have hempty := (List.append_eq_nil_iff.mp (List.append_eq_nil_iff.mp hfifo).2).1
        exact absurd hempty hqueue
  | asking =>
      have hstep := hnone (.connect p (CharArray.zero _) 0) rfl fun i _ => undisturbed_zero i
      simp [step, hphase, hcons] at hstep
  | left => rfl
  | failed => rfl
  | _ =>
      rw [hphase] at hprint
      cases hprint

theorem length_text (hjoined : Joined site net) {entry : Post n}
    (h : entry ∈ net.handled ++ net.waiting) : (entry.text site).length ≤ MSG_SIZE := by
  cases entry with
  | init p => exact length_init_msg site p
  | line p id input => exact (hjoined.lines p id input h).2

/-- As long as the server runs, somebody can go on without the user, or the server
    waits for room in the queue of a client that is gone, or all that has been
    sent has been received and everybody waits: for the user, or for a slot. -/
theorem who_goes_on (net : Net n) (h : Reaches (step site) Clean (start n) net)
    (hrunning : net.server.running = true) :
    (∃ e : Event n, e.internal = true ∧ Clean net e ∧ (step site net e).isSome = true) ∨
    (∃ j, Stalled net j) ∨
    net.outbox = [] ∧ net.server_queue = [] ∧ ∀ p, (net.phase p).gone = true ∨
      net.queue p = [] ∧ ((∃ id, net.phase p = .reading id) ∨ net.phase p = .asking ∧
        ∀ i, (net.server.clients i).active = true → (net.server.clients i).mqd ≠ (p : Int)) := by
  rcases sound_of_reaches h with ⟨hflow, hjoined⟩
  by_cases hsome : ∃ e : Event n, e.internal = true ∧ Clean net e ∧ (step site net e).isSome = true
  · exact Or.inl hsome
  have hnone : ∀ e : Event n, e.internal = true → Clean net e → step site net e = none := by
    intro e hinternal hclean
    by_contra hne
    exact hsome ⟨e, hinternal, hclean, Option.isSome_iff_ne_none.mpr hne⟩
  have hwaits := fun p => gone_of_waiting hflow hjoined hnone (p := p)
  refine Or.inr ?_
  cases houtbox : net.outbox with
  | cons d outbox =>
      -- The next call of `mq_send` has to wait.
      have hdeliver := hnone .deliver rfl trivial
      simp only [step, houtbox] at hdeliver
      split_ifs at hdeliver with hok hfull
      rcases hfull with ⟨j, hmqd, hfull⟩
      have hne : net.queue j ≠ [] := by
        intro hnil
        rw [hnil] at hfull
        exact absurd hfull (by decide)
      exact Or.inl ⟨j, hwaits j hne, hfull, d, outbox, houtbox, hok, hmqd⟩
  | nil =>
      have hqueue : net.server_queue = [] := by
        cases hqueue : net.server_queue with
        | nil => rfl
        | cons msg rest =>
            have hserve := hnone (.serve (CharArray.zero 64) 0) rfl trivial
            have htexts := hflow.waiting
            rw [hqueue] at htexts
            have hlen : msg.length ≤ MSG_SIZE := by
              rcases List.mem_map.mp (htexts ▸ List.mem_cons_self : msg ∈ net.waiting.map _) with
                ⟨entry, hentry, rfl⟩
              exact length_text hjoined (List.mem_append_right _ hentry)
            simp [step, houtbox, hqueue, Lab6.step, hrunning, hlen] at hserve
      refine Or.inr ⟨rfl, hqueue, fun p => ?_⟩
      by_cases hgone : (net.phase p).gone = true
      · exact Or.inl hgone
      have hnothing : net.queue p = [] := by
        by_contra hne
        exact hgone (hwaits p hne)
      refine Or.inr ⟨hnothing, ?_⟩
      have hroom : net.server_queue.length < MAX_MSG := by
        rw [hqueue]
        decide
      cases hphase : net.phase p with
      | starting =>
          have hinit := hnone (.init p) rfl trivial
          simp [step, hphase, post, hroom] at hinit
      | asking =>
          refine Or.inr ⟨rfl, ?_⟩
          rcases hjoined.registered p with ⟨i, hi⟩ | ⟨_, hslots⟩
          · rcases hi.told with ⟨before, later, _, htold⟩
            have hreceived := (hjoined.silent p).mpr (by rw [hphase]; rfl)
            have hfifo := hflow.fifo p
            rw [hreceived, hnothing, houtbox, htold] at hfifo
            cases hfifo
          · exact hslots
      | reading id => exact Or.inl ⟨id, rfl⟩
      | sending id input =>
          have hsend := hnone (.send p) rfl trivial
          by_cases hlen : ((Post.line p id input).text site).length ≤ MSG_SIZE <;>
            simp [step, hphase, post, hroom, hlen] at hsend
      | leaving =>
          have hleave := hnone (.leave p) rfl trivial
          simp [step, hphase] at hleave
      | left =>
          rw [hphase] at hgone
          exact absurd rfl hgone
      | failed =>
          rw [hphase] at hgone
          exact absurd rfl hgone

/-- A client is gone with its queue full. Nobody can go on without the user, and
    the server waits for room in that queue. -/
theorem who_goes_on_stalled : ∃ net, Reaches (step twoSite) Clean (start 2) net ∧
    net.server.running = true ∧
    (∀ e : Event 2, e.internal = true → step twoSite net e = none) ∧ ∃ j, Stalled net j := by
  rcases stalled_fillsQueue with
    ⟨net, hreach, ⟨_, hfull, d, outbox, houtbox, hok, hmqd⟩, hrunning, hleft, hreading, _, hqueue⟩
  have hnone : ∀ e : Event 2, e.internal = true → step twoSite net e = none := by
    have hplaces : ∀ p, net.phase p = .left ∨ net.phase p = .reading 1 ∧ net.queue p = [] :=
      Fin.forall_fin_two.mpr ⟨Or.inl hleft, Or.inr ⟨hreading, hqueue⟩⟩
    intro e hinternal
    cases e with
    | serve queue_name overflowed => simp only [step, houtbox]
    | deliver =>
        simp only [step, houtbox, hok, if_true]
        exact if_pos ⟨0, hmqd, hfull⟩
    | input p input => cases hinternal
    | init p | send p | leave p => rcases hplaces p with hp | ⟨hp, _⟩ <;> simp only [step, hp]
    | connect p stack overflowed => rcases hplaces p with hp | ⟨hp, _⟩ <;> simp only [step, hp]
    | print p =>
        rcases hplaces p with hp | ⟨_, hempty⟩
        · simp only [step, hp, Phase.listens, Bool.false_eq_true, if_false]
        · simp only [step, hempty, ite_self]
  refine ⟨net, hreach, hrunning, hnone, ?_⟩
  rcases who_goes_on net hreach hrunning with ⟨e, hinternal, _, hsome⟩ | hstalled | ⟨hnothing, _⟩
  · rw [hnone e hinternal] at hsome
    cases hsome
  · exact hstalled
  · rw [houtbox] at hnothing
    cases hnothing

end Waiting

end Queues

end Lab6

end OsLabs
