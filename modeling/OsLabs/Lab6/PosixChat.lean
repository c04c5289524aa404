import OsLabs.Core.Run
import OsLabs.Core.Scan
import OsLabs.Core.Table

/-!
# The POSIX Message Queue Chat

`server_posix.c` and `client_posix.c` of lab6. The server reads one message
after the other from its queue. `INIT` names the queue of a new client, which
is put into the first inactive slot and told the slot's number; `MSG` carries
a number and a line, and the line goes to every active slot but that one;
`EXIT` ends the server. Nothing ever takes a confirmed client out of its slot.

One pass of the server's loop is a step. What the operating system decides
about it is an `Outcome`: what `mq_open` returns and which calls of `mq_send`
succeed, and also what C leaves open, which is what the array `queue_name`
holds if `sscanf` does not fill it and what `%d` stores for a number that is no
`int`. The calls of `mq_send` are the history of the state; no step reads them.

Of the client there are the two functions its messages pass through: how it
reads the answer to its `INIT`, and what it sends for a line of input. It
receives into an array of `MSG_SIZE + 1` bytes but writes its terminator 17
bytes behind that array, so the memory it reads the answer from is part of its
stack, `Stack`.

## Main definitions

* `Client`, `State`, `Outcome`, `Event`: The server's data.
* `handle_INIT`, `handle_MSG`: The two branches that do something.
* `step`, `start`: The server as a transition system.
* `scanId`, `read_id`: How a client reads its number.
* `fgets`, `client_line`, `client_turn`: What a client sends for a line of
  input.

## Theorems

* `handle_INIT_cases`: What a registration can do.
* `step_moves`: What a pass of the loop can do.
* `step_replies`: A step that answers a client has stored its queue.
-/

namespace OsLabs

namespace Lab6

abbrev MAX_CLIENTS : Nat := 10
def MSG_SIZE : Nat := 1024

structure Client where
  active : Bool
  mqd : Int
  name : CharArray 64

/-- One call of `mq_send` for a slot. -/
structure Send where
  slot : Fin MAX_CLIENTS
  mqd : Int
  text : List UInt8
  ok : Bool
  deriving DecidableEq

structure State where
  clients : Fin MAX_CLIENTS → Client
  /-- The loop has not been left. -/
  running : Bool
  /-- The answers to `INIT`, in order. -/
  replies : List Send
  /-- The messages sent on, in order. -/
  broadcasts : List Send

/-- What one pass of the loop does not decide itself. -/
structure Outcome where
  /-- What `queue_name` holds before `sscanf`. -/
  queue_name : CharArray 64
  /-- What `%d` stores for a number that is no `int`. -/
  overflowed : Int
  mq_open : Int
  /-- The calls of `mq_send` that succeed. -/
  mq_send : Fin MAX_CLIENTS → List UInt8 → Bool

inductive Event
  /-- `mq_receive` has returned a message. -/
  | message (buf : List UInt8) (o : Outcome)
  /-- It has returned -1, with `EINTR`. -/
  | eintr
  /-- It has returned -1 for another reason. -/
  | error

/-- The first slot that is not active. -/
def State.freeSlot (s : State) : Option (Fin MAX_CLIENTS) := firstSlot fun i => !(s.clients i).active

/-- The name of the queue, read by `%63s`. The result of `sscanf` is not
    looked at. -/
def queueName (buf : List UInt8) (o : Outcome) : CharArray 64 :=
  ((scanWord 63 (buf.drop 5)).map fun w => o.queue_name.strcpy w.1).getD o.queue_name

/-- The answer to `INIT`. -/
def idText (slot : Nat) : List UInt8 := snprintf 36 (bytes "ID " ++ numeral slot)

/-- The branch for `INIT`. -/
def handle_INIT (s : State) (buf : List UInt8) (o : Outcome) : State :=
  match s.freeSlot with
  | none => s
  | some slot =>
    if o.mq_open = -1 then s
    else
      let reply : Send :=
        { slot := slot, mqd := o.mq_open, text := idText slot
          ok := o.mq_send slot (idText slot) }
      -- A slot whose answer cannot be sent is given up again.
      let client : Client :=
        { active := reply.ok, mqd := o.mq_open
          name := (s.clients slot).name.strncpy (queueName buf o).bytes 64 }
      { s with
        clients := Function.update s.clients slot client
        replies := s.replies ++ [reply] }

/-- `sscanf(buf + 4, "%d %1023[^\n]", &sender, text)`, when it converts both. -/
def scanMsg (overflowed : Int) (buf : List UInt8) : Option (Int × List UInt8) :=
  (scanInt overflowed (buf.drop 4)).bind fun (sender, rest) =>
    (scanLine (MSG_SIZE - 1) (rest.dropWhile isBlank)).map fun (text, _) => (sender, text)

/-- The message sent on. -/
def fromText (sender : Int) (text : List UInt8) : List UInt8 :=
  snprintf (MSG_SIZE + 18) (bytes "From " ++ intNumeral sender ++ bytes ": " ++ text)

/-- The calls of `mq_send` that send a message on, slot by slot. -/
def broadcast (s : State) (sender : Int) (text : List UInt8) (o : Outcome) : List Send :=
  (List.finRange MAX_CLIENTS).flatMap fun i =>
    if (s.clients i).active ∧ (i : Int) ≠ sender then
      [{ slot := i, mqd := (s.clients i).mqd, text := fromText sender text
         ok := o.mq_send i (fromText sender text) }]
    else []

/-- The branch for `MSG`. -/
def handle_MSG (s : State) (buf : List UInt8) (o : Outcome) : State :=
  match scanMsg o.overflowed buf with
  | none => s
  | some (sender, text) => { s with broadcasts := s.broadcasts ++ broadcast s sender text o }

/-- One message. The string compared is what is received, with a terminator
    after it. -/
def handle (s : State) (msg : List UInt8) (o : Outcome) : State :=
  let buf := cstr msg
  if (bytes "INIT ").isPrefixOf buf then handle_INIT s buf o
  else if (bytes "MSG ").isPrefixOf buf then handle_MSG s buf o
  else if buf = bytes "EXIT" then { s with running := false }
  else s

def step (s : State) : Event → Option State
  | .message msg o =>
    -- The queue holds no longer messages.
    if s.running ∧ msg.length ≤ MSG_SIZE then some (handle s msg o) else none
  | .eintr => if s.running then some s else none
  | .error => if s.running then some { s with running := false } else none

/-- The server as it enters its loop. -/
def start : State where
  clients _ := { active := false, mqd := 0, name := CharArray.zero 64 }
  running := true
  replies := []
  broadcasts := []

/-- The client's stack from `buf` on, as far as its terminator. -/
abbrev Stack := CharArray (MSG_SIZE + 19)

/-- `mq_receive` into an array that is large enough. -/
def received {n : Nat} (a : CharArray n) (msg : List UInt8) : CharArray n :=
  CharArray.ofList n (msg ++ a.bytes.drop msg.length)

/-- `sscanf(buf, "ID %d", &id)`, when it converts the number. -/
def scanId (overflowed : Int) (buf : List UInt8) : Option Int :=
  if (bytes "ID").isPrefixOf buf then
    (scanInt overflowed ((buf.drop 2).dropWhile isBlank)).map Prod.fst
  else none

/-- The number the client takes from an answer, `none` if it gives up. -/
def read_id (overflowed : Int) (stack : Stack) (reply : List UInt8) : Option Int :=
  scanId overflowed ((received stack reply).set (MSG_SIZE + 18) 0).str

/-- `fgets`: the bytes stored, and the input left, or `none` at the end of the
    input. -/
def fgets (size : Nat) (stdin : List UInt8) : Option (List UInt8 × List UInt8) :=
  let stored := min (size - 1) ((stdin.takeWhile (· ≠ 10)).length + 1)
  if stdin = [] then none else some (stdin.take stored, stdin.drop stored)

/-- The line in what `fgets` has stored. -/
def lineOf (input : List UInt8) : List UInt8 := input.takeWhile (· ≠ 10)

/-- What the client sends for a line of input, `none` when it is `exit`. -/
def client_line (id : Int) (input : List UInt8) : Option (List UInt8) :=
  -- `strcspn` stops at the newline or at the end of the string.
  let buf := cstr (lineOf input)
  if buf = bytes "exit" then none
  else some (snprintf (MSG_SIZE + 18) (bytes "MSG " ++ intNumeral id ++ bytes " " ++ buf))

/-- One turn of the client's loop at a line of input: the line, the message
    for it, and the input left. -/
def client_turn (id : Int) (stdin : List UInt8) :
    Option (List UInt8 × Option (List UInt8) × List UInt8) :=
  (fgets (MSG_SIZE + 1) stdin).map fun (input, rest) => (lineOf input, client_line id input, rest)

section Moves

variable {s s' : State}

/-- A registration finds no slot or no queue, or it answers from the first
    inactive slot, which is active then exactly if the answer could be sent. -/
theorem handle_INIT_cases (s : State) (buf : List UInt8) (o : Outcome) :
    handle_INIT s buf o = s ∨
    ∃ slot reply client, s.freeSlot = some slot ∧ reply.slot = slot ∧
      reply.text = idText slot ∧ client.active = reply.ok ∧ client.mqd = reply.mqd ∧
      handle_INIT s buf o =
        { s with clients := Function.update s.clients slot client, replies := s.replies ++ [reply] } := by
  unfold handle_INIT
  cases s.freeSlot with
  | none => exact Or.inl rfl
  | some slot =>
      by_cases hopen : o.mq_open = -1
      · exact Or.inl (if_pos hopen)
      · refine Or.inr ⟨slot, _, _, rfl, ?_, ?_, ?_, ?_, if_neg hopen⟩ <;> rfl

/-- A pass of the loop registers, sends on, ends the loop or does nothing. -/
theorem step_moves {e : Event} (hstep : step s e = some s') :
    (∃ buf o, s' = handle_INIT s buf o) ∨
    (∃ sender text o, s' = { s with broadcasts := s.broadcasts ++ broadcast s sender text o }) ∨
    s' = { s with running := false } ∨ s' = s := by
  cases e with
  | message msg o =>
      rw [step] at hstep
      split_ifs at hstep with hrun
      rw [← Option.some.inj hstep]
      unfold handle
      simp only []
      split_ifs with hinit hmsg hexit
      · exact Or.inl ⟨_, _, rfl⟩
      · unfold handle_MSG
        cases scanMsg o.overflowed (cstr msg) with
        | none => exact Or.inr (Or.inr (Or.inr rfl))
        | some p => exact Or.inr (Or.inl ⟨p.1, p.2, o, rfl⟩)
      · exact Or.inr (Or.inr (Or.inl rfl))
      · exact Or.inr (Or.inr (Or.inr rfl))
  | eintr =>
      rw [step] at hstep
      split_ifs at hstep with hrun
      exact Or.inr (Or.inr (Or.inr (Option.some.inj hstep).symm))
  | error =>
      rw [step] at hstep
      split_ifs at hstep with hrun
      exact Or.inr (Or.inr (Or.inl (Option.some.inj hstep).symm))

/-- A step that answers a client has put its queue into the slot it names, and
    the client is active if the answer could be sent. -/
theorem step_replies {e : Event} (hstep : step s e = some s') {d : Send}
    (hreply : s'.replies = s.replies ++ [d]) :
    (s'.clients d.slot).active = d.ok ∧ (s'.clients d.slot).mqd = d.mqd ∧ d.text = idText d.slot := by
  have hnone : s'.replies ≠ s.replies := by
    rw [hreply]
    exact fun h => absurd (List.append_right_eq_self.mp h) (List.cons_ne_nil d [])
  rcases step_moves hstep with ⟨buf, o, rfl⟩ | ⟨sender, text, o, rfl⟩ | rfl | rfl
  · rcases handle_INIT_cases s buf o with
      hsame | ⟨slot, reply, client, _, rfl, htext, hactive, hmqd, hfill⟩
    · exact absurd (congrArg State.replies hsame) hnone
    · rw [hfill] at hreply ⊢
      have hd : reply = d := List.singleton_inj.mp (List.append_cancel_left hreply)
      subst hd
      simp only [Function.update_self]
      exact ⟨hactive, hmqd, htext⟩
  · exact absurd rfl hnone
  · exact absurd rfl hnone
  · exact absurd rfl hnone

end Moves

end Lab6

end OsLabs
