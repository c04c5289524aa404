import OsLabs.Lab6.PosixChat

/-!
# The System V Message Queue Chat

`server_systemv.c` and the handshake of `client_systemv.c` of lab6. The server
does what the POSIX one does, with three differences. It gives up an `INIT`
without a name before it looks for a slot. It does not give up a slot when the
answer cannot be sent. And its messages are C strings sent with their
terminator, so a reader need not know how long they are.

A pass of the loop is a step, and what the operating system decides about it
is an `Outcome`, as in the POSIX version.

## Main definitions

* `Client`, `Send`, `State`, `Outcome`, `Event`: The server's data.
* `handle_INIT`, `handle_MSG`: The two branches that do something.
* `step`, `start`: The server as a transition system.
* `read_id`: How a client reads its number.

## Theorems

* `handle_INIT_cases`: What a registration can do.
* `step_moves`: What a pass of the loop can do.
* `step_replies`: A step that answers a client has registered it.
-/

namespace OsLabs

namespace Lab6

namespace SysV

structure Client where
  active : Bool
  qid : Int

/-- One call of `msgsnd` for a slot. -/
structure Send where
  slot : Fin MAX_CLIENTS
  qid : Int
  text : List UInt8
  ok : Bool
  deriving DecidableEq

structure State where
  clients : Fin MAX_CLIENTS → Client
  /-- The loop has not been left. -/
  running : Bool
  /-- The answers to `INIT`, in order. -/
  replies : List Send
  /-- The messages sent on, in order. -/
  broadcasts : List Send

/-- What one pass of the loop does not decide itself. -/
structure Outcome where
  /-- What `%d` stores for a number that is no `int`. -/
  overflowed : Int
  ftok : Int
  msgget : Int
  /-- The calls of `msgsnd` that succeed. -/
  msgsnd : Fin MAX_CLIENTS → List UInt8 → Bool

inductive Event
  /-- `msgrcv` has returned a message. -/
  | message (text : List UInt8) (o : Outcome)
  /-- It has returned -1, with `EINTR`. -/
  | eintr
  /-- It has returned -1 for another reason. -/
  | error

/-- The first slot that is not active. -/
def State.freeSlot (s : State) : Option (Fin MAX_CLIENTS) := firstSlot fun i => !(s.clients i).active

/-- A string as `msgsnd` is told to send it, with its terminator. -/
def withEnd (text : List UInt8) : List UInt8 := text ++ [0]

/-- The answer to `INIT`. -/
def idText (slot : Nat) : List UInt8 := withEnd (snprintf MSG_SIZE (bytes "ID " ++ numeral slot))

/-- The branch for `INIT`. -/
def handle_INIT (s : State) (message : List UInt8) (o : Outcome) : State :=
  match scanWord 63 (message.drop 5) with
  | none => s
  | some _ =>
    match s.freeSlot with
    | none => s
    | some slot =>
      if o.ftok = -1 then s
      else if o.msgget = -1 then s
      else
        -- The slot stays filled even if the answer cannot be sent.
        { s with
          clients := Function.update s.clients slot { active := true, qid := o.msgget }
          replies := s.replies ++ [{ slot := slot, qid := o.msgget, text := idText slot
                                     ok := o.msgsnd slot (idText slot) }] }

/-- `sscanf(in.message + 4, "%d %[^\n]", &from, text)`, when it converts both.
    No line is longer than the message. -/
def scanMsg (overflowed : Int) (message : List UInt8) : Option (Int × List UInt8) :=
  (scanInt overflowed (message.drop 4)).bind fun (from_, rest) =>
    (scanLine message.length (rest.dropWhile isBlank)).map fun (text, _) => (from_, text)

/-- The message sent on: the text as it is copied into the message, which has no
    terminator of its own if the text fills it. -/
def fromText (from_ : Int) (text : List UInt8) : List UInt8 :=
  withEnd ((snprintf (MSG_SIZE + 18)
    (bytes "From " ++ intNumeral from_ ++ bytes ": " ++ text)).take MSG_SIZE)

/-- The calls of `msgsnd` that send a message on, slot by slot. -/
def broadcast (s : State) (from_ : Int) (text : List UInt8) (o : Outcome) : List Send :=
  (List.finRange MAX_CLIENTS).flatMap fun i =>
    if (s.clients i).active ∧ (i : Int) ≠ from_ then
      [{ slot := i, qid := (s.clients i).qid, text := fromText from_ text
         ok := o.msgsnd i (fromText from_ text) }]
    else []

/-- The branch for `MSG`. -/
def handle_MSG (s : State) (message : List UInt8) (o : Outcome) : State :=
  match scanMsg o.overflowed message with
  | none => s
  | some (from_, text) => { s with broadcasts := s.broadcasts ++ broadcast s from_ text o }

/-- One message, which gets a terminator after what is received. -/
def handle (s : State) (text : List UInt8) (o : Outcome) : State :=
  let message := cstr text
  if (bytes "INIT ").isPrefixOf message then handle_INIT s message o
  else if (bytes "MSG ").isPrefixOf message then handle_MSG s message o
  else if message = bytes "EXIT" then { s with running := false }
  else s

def step (s : State) : Event → Option State
  | .message text o =>
    -- A longer message is not received but leads to an error.
    if s.running ∧ text.length ≤ MSG_SIZE then some (handle s text o) else none
  | .eintr => if s.running then some s else none
  | .error => if s.running then some { s with running := false } else none

/-- The server as it enters its loop. -/
def start : State where
  clients _ := { active := false, qid := 0 }
  running := true
  replies := []
  broadcasts := []

/-- The number the client takes from an answer, `none` if it gives up. The
    message is received into an array on the stack that has not been set. -/
def read_id (overflowed : Int) (message : CharArray MSG_SIZE) (reply : List UInt8) : Option Int :=
  scanId overflowed (received message reply).str

section Moves

variable {s s' : State}

/-- A registration changes nothing, or it fills in the first inactive slot and
    answers from it. -/
theorem handle_INIT_cases (s : State) (message : List UInt8) (o : Outcome) :
    handle_INIT s message o = s ∨
    ∃ slot reply, s.freeSlot = some slot ∧ reply.slot = slot ∧ reply.text = idText slot ∧
      handle_INIT s message o =
        { s with
          clients := Function.update s.clients slot { active := true, qid := reply.qid }
          replies := s.replies ++ [reply] } := by
  unfold handle_INIT
  cases scanWord 63 (message.drop 5) with
  | none => exact Or.inl rfl
  | some w =>
      cases s.freeSlot with
      | none => exact Or.inl rfl
      | some slot =>
          by_cases hftok : o.ftok = -1
          · exact Or.inl (if_pos hftok)
          · by_cases hget : o.msgget = -1
            · exact Or.inl ((if_neg hftok).trans (if_pos hget))
            · exact Or.inr ⟨slot, { slot := slot, qid := o.msgget, text := idText slot
                                    ok := o.msgsnd slot (idText slot) },
                rfl, rfl, rfl, (if_neg hftok).trans (if_neg hget)⟩

/-- A pass of the loop registers, sends on, ends the loop or does nothing. -/
theorem step_moves {e : Event} (hstep : step s e = some s') :
    (∃ message o, s' = handle_INIT s message o) ∨
    (∃ from_ text o, s' = { s with broadcasts := s.broadcasts ++ broadcast s from_ text o }) ∨
    s' = { s with running := false } ∨ s' = s := by
  cases e with
  | message text o =>
      rw [step] at hstep
      split_ifs at hstep with hrun
      rw [← Option.some.inj hstep]
      unfold handle
      simp only []
      split_ifs with hinit hmsg hexit
      · exact Or.inl ⟨_, _, rfl⟩
      · unfold handle_MSG
        cases scanMsg o.overflowed (cstr text) with
        | none => exact Or.inr (Or.inr (Or.inr rfl))
        | some p => exact Or.inr (Or.inl ⟨p.1, p.2, o, rfl⟩)
      · exact Or.inr (Or.inr (Or.inl rfl))
      · exact Or.inr (Or.inr (Or.inr rfl))
  | eintr =>
      rw [step] at hstep
      split_ifs at hstep with hrun
      exact Or.inr (Or.inr (Or.inr (Option.some.inj hstep).symm))
  | error =>
      rw [step] at hstep
      split_ifs at hstep with hrun
      exact Or.inr (Or.inr (Or.inl (Option.some.inj hstep).symm))

/-- A step that answers a client has put it into the slot it names. -/
theorem step_replies {e : Event} (hstep : step s e = some s') {d : Send}
    (hreply : s'.replies = s.replies ++ [d]) :
    (s'.clients d.slot).active = true ∧ (s'.clients d.slot).qid = d.qid ∧ d.text = idText d.slot := by
  have hnone : s'.replies ≠ s.replies := by
    rw [hreply]
    exact fun h => absurd (List.append_right_eq_self.mp h) (List.cons_ne_nil d [])
  rcases step_moves hstep with ⟨message, o, rfl⟩ | ⟨from_, text, o, rfl⟩ | rfl | rfl
  · rcases handle_INIT_cases s message o with hsame | ⟨slot, reply, _, rfl, htext, hfill⟩
    · exact absurd (congrArg State.replies hsame) hnone
    · rw [hfill] at hreply ⊢
      have hd : reply = d := List.singleton_inj.mp (List.append_cancel_left hreply)
      subst hd
      simp only [Function.update_self]
      exact ⟨trivial, trivial, htext⟩
  · exact absurd rfl hnone
  · exact absurd rfl hnone
  · exact absurd rfl hnone

end Moves

end SysV

end Lab6

end OsLabs
