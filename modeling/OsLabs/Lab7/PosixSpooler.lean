import OsLabs.Core.Memory
import OsLabs.Core.Ring
import OsLabs.Core.Run
import OsLabs.Core.Table

/-!
# The POSIX Print Spooler

`clients_posix.c` and `printers_posix.c` of lab7 as a transition system. Any
number of client processes put documents into a ring of 20 slots in shared
memory and any number of printer processes take them out. They share the ring,
the two positions `in` and `out`, and one semaphore, which starts at the number
of slots: a client waits on it before it copies a document in, and a printer
posts it after it has printed one. Nothing else keeps the processes apart. The
header declares the second position as `volatileint out`, which no compiler
takes, and it is read as `volatile int out`, like the first.

A step is one of the things a process does between two points where another
may come in: filling a document, `sem_wait`, the copy into `jobs[in]`, the
update of `in`, the test `out != in`, the copy from `jobs[out]`, the update of
`out`, printing, `sem_post`. The letters `rand` gives are part of the event.

The last three components of the state are history. They record the documents
copied into the ring, those copied out of it and by whom, and what each
printer has printed. No step reads them.

## Main definitions

* `Doc`, `set_doc`: A document, and the function that makes one.
* `Client`, `Printer`: Where a process stands.
* `State`, `Event`, `step`: The transition system.
* `start`: Its state before the first client or printer moves.
* `takenBy`: The documents a printer has copied out of the ring.
* `Delivered`: What a spooler is for.

## Theorems

* `step_set_doc`, ..., `step_sem_post`: When each step can be taken and where
  it leads.
-/

namespace OsLabs

namespace Lab7

def MSG_SIZE : Nat := 11
def MAX_MESSAGES : Nat := 20

/-- A document fills its array: ten letters and a terminator. -/
def Doc : Type := { d : CharArray MSG_SIZE // d.Full }

/-- `set_doc`, `rand i` being what the call of `rand` for letter `i` returns. -/
def set_doc (rand : Nat → Nat) : Doc :=
  ⟨⟨(List.range (MSG_SIZE - 1)).map (fun i => UInt8.ofNat (97 + rand i % 26)) ++ [0], by
      rw [List.length_append, List.length_map, List.length_range]
      rfl⟩,
    (List.range (MSG_SIZE - 1)).map (fun i => UInt8.ofNat (97 + rand i % 26)), by
      intro b hb
      rcases List.mem_map.mp hb with ⟨i, _, rfl⟩
      intro hzero
      have hlt : rand i % 26 < 26 := Nat.mod_lt _ (by decide)
      have hnat := congrArg UInt8.toNat hzero
      rw [UInt8.toNat_ofNat', Nat.mod_eq_of_lt (by omega)] at hnat
      exact absurd hnat (by simp), rfl⟩

/-- The position after this one. -/
def next (i : Fin MAX_MESSAGES) : Fin MAX_MESSAGES :=
  ⟨(i + 1) % MAX_MESSAGES, Nat.mod_lt _ (by decide)⟩

/-- Where a client stands in its loop. -/
inductive Client
  /-- At the top of the loop. -/
  | ready
  /-- The document is made; `sem_wait` is next. -/
  | made (doc : Doc)
  /-- Past `sem_wait`; the copy into `jobs[in]` is next. -/
  | entered (doc : Doc)
  /-- The document is copied; the update of `in` is next. -/
  | copied

/-- Where a printer stands in its loop. -/
inductive Printer
  /-- At the test. -/
  | idle
  /-- The test has succeeded; the copy from `jobs[out]` is next. -/
  | found
  /-- The document is copied; the update of `out` is next. -/
  | took (doc : CharArray MSG_SIZE)
  /-- `out` is updated; printing is next. -/
  | holding (doc : CharArray MSG_SIZE)
  /-- The document is printed; `sem_post` is next. -/
  | done

/-- The shared memory, the semaphore, the processes and the history. -/
structure State (clients printers : Nat) where
  jobs : Fin MAX_MESSAGES → CharArray MSG_SIZE
  in_ : Fin MAX_MESSAGES
  out : Fin MAX_MESSAGES
  sem : Nat
  client : Fin clients → Client
  printer : Fin printers → Printer
  /-- The documents copied into the ring, in order. -/
  stored : List (CharArray MSG_SIZE)
  /-- The documents copied out of the ring, in order, with the printer that
      did. -/
  taken : List (Fin printers × CharArray MSG_SIZE)
  /-- The documents each printer has printed, in order. -/
  printed : Fin printers → List (CharArray MSG_SIZE)

inductive Event (clients printers : Nat)
  | set_doc (c : Fin clients) (rand : Nat → Nat)
  | sem_wait (c : Fin clients)
  | copy_in (c : Fin clients)
  | update_in (c : Fin clients)
  | test (p : Fin printers)
  | copy_out (p : Fin printers)
  | update_out (p : Fin printers)
  | print (p : Fin printers)
  | sem_post (p : Fin printers)

variable {clients printers : Nat}

def State.setClient (s : State clients printers) (c : Fin clients) (pc : Client) :
    State clients printers :=
  { s with client := Function.update s.client c pc }

def State.setPrinter (s : State clients printers) (p : Fin printers) (pc : Printer) :
    State clients printers :=
  { s with printer := Function.update s.printer p pc }

def step (s : State clients printers) : Event clients printers → Option (State clients printers)
  | .set_doc c rand => match s.client c with
    | .ready => some (s.setClient c (.made (set_doc rand)))
    | _ => none
  | .sem_wait c => match s.client c with
    | .made doc =>
      if 0 < s.sem then some { s.setClient c (.entered doc) with sem := s.sem - 1 } else none
    | _ => none
  | .copy_in c => match s.client c with
    | .entered doc => some
      { s.setClient c .copied with
        jobs := Function.update s.jobs s.in_ ((s.jobs s.in_).strcpy doc.val.bytes)
        stored := s.stored ++ [doc.val] }
    | _ => none
  | .update_in c => match s.client c with
    | .copied => some { s.setClient c .ready with in_ := next s.in_ }
    | _ => none
  | .test p => match s.printer p with
    | .idle => some (if s.out ≠ s.in_ then s.setPrinter p .found else s)
    | _ => none
  | .copy_out p => match s.printer p with
    | .found =>
      -- All of the printer's array is written, so what it held does not matter.
      let doc := (CharArray.zero MSG_SIZE).strncpy (s.jobs s.out).bytes MSG_SIZE
      some { s.setPrinter p (.took doc) with taken := s.taken ++ [(p, doc)] }
    | _ => none
  | .update_out p => match s.printer p with
    | .took doc => some { s.setPrinter p (.holding doc) with out := next s.out }
    | _ => none
  | .print p => match s.printer p with
    | .holding doc => some
      { s.setPrinter p .done with
        printed := Function.update s.printed p (s.printed p ++ [doc]) }
    | _ => none
  | .sem_post p => match s.printer p with
    | .done => some { s.setPrinter p .idle with sem := s.sem + 1 }
    | _ => none

/-- The shared memory as the printers' `main` sets it up, with every process
    at the top of its loop. -/
def start (clients printers : Nat) : State clients printers where
  jobs _ := CharArray.zero MSG_SIZE
  in_ := ⟨0, by decide⟩
  out := ⟨0, by decide⟩
  sem := MAX_MESSAGES
  client _ := .ready
  printer _ := .idle
  stored := []
  taken := []
  printed _ := []

/-- The documents a printer has copied out of the ring, in order. -/
def takenBy (s : State clients printers) (p : Fin printers) : List (CharArray MSG_SIZE) :=
  (s.taken.filter fun t => t.1 = p).map Prod.snd

/-- What a printer has copied and not yet printed. -/
def Printer.hand : Printer → List (CharArray MSG_SIZE)
  | .took doc => [doc]
  | .holding doc => [doc]
  | _ => []

/-- What a spooler is for. Nothing is copied out but what was copied in, and
    no more often; a printer prints what it copied, once and unchanged; and
    the processes can go on until every document stored so far is printed. -/
structure Delivered (s : State clients printers) : Prop where
  stored : (s.taken.map Prod.snd).Subperm s.stored
  printed : ∀ p, s.printed p ++ (s.printer p).hand = takenBy s p
  completes : ∃ t, Reachable step s t ∧ t.stored = s.stored ∧
    (t.taken.map Prod.snd).Perm t.stored ∧ ∀ p, t.printed p = takenBy t p

section Steps

variable {s t : State clients printers}

theorem step_set_doc (c : Fin clients) (rand : Nat → Nat) :
    step s (.set_doc c rand) = some t ↔
      s.client c = .ready ∧ t = s.setClient c (.made (set_doc rand)) := by
  cases h : s.client c <;> simp [step, h, eq_comm]

theorem step_sem_wait (c : Fin clients) :
    step s (.sem_wait c) = some t ↔ ∃ doc, s.client c = .made doc ∧ 0 < s.sem ∧
      t = { s.setClient c (.entered doc) with sem := s.sem - 1 } := by
  cases h : s.client c <;> simp [step, h, eq_comm]

theorem step_copy_in (c : Fin clients) :
    step s (.copy_in c) = some t ↔ ∃ doc, s.client c = .entered doc ∧
      t = { s.setClient c .copied with
        jobs := Function.update s.jobs s.in_ ((s.jobs s.in_).strcpy doc.val.bytes)
        stored := s.stored ++ [doc.val] } := by
  cases h : s.client c <;> simp [step, h, eq_comm]

theorem step_update_in (c : Fin clients) :
    step s (.update_in c) = some t ↔
      s.client c = .copied ∧ t = { s.setClient c .ready with in_ := next s.in_ } := by
  cases h : s.client c <;> simp [step, h, eq_comm]

theorem step_test (p : Fin printers) :
    step s (.test p) = some t ↔
      s.printer p = .idle ∧ t = if s.out ≠ s.in_ then s.setPrinter p .found else s := by
  cases h : s.printer p <;> simp [step, h, eq_comm]

theorem step_copy_out (p : Fin printers) :
    step s (.copy_out p) = some t ↔ s.printer p = .found ∧
      t = { s.setPrinter p (.took
          ((CharArray.zero MSG_SIZE).strncpy (s.jobs s.out).bytes MSG_SIZE)) with
        taken := s.taken ++
          [(p, (CharArray.zero MSG_SIZE).strncpy (s.jobs s.out).bytes MSG_SIZE)] } := by
  cases h : s.printer p <;> simp [step, h, eq_comm]

theorem step_update_out (p : Fin printers) :
    step s (.update_out p) = some t ↔ ∃ doc, s.printer p = .took doc ∧
      t = { s.setPrinter p (.holding doc) with out := next s.out } := by
  cases h : s.printer p <;> simp [step, h, eq_comm]

theorem step_print (p : Fin printers) :
    step s (.print p) = some t ↔ ∃ doc, s.printer p = .holding doc ∧
      t = { s.setPrinter p .done with
        printed := Function.update s.printed p (s.printed p ++ [doc]) } := by
  cases h : s.printer p <;> simp [step, h, eq_comm]

theorem step_sem_post (p : Fin printers) :
    step s (.sem_post p) = some t ↔ s.printer p = .done ∧
      t = { s.setPrinter p .idle with sem := s.sem + 1 } := by
  cases h : s.printer p <;> simp [step, h, eq_comm]

end Steps

end Lab7

end OsLabs
