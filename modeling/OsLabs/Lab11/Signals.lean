import OsLabs.Lab11.Server

/-!
# Signals at the UDP Server

`signal_handler` of lab11 calls `server_stop`, in the thread the signal happens
to be delivered to and wherever that thread is. Each of the two threads has a
stack of such calls on top of what it was doing, and goes on with the topmost.
Three things can go wrong.

* The mutex is not recursive. If the thread holds it when the signal strikes,
  and the server runs, `server_stop` waits for the mutex its own thread holds.
* The program is compiled with `-std=c17`, where `signal` sets up a handler for
  one signal: before the handler begins the signal has its default action again,
  and it is not blocked. The second `SIGTERM` kills the process, whoever is in
  `server_stop`.
* A call in the keepalive thread is not waited for. `pthread_join` fails at once
  when a thread calls it for itself, so nothing is to be feared from there; but
  the main thread, once `is_running` is clear, leaves its loop, and when `main`
  returns the process is over. Only if the main thread is in `server_stop` itself,
  past the test of `is_running`, does it join the keepalive thread first.

As long as all deliveries keep clear of that, no thread waits for itself and
every call of `server_stop` can be carried through. A single delivery that does
not can lead to a thread that waits for itself or to a call that is cut off.

A step of the system is a step of one thread: an access to shared memory, a
call into the operating system, one turn of a loop over the slots, or one of
the two sections of `handle_message_directly`. Within such a section it makes
no difference to the threads where the main thread is, nor to a signal that
strikes there. The calls of `server_stop` outside of a handler are on the stack
as well.

## Main definitions

* `StopPc`, `Call`: A call of `server_stop`, and where it is.
* `MainPc`, `KeepalivePc`: Where the threads are underneath.
* `stopStep`, `mainStep`, `keepaliveStep`, `step`: The transition system.
* `start`: The system as `server_start` sets up the handlers.
* `SelfWait`, `CutOff`: A thread waits for itself, and a call of `server_stop`
  has been in progress when the process ended.
* `Harmless`: The deliveries that lead to neither.
* `Orderly`, `Quiet`: What holds as long as all deliveries are harmless, of one
  thread and of the system.
* `Ending`: The main thread is on its way out, and nothing holds it up.

## Theorems

* `stopStep_cases`: What a step of `server_stop` does.
* `Orderly.push`, `Orderly.pop`, `Orderly.advance`: Calls begin, return and go on.
* `quiet_step`: Harmless deliveries keep the system quiet.
* `Quiet.not_selfWait`: In a quiet system nobody waits for itself.
* `Quiet.finishes`: In a quiet system all calls can be carried through.
* `Ending.cutOff`: The main thread can leave before the keepalive thread is done.
* `Quiet.harm`: What any other delivery can lead to.
* `signals_safe`: All three, for every run.
* `signals_safe_run`: A server that is stopped by two signals.
* `struck_in_section`: A server that is stopped while it registers a client.
-/

namespace OsLabs

namespace Lab11

namespace Signals

open Chat

inductive Signal
  | SIGINT
  | SIGTERM
  deriving DecidableEq

inductive Thread
  | main
  | keepalive
  deriving DecidableEq

/-- Where a call of `server_stop` is. -/
inductive StopPc
  /-- At the test of `is_running`. -/
  | test
  /-- `is_running` is cleared next. -/
  | clear
  /-- `server_socket` is closed next. -/
  | close
  | lock
  /-- In the loop, with the mutex. -/
  | notify (i : Nat)
  /-- At `pthread_join`, if there is a thread to join. -/
  | join
  deriving DecidableEq

/-- A call of `server_stop` on a thread's stack, from the handler for a signal
    or, without one, from `server_start` or `server_cleanup`. -/
structure Call where
  signo : Option Signal
  pc : StopPc
  deriving DecidableEq

/-- Where the main thread is beside its calls of `server_stop`. -/
inductive MainPc
  /-- The handler for the signal is installed next. -/
  | install (signo : Signal)
  /-- At `pthread_create`. -/
  | create
  | looping
  | receiving
  /-- In `handle_message_directly`, before and in its first section. -/
  | enroll_lock (msg : Message) (client_addr : SockAddrIn)
  | enrolling (msg : Message) (client_addr : SockAddrIn)
  /-- In the function for the message's type, before and in its section. -/
  | dispatch_lock (msg : Message) (client_addr : SockAddrIn)
  | dispatching (msg : Message) (client_addr : SockAddrIn)
  /-- `server_start` returns, and `server_cleanup` calls `server_stop` next. -/
  | leaving
  /-- In `server_cleanup`, once its call of `server_stop` has returned. -/
  | cleanup_lock
  /-- In the loop of `server_cleanup`, with the mutex. -/
  | joining (i : Nat)
  | destroying
  /-- `main` has returned, and with it the process has ended. -/
  | returned

/-- Where the keepalive thread is beside its calls of `server_stop`. -/
inductive KeepalivePc
  /-- Not created; `keepalive_thread` is zero. -/
  | unborn
  | test
  | asleep
  /-- After the sleep, at the second test. -/
  | awake
  | lock (now : TimeT)
  /-- In the loop of the sweep, with the mutex. -/
  | sweeping (now : TimeT) (i : Nat)
  | ended

structure State where
  host : Host
  clients_mutex : Option Thread
  main : MainPc
  keepalive : KeepalivePc
  /-- The calls of `server_stop` of each thread, the topmost first. -/
  calls : Thread → List Call
  /-- The signals that have a handler. -/
  handled : Signal → Bool
  /-- A signal without a handler has killed the process. -/
  killed : Bool

/-- What the operating system has for the next step of a thread: whether a
    thread can be created, what `recvfrom` returns, readings of the clock and
    results of `sendto`. -/
structure Input where
  created : Bool
  received : Option (Message × SockAddrIn)
  checked : TimeT
  now : TimeT
  result : Option Nat
  results : Fin MAX_CLIENTS → Option Nat

inductive Event
  /-- The signal is delivered to the thread, and its handler begins. -/
  | signal (th : Thread) (signo : Signal)
  /-- The thread takes a step. -/
  | run (th : Thread) (input : Input)

def State.setCalls (s : State) (th : Thread) (calls : List Call) : State :=
  { s with calls := Function.update s.calls th calls }

/-- One step of `server_stop` in the thread, and where it goes on if it does
    not return. -/
def stopStep (s : State) (th : Thread) (input : Input) : StopPc → Option (State × Option StopPc)
  | .test => some (s, if s.host.server.is_running then some .clear else none)
  | .clear => some
    ({ s with host := { s.host with server := { s.host.server with is_running := false } } },
      some .close)
  | .close => some ({ s with host := s.host.closeSocket }, some .lock)
  | .lock =>
    if s.clients_mutex = none then some ({ s with clients_mutex := some th }, some (.notify 0))
    else none
  | .notify i =>
    if h : i < MAX_CLIENTS then some
      ({ s with host := (stopSlot input.now input.results (s.host, []) ⟨i, h⟩).1 },
        some (.notify (i + 1)))
    else some ({ s with clients_mutex := none }, some .join)
  | .join => match th, s.keepalive with
    | _, .unborn => some (s, none)
    -- A thread that has ended is joined at once. The second time the call fails
    -- with ESRCH, at once too.
    | _, .ended => some (s, none)
    -- With EDEADLK: no thread can join itself.
    | .keepalive, _ => some (s, none)
    | .main, _ => none

/-- The types whose functions have a section. -/
def sectioned (type : BitVec 32) : Bool :=
  type = MessageType.MSG_LIST.code || type = MessageType.MSG_2ALL.code ||
    type = MessageType.MSG_2ONE.code || type = MessageType.MSG_STOP.code

/-- The main thread, when no call of `server_stop` is on top. -/
def mainStep (s : State) (input : Input) : Option State :=
  match s.main with
  | .install .SIGINT => some
    { s with main := .install .SIGTERM, handled := Function.update s.handled .SIGINT true }
  | .install .SIGTERM => some
    { s with main := .create, handled := Function.update s.handled .SIGTERM true }
  | .create =>
    some (if input.created then { s with main := .looping, keepalive := .test }
      else { s.setCalls .main [⟨none, .test⟩] with main := .leaving })
  | .looping => some
    { s with main := if s.host.server.is_running then .receiving else .leaving }
  | .receiving => match input.received with
    -- After EINTR the loop is left if the server does not run any more, and
    -- otherwise its condition is tested, which comes to the same.
    | none => some { s with main := .looping }
    | some (msg, client_addr) => some
      { s with
        main := if validate_message msg input.checked then .enroll_lock msg client_addr
          else .looping }
  | .enroll_lock msg client_addr =>
    if s.clients_mutex = none then some
      { s with clients_mutex := some .main, main := .enrolling msg client_addr }
    else none
  | .enrolling msg client_addr =>
    match enroll s.host msg client_addr input.now input.result with
    | (host, some _) => some { s with host := host, clients_mutex := none, main := .looping }
    | (host, none) => some
      { s with
        host := host, clients_mutex := none
        main := if sectioned msg.type then .dispatch_lock msg client_addr else .looping }
  | .dispatch_lock msg client_addr =>
    if s.clients_mutex = none then some
      { s with clients_mutex := some .main, main := .dispatching msg client_addr }
    else none
  | .dispatching msg client_addr => some
    { s with
      host := (dispatch s.host msg client_addr input.now input.result input.results).1
      clients_mutex := none, main := .looping }
  | .leaving => some { s.setCalls .main [⟨none, .test⟩] with main := .cleanup_lock }
  | .cleanup_lock =>
    if s.clients_mutex = none then some { s with clients_mutex := some .main, main := .joining 0 }
    else none
  | .joining i =>
    if h : i < MAX_CLIENTS then
      -- No slot of lab11 is ever given a thread.
      if (s.host.server.clients ⟨i, h⟩).thread_id = 0 then some { s with main := .joining (i + 1) }
      else none
    else some { s with clients_mutex := none, main := .destroying }
  | .destroying => some { s with host := s.host.closeSocket, main := .returned }
  | .returned => none

/-- `keepalive_monitor`, when no call of `server_stop` is on top. -/
def keepaliveStep (s : State) (input : Input) : Option State :=
  match s.keepalive with
  | .unborn => none
  | .test => some
    { s with keepalive := if s.host.server.is_running then .asleep else .ended }
  | .asleep => some { s with keepalive := .awake }
  | .awake => some
    { s with keepalive := if s.host.server.is_running then .lock input.now else .ended }
  | .lock now =>
    if s.clients_mutex = none then some
      { s with clients_mutex := some .keepalive, keepalive := .sweeping now 0 }
    else none
  | .sweeping now i =>
    if h : i < MAX_CLIENTS then some
      { s with
        host := (sweepSlot { now := now, stamp := input.now, results := input.results }
          (s.host, []) ⟨i, h⟩).1
        keepalive := .sweeping now (i + 1) }
    else some { s with clients_mutex := none, keepalive := .test }
  | .ended => none

/-- The keepalive thread does not exist yet, or has ended. -/
def KeepalivePc.over : KeepalivePc → Bool
  | .unborn => true
  | .ended => true
  | _ => false

def MainPc.exited : MainPc → Bool
  | .returned => true
  | _ => false

/-- The process has ended. -/
def State.over (s : State) : Bool := s.killed || s.main.exited

/-- The thread exists. -/
def State.alive (s : State) : Thread → Bool
  | .main => true
  | .keepalive => !s.keepalive.over

/-- The stack after a step of its topmost call. -/
def Call.goOn (c : Call) (rest : List Call) : Option StopPc → List Call
  | some pc => { c with pc := pc } :: rest
  | none => rest

/-- The thread takes a step. -/
def threadStep (s : State) (th : Thread) (input : Input) : Option State :=
  match s.calls th with
  | c :: rest => (stopStep s th input c.pc).map fun r => r.1.setCalls th (c.goOn rest r.2)
  | [] => match th with
    | .main => mainStep s input
    | .keepalive => keepaliveStep s input

/-- The signal is delivered to the thread. A handler is good for one signal. -/
def deliver (s : State) (th : Thread) (signo : Signal) : State :=
  if s.handled signo then
    { s with handled := Function.update s.handled signo false }.setCalls th
      (⟨some signo, .test⟩ :: s.calls th)
  else { s with killed := true }

def step (s : State) : Event → Option State
  | .signal th signo => if s.over || !s.alive th then none else some (deliver s th signo)
  | .run th input => if s.over then none else threadStep s th input

/-- The system as `server_start` sets up the handlers. -/
def start (port : Int) (fd : Nat) (others : Int → Bool) : Option State :=
  (Lab11.start port fd others).map fun s =>
    { host := s.host
      clients_mutex := none
      main := .install .SIGINT
      keepalive := .unborn
      calls := fun _ => []
      handled := fun _ => false
      killed := false }

/-- Whether a call of `server_stop` is past the clearing of `is_running`. -/
def StopPc.late : StopPc → Bool
  | .test => false
  | .clear => false
  | _ => true

def StopPc.held : StopPc → Bool
  | .notify _ => true
  | _ => false

/-- The sections of the main thread. -/
def MainPc.held : MainPc → Bool
  | .enrolling _ _ => true
  | .dispatching _ _ => true
  | .joining _ => true
  | _ => false

/-- Before a section of the main thread. -/
def MainPc.locking : MainPc → Bool
  | .enroll_lock _ _ => true
  | .dispatch_lock _ _ => true
  | .cleanup_lock => true
  | _ => false

/-- Before there is a keepalive thread. -/
def MainPc.setting : MainPc → Bool
  | .install _ => true
  | .create => true
  | _ => false

/-- In `server_cleanup`. -/
def MainPc.left : MainPc → Bool
  | .cleanup_lock => true
  | .joining _ => true
  | .destroying => true
  | .returned => true
  | _ => false

def KeepalivePc.held : KeepalivePc → Bool
  | .sweeping _ _ => true
  | _ => false

def KeepalivePc.locking : KeepalivePc → Bool
  | .lock _ => true
  | _ => false

/-- The thread is in a call of `pthread_mutex_lock`. -/
def State.locking (s : State) (th : Thread) : Prop :=
  match s.calls th with
  | c :: _ => c.pc = .lock
  | [] => match th with
    | .main => s.main.locking = true
    | .keepalive => s.keepalive.locking = true

/-- A thread waits for a mutex that it holds, or the keepalive thread for its
    own end. -/
def SelfWait (s : State) : Prop :=
  (∃ th, s.locking th ∧ s.clients_mutex = some th) ∨
    ∃ c rest, s.calls .keepalive = c :: rest ∧ c.pc = .join ∧
      ∀ input, stopStep s .keepalive input .join = none

/-- The process has ended with a call of `server_stop` in progress. -/
def CutOff (s : State) : Prop := s.over = true ∧ ∃ th, s.calls th ≠ []

abbrev State.running (s : State) : Bool := s.host.server.is_running

/-- A signal with a handler strikes a thread that does not hold the mutex, or the
    server does not run any more, and if it is the keepalive thread, the main
    thread is in `server_stop`, past the test. A signal without a handler strikes
    when no call of `server_stop` is in progress. -/
def Harmless (s : State) : Event → Prop
  | .signal th signo =>
    if s.handled signo then
      (s.running = true → s.clients_mutex ≠ some th) ∧
        (th = .keepalive → ∃ c ∈ s.calls .main, c.pc ≠ .test)
    else s.calls .main = [] ∧ s.calls .keepalive = []
  | .run _ _ => True

/-- The thread is in a section of its own, beside its calls of `server_stop`. -/
def State.inSection (s : State) : Thread → Bool
  | .main => s.main.held
  | .keepalive => s.keepalive.held

/-- The calls of a thread, as long as all deliveries are harmless. -/
structure Orderly (s : State) (th : Thread) : Prop where
  mutex : s.clients_mutex = some th ↔
    s.inSection th = true ∨ ∃ c ∈ s.calls th, c.pc.held = true
  /-- Nothing below a call that has found the server running is in a section. -/
  stacked : (s.calls th).Pairwise fun upper lower => upper.pc ≠ .test → lower.pc.held = false
  above : ∀ c ∈ s.calls th, c.pc ≠ .test → s.inSection th = false
  late : ∀ c ∈ s.calls th, c.pc.late = true → s.running = false
  outside : s.running = true → s.calls th ≠ [] → s.clients_mutex ≠ some th

/-- No slot has a thread. -/
def Threadless (server : Server) : Prop := ∀ i, (server.clients i).thread_id = 0

/-- What holds as long as all deliveries are harmless. -/
structure Quiet (s : State) : Prop where
  orderly : ∀ th, Orderly s th
  setting : s.main.setting = true → s.keepalive = .unborn
  leaving : s.main = .leaving → s.calls .main = [] → s.running = false
  left : s.main.left = true → s.running = false
  /-- While the keepalive thread is in `server_stop`, the main thread is on its way
      to join it. -/
  joined : s.keepalive.over = true ∨ (∃ c ∈ s.calls .main, c.pc ≠ .test) ∨
    (s.running = true ∨ s.keepalive = .test) ∧ s.calls .keepalive = []
  idle : s.keepalive.over = true → s.calls .keepalive = []
  threadless : Threadless s.host.server
  whole : s.over = true → ∀ th, s.calls th = []

theorem kept_is_running (b : Bool) : Kept (fun server => server.is_running = b) where
  added server client_addr client_id now h _ _ := by
    rw [add_client_udp, fillSlot]
    cases freeSlot server with
    | none => exact h
    | some i => exact h
  heard _ _ _ _ h _ := h
  missed _ _ h _ _ := h
  removed server i h := by
    unfold Chat.remove_client
    split_ifs <;> exact h

theorem Threadless.setSlot {server : Server} (h : Threadless server) (i : Fin MAX_CLIENTS)
    {c : ServerClient} (hc : c.thread_id = 0) : Threadless (server.setSlot i c) := by
  intro j
  by_cases hji : j = i
  · rw [hji, setSlot_self]
    exact hc
  · rw [setSlot_other _ _ hji]
    exact h j

theorem kept_threadless : Kept Threadless where
  added server client_addr client_id now h _ _ := by
    rw [add_client_udp, fillSlot]
    cases freeSlot server with
    | none => exact h
    | some i => exact fun j => h.setSlot i rfl j
  heard _ i _ _ h _ := h.setSlot i (h i)
  missed _ i h _ _ := h.setSlot i (h i)
  removed server i h := by
    unfold Chat.remove_client
    by_cases hactive : (server.clients i).is_active = true
    · rw [if_pos hactive]
      exact fun j => h.setSlot i rfl j
    · rw [if_neg hactive]
      exact h

/-- All that matters of what is done to the table. -/
structure Steady (host host' : Host) : Prop where
  running : host'.server.is_running = host.server.is_running
  threadless : Threadless host.server → Threadless host'.server

section Running

variable {s s' : State}

theorem enroll_steady (host : Host) (msg : Message) (client_addr : SockAddrIn) (now : TimeT)
    (result : Option Nat) : Steady host (enroll host msg client_addr now result).1 :=
  ⟨enroll_preserves (kept_is_running _) host msg client_addr now result rfl,
    enroll_preserves kept_threadless host msg client_addr now result⟩

theorem dispatch_steady (host : Host) (msg : Message) (client_addr : SockAddrIn) (now : TimeT)
    (result : Option Nat) (results : Fin MAX_CLIENTS → Option Nat) :
    Steady host (dispatch host msg client_addr now result results).1 :=
  ⟨dispatch_preserves (kept_is_running _) host msg client_addr now result results rfl,
    dispatch_preserves kept_threadless host msg client_addr now result results⟩

theorem sweepSlot_steady (input : SweepInput) (acc : Host × List Datagram) (i : Fin MAX_CLIENTS) :
    Steady acc.1 (sweepSlot input acc i).1 :=
  ⟨sweepSlot_preserves (kept_is_running _) input acc i rfl,
    sweepSlot_preserves kept_threadless input acc i⟩

theorem stopSlot_steady (now : TimeT) (results : Fin MAX_CLIENTS → Option Nat)
    (acc : Host × List Datagram) (i : Fin MAX_CLIENTS) :
    Steady acc.1 (stopSlot now results acc i).1 := by
  unfold stopSlot
  simp only []
  split_ifs
  · exact ⟨rfl, fun h => h.setSlot i (h i)⟩
  · exact ⟨rfl, id⟩

theorem closeSocket_steady (host : Host) : Steady host host.closeSocket := by
  unfold Host.closeSocket
  split_ifs
  · exact ⟨rfl, id⟩
  · exact ⟨rfl, fun h i => h i⟩

/-- What a step of `server_stop` does: it returns, which it does when the server
    does not run or its last thread has ended or is the caller, or it goes on. -/
inductive StopMove (s : State) (th : Thread) : StopPc → State → Option StopPc → Prop
  | refused (h : s.running = false) : StopMove s th .test s none
  | admitted (h : s.running = true) : StopMove s th .test s (some .clear)
  | cleared : StopMove s th .clear
      { s with host := { s.host with server := { s.host.server with is_running := false } } }
      (some .close)
  | closed (host : Host) (h : Steady s.host host) :
      StopMove s th .close { s with host := host } (some .lock)
  | locked (h : s.clients_mutex = none) :
      StopMove s th .lock { s with clients_mutex := some th } (some (.notify 0))
  | notified (i : Nat) (hi : i < MAX_CLIENTS) (host : Host) (h : Steady s.host host) :
      StopMove s th (.notify i) { s with host := host } (some (.notify (i + 1)))
  | unlocked (i : Nat) (hi : MAX_CLIENTS ≤ i) :
      StopMove s th (.notify i) { s with clients_mutex := none } (some .join)
  | joined (h : th = .keepalive ∨ s.keepalive.over = true) : StopMove s th .join s none

theorem stopStep_cases {th : Thread} {input : Input} {pc : StopPc} {next : Option StopPc}
    (hstep : stopStep s th input pc = some (s', next)) : StopMove s th pc s' next := by
  cases pc with
  | test =>
      simp only [stopStep, Option.some.injEq, Prod.mk.injEq] at hstep
      rcases hstep with ⟨rfl, rfl⟩
      by_cases hrun : s.host.server.is_running = true
      · rw [if_pos hrun]
        exact .admitted hrun
      · rw [if_neg hrun]
        exact .refused (Bool.eq_false_iff.mpr hrun)
  | clear =>
      simp only [stopStep, Option.some.injEq, Prod.mk.injEq] at hstep
      rcases hstep with ⟨rfl, rfl⟩
      exact .cleared
  | close =>
      simp only [stopStep, Option.some.injEq, Prod.mk.injEq] at hstep
      rcases hstep with ⟨rfl, rfl⟩
      exact .closed _ (closeSocket_steady s.host)
  | lock =>
      simp only [stopStep] at hstep
      split_ifs at hstep with hfree
      simp only [Option.some.injEq, Prod.mk.injEq] at hstep
      rcases hstep with ⟨rfl, rfl⟩
      exact .locked hfree
  | notify i =>
      simp only [stopStep] at hstep
      split_ifs at hstep with hi
      · simp only [Option.some.injEq, Prod.mk.injEq] at hstep
        rcases hstep with ⟨rfl, rfl⟩
        exact .notified i hi _ (stopSlot_steady _ _ (s.host, []) _)
      · simp only [Option.some.injEq, Prod.mk.injEq] at hstep
        rcases hstep with ⟨rfl, rfl⟩
        exact .unlocked i (by omega)
  | join =>
      have hjoin : s' = s ∧ next = none ∧ (th = .keepalive ∨ s.keepalive.over = true) := by
        cases th <;> cases hkeepalive : s.keepalive <;>
          simp_all [stopStep, KeepalivePc.over]
      rcases hjoin with ⟨rfl, rfl, hth⟩
      exact .joined hth

/-- A call that cannot go on waits for the mutex or for the keepalive thread. -/
theorem stopStep_none {th : Thread} {pc : StopPc} {input : Input}
    (h : stopStep s th input pc = none) :
    pc = .lock ∧ s.clients_mutex ≠ none ∨
      pc = .join ∧ th = .main ∧ s.keepalive.over = false := by
  cases pc with
  | test => cases h
  | clear => cases h
  | close => cases h
  | lock =>
      simp only [stopStep] at h
      split_ifs at h with hfree
      exact Or.inl ⟨rfl, hfree⟩
  | notify i =>
      simp only [stopStep] at h
      split_ifs at h
  | join =>
      refine Or.inr ⟨rfl, ?_⟩
      cases th <;> cases hkeepalive : s.keepalive <;>
        simp_all [stopStep, KeepalivePc.over]

/-- What a step of `server_stop` leaves alone. -/
structure Around (s s' : State) : Prop where
  calls : s'.calls = s.calls
  main : s'.main = s.main
  keepalive : s'.keepalive = s.keepalive
  killed : s'.killed = s.killed
  running : s'.running = true → s.running = true
  threadless : Threadless s.host.server → Threadless s'.host.server

theorem Around.over (h : Around s s') : s'.over = s.over := by
  unfold State.over
  rw [h.killed, h.main]

theorem Around.inSection (h : Around s s') (th : Thread) : s'.inSection th = s.inSection th := by
  cases th with
  | main =>
      change s'.main.held = s.main.held
      rw [h.main]
  | keepalive =>
      change s'.keepalive.held = s.keepalive.held
      rw [h.keepalive]

theorem StopMove.around {th : Thread} {pc : StopPc} {next : Option StopPc}
    (h : StopMove s th pc s' next) : Around s s' := by
  cases h with
  | cleared =>
      exact ⟨rfl, rfl, rfl, rfl, fun hrun => absurd hrun Bool.false_ne_true, fun h i => h i⟩
  | closed host h => exact ⟨rfl, rfl, rfl, rfl, fun hrun => h.running.symm.trans hrun, h.threadless⟩
  | notified i hi host h =>
      exact ⟨rfl, rfl, rfl, rfl, fun hrun => h.running.symm.trans hrun, h.threadless⟩
  | _ => exact ⟨rfl, rfl, rfl, rfl, id, id⟩

end Running

section Stacks

variable {s s' : State} {th : Thread}

@[simp] theorem setCalls_self (th : Thread) (calls : List Call) :
    (s.setCalls th calls).calls th = calls := Function.update_self ..

theorem setCalls_other {th th' : Thread} (h : th' ≠ th) (calls : List Call) :
    (s.setCalls th calls).calls th' = s.calls th' := Function.update_of_ne h ..

@[simp] theorem setCalls_main_keepalive (calls : List Call) :
    (s.setCalls .main calls).calls .keepalive = s.calls .keepalive :=
  setCalls_other (by decide) calls

@[simp] theorem setCalls_keepalive_main (calls : List Call) :
    (s.setCalls .keepalive calls).calls .main = s.calls .main :=
  setCalls_other (by decide) calls

theorem exists_mem_cons_of_not {c : Call} {rest : List Call} (h : ¬ c.pc.held = true) :
    (∃ c' ∈ c :: rest, c'.pc.held = true) ↔ ∃ c' ∈ rest, c'.pc.held = true := by
  simp only [List.mem_cons, exists_eq_or_imp]
  exact or_iff_right h

/-- A step that is none of the thread's. -/
theorem Orderly.congr (h : Orderly s th) (hcalls : s'.calls th = s.calls th)
    (hsection : s'.inSection th = s.inSection th)
    (hmutex : s'.clients_mutex = some th ↔ s.clients_mutex = some th)
    (hrun : s'.running = true → s.running = true) : Orderly s' th where
  mutex := by
    rw [hmutex, hsection, hcalls]
    exact h.mutex
  stacked := by
    rw [hcalls]
    exact h.stacked
  above := by
    rw [hcalls, hsection]
    exact h.above
  late := by
    rw [hcalls]
    intro c hc hlate
    exact Bool.eq_false_iff.mpr fun hrunning =>
      Bool.false_ne_true ((h.late c hc hlate).symm.trans (hrun hrunning))
  outside := by
    rw [hcalls]
    exact fun hrunning hne hown => h.outside (hrun hrunning) hne (hmutex.mp hown)

/-- A call begins: it has yet to find out whether the server runs. -/
theorem Orderly.push (h : Orderly s th) (signo : Option Signal)
    (hmutex : s.running = true → s.clients_mutex ≠ some th) :
    Orderly (s.setCalls th (⟨signo, .test⟩ :: s.calls th)) th where
  mutex := by
    rw [setCalls_self, exists_mem_cons_of_not (c := ⟨signo, .test⟩) Bool.false_ne_true]
    exact h.mutex
  stacked := by
    rw [setCalls_self]
    exact List.Pairwise.cons (fun _ _ hpc => absurd rfl hpc) h.stacked
  above := by
    rw [setCalls_self]
    intro c hc hpc
    rcases List.mem_cons.mp hc with rfl | hc
    · exact absurd rfl hpc
    · exact h.above c hc hpc
  late := by
    rw [setCalls_self]
    intro c hc hlate
    rcases List.mem_cons.mp hc with rfl | hc
    · cases hlate
    · exact h.late c hc hlate
  outside hrun _ := hmutex hrun

variable {c : Call} {rest : List Call}

/-- Below a call that has found the server running nothing is in a section. -/
theorem Orderly.below (h : Orderly s th) (hcalls : s.calls th = c :: rest) (hpc : c.pc ≠ .test) :
    s.inSection th = false ∧ ∀ lower ∈ rest, lower.pc.held = false := by
  have hstacked := h.stacked
  rw [hcalls, List.pairwise_cons] at hstacked
  exact ⟨h.above c (by rw [hcalls]; exact List.mem_cons_self) hpc,
    fun lower hlower => hstacked.1 lower hlower hpc⟩

/-- So the thread has the mutex exactly while that call is in its section. -/
theorem Orderly.owner (h : Orderly s th) (hcalls : s.calls th = c :: rest) (hpc : c.pc ≠ .test) :
    s.clients_mutex = some th ↔ c.pc.held = true := by
  have hbelow := h.below hcalls hpc
  rw [h.mutex, hcalls]
  constructor
  · rintro (hheld | ⟨lower, hlower, hheld⟩)
    · exact absurd (hbelow.1.symm.trans hheld) Bool.false_ne_true
    · rcases List.mem_cons.mp hlower with rfl | hlower
      · exact hheld
      · exact absurd ((hbelow.2 lower hlower).symm.trans hheld) Bool.false_ne_true
  · exact fun hheld => Or.inr ⟨c, List.mem_cons_self, hheld⟩

/-- Nothing below a call that finds the server running is in a section
    either. -/
theorem Orderly.below_admitted (h : Orderly s th) (hcalls : s.calls th = c :: rest)
    (hrun : s.running = true) :
    s.inSection th = false ∧ ∀ lower ∈ rest, lower.pc.held = false := by
  have hfree : ¬ (s.inSection th = true ∨ ∃ c ∈ s.calls th, c.pc.held = true) :=
    fun hheld => h.outside hrun (by rw [hcalls]; exact List.cons_ne_nil _ _) (h.mutex.mpr hheld)
  rw [hcalls, not_or] at hfree
  exact ⟨Bool.eq_false_iff.mpr hfree.1, fun lower hlower =>
    Bool.eq_false_iff.mpr fun hheld => hfree.2 ⟨lower, List.mem_cons_of_mem _ hlower, hheld⟩⟩

/-- The topmost call returns. -/
theorem Orderly.pop (h : Orderly s th) (hcalls : s.calls th = c :: rest) (hpc : ¬ c.pc.held = true)
    (hrun : s.running = false) : Orderly (s.setCalls th rest) th where
  mutex := by
    have hmutex := h.mutex
    rw [hcalls, exists_mem_cons_of_not hpc] at hmutex
    rw [setCalls_self]
    exact hmutex
  stacked := by
    have hstacked := h.stacked
    rw [hcalls] at hstacked
    rw [setCalls_self]
    exact hstacked.of_cons
  above := by
    rw [setCalls_self]
    exact fun lower hlower => h.above lower (by rw [hcalls]; exact List.mem_cons_of_mem _ hlower)
  late _ _ _ := hrun
  outside hrunning := absurd (hrun.symm.trans hrunning) Bool.false_ne_true

/-- The topmost call goes on, and may take or release the mutex. -/
theorem Orderly.advance (h : Orderly s th) (hcalls : s.calls th = c :: rest)
    (haround : Around s s') (pc : StopPc)
    (hbelow : s.inSection th = false ∧ ∀ lower ∈ rest, lower.pc.held = false)
    (hmutex : s'.clients_mutex = some th ↔ pc.held = true)
    (hlate : pc.late = true → s'.running = false)
    (houtside : s'.running = true → pc.held = false) :
    Orderly (s'.setCalls th ({ c with pc := pc } :: rest)) th := by
  have hstacked := h.stacked
  rw [hcalls, List.pairwise_cons] at hstacked
  have hsection : (s'.setCalls th ({ c with pc := pc } :: rest)).inSection th = false :=
    (haround.inSection th).trans hbelow.1
  constructor
  case mutex =>
    rw [setCalls_self, hsection]
    constructor
    · exact fun hmain => Or.inr ⟨_, List.mem_cons_self, hmutex.mp hmain⟩
    · rintro (hheld | ⟨lower, hlower, hheld⟩)
      · exact absurd hheld Bool.false_ne_true
      · rcases List.mem_cons.mp hlower with rfl | hlower
        · exact hmutex.mpr hheld
        · exact absurd ((hbelow.2 lower hlower).symm.trans hheld) Bool.false_ne_true
  case stacked =>
    rw [setCalls_self]
    exact List.Pairwise.cons (fun lower hlower _ => hbelow.2 lower hlower) hstacked.2
  case above => exact fun _ _ _ => hsection
  case late =>
    rw [setCalls_self]
    intro lower hlower hlow
    rcases List.mem_cons.mp hlower with rfl | hlower
    · exact hlate hlow
    · have hrun := h.late lower (by rw [hcalls]; exact List.mem_cons_of_mem _ hlower) hlow
      exact Bool.eq_false_iff.mpr fun hrunning =>
        Bool.false_ne_true (hrun.symm.trans (haround.running hrunning))
  case outside =>
    intro hrunning _ hmain
    exact absurd ((houtside hrunning).symm.trans (hmutex.mp hmain)) Bool.false_ne_true

/-- A step of the topmost call of the thread. -/
theorem Orderly.call (h : Orderly s th) (hcalls : s.calls th = c :: rest)
    {next : Option StopPc} (hmove : StopMove s th c.pc s' next) :
    Orderly (s'.setCalls th (c.goOn rest next)) th := by
  have hmem : c ∈ s.calls th := by
    rw [hcalls]
    exact List.mem_cons_self
  have howner := h.owner hcalls
  have haround := hmove.around
  cases c with
  | mk signo pc =>
      cases hmove with
      -- A call that finds the server stopped leaves everything as it was below it.
      | refused hrun => exact h.pop hcalls Bool.false_ne_true hrun
      | admitted hrun =>
          have hfree : s.clients_mutex ≠ some th :=
            h.outside hrun (by rw [hcalls]; exact List.cons_ne_nil _ _)
          exact h.advance hcalls haround .clear (h.below_admitted hcalls hrun)
            (iff_of_false hfree Bool.false_ne_true) (fun hlate => by cases hlate) fun _ => rfl
      | cleared =>
          exact h.advance hcalls haround .close (h.below hcalls (by simp)) (howner (by simp))
            (fun _ => rfl) fun _ => rfl
      | closed host hhost =>
          exact h.advance hcalls haround .lock (h.below hcalls (by simp)) (howner (by simp))
            (fun _ => hhost.running.trans (h.late _ hmem rfl)) fun _ => rfl
      | locked hfree =>
          refine h.advance hcalls haround (.notify 0) (h.below hcalls (by simp))
            (iff_of_true rfl rfl) (fun _ => h.late _ hmem rfl) fun hrunning => ?_
          exact absurd ((h.late _ hmem rfl).symm.trans hrunning) Bool.false_ne_true
      | notified i hi host hhost =>
          have hrun := hhost.running.trans (h.late _ hmem rfl)
          refine h.advance hcalls haround (.notify (i + 1)) (h.below hcalls (by simp))
            (howner (by simp)) (fun _ => hrun) fun hrunning => ?_
          exact absurd (hrun.symm.trans hrunning) Bool.false_ne_true
      | unlocked i hi =>
          exact h.advance hcalls haround .join (h.below hcalls (by simp))
            (iff_of_false (by simp) Bool.false_ne_true) (fun _ => h.late _ hmem rfl) fun _ => rfl
      | joined _ => exact h.pop hcalls Bool.false_ne_true (h.late _ hmem rfl)

/-- It changes nothing for the other thread: the mutex it takes is free, and the
    one it releases is its own. -/
theorem Orderly.call_other (h : Orderly s th) (hcalls : s.calls th = c :: rest)
    {th' : Thread} (hother : Orderly s th') (hne : th' ≠ th) {next : Option StopPc}
    (hmove : StopMove s th c.pc s' next) : Orderly (s'.setCalls th (c.goOn rest next)) th' := by
  have haround := hmove.around
  refine hother.congr ?_ (haround.inSection th') ?_ haround.running
  · rw [setCalls_other hne, haround.calls]
  · change s'.clients_mutex = some th' ↔ _
    have howner := h.owner hcalls
    cases c with
    | mk signo pc =>
        cases hmove with
        | locked hfree =>
            rw [hfree]
            exact iff_of_false (fun hsome => hne (Option.some.inj hsome).symm) (by simp)
        | unlocked i hi =>
            have hown : s.clients_mutex = some th := (howner (by simp)).mpr rfl
            rw [hown]
            exact iff_of_false (by simp) fun hsome => hne (Option.some.inj hsome).symm
        | _ => exact Iff.rfl

end Stacks

section Keeping

variable {s s' : State}

/-- What is left of the calls of the main thread once it has returned from all of
    them, as long as the process goes on. -/
theorem Quiet.returned (h : Quiet s) (hcalls : s.calls .main = []) : s.calls .keepalive = [] := by
  rcases h.joined with hover | ⟨c, hc, _⟩ | ⟨_, hnone⟩
  · exact h.idle hover
  · rw [hcalls] at hc
    cases hc
  · exact hnone

theorem Quiet.setHost (h : Quiet s) {host : Host} (hhost : Steady s.host host) :
    Quiet { s with host := host } where
  orderly th := (h.orderly th).congr rfl rfl Iff.rfl fun hrun => hhost.running.symm.trans hrun
  setting := h.setting
  leaving hmain hcalls := hhost.running.trans (h.leaving hmain hcalls)
  left hleft := hhost.running.trans (h.left hleft)
  joined := by
    rcases h.joined with hover | hcall | ⟨hrun | htest, hnone⟩
    · exact Or.inl hover
    · exact Or.inr (Or.inl hcall)
    · exact Or.inr (Or.inr ⟨Or.inl (hhost.running.trans hrun), hnone⟩)
    · exact Or.inr (Or.inr ⟨Or.inr htest, hnone⟩)
  idle := h.idle
  threadless := hhost.threadless h.threadless
  whole := h.whole

theorem Quiet.setHandled (h : Quiet s) (handled : Signal → Bool) :
    Quiet { s with handled := handled } where
  orderly th := (h.orderly th).congr rfl rfl Iff.rfl id
  setting := h.setting
  leaving := h.leaving
  left := h.left
  joined := h.joined
  idle := h.idle
  threadless := h.threadless
  whole := h.whole

/-- The main thread goes on outside of its sections, or within one. -/
theorem Quiet.setMain (h : Quiet s) {main : MainPc} (hheld : main.held = s.main.held)
    (hsetting : main.setting = true → s.keepalive = .unborn)
    (hleaving : main = .leaving → s.calls .main = [] → s.running = false)
    (hleft : main.left = true → s.running = false)
    (hexit : main.exited = true → s.calls .main = []) (hover : s.over = false) :
    Quiet { s with main := main } where
  orderly th := by
    refine (h.orderly th).congr rfl ?_ Iff.rfl id
    cases th with
    | main => exact hheld
    | keepalive => rfl
  setting := hsetting
  leaving := hleaving
  left := hleft
  joined := h.joined
  idle := h.idle
  threadless := h.threadless
  whole hended := by
    have hkilled : s.killed = false := (Bool.or_eq_false_iff.mp hover).1
    have hexited : main.exited = true := by
      change (s.killed || main.exited) = true at hended
      rwa [hkilled, Bool.false_or] at hended
    intro th
    cases th with
    | main => exact hexit hexited
    | keepalive => exact h.returned (hexit hexited)

/-- A call begins. If it is one of the keepalive thread, the main thread is on its
    way to join that. -/
theorem Quiet.push (h : Quiet s) (hover : s.over = false) (th : Thread) (signo : Option Signal)
    (hmutex : s.running = true → s.clients_mutex ≠ some th)
    (hkeepalive : th = .keepalive →
      s.keepalive.over = false ∧ ∃ c ∈ s.calls .main, c.pc ≠ .test) :
    Quiet (s.setCalls th (⟨signo, .test⟩ :: s.calls th)) where
  orderly th' := by
    by_cases hth : th' = th
    · rw [hth]
      exact (h.orderly th).push signo hmutex
    · exact (h.orderly th').congr (setCalls_other hth _) rfl Iff.rfl id
  setting := h.setting
  leaving := by
    cases th with
    | main =>
        rw [setCalls_self]
        exact fun _ hcalls => absurd hcalls (List.cons_ne_nil _ _)
    | keepalive =>
        rw [setCalls_keepalive_main]
        exact h.leaving
  left := h.left
  joined := by
    cases th with
    | main =>
        rw [setCalls_self, setCalls_main_keepalive]
        rcases h.joined with hended | ⟨c, hc, hpc⟩ | hnone
        · exact Or.inl hended
        · exact Or.inr (Or.inl ⟨c, List.mem_cons_of_mem _ hc, hpc⟩)
        · exact Or.inr (Or.inr hnone)
    | keepalive =>
        rw [setCalls_keepalive_main]
        exact Or.inr (Or.inl (hkeepalive rfl).2)
  idle := by
    cases th with
    | main =>
        rw [setCalls_main_keepalive]
        exact h.idle
    | keepalive => exact fun hended => absurd ((hkeepalive rfl).1.symm.trans hended) (by decide)
  threadless := h.threadless
  whole hended := absurd (hover.symm.trans hended) Bool.false_ne_true

section Calls

variable {th : Thread} {c : Call} {rest : List Call} {next : Option StopPc}

/-- The main thread goes on to join the keepalive thread, or has joined it. -/
theorem Quiet.call_joined (h : Quiet s) (hcalls : s.calls th = c :: rest)
    (hmove : StopMove s th c.pc s' next) :
    s'.keepalive.over = true ∨
      (∃ c' ∈ (s'.setCalls th (c.goOn rest next)).calls .main, c'.pc ≠ .test) ∨
      (s'.running = true ∨ s'.keepalive = .test) ∧
        (s'.setCalls th (c.goOn rest next)).calls .keepalive = [] := by
  have haround := hmove.around
  cases th with
  | keepalive =>
      rw [setCalls_keepalive_main, haround.calls]
      rcases h.joined with hended | hcall | ⟨_, hnone⟩
      · have hnone := h.idle hended
        rw [hcalls] at hnone
        cases hnone
      · exact Or.inr (Or.inl hcall)
      · rw [hcalls] at hnone
        cases hnone
  | main =>
      rw [setCalls_self, setCalls_main_keepalive, haround.calls]
      cases next with
      | some pc =>
          -- A call that goes on is past the test.
          refine Or.inr (Or.inl ⟨{ c with pc := pc }, List.mem_cons_self, ?_⟩)
          cases c with
          | mk signo pc' => cases hmove <;> simp
      | none =>
          cases c with
          | mk signo pc =>
              cases hmove with
              | refused hrun =>
                  rcases h.joined with hended | ⟨c', hc', hpc⟩ | hnone
                  · exact Or.inl hended
                  · rw [hcalls] at hc'
                    rcases List.mem_cons.mp hc' with rfl | hc'
                    · exact absurd rfl hpc
                    · exact Or.inr (Or.inl ⟨c', hc', hpc⟩)
                  · exact Or.inr (Or.inr hnone)
              | joined hth =>
                  rcases hth with hth | hended
                  · cases hth
                  · exact Or.inl hended

/-- A call that returns leaves a server that does not run. -/
theorem Quiet.call_returns (h : Quiet s) (hcalls : s.calls th = c :: rest)
    (hmove : StopMove s th c.pc s' none) : s'.running = false := by
  have hmem : c ∈ s.calls th := by
    rw [hcalls]
    exact List.mem_cons_self
  cases c with
  | mk signo pc =>
      cases hmove with
      | refused hrun => exact hrun
      | joined _ => exact (h.orderly th).late _ hmem rfl

/-- A step of the topmost call of a thread. -/
theorem Quiet.call (h : Quiet s) (hover : s.over = false) (hcalls : s.calls th = c :: rest)
    (hmove : StopMove s th c.pc s' next) : Quiet (s'.setCalls th (c.goOn rest next)) := by
  have haround := hmove.around
  constructor
  case orderly =>
    intro th'
    by_cases hth : th' = th
    · rw [hth]
      exact (h.orderly th).call hcalls hmove
    · exact (h.orderly th).call_other hcalls (h.orderly th') hth hmove
  case setting =>
    change s'.main.setting = true → s'.keepalive = .unborn
    rw [haround.main, haround.keepalive]
    exact h.setting
  case leaving =>
    change s'.main = .leaving → _ → s'.running = false
    intro hmain hnone
    cases th with
    | main =>
        rw [setCalls_self] at hnone
        cases next with
        | none => exact h.call_returns hcalls hmove
        | some pc => cases hnone
    | keepalive =>
        rw [setCalls_keepalive_main, haround.calls] at hnone
        have hrun := h.leaving (haround.main.symm.trans hmain) hnone
        exact Bool.eq_false_iff.mpr fun hrunning =>
          Bool.false_ne_true (hrun.symm.trans (haround.running hrunning))
  case left =>
    change s'.main.left = true → s'.running = false
    rw [haround.main]
    exact fun hleft => Bool.eq_false_iff.mpr fun hrunning =>
      Bool.false_ne_true ((h.left hleft).symm.trans (haround.running hrunning))
  case joined => exact h.call_joined hcalls hmove
  case idle =>
    change s'.keepalive.over = true → _
    rw [haround.keepalive]
    intro hended
    cases th with
    | main =>
        rw [setCalls_main_keepalive, haround.calls]
        exact h.idle hended
    | keepalive =>
        have hnone := h.idle hended
        rw [hcalls] at hnone
        cases hnone
  case threadless => exact haround.threadless h.threadless
  case whole =>
    intro hended
    change s'.over = true at hended
    rw [haround.over, hover] at hended
    cases hended

end Calls

section Sections

variable {input : Input}

/-- With no call on top, the main thread takes or releases the mutex. -/
theorem Quiet.main_mutex_to (h : Quiet s) (hover : s.over = false) (hcalls : s.calls .main = [])
    (main : MainPc) (clients_mutex : Option Thread)
    (hmutex : clients_mutex = some .main ↔ main.held = true)
    (hkeepalive : clients_mutex = some .keepalive ↔ s.clients_mutex = some .keepalive)
    (hsetting : main.setting = false) (hleaving : main ≠ .leaving)
    (hleft : main.left = true → s.running = false) (hexit : main.exited = false) :
    Quiet { s with clients_mutex := clients_mutex, main := main } := by
  have hnone : ∀ c, c ∉ s.calls .main := by
    rw [hcalls]
    exact fun c => List.not_mem_nil
  constructor
  case orderly =>
    intro th
    cases th with
    | main =>
        refine ⟨hmutex.trans (or_iff_left ?_).symm, (h.orderly .main).stacked,
          fun c hc => absurd hc (hnone c), (h.orderly .main).late, fun _ hne => absurd hcalls hne⟩
        rintro ⟨c, hc, _⟩
        exact hnone c hc
    | keepalive => exact (h.orderly .keepalive).congr rfl rfl hkeepalive id
  case setting => exact fun hset => absurd (hsetting.symm.trans hset) Bool.false_ne_true
  case leaving => exact fun hmain => absurd hmain hleaving
  case left => exact hleft
  case joined => exact h.joined
  case idle => exact h.idle
  case threadless => exact h.threadless
  case whole =>
    intro hended
    change (s.killed || main.exited) = true at hended
    rw [(Bool.or_eq_false_iff.mp hover).1, hexit] at hended
    cases hended

/-- The mutex is free when the main thread takes it. -/
theorem Quiet.main_lock (h : Quiet s) (hover : s.over = false) (hcalls : s.calls .main = [])
    (hfree : s.clients_mutex = none) (main : MainPc) (hheld : main.held = true)
    (hleft : main.left = true → s.running = false) :
    Quiet { s with clients_mutex := some .main, main := main } := by
  refine h.main_mutex_to hover hcalls main _ (iff_of_true rfl hheld)
    (iff_of_false (by decide) (by rw [hfree]; decide)) ?_ ?_ hleft ?_
  · cases main <;> first | rfl | cases hheld
  · rintro rfl
    cases hheld
  · cases main <;> first | rfl | cases hheld

/-- A section of the main thread ends. -/
theorem Quiet.main_unlock (h : Quiet s) (hover : s.over = false) (hcalls : s.calls .main = [])
    (hheld : s.main.held = true) (main : MainPc) (hfree : main.held = false)
    (hsetting : main.setting = false) (hleaving : main ≠ .leaving)
    (hleft : main.left = true → s.running = false) (hexit : main.exited = false) :
    Quiet { s with clients_mutex := none, main := main } := by
  have hmain : s.clients_mutex = some .main := (h.orderly .main).mutex.mpr (Or.inl hheld)
  exact h.main_mutex_to hover hcalls main none (iff_of_false (by decide) (by rw [hfree]; decide))
    (iff_of_false (by decide) (by rw [hmain]; decide)) hsetting hleaving hleft hexit

/-- The keepalive thread is created. -/
theorem Quiet.create (h : Quiet s) (hover : s.over = false) (hmain : s.main = .create) :
    Quiet { s with main := .looping, keepalive := .test } := by
  have hunborn := h.setting (by rw [hmain]; rfl)
  have hnone : s.calls .keepalive = [] := h.idle (by rw [hunborn]; rfl)
  have hmoved : Quiet { s with main := .looping } :=
    h.setMain (by rw [hmain]; rfl) (fun hl => by cases hl) (fun hl => by cases hl)
      (fun hl => by cases hl) (fun hl => by cases hl) hover
  refine ⟨fun th => ?_, fun hl => (by cases hl), hmoved.leaving, fun hl => (by cases hl),
    Or.inr (Or.inr ⟨Or.inr rfl, hnone⟩), fun hl => (by cases hl), h.threadless, hmoved.whole⟩
  refine (hmoved.orderly th).congr rfl ?_ Iff.rfl id
  cases th with
  | main => rfl
  | keepalive =>
      change false = s.keepalive.held
      rw [hunborn]
      rfl

/-- A handler is installed while there is no keepalive thread yet. -/
theorem Quiet.install (h : Quiet s) (hover : s.over = false) {signo : Signal}
    (hmain : s.main = .install signo) (main : MainPc) (hheld : main.held = false)
    (hleaving : main ≠ .leaving) (hleft : main.left = false) (hexit : main.exited = false)
    (handled : Signal → Bool) : Quiet { s with main := main, handled := handled } := by
  have hunborn := h.setting (by rw [hmain]; rfl)
  have hset : Quiet { s with main := main } :=
    h.setMain (by rw [hmain, hheld]; rfl) (fun _ => hunborn) (fun hl => absurd hl hleaving)
      (fun hl => absurd (hleft.symm.trans hl) Bool.false_ne_true)
      (fun hl => absurd (hexit.symm.trans hl) Bool.false_ne_true) hover
  exact hset.setHandled handled

/-- Without a keepalive thread `server_start` calls `server_stop`. -/
theorem Quiet.give_up (h : Quiet s) (hover : s.over = false) (hcalls : s.calls .main = [])
    (hmain : s.main = .create) :
    Quiet { s.setCalls .main [⟨none, .test⟩] with main := .leaving } := by
  have hpush := h.push hover .main none
  rw [hcalls] at hpush
  have hfree : s.clients_mutex ≠ some .main := fun hmutex => by
    rcases (h.orderly .main).mutex.mp hmutex with hheld | ⟨c, hc, _⟩
    · change s.main.held = true at hheld
      rw [hmain] at hheld
      cases hheld
    · rw [hcalls] at hc
      cases hc
  refine (hpush (fun _ => hfree) fun hth => by cases hth).setMain ?_ (fun hl => by cases hl) ?_
    (fun hl => by cases hl) (fun hl => by cases hl) hover
  · change false = s.main.held
    rw [hmain]
    rfl
  · rw [setCalls_self]
    exact fun _ hnil => absurd hnil (List.cons_ne_nil _ _)

/-- The first section releases the mutex wherever it leads on to. -/
theorem Quiet.enrolled (h : Quiet s) (hover : s.over = false) (hcalls : s.calls .main = [])
    {msg : Message} {client_addr : SockAddrIn} (hmain : s.main = .enrolling msg client_addr)
    {host : Host} (hhost : Steady s.host host) (main : MainPc)
    (hmove : main = .looping ∨ main = .dispatch_lock msg client_addr) :
    Quiet { s with host := host, clients_mutex := none, main := main } := by
  have hheld : ({ s with host := host } : State).main.held = true := by
    change s.main.held = true
    rw [hmain]
    rfl
  rcases hmove with rfl | rfl
  · exact (h.setHost hhost).main_unlock hover hcalls hheld .looping rfl rfl (by simp)
      (fun hl => by cases hl) rfl
  · exact (h.setHost hhost).main_unlock hover hcalls hheld (.dispatch_lock msg client_addr) rfl rfl
      (by simp) (fun hl => by cases hl) rfl

/-- A step of the main thread with no call on top. -/
theorem Quiet.main_step (h : Quiet s) (hover : s.over = false) (hcalls : s.calls .main = [])
    (hstep : mainStep s input = some s') : Quiet s' := by
  have hno : ∀ {P : Prop}, false = true → P := fun hfalse => absurd hfalse Bool.false_ne_true
  unfold mainStep at hstep
  cases hmain : s.main with
  | install signo =>
      cases signo with
      | SIGINT =>
          simp only [hmain, Option.some.injEq] at hstep
          rw [← hstep]
          exact h.install hover hmain (.install .SIGTERM) rfl (by simp) rfl rfl _
      | SIGTERM =>
          simp only [hmain, Option.some.injEq] at hstep
          rw [← hstep]
          exact h.install hover hmain .create rfl (by simp) rfl rfl _
  -- Either there is a keepalive thread from here on, or `server_start` gives up.
  | create =>
      simp only [hmain, Option.some.injEq] at hstep
      split_ifs at hstep with hcreated
      · rw [← hstep]
        exact h.create hover hmain
      · rw [← hstep]
        exact h.give_up hover hcalls hmain
  | looping =>
      simp only [hmain, Option.some.injEq] at hstep
      rw [← hstep]
      by_cases hrun : s.host.server.is_running = true
      · rw [if_pos hrun]
        exact h.setMain (by rw [hmain]; rfl) hno (fun hl => by cases hl) hno hno hover
      · rw [if_neg hrun]
        exact h.setMain (by rw [hmain]; rfl) hno (fun _ _ => Bool.eq_false_iff.mpr hrun) hno hno
          hover
  | receiving =>
      cases hreceived : input.received with
      | none =>
          simp only [hmain, hreceived, Option.some.injEq] at hstep
          rw [← hstep]
          exact h.setMain (by rw [hmain]; rfl) hno (fun hl => by cases hl) hno hno hover
      | some p =>
          simp only [hmain, hreceived, Option.some.injEq] at hstep
          rw [← hstep]
          split_ifs
          · exact h.setMain (by rw [hmain]; rfl) hno (fun hl => by cases hl) hno hno hover
          · exact h.setMain (by rw [hmain]; rfl) hno (fun hl => by cases hl) hno hno hover
  | enroll_lock msg client_addr =>
      simp only [hmain] at hstep
      split_ifs at hstep with hfree
      rw [← Option.some.inj hstep]
      exact h.main_lock hover hcalls hfree _ rfl hno
  | enrolling msg client_addr =>
      have henroll := enroll_steady s.host msg client_addr input.now input.result
      simp only [hmain] at hstep
      cases hresult : enroll s.host msg client_addr input.now input.result with
      | mk host reply =>
          rw [hresult] at hstep henroll
          cases reply with
          | some d =>
              rw [← Option.some.inj hstep]
              exact h.enrolled hover hcalls hmain henroll .looping (Or.inl rfl)
          | none =>
              rw [← Option.some.inj hstep]
              split_ifs
              · exact h.enrolled hover hcalls hmain henroll _ (Or.inr rfl)
              · exact h.enrolled hover hcalls hmain henroll .looping (Or.inl rfl)
  | dispatch_lock msg client_addr =>
      simp only [hmain] at hstep
      split_ifs at hstep with hfree
      rw [← Option.some.inj hstep]
      exact h.main_lock hover hcalls hfree _ rfl hno
  | dispatching msg client_addr =>
      simp only [hmain, Option.some.injEq] at hstep
      rw [← hstep]
      exact (h.setHost (dispatch_steady _ _ _ _ _ _)).main_unlock hover hcalls
        (by rw [hmain]; rfl) .looping rfl rfl (by simp) hno rfl
  -- The loop was left because the server does not run any more.
  | leaving =>
      have hrun := h.leaving hmain hcalls
      have hpush := h.push hover .main none
      rw [hcalls] at hpush
      simp only [hmain, Option.some.injEq] at hstep
      rw [← hstep]
      refine (hpush (fun hrunning => absurd (hrun.symm.trans hrunning) Bool.false_ne_true)
        fun hth => by cases hth).setMain ?_ hno (fun hl => by cases hl) (fun _ => hrun) hno hover
      change false = s.main.held
      rw [hmain]
      rfl
  | cleanup_lock =>
      simp only [hmain] at hstep
      split_ifs at hstep with hfree
      rw [← Option.some.inj hstep]
      exact h.main_lock hover hcalls hfree _ rfl fun _ => h.left (by rw [hmain]; rfl)
  | joining i =>
      have hrun := h.left (by rw [hmain]; rfl)
      simp only [hmain] at hstep
      split_ifs at hstep with hi hzero
      · rw [← Option.some.inj hstep]
        exact h.setMain (by rw [hmain]; rfl) hno (fun hl => by cases hl) (fun _ => hrun) hno hover
      · rw [← Option.some.inj hstep]
        exact h.main_unlock hover hcalls (by rw [hmain]; rfl) .destroying rfl rfl (by simp)
          (fun _ => hrun) rfl
  | destroying =>
      have hrun := h.left (by rw [hmain]; rfl)
      have hhost := closeSocket_steady s.host
      simp only [hmain, Option.some.injEq] at hstep
      rw [← hstep]
      exact (h.setHost hhost).setMain (by rw [hmain]; rfl) hno (fun hl => by cases hl)
        (fun _ => hhost.running.trans hrun) (fun _ => hcalls) hover
  | returned => simp only [hmain, reduceCtorEq] at hstep

/-- With no call on top, the keepalive thread takes or releases the mutex, or
    keeps it as it is. -/
theorem Quiet.setKeepalive (h : Quiet s) (hcalls : s.calls .keepalive = [])
    (keepalive : KeepalivePc) (clients_mutex : Option Thread)
    (halive : s.keepalive.over = false)
    (hgo : keepalive.over = true ∨ s.running = true ∨ s.keepalive ≠ .test)
    (hmutex : clients_mutex = some .keepalive ↔ keepalive.held = true)
    (hmain : clients_mutex = some .main ↔ s.clients_mutex = some .main) :
    Quiet { s with clients_mutex := clients_mutex, keepalive := keepalive } := by
  have hnone : ∀ c, c ∉ s.calls .keepalive := by
    rw [hcalls]
    exact fun c => List.not_mem_nil
  constructor
  case orderly =>
    intro th
    cases th with
    | main => exact (h.orderly .main).congr rfl rfl hmain id
    | keepalive =>
        refine ⟨hmutex.trans (or_iff_left ?_).symm, (h.orderly .keepalive).stacked,
          fun c hc => absurd hc (hnone c), (h.orderly .keepalive).late,
          fun _ hne => absurd hcalls hne⟩
        rintro ⟨c, hc, _⟩
        exact hnone c hc
  case setting =>
    intro hset
    rw [h.setting hset] at halive
    cases halive
  case leaving => exact h.leaving
  case left => exact h.left
  case joined =>
    rcases h.joined with hended | hcall | ⟨hrun, _⟩
    · exact absurd (halive.symm.trans hended) Bool.false_ne_true
    · exact Or.inr (Or.inl hcall)
    · rcases hgo with hended | hrunning | htest
      · exact Or.inl hended
      · exact Or.inr (Or.inr ⟨Or.inl hrunning, hcalls⟩)
      · exact Or.inr (Or.inr ⟨Or.inl (hrun.resolve_right htest), hcalls⟩)
  case idle => exact fun _ => hcalls
  case threadless => exact h.threadless
  case whole => exact h.whole

theorem Quiet.keepalive_step (h : Quiet s) (hcalls : s.calls .keepalive = [])
    (hstep : keepaliveStep s input = some s') : Quiet s' := by
  unfold keepaliveStep at hstep
  -- Outside of the sweep the keepalive thread does not have the mutex.
  have houtside : ∀ keepalive : KeepalivePc, s.keepalive.over = false →
      s.keepalive.held = false → keepalive.held = false →
      (keepalive.over = true ∨ s.running = true ∨ s.keepalive ≠ .test) →
      Quiet { s with keepalive := keepalive } := by
    intro keepalive halive hold hnew hgo
    have hmutex : s.clients_mutex ≠ some .keepalive := fun hown => by
      rcases (h.orderly .keepalive).mutex.mp hown with hheld | ⟨c, hc, _⟩
      · exact Bool.false_ne_true (hold.symm.trans hheld)
      · rw [hcalls] at hc
        cases hc
    exact h.setKeepalive hcalls keepalive s.clients_mutex halive hgo
      (iff_of_false hmutex (by rw [hnew]; decide)) Iff.rfl
  cases hkeepalive : s.keepalive with
  | unborn => simp only [hkeepalive, reduceCtorEq] at hstep
  | test =>
      simp only [hkeepalive, Option.some.injEq] at hstep
      rw [← hstep]
      by_cases hrun : s.host.server.is_running = true
      · rw [if_pos hrun]
        exact houtside _ (by rw [hkeepalive]; rfl) (by rw [hkeepalive]; rfl) rfl
          (Or.inr (Or.inl hrun))
      · rw [if_neg hrun]
        exact houtside _ (by rw [hkeepalive]; rfl) (by rw [hkeepalive]; rfl) rfl (Or.inl rfl)
  | asleep =>
      simp only [hkeepalive, Option.some.injEq] at hstep
      rw [← hstep]
      exact houtside .awake (by rw [hkeepalive]; rfl) (by rw [hkeepalive]; rfl) rfl
        (Or.inr (Or.inr (by rw [hkeepalive]; simp)))
  | awake =>
      simp only [hkeepalive, Option.some.injEq] at hstep
      rw [← hstep]
      refine houtside _ (by rw [hkeepalive]; rfl) (by rw [hkeepalive]; rfl) ?_
        (Or.inr (Or.inr (by rw [hkeepalive]; simp)))
      split_ifs <;> rfl
  | lock now =>
      simp only [hkeepalive] at hstep
      split_ifs at hstep with hfree
      rw [← Option.some.inj hstep]
      exact h.setKeepalive hcalls (.sweeping now 0) (some .keepalive) (by rw [hkeepalive]; rfl)
        (Or.inr (Or.inr (by rw [hkeepalive]; simp))) (iff_of_true rfl rfl)
        (iff_of_false (by decide) (by rw [hfree]; decide))
  | sweeping now i =>
      have hheld : s.clients_mutex = some .keepalive :=
        (h.orderly .keepalive).mutex.mpr (Or.inl (by rw [State.inSection, hkeepalive]; rfl))
      -- A turn of the sweep keeps the mutex, and the end of it releases it.
      simp only [hkeepalive] at hstep
      split_ifs at hstep with hi
      · rw [← Option.some.inj hstep]
        exact (h.setHost (sweepSlot_steady _ (s.host, []) _)).setKeepalive hcalls
          (.sweeping now (i + 1)) s.clients_mutex (by rw [hkeepalive]; rfl)
          (Or.inr (Or.inr (by rw [hkeepalive]; simp))) (iff_of_true hheld rfl) Iff.rfl
      · rw [← Option.some.inj hstep]
        exact h.setKeepalive hcalls .test none (by rw [hkeepalive]; rfl)
          (Or.inr (Or.inr (by rw [hkeepalive]; simp)))
          (iff_of_false (by decide) Bool.false_ne_true)
          (iff_of_false (by decide) (by rw [hheld]; decide))
  | ended => simp only [hkeepalive, reduceCtorEq] at hstep

/-- A harmless delivery. -/
theorem Quiet.deliver (h : Quiet s) (hover : s.over = false) {th : Thread} {signo : Signal}
    (halive : s.alive th = true) (hok : Harmless s (.signal th signo)) :
    Quiet (deliver s th signo) := by
  unfold Signals.deliver
  by_cases hhandled : s.handled signo = true
  · rw [Harmless, if_pos hhandled] at hok
    rw [if_pos hhandled]
    have hset : Quiet { s with handled := Function.update s.handled signo false } :=
      h.setHandled _
    refine hset.push hover th (some signo) hok.1 ?_
    rintro rfl
    exact ⟨(Bool.not_eq_true' _).mp halive, hok.2 rfl⟩
  · -- The process is killed outside of `server_stop`.
    rw [Harmless, if_neg hhandled] at hok
    rw [if_neg hhandled]
    refine ⟨fun th' => (h.orderly th').congr rfl rfl Iff.rfl id, h.setting, h.leaving, h.left,
      h.joined, h.idle, h.threadless, fun _ th' => ?_⟩
    cases th' with
    | main => exact hok.1
    | keepalive => exact hok.2

/-- Harmless deliveries keep the system quiet, and so do all other steps. -/
theorem quiet_step (h : Quiet s) {e : Event} (hok : Harmless s e) (hstep : step s e = some s') :
    Quiet s' := by
  cases e with
  | signal th signo =>
      rw [step] at hstep
      split_ifs at hstep with hgone
      rw [Bool.or_eq_true, not_or, Bool.not_eq_true, Bool.not_eq_true'] at hgone
      rw [← Option.some.inj hstep]
      exact h.deliver hgone.1 (Bool.not_eq_false _ ▸ hgone.2) hok
  | run th input =>
      rw [step] at hstep
      split_ifs at hstep with hover
      have hover : s.over = false := Bool.eq_false_iff.mpr hover
      -- The topmost call goes on, and what is below it waits.
      unfold threadStep at hstep
      cases hcalls : s.calls th with
      | cons c rest =>
          simp only [hcalls] at hstep
          rcases Option.map_eq_some_iff.mp hstep with ⟨⟨s'', next⟩, hmoved, rfl⟩
          exact h.call hover hcalls (stopStep_cases hmoved)
      | nil =>
          simp only [hcalls] at hstep
          cases th with
          | main => exact h.main_step hover hcalls hstep
          | keepalive => exact h.keepalive_step hcalls hstep

theorem quiet_start {port : Int} {fd : Nat} {others : Int → Bool}
    (hstart : start port fd others = some s) : Quiet s := by
  rcases Option.map_eq_some_iff.mp hstart with ⟨s0, hs0, rfl⟩
  refine ⟨fun th => ⟨?_, List.Pairwise.nil, fun c hc => (by cases hc), fun c hc => (by cases hc),
    fun _ hne => absurd rfl hne⟩, fun _ => rfl, fun hmain => (by cases hmain),
    fun hleft => (by cases hleft), Or.inl rfl, fun _ => rfl, ?_, fun _ _ => rfl⟩
  · refine iff_of_false (by simp) ?_
    rintro (hheld | ⟨c, hc, _⟩)
    · cases th <;> cases hheld
    · cases hc
  · rcases Option.map_eq_some_iff.mp hs0 with ⟨server, hserver, rfl⟩
    unfold server_init at hserver
    split_ifs at hserver
    cases hserver
    exact fun _ => rfl

end Sections

end Keeping

section Waiting

variable {s : State}

def noInput : Input where
  created := false
  received := none
  checked := 0
  now := 0
  result := none
  results _ := none

/-- In a quiet system no thread waits for itself. -/
theorem Quiet.not_selfWait (h : Quiet s) : ¬ SelfWait s := by
  rintro (⟨th, hlocking, hmutex⟩ | ⟨c, rest, hcalls, hpc, hnone⟩)
  -- No place before a lock is one at which the thread has the mutex.
  · cases hcalls : s.calls th with
    | nil =>
        rcases (h.orderly th).mutex.mp hmutex with hheld | ⟨c, hc, _⟩
        · cases th with
          | main =>
              simp only [State.locking, hcalls] at hlocking
              cases hmain : s.main <;>
                simp [State.inSection, hmain, MainPc.locking, MainPc.held] at hlocking hheld
          | keepalive =>
              simp only [State.locking, hcalls] at hlocking
              cases hkeepalive : s.keepalive <;>
                simp [State.inSection, hkeepalive, KeepalivePc.locking, KeepalivePc.held]
                  at hlocking hheld
        · rw [hcalls] at hc
          cases hc
    | cons c rest =>
        simp only [State.locking, hcalls] at hlocking
        have hheld := ((h.orderly th).owner hcalls (by rw [hlocking]; decide)).mp hmutex
        rw [hlocking] at hheld
        cases hheld
  -- `pthread_join` fails where the thread would wait for itself.
  · rcases stopStep_none (hnone noInput) with ⟨hlock, _⟩ | ⟨_, hth, _⟩
    · cases hlock
    · cases hth

end Waiting

section Finishing

variable {s : State}

/-- No signal is delivered. -/
def Undisturbed (_ : State) : Event → Prop
  | .signal _ _ => False
  | .run _ _ => True

/-- How many steps are left of a call. -/
def StopPc.rank : StopPc → Nat
  | .join => 1
  | .notify i => 2 + (MAX_CLIENTS - i)
  | .lock => 3 + MAX_CLIENTS
  | .close => 4 + MAX_CLIENTS
  | .clear => 5 + MAX_CLIENTS
  | .test => 6 + MAX_CLIENTS

/-- How many steps are left of the keepalive thread, if the server does not run
    any more. -/
def KeepalivePc.rank : KeepalivePc → Nat
  | .unborn => 0
  | .ended => 0
  | .test => 1
  | .awake => 1
  | .asleep => 2
  | .sweeping _ i => 2 + (MAX_CLIENTS - i)
  | .lock _ => 3 + MAX_CLIENTS

/-- How many steps are left of a thread's calls. -/
def callsRank (calls : List Call) : Nat := (calls.map fun c => c.pc.rank).sum

def State.rank (s : State) : Nat :=
  callsRank (s.calls .main) + callsRank (s.calls .keepalive) + s.keepalive.rank

theorem step_call {th : Thread} {c : Call} {rest : List Call} (hover : s.over = false)
    (hcalls : s.calls th = c :: rest) {t : State} {next : Option StopPc} {input : Input}
    (hstep : stopStep s th input c.pc = some (t, next)) :
    step s (.run th input) = some (t.setCalls th (c.goOn rest next)) := by
  simp only [step, hover, threadStep, hcalls, hstep, Option.map_some]
  rfl

/-- A step brings a call closer to its end. -/
theorem StopMove.rank {th : Thread} {pc : StopPc} {t : State} {next : Option StopPc}
    (h : StopMove s th pc t next) : next.elim 0 StopPc.rank < pc.rank := by
  cases h with
  | notified i hi host h =>
      change 2 + (MAX_CLIENTS - (i + 1)) < 2 + (MAX_CLIENTS - i)
      omega
  | unlocked i hi =>
      change 1 < 2 + (MAX_CLIENTS - i)
      omega
  | _ => decide

/-- And the system too. -/
theorem rank_call {th : Thread} {c : Call} {rest : List Call} (hcalls : s.calls th = c :: rest)
    {t : State} {next : Option StopPc} (hmove : StopMove s th c.pc t next) :
    (t.setCalls th (c.goOn rest next)).rank < s.rank := by
  have haround := hmove.around
  have hless : callsRank (c.goOn rest next) < callsRank (c :: rest) := by
    have hrank := hmove.rank
    cases next with
    | none =>
        change callsRank rest < c.pc.rank + callsRank rest
        change 0 < c.pc.rank at hrank
        omega
    | some pc =>
        change pc.rank + callsRank rest < c.pc.rank + callsRank rest
        change pc.rank < c.pc.rank at hrank
        omega
  have hthread : (t.setCalls th (c.goOn rest next)).keepalive = s.keepalive := haround.keepalive
  unfold State.rank
  rw [hthread]
  cases th with
  | main =>
      rw [setCalls_self, setCalls_main_keepalive, haround.calls, hcalls]
      omega
  | keepalive =>
      rw [setCalls_self, setCalls_keepalive_main, haround.calls, hcalls]
      omega

/-- When the server does not run any more, the keepalive thread comes to its
    end if it can have the mutex. -/
theorem keepalive_progress (hrun : s.running = false) (halive : s.keepalive.over = false)
    (hfree : s.keepalive.locking = true → s.clients_mutex = none) :
    ∃ t, keepaliveStep s noInput = some t ∧ t.calls = s.calls ∧
      t.keepalive.rank < s.keepalive.rank := by
  have hstopped : ¬ s.host.server.is_running = true := Bool.eq_false_iff.mp hrun
  unfold keepaliveStep
  cases hkeepalive : s.keepalive with
  | unborn =>
      rw [hkeepalive] at halive
      cases halive
  | ended =>
      rw [hkeepalive] at halive
      cases halive
  | test =>
      simp only [if_neg hstopped]
      exact ⟨_, rfl, rfl, Nat.zero_lt_one⟩
  | asleep => exact ⟨_, rfl, rfl, Nat.one_lt_two⟩
  | awake =>
      simp only [if_neg hstopped]
      exact ⟨_, rfl, rfl, Nat.zero_lt_one⟩
  | lock now =>
      simp only [if_pos (hfree (by rw [hkeepalive]; rfl))]
      refine ⟨_, rfl, rfl, ?_⟩
      change 2 + (MAX_CLIENTS - 0) < 3 + MAX_CLIENTS
      omega
  | sweeping now i =>
      by_cases hi : i < MAX_CLIENTS
      · simp only [dif_pos hi]
        refine ⟨_, rfl, rfl, ?_⟩
        change 2 + (MAX_CLIENTS - (i + 1)) < 2 + (MAX_CLIENTS - i)
        omega
      · simp only [dif_neg hi]
        refine ⟨_, rfl, rfl, ?_⟩
        change 1 < 2 + (MAX_CLIENTS - i)
        omega

/-- A thread with the mutex is in a section, or one of its calls is. -/
theorem Quiet.not_owner (h : Quiet s) {th : Thread} (hsection : s.inSection th = false)
    (hcalls : s.calls th = []) : s.clients_mutex ≠ some th := by
  intro hown
  rcases (h.orderly th).mutex.mp hown with hheld | ⟨c, hc, _⟩
  · exact Bool.false_ne_true (hsection.symm.trans hheld)
  · rw [hcalls] at hc
    cases hc

/-- While the main thread waits in a call, the keepalive thread can go on. -/
theorem Quiet.keepalive_goes_on (h : Quiet s) (hover : s.over = false) (hrun : s.running = false)
    (halive : s.keepalive.over = false) (hmain : s.clients_mutex ≠ some .main) :
    ∃ t, step s (.run .keepalive noInput) = some t ∧ t.rank < s.rank := by
  cases hcalls : s.calls .keepalive with
  | cons c rest =>
      cases hstep : stopStep s .keepalive noInput c.pc with
      | some r => exact ⟨_, step_call hover hcalls hstep, rank_call hcalls (stopStep_cases hstep)⟩
      | none =>
          -- The mutex it waits for would have to be its own.
          rcases stopStep_none hstep with ⟨hpc, hmutex⟩ | ⟨_, hth, _⟩
          · have hown : s.clients_mutex = some .keepalive := by
              cases hholder : s.clients_mutex with
              | none => exact absurd hholder hmutex
              | some th =>
                  cases th with
                  | main => exact absurd hholder hmain
                  | keepalive => rfl
            have hheld := ((h.orderly .keepalive).owner hcalls (by rw [hpc]; decide)).mp hown
            rw [hpc] at hheld
            cases hheld
          · cases hth
  | nil =>
      have hfree : s.keepalive.locking = true → s.clients_mutex = none := by
        intro hlocking
        have hsection : s.inSection .keepalive = false := by
          change s.keepalive.held = false
          cases hpc : s.keepalive <;>
            simp [hpc, KeepalivePc.locking, KeepalivePc.held] at hlocking ⊢
        cases hholder : s.clients_mutex with
        | none => rfl
        | some th =>
            cases th with
            | main => exact absurd hholder hmain
            | keepalive => exact absurd hholder (h.not_owner hsection hcalls)
      rcases keepalive_progress hrun halive hfree with ⟨t, hgo, hsame, hrank⟩
      refine ⟨t, ?_, ?_⟩
      · simp only [step, hover, threadStep, hcalls]
        exact hgo
      · simp only [State.rank, hsame]
        omega

/-- While there is a call, somebody can go on with one, or with what it waits
    for. -/
theorem Quiet.progress (h : Quiet s) (hcall : ¬ ∀ th, s.calls th = []) :
    ∃ th t, step s (.run th noInput) = some t ∧ t.rank < s.rank := by
  have hover : s.over = false := Bool.eq_false_iff.mpr fun hended => hcall (h.whole hended)
  cases hmain : s.calls .main with
  | nil => exact absurd (fun th => by cases th; exact hmain; exact h.returned hmain) hcall
  | cons c rest =>
      cases hstep : stopStep s .main noInput c.pc with
      | some r =>
          exact ⟨.main, _, step_call hover hmain hstep, rank_call hmain (stopStep_cases hstep)⟩
      | none =>
          -- It waits for the keepalive thread, which can go on.
          have hblocked := stopStep_none hstep
          have hlate : c.pc.late = true := by
            rcases hblocked with ⟨hpc, _⟩ | ⟨hpc, _⟩ <;> rw [hpc] <;> rfl
          have hmem : c ∈ s.calls .main := by
            rw [hmain]
            exact List.mem_cons_self
          have hrun := (h.orderly .main).late c hmem hlate
          -- Before the lock and after the section the main thread has no mutex.
          have hunheld : s.clients_mutex ≠ some .main := by
            intro hmutex
            have hpc : c.pc ≠ .test := by
              intro hpc
              rw [hpc] at hlate
              cases hlate
            have hheld := ((h.orderly .main).owner hmain hpc).mp hmutex
            rcases hblocked with ⟨hpc, _⟩ | ⟨hpc, _⟩ <;> rw [hpc] at hheld <;> cases hheld
          have halive : s.keepalive.over = false := by
            rcases hblocked with ⟨_, hmutex⟩ | ⟨_, _, halive⟩
            · -- Only the keepalive thread can have the mutex.
              refine Bool.eq_false_iff.mpr fun hended => hmutex ?_
              have hsection : s.inSection .keepalive = false := by
                change s.keepalive.held = false
                cases hpc : s.keepalive <;>
                  simp [hpc, KeepalivePc.over, KeepalivePc.held] at hended ⊢
              cases hholder : s.clients_mutex with
              | none => rfl
              | some th =>
                  cases th with
                  | main => exact absurd hholder hunheld
                  | keepalive => exact absurd hholder (h.not_owner hsection (h.idle hended))
            · exact halive
          rcases h.keepalive_goes_on hover hrun halive hunheld with ⟨t, hgo, hrank⟩
          exact ⟨.keepalive, t, hgo, hrank⟩

/-- In a quiet system all calls of `server_stop` can be carried through. -/
theorem Quiet.finishes (h : Quiet s) :
    ∃ t, Reaches step Undisturbed s t ∧ ∀ th, t.calls th = [] := by
  have hgoal : ∃ t, Reaches step Undisturbed s t ∧ Quiet t ∧ ∀ th, t.calls th = [] := by
    refine reaches_goal State.rank (fun v hv hcall => ?_) s.rank s h (Nat.le_refl _)
    rcases hv.progress hcall with ⟨th, t, hstep, hrank⟩
    have hok : Harmless v (.run th noInput) := trivial
    exact ⟨.run th noInput, t, trivial, hstep, quiet_step hv hok hstep, hrank⟩
  rcases hgoal with ⟨t, hreach, _, hcalls⟩
  exact ⟨t, hreach, hcalls⟩

end Finishing

section Harming

variable {s : State} {th : Thread} {signo : Option Signal} {rest : List Call}

/-- A step of the topmost call. -/
theorem reaches_call (hover : s.over = false) {pc pc' : StopPc} {t : State}
    (hcalls : s.calls th = ⟨signo, pc⟩ :: rest)
    (hstep : stopStep s th noInput pc = some (t, some pc')) :
    ∃ u, Reaches step Undisturbed s u ∧ u.calls th = ⟨signo, pc'⟩ :: rest ∧
      u.clients_mutex = t.clients_mutex ∧ u.over = false :=
  ⟨_, Reaches.step s _ (.run th noInput) Reaches.refl trivial (step_call hover hcalls hstep),
    setCalls_self .., rfl, (stopStep_cases hstep).around.over.trans hover⟩

/-- A call that finds the server running gets as far as the mutex. If that is the
    thread's own, it waits there. -/
theorem reaches_selfWait (hover : s.over = false) (hcalls : s.calls th = ⟨signo, .test⟩ :: rest)
    (hrun : s.running = true) (hmutex : s.clients_mutex = some th) :
    ∃ t, Reaches step Undisturbed s t ∧ SelfWait t := by
  have htest : stopStep s th noInput .test = some (s, some .clear) := by
    rw [stopStep, if_pos hrun]
  rcases reaches_call hover hcalls htest with ⟨t, ht, htcalls, htmutex, htover⟩
  have hclear : stopStep t th noInput .clear = some (_, some .close) := rfl
  rcases reaches_call htover htcalls hclear with ⟨u, hu, hucalls, humutex, huover⟩
  have hclose : stopStep u th noInput .close = some (_, some .lock) := rfl
  rcases reaches_call huover hucalls hclose with ⟨v, hv, hvcalls, hvmutex, _⟩
  refine ⟨v, (ht.trans hu).trans hv, Or.inl ⟨th, ?_, ?_⟩⟩
  · simp only [State.locking, hvcalls]
  · exact hvmutex.trans (humutex.trans (htmutex.trans hmutex))

/-- The main thread is on its way out, and nothing holds it up: the server does
    not run, its own calls of `server_stop` have only to find that out, and the
    keepalive thread does not have the mutex. Meanwhile that thread is in
    `server_stop`. -/
structure Ending (s : State) : Prop where
  running : s.running = false
  tests : ∀ c ∈ s.calls .main, c.pc = .test
  mutex : s.clients_mutex = none ∨ s.clients_mutex = some .main ∧ s.main.held = true
  created : s.main.setting = false
  threadless : Threadless s.host.server
  killed : s.killed = false
  pending : s.calls .keepalive ≠ []

/-- How many steps are left of the main thread, if the server does not run any
    more and no datagram comes. -/
def MainPc.rank : MainPc → Nat
  | .returned => 0
  | .destroying => 1
  | .joining i => 2 + (MAX_CLIENTS - i)
  | .cleanup_lock => 3 + MAX_CLIENTS
  | .leaving => 5 + MAX_CLIENTS
  | .looping => 6 + MAX_CLIENTS
  | .receiving => 7 + MAX_CLIENTS
  | .dispatching _ _ => 7 + MAX_CLIENTS
  | .dispatch_lock _ _ => 8 + MAX_CLIENTS
  | .enrolling _ _ => 9 + MAX_CLIENTS
  | .enroll_lock _ _ => 10 + MAX_CLIENTS
  | .install _ => 0
  | .create => 0

def State.exitRank (s : State) : Nat := (s.calls .main).length + s.main.rank

theorem Ending.setMain (h : Ending s) {host : Host} (hhost : Steady s.host host) (main : MainPc)
    (clients_mutex : Option Thread)
    (hmutex : clients_mutex = none ∨ clients_mutex = some .main ∧ main.held = true)
    (hcreated : main.setting = false) :
    Ending { s with host := host, clients_mutex := clients_mutex, main := main } where
  running := hhost.running.trans h.running
  tests := h.tests
  mutex := hmutex
  created := hcreated
  threadless := hhost.threadless h.threadless
  killed := h.killed
  pending := h.pending

/-- A place nearer to the end, with no call. -/
theorem Ending.goes_on (h : Ending s) (host : Host) (main : MainPc) (clients_mutex : Option Thread)
    (hhost : Steady s.host host)
    (hmutex : clients_mutex = none ∨ clients_mutex = some .main ∧ main.held = true)
    (hset : main.setting = false) (hrank : main.rank < s.main.rank)
    (hstep : mainStep s noInput
      = some { s with host := host, clients_mutex := clients_mutex, main := main }) :
    ∃ t, mainStep s noInput = some t ∧ Ending t ∧ t.exitRank < s.exitRank := by
  refine ⟨_, hstep, h.setMain hhost main clients_mutex hmutex hset, ?_⟩
  exact Nat.add_lt_add_left hrank _

/-- The call of `server_stop` in `server_cleanup` finds the server stopped. -/
theorem Ending.calls_stop (h : Ending s) (hcalls : s.calls .main = []) (hmain : s.main = .leaving)
    (hfree : s.clients_mutex = none) :
    ∃ t, mainStep s noInput = some t ∧ Ending t ∧ t.exitRank < s.exitRank := by
  refine ⟨{ s.setCalls .main [⟨none, .test⟩] with main := .cleanup_lock }, ?_, ?_, ?_⟩
  · simp only [mainStep, hmain]
  · refine ⟨h.running, ?_, Or.inl hfree, rfl, h.threadless, h.killed, ?_⟩
    · rw [setCalls_self]
      intro c hc
      rw [List.mem_singleton.mp hc]
    · rw [setCalls_main_keepalive]
      exact h.pending
  · change ((s.setCalls .main [⟨none, .test⟩]).calls .main).length + (3 + MAX_CLIENTS) < _
    rw [setCalls_self, State.exitRank, hcalls, hmain]
    decide

/-- The first section, from which it goes on to the second or back to the loop. -/
theorem Ending.enrolled (h : Ending s) {msg : Message} {client_addr : SockAddrIn}
    (hmain : s.main = .enrolling msg client_addr) :
    ∃ t, mainStep s noInput = some t ∧ Ending t ∧ t.exitRank < s.exitRank := by
  have henroll := enroll_steady s.host msg client_addr noInput.now noInput.result
  cases hresult : enroll s.host msg client_addr noInput.now noInput.result with
  | mk host reply =>
      rw [hresult] at henroll
      have hless : ∀ main : MainPc, main.rank ≤ 8 + MAX_CLIENTS → main.rank < s.main.rank := by
        intro main hle
        rw [hmain]
        change main.rank < 9 + MAX_CLIENTS
        omega
      cases reply with
      | some d =>
          exact h.goes_on host .looping none henroll (Or.inl rfl) rfl (hless _ (by decide))
            (by simp only [mainStep, hmain, hresult])
      | none =>
          by_cases hsectioned : sectioned msg.type = true
          · exact h.goes_on host (.dispatch_lock msg client_addr) none henroll (Or.inl rfl) rfl
              (hless _ (Nat.le_refl _))
              (by simp only [mainStep, hmain, hresult, if_pos hsectioned])
          · exact h.goes_on host .looping none henroll (Or.inl rfl) rfl (hless _ (by decide))
              (by simp only [mainStep, hmain, hresult, if_neg hsectioned])

/-- With no call on top, the main thread gets closer to its end. -/
theorem Ending.main_step (h : Ending s) (hcalls : s.calls .main = [])
    (hgoes : s.main.exited = false) :
    ∃ t, mainStep s noInput = some t ∧ Ending t ∧ t.exitRank < s.exitRank := by
  have hstopped : ¬ s.host.server.is_running = true := Bool.eq_false_iff.mp h.running
  have hsteady : Steady s.host s.host := ⟨rfl, id⟩
  have hfree : s.main.held = false → s.clients_mutex = none := fun hheld =>
    h.mutex.resolve_right fun hown => Bool.false_ne_true (hheld.symm.trans hown.2)
  cases hmain : s.main with
  | install signo =>
      have hcreated := h.created
      rw [hmain] at hcreated
      cases hcreated
  | create =>
      have hcreated := h.created
      rw [hmain] at hcreated
      cases hcreated
  | looping =>
      refine h.goes_on s.host .leaving s.clients_mutex hsteady
        (Or.inl (hfree (by rw [hmain]; rfl))) rfl ?_ ?_
      · rw [hmain]
        decide
      · simp only [mainStep, hmain, if_neg hstopped]
  | receiving =>
      refine h.goes_on s.host .looping s.clients_mutex hsteady
        (Or.inl (hfree (by rw [hmain]; rfl))) rfl ?_ ?_
      · rw [hmain]
        decide
      · simp only [mainStep, hmain]
        rfl
  | enroll_lock msg client_addr =>
      refine h.goes_on s.host (.enrolling msg client_addr) (some .main) hsteady
        (Or.inr ⟨rfl, rfl⟩) rfl ?_ ?_
      · rw [hmain]
        exact Nat.add_lt_add_right (by decide) _
      · simp only [mainStep, hmain, if_pos (hfree (by rw [hmain]; rfl))]
  | enrolling msg client_addr => exact h.enrolled hmain
  | dispatch_lock msg client_addr =>
      refine h.goes_on s.host (.dispatching msg client_addr) (some .main) hsteady
        (Or.inr ⟨rfl, rfl⟩) rfl ?_ ?_
      · rw [hmain]
        exact Nat.add_lt_add_right (by decide) _
      · simp only [mainStep, hmain, if_pos (hfree (by rw [hmain]; rfl))]
  | dispatching msg client_addr =>
      have hdispatch := dispatch_steady s.host msg client_addr noInput.now noInput.result
        noInput.results
      refine h.goes_on _ .looping none hdispatch (Or.inl rfl) rfl ?_ ?_
      · rw [hmain]
        exact Nat.add_lt_add_right (by decide) _
      · simp only [mainStep, hmain]
  | leaving => exact h.calls_stop hcalls hmain (hfree (by rw [hmain]; rfl))
  | cleanup_lock =>
      refine h.goes_on s.host (.joining 0) (some .main) hsteady (Or.inr ⟨rfl, rfl⟩) rfl ?_ ?_
      · rw [hmain]
        decide
      · simp only [mainStep, hmain, if_pos (hfree (by rw [hmain]; rfl))]
  | joining i =>
      by_cases hi : i < MAX_CLIENTS
      · have hheld : s.clients_mutex = none ∨ s.clients_mutex = some .main ∧
            (MainPc.joining (i + 1)).held = true := by
          rcases h.mutex with hnone | hown
          · exact Or.inl hnone
          · exact Or.inr ⟨hown.1, rfl⟩
        refine h.goes_on s.host (.joining (i + 1)) s.clients_mutex hsteady hheld rfl ?_ ?_
        · rw [hmain]
          change 2 + (MAX_CLIENTS - (i + 1)) < 2 + (MAX_CLIENTS - i)
          omega
        · simp only [mainStep, hmain, dif_pos hi, if_pos (h.threadless ⟨i, hi⟩)]
      · refine h.goes_on s.host .destroying none hsteady (Or.inl rfl) rfl ?_ ?_
        · rw [hmain]
          change 1 < 2 + (MAX_CLIENTS - i)
          omega
        · simp only [mainStep, hmain, dif_neg hi]
  | destroying =>
      refine h.goes_on s.host.closeSocket .returned s.clients_mutex (closeSocket_steady s.host)
        (Or.inl (hfree (by rw [hmain]; rfl))) rfl ?_ ?_
      · rw [hmain]
        decide
      · simp only [mainStep, hmain]
  | returned =>
      rw [hmain] at hgoes
      cases hgoes

/-- The main thread leaves, and the call in the keepalive thread is cut off. -/
theorem Ending.cutOff (h : Ending s) : ∃ t, Reaches step Undisturbed s t ∧ CutOff t := by
  have hgoal : ∃ t, Reaches step Undisturbed s t ∧ Ending t ∧ t.main.exited = true := by
    refine reaches_goal State.exitRank (fun v hv hgoes => ?_) s.exitRank s h (Nat.le_refl _)
    have hgoes : v.main.exited = false := Bool.eq_false_iff.mpr hgoes
    have hover : v.over = false := Bool.or_eq_false_iff.mpr ⟨hv.killed, hgoes⟩
    cases hcalls : v.calls .main with
    | nil =>
        rcases hv.main_step hcalls hgoes with ⟨t, hstep, ht, hrank⟩
        refine ⟨.run .main noInput, t, trivial, ?_, ht, hrank⟩
        simp only [step, hover, threadStep, hcalls]
        exact hstep
    | cons c rest =>
        -- A call of its own finds the server stopped.
        have hpc := hv.tests c (by rw [hcalls]; exact List.mem_cons_self)
        have hstop : stopStep v .main noInput c.pc = some (v, none) := by
          rw [hpc, stopStep, if_neg (Bool.eq_false_iff.mp hv.running)]
        refine ⟨.run .main noInput, _, trivial, step_call hover hcalls hstop, ?_, ?_⟩
        · refine ⟨hv.running, ?_, hv.mutex, hv.created, hv.threadless, hv.killed, ?_⟩
          · rw [setCalls_self]
            exact fun c' hc' => hv.tests c' (by rw [hcalls]; exact List.mem_cons_of_mem _ hc')
          · rw [setCalls_main_keepalive]
            exact hv.pending
        · change ((v.setCalls .main rest).calls .main).length + v.main.rank < _
          rw [setCalls_self, State.exitRank, hcalls, List.length_cons]
          omega
  rcases hgoal with ⟨t, hreach, ht, hexited⟩
  exact ⟨t, hreach, Bool.or_eq_true_iff.mpr (Or.inr hexited), .keepalive, ht.pending⟩

/-- A call in the keepalive thread that nobody waits for lets the main thread go. -/
theorem Ending.of_struck (hover : s.over = false)
    (hcalls : s.calls .keepalive = ⟨signo, .test⟩ :: rest)
    (htests : ∀ c ∈ s.calls .main, c.pc = .test)
    (hmutex : s.clients_mutex = none ∨ s.clients_mutex = some .main ∧ s.main.held = true)
    (hcreated : s.main.setting = false) (hthreadless : Threadless s.host.server) :
    ∃ t, Reaches step Undisturbed s t ∧ Ending t := by
  have hkilled := (Bool.or_eq_false_iff.mp hover).1
  have hpending : s.calls .keepalive ≠ [] := by
    rw [hcalls]
    exact List.cons_ne_nil _ _
  by_cases hrun : s.running = true
  · -- It clears `is_running`, and has still everything else to do.
    have htest : stopStep s .keepalive noInput .test = some (s, some .clear) := by
      rw [stopStep, if_pos hrun]
    have hfirst := step_call (c := ⟨signo, .test⟩) hover hcalls htest
    have hclear : stopStep (s.setCalls .keepalive (⟨signo, .clear⟩ :: rest)) .keepalive noInput
        .clear = some (_, some .close) := rfl
    have hsecond := step_call (c := ⟨signo, .clear⟩)
      (s := s.setCalls .keepalive (⟨signo, .clear⟩ :: rest)) hover (setCalls_self ..) hclear
    have hone : Reaches step Undisturbed s _ :=
      Reaches.step s _ (Event.run .keepalive noInput) Reaches.refl trivial hfirst
    have htwo : Reaches step Undisturbed s _ :=
      Reaches.step _ _ (Event.run .keepalive noInput) hone trivial hsecond
    refine ⟨_, htwo, rfl, ?_, hmutex, hcreated, fun i => hthreadless i, hkilled, ?_⟩
    · rw [setCalls_keepalive_main]
      change ∀ c ∈ (s.setCalls .keepalive (⟨signo, .clear⟩ :: rest)).calls .main, _
      rw [setCalls_keepalive_main]
      exact htests
    · rw [setCalls_self]
      exact List.cons_ne_nil _ _
  · exact ⟨s, Reaches.refl, Bool.eq_false_iff.mpr hrun, htests, hmutex, hcreated, hthreadless,
      hkilled, hpending⟩

/-- In a quiet system, any delivery that is not harmless can make the struck
    thread wait for itself, or a call be cut off. -/
theorem Quiet.harm (h : Quiet s) {signo : Signal} (hharm : ¬ Harmless s (.signal th signo))
    {t : State} (hstep : step s (.signal th signo) = some t) :
    ∃ u, Reaches step Undisturbed t u ∧ (SelfWait u ∨ CutOff u) := by
  rw [step] at hstep
  split_ifs at hstep with hgone
  rw [Bool.or_eq_true, not_or, Bool.not_eq_true, Bool.not_eq_true'] at hgone
  rcases hgone with ⟨hover, halive⟩
  rw [← Option.some.inj hstep]
  unfold Signals.deliver
  by_cases hhandled : s.handled signo = true
  · rw [if_pos hhandled]
    let struck := { s with handled := Function.update s.handled signo false }.setCalls th
      (⟨some signo, .test⟩ :: s.calls th)
    have hcalls : struck.calls th = ⟨some signo, .test⟩ :: s.calls th := setCalls_self th _
    rw [Harmless, if_pos hhandled] at hharm
    by_cases hown : s.running = true ∧ s.clients_mutex = some th
    · rcases reaches_selfWait (s := struck) hover hcalls hown.1 hown.2 with ⟨u, hreach, hself⟩
      exact ⟨u, hreach, Or.inl hself⟩
    · -- Then it is the keepalive thread, and the main thread is not in `server_stop`.
      have hnone : th = .keepalive ∧ ¬ ∃ c ∈ s.calls .main, c.pc ≠ .test := by
        by_contra hnot
        refine hharm ⟨fun hrun hmutex => hown ⟨hrun, hmutex⟩, fun hth => ?_⟩
        by_contra hcall
        exact hnot ⟨hth, hcall⟩
      rcases hnone with ⟨rfl, hcall⟩
      have hended : s.keepalive.over = false := by
        cases hkeepalive : s.keepalive.over with
        | false => rfl
        | true => exact absurd (by rw [State.alive, hkeepalive]; rfl) halive
      have htests : ∀ c ∈ s.calls .main, c.pc = .test := fun c hc => by
        by_contra hpc
        exact hcall ⟨c, hc, hpc⟩
      have hmutex : s.clients_mutex = none ∨ s.clients_mutex = some .main ∧ s.main.held = true := by
        cases hholder : s.clients_mutex with
        | none => exact Or.inl rfl
        | some th =>
            cases th with
            | main =>
                rcases (h.orderly .main).mutex.mp hholder with hheld | ⟨c, hc, hheld⟩
                · exact Or.inr ⟨rfl, hheld⟩
                · rw [htests c hc] at hheld
                  cases hheld
            | keepalive =>
                -- If the server does not run, the thread has not yet begun.
                rcases h.joined with hover | hcall' | ⟨hrun | htest, hnone⟩
                · exact absurd (hended.symm.trans hover) Bool.false_ne_true
                · exact absurd hcall' hcall
                · exact absurd ⟨hrun, hholder⟩ hown
                · refine absurd hholder (h.not_owner ?_ hnone)
                  rw [State.inSection, htest]
                  rfl
      have hcreated : s.main.setting = false := Bool.eq_false_iff.mpr fun hset => by
        rw [h.setting hset] at hended
        cases hended
      have hmain : struck.calls .main = s.calls .main := setCalls_keepalive_main _
      rcases Ending.of_struck (s := struck) hover hcalls (by rw [hmain]; exact htests) hmutex
        hcreated h.threadless with ⟨u, hreach, hending⟩
      rcases hending.cutOff with ⟨v, hend, hcut⟩
      exact ⟨v, hreach.trans hend, Or.inr hcut⟩
  · -- The process is killed, with a call in progress.
    rw [if_neg hhandled]
    rw [Harmless, if_neg hhandled] at hharm
    refine ⟨_, Reaches.refl, Or.inr ⟨rfl, ?_⟩⟩
    by_cases hmain : s.calls .main = []
    · exact ⟨.keepalive, fun hkeepalive => hharm ⟨hmain, hkeepalive⟩⟩
    · exact ⟨.main, hmain⟩

end Harming

/-- In every state that steps reach whose deliveries are all harmless, no thread
    waits for itself and every call of `server_stop` can be carried through; and
    a delivery that is not harmless can make a thread wait for itself or cut off a
    call. -/
theorem signals_safe (port : Int) (fd : Nat) (others : Int → Bool) (s t : State)
    (hstart : start port fd others = some s) (hreach : Reaches step Harmless s t) :
    ¬ SelfWait t ∧ (∃ u, Reaches step Undisturbed t u ∧ ∀ th, u.calls th = []) ∧
      ∀ th signo u, ¬ Harmless t (.signal th signo) → step t (.signal th signo) = some u →
        ∃ v, Reaches step Undisturbed u v ∧ (SelfWait v ∨ CutOff v) := by
  have hquiet : Quiet t := hreach.invariant (quiet_start hstart)
    fun v e w hv hok hstep => quiet_step hv hok hstep
  exact ⟨hquiet.not_selfWait, hquiet.finishes,
    fun th signo u hharm hstep => hquiet.harm hharm hstep⟩

instance (s : State) : ∀ e, Decidable (Harmless s e)
  | .signal th signo => inferInstanceAs (Decidable (if s.handled signo then
      (s.running = true → s.clients_mutex ≠ some th) ∧
        (th = .keepalive → ∃ c ∈ s.calls .main, c.pc ≠ .test)
    else s.calls .main = [] ∧ s.calls .keepalive = []))
  | .run _ _ => isTrue trivial

/-- The server starts up and waits for a datagram. -/
def startUp : List Event := List.replicate 4 (.run .main { noInput with created := true })

/-- The main thread is stopped while it waits for a datagram, and when it has
    found the server running, the other thread is. -/
def stoppedTwice : List Event :=
  startUp ++ [.signal .main .SIGINT, .run .main noInput, .signal .keepalive .SIGTERM]

/-- Both calls can be carried through. -/
theorem signals_safe_run :
    ∃ s t, start 5000 3 (fun _ => false) = some s ∧ run step s stoppedTwice = some t ∧
      t.calls .main = [⟨some .SIGINT, .clear⟩] ∧ t.calls .keepalive = [⟨some .SIGTERM, .test⟩] ∧
      ¬ SelfWait t ∧ ∃ u, Reaches step Undisturbed t u ∧ ∀ th, u.calls th = [] := by
  have hend : (start 5000 3 fun _ => false).map (fun s =>
      (decide (Meets step Harmless s stoppedTwice),
        (run step s stoppedTwice).map fun t => (t.calls .main, t.calls .keepalive)))
        = some (true, some ([⟨some .SIGINT, .clear⟩], [⟨some .SIGTERM, .test⟩])) := by
    decide +kernel
  rcases Option.map_eq_some_iff.mp hend with ⟨s, hstart, hpair⟩
  rcases Prod.mk.inj hpair with ⟨hmeets, hcalls⟩
  rcases Option.map_eq_some_iff.mp hcalls with ⟨t, hrun, ht⟩
  rcases Prod.mk.inj ht with ⟨hmain, hkeepalive⟩
  have hsafe := signals_safe 5000 3 _ s t hstart (reaches_of_run hrun (of_decide_eq_true hmeets))
  exact ⟨s, t, hstart, hrun, hmain, hkeepalive, hsafe.1, hsafe.2.1⟩

/-- The main thread takes in the first datagram of a client, and has the mutex
    when the signal arrives. -/
def registration : List Event :=
  [.run .main { noInput with
      received := some (create_message .MSG_LIST (bytes "ann") [] [] 0,
        { sin_addr := 1, sin_port := 2 }) },
    .run .main noInput]

/-- A server that is stopped while it registers a client waits for itself. -/
theorem struck_in_section :
    ¬ ∀ s t, start 5000 3 (fun _ => false) = some s → Reachable step s t → ¬ SelfWait t := by
  intro hclaim
  have hend : ((start 5000 3 fun _ => false).bind fun s => run step s
      (startUp ++ registration ++ [.signal .main .SIGTERM] ++
        List.replicate 3 (.run .main noInput))).map
      (fun t => (t.calls .main, t.clients_mutex))
        = some ([⟨some .SIGTERM, .lock⟩], some .main) := by decide +kernel
  rcases Option.map_eq_some_iff.mp hend with ⟨t, hbind, hpair⟩
  rcases Option.bind_eq_some_iff.mp hbind with ⟨s, hstart, hrun⟩
  rcases Prod.mk.inj hpair with ⟨hcalls, hmutex⟩
  refine hclaim s t hstart (reachable_of_run hrun) (Or.inl ⟨.main, ?_, hmutex⟩)
  simp only [State.locking, hcalls]

end Signals

end Lab11

end OsLabs
