import OsLabs.Lab10.Ownership
import OsLabs.Lab10.Shutdown

/-!
# Every Connection Is Closed Once

The descriptors that `accept` returns are closed in many places: by the main
thread, when a connection is not registered; by `remove_client`, which handlers
and the keepalive thread call; and by `server_stop`. A ledger of the calls of
`close`, kept beside the state, says for each call whose descriptor the caller
means and which connection the number stands for at that moment.

A descriptor has one holder at a time. The main thread holds it until the
connection is registered, and then the slot does, which gives it up when it is
cleared. So for each connection the calls that have been made for it and its
holders add up to one, and a call reaches the connection it is meant for,
because the number is free for another connection only afterwards. When
`server_cleanup` returns nobody is left: it has joined the thread of every
slot, and a handler that ends leaves its slot cleared.

There is one way to give a descriptor up and hold it still. If there is no
thread for a client that has been put into a slot, the main thread has it
removed, which closes the descriptor, and then closes the descriptor itself.

## Main definitions

* `Closing`: A call of `close`.
* `closings`: The calls a step makes.
* `Ledger`, `ledgerStep`: The system with the calls made so far.
* `threadFails`: The step finds no thread for a client put into a slot.
* `Settled`: Each connection is closed once, or is still to be closed.
* `Retires`: What a section does that registers nobody, with its calls.
* `Accounted`: The invariant.

## Theorems

* `ledger_of_reaches`: Every run of the server has a ledger.
* `retires_sweep`, `retires_stopAll`, `retires_remove`: Which sections retire.
* `accounted_retires`: A section keeps the accounts.
* `accounted_step`: So does every step at which no thread is missing.
* `closed_once`: Every connection is closed once in runs of such steps.
* `closed_once_run`: A client that leaves, one that is refused, and a stop.
* `closed_twice`: A run in which a descriptor is closed twice.
-/

namespace OsLabs

namespace Lab10

open Chat

/-- A call of `close` for the descriptor that `accept` has returned for a
    connection, and what the number stands for when the call is made. -/
structure Closing where
  conn : Conn
  hit : Option Conn
  deriving DecidableEq

/-- The calls of `remove_client`, for a slot that holds the connection. -/
def removeCloses (host : Host) (i : Fin MAX_CLIENTS) (conn : Conn) : List Closing :=
  (Chat.remove_client host.server i).2.map fun fd => { conn := conn, hit := host.conns fd }

/-- The calls of the loop of `keepalive_monitor` at one slot. -/
def sweepSlotCloses (owner : Fin MAX_CLIENTS → Conn) (input : SweepInput) (host : Host)
    (i : Fin MAX_CLIENTS) : List Closing :=
  let c := host.server.clients i
  if !c.is_active then []
  else if silent input.now c then
    let counted : Host := { host with server := host.server.setSlot i (missed c) }
    if (missed c).inactive_count ≥ MAX_INACTIVE_COUNT then removeCloses counted i (owner i)
    else match counted.send c.socket_fd
        (create_message .MSG_ALIVE serverName c.client_id.bytes [] input.stamp) none
        (input.oks i) with
      | none => removeCloses counted i (owner i)
      | some _ => []
  else []

/-- The calls of the loop of `server_stop` at one slot. -/
def stopSlotCloses (owner : Fin MAX_CLIENTS → Conn) (host : Host) (i : Fin MAX_CLIENTS) :
    List Closing :=
  let c := host.server.clients i
  if c.is_active then [{ conn := owner i, hit := host.conns c.socket_fd }] else []

/-- The calls of a loop over slots. -/
def loopCloses (f : Host × List Delivery → Fin MAX_CLIENTS → Host × List Delivery)
    (closes : Host → Fin MAX_CLIENTS → List Closing) :
    Host × List Delivery → List (Fin MAX_CLIENTS) → List Closing
  | _, [] => []
  | acc, i :: l => closes acc.1 i ++ loopCloses f closes (f acc i) l

def sweepCloses (owner : Fin MAX_CLIENTS → Conn) (input : SweepInput) (host : Host) :
    List Closing :=
  loopCloses (sweepSlot input) (sweepSlotCloses owner input) (host, []) (List.finRange MAX_CLIENTS)

def stopCloses (owner : Fin MAX_CLIENTS → Conn) (now : TimeT) (oks : Fin MAX_CLIENTS → Bool)
    (host : Host) : List Closing :=
  loopCloses (stopSlot now oks) (stopSlotCloses owner) (host, []) (List.finRange MAX_CLIENTS)

/-- The slot a registration puts the client into, if it comes to that. -/
def placed (server : Server) (a : Accepted) (id_msg : Message) (now : TimeT) :
    Option (Server × Fin MAX_CLIENTS) :=
  if !validate_client_id id_msg.sender_id.bytes then none
  else if (find_client_by_id server id_msg.sender_id.bytes).isSome then none
  else match add_client server a.client_socket a.client_addr id_msg.sender_id.bytes now with
    | (_, none) => none
    | (server, some i) => some (server, i)

/-- The calls of `close` that a step makes for descriptors from `accept`. The
    descriptor the server listens on is not one of them. -/
def closings (s : State) : Event → List Closing
  | .handler t .cleanup =>
    match s.threads[t]? with
    | none => []
    | some h =>
      match find_client_by_socket s.host.server (s.host.server.clients h.client).socket_fd with
      | none => []
      | some i => removeCloses s.host i (s.owner i)
  | .main (.register now false) =>
    match s.main with
    | .registering a id_msg =>
      match placed s.host.server a id_msg now with
      | none => []
      | some (server, i) => removeCloses { s.host with server := server } i a.conn
    | _ => []
  | .main .close =>
    match s.main with
    | .closing a => [{ conn := a.conn, hit := s.host.conns a.client_socket }]
    | _ => []
  | .keepalive (.sweep input) => sweepCloses s.owner input s.host
  | .stop (.notify now oks) => stopCloses s.owner now oks s.host
  | _ => []

/-- The server, and the calls of `close` it has made. -/
structure Ledger where
  state : State
  closes : List Closing

def ledgerStep (l : Ledger) (e : Event) : Option Ledger :=
  (step l.state e).map fun s => { state := s, closes := l.closes ++ closings l.state e }

/-- The calls of `close` made for a connection. -/
def Ledger.times (l : Ledger) (c : Conn) : Nat := (l.closes.map Closing.conn).count c

/-- A client is put into a slot, and `pthread_create` fails for it. -/
def threadFails (s : State) : Event → Bool
  | .main (.register now false) =>
    match s.main with
    | .registering a id_msg => (placed s.host.server a id_msg now).isSome
    | _ => false
  | _ => false

/-- No step of a run is such a failure. -/
def ThreadFound (l : Ledger) (e : Event) : Prop := threadFails l.state e = false

instance (l : Ledger) (e : Event) : Decidable (ThreadFound l e) :=
  inferInstanceAs (Decidable (_ = _))

/-- Every call closes the connection it is meant for, and there is no more than
    one for a connection. As long as there is none the main thread is about to
    close the descriptor or to register it, or an active slot has it. When the
    server has been cleaned up there has been one for every connection. -/
structure Settled (l : Ledger) : Prop where
  hits : ∀ p ∈ l.closes, p.hit = some p.conn
  once : ∀ c, l.times c ≤ 1
  held : ∀ c < l.state.accepted, l.times c = 0 →
    (∃ a, l.state.main.closable = some a ∧ a.conn = c) ∨
      ∃ i, (l.state.host.server.clients i).is_active = true ∧ l.state.owner i = c
  returned : l.state.main = .returned → ∀ c < l.state.accepted, l.times c = 1

/-- Every run of the server has a ledger. -/
theorem ledger_of_reaches {s t : State} {closes : List Closing} (h : Reachable step s t) :
    ∃ closes', Reachable ledgerStep { state := s, closes := closes }
      { state := t, closes := closes' } := by
  induction h with
  | refl => exact ⟨closes, Reaches.refl⟩
  | step v w e _ _ hstep ih =>
      rcases ih with ⟨closes', hreach⟩
      refine ⟨closes' ++ closings v e, Reaches.step _ _ e hreach trivial ?_⟩
      rw [ledgerStep, hstep]
      rfl

/-- What a slot contributes to the holders of a connection. -/
def holding (c : Conn) (slot : Bool × Conn) : Nat := if slot.1 = true ∧ slot.2 = c then 1 else 0

/-- How many active slots hold a connection. -/
def slotsHold (owner : Fin MAX_CLIENTS → Conn) (server : Server) (c : Conn) : Nat :=
  total (holding c) fun i => ((server.clients i).is_active, owner i)

/-- Whether the main thread holds it. -/
def mainHolds (main : Main) (c : Conn) : Nat :=
  match main.closable with
  | some a => if a.conn = c then 1 else 0
  | none => 0

/-- What a section does that registers nobody: it takes slots away, keeps the
    thread ids of those it leaves, and closes the descriptors of those it
    takes, each of them once. -/
structure Retires (owner : Fin MAX_CLIENTS → Conn) (a b : Host) (log : List Closing) : Prop where
  shrinks : Shrinks a b
  threads : ∀ i, (b.server.clients i).is_active = true →
    (b.server.clients i).thread_id = (a.server.clients i).thread_id
  hits : (∀ i, (a.server.clients i).is_active = true →
    a.conns (a.server.clients i).socket_fd = some (owner i)) → ∀ p ∈ log, p.hit = some p.conn
  count : ∀ c, (log.map Closing.conn).count c + slotsHold owner b.server c
    = slotsHold owner a.server c

section Sections

variable {owner : Fin MAX_CLIENTS → Conn} {a b c : Host} {log log' : List Closing}

theorem Retires.trans (hab : Retires owner a b log) (hbc : Retires owner b c log') :
    Retires owner a c (log ++ log') := by
  refine ⟨hab.shrinks.trans hbc.shrinks, fun i hi => ?_, fun hslots p hp => ?_, fun conn => ?_⟩
  · exact (hbc.threads i hi).trans (hab.threads i (hbc.shrinks.active i hi).1)
  · rcases List.mem_append.mp hp with hp | hp
    · exact hab.hits hslots p hp
    · -- The slots that are left stand for the connections they stood for.
      refine hbc.hits (fun i hi => ?_) p hp
      rcases hab.shrinks.active i hi with ⟨hactive, hfd, hconns⟩
      rw [hfd, hconns]
      exact hslots i hactive
  · have hfirst := hab.count conn
    have hsecond := hbc.count conn
    rw [List.map_append, List.count_append]
    omega

/-- A section that rewrites slots and keeps what they hold. -/
theorem retires_same (hshrinks : Shrinks a b)
    (hactive : ∀ i, (b.server.clients i).is_active = (a.server.clients i).is_active)
    (hthreads : ∀ i, (b.server.clients i).is_active = true →
      (b.server.clients i).thread_id = (a.server.clients i).thread_id) :
    Retires owner a b [] := by
  refine ⟨hshrinks, hthreads, fun _ p hp => absurd hp List.not_mem_nil, fun c => ?_⟩
  unfold slotsHold
  simp only [List.map_nil, List.count_nil, Nat.zero_add, hactive]

theorem retires_refl (h : Attached a) : Retires owner a a [] :=
  retires_same (shrinks_refl h) (fun _ => rfl) fun _ _ => rfl

theorem retires_setSlot (h : Attached a) (i : Fin MAX_CLIENTS) (c : ServerClient)
    (hactive : c.is_active = (a.server.clients i).is_active)
    (hfd : c.socket_fd = (a.server.clients i).socket_fd)
    (hthread : c.is_active = true → c.thread_id = (a.server.clients i).thread_id) :
    Retires owner a { a with server := a.server.setSlot i c } [] := by
  refine retires_same (shrinks_setSlot h i c hactive hfd) (fun j => ?_) fun j => ?_
  · by_cases hj : j = i
    · rw [hj, setSlot_self]
      exact hactive
    · rw [setSlot_other _ _ hj]
  · by_cases hj : j = i
    · rw [hj, setSlot_self]
      exact hthread
    · rw [setSlot_other _ _ hj]
      exact fun _ => rfl

/-- An active slot is given up, and its descriptor closed. -/
theorem retires_drop (h : Attached a) (i : Fin MAX_CLIENTS) (c : ServerClient) (count : Int)
    (hactive : (a.server.clients i).is_active = true) (hc : c.is_active = false)
    (hfd : c.socket_fd = -1) :
    Retires owner a
      { server := { a.server.setSlot i c with client_count := count }
        conns := closeAll a.conns [(a.server.clients i).socket_fd] }
      [{ conn := owner i, hit := a.conns (a.server.clients i).socket_fd }] := by
  refine ⟨shrinks_drop h i c count hactive hc hfd, fun j hj => ?_, fun hslots p hp => ?_,
    fun conn => ?_⟩
  · change ((a.server.setSlot i c).clients j).is_active = true at hj
    change ((a.server.setSlot i c).clients j).thread_id = _
    by_cases hji : j = i
    · rw [hji, setSlot_self, hc] at hj
      exact absurd hj Bool.false_ne_true
    · rw [setSlot_other _ _ hji]
  · rw [List.mem_singleton.mp hp]
    exact hslots i hactive
  · -- The slot held one connection, and now holds none.
    have htable : (fun j => (((a.server.setSlot i c).clients j).is_active, owner j))
        = Function.update (fun j => ((a.server.clients j).is_active, owner j)) i
            (false, owner i) := by
      funext j
      by_cases hji : j = i
      · rw [hji, setSlot_self, Function.update_self, hc]
      · rw [setSlot_other _ _ hji, Function.update_of_ne hji]
    have hsum := total_update (holding conn)
      (fun j => ((a.server.clients j).is_active, owner j)) i (false, owner i)
    have hgone : holding conn (false, owner i) = 0 := by simp [holding]
    have hheld : holding conn ((a.server.clients i).is_active, owner i)
        = if owner i = conn then 1 else 0 := by simp [holding, hactive]
    rw [← htable, hgone, hheld] at hsum
    simp only [List.map_cons, List.map_nil, List.count_singleton, beq_iff_eq]
    change _ + total (holding conn)
        (fun j => (((a.server.setSlot i c).clients j).is_active, owner j))
      = total (holding conn) fun j => ((a.server.clients j).is_active, owner j)
    omega

theorem retires_remove (h : Attached a) (i : Fin MAX_CLIENTS) :
    Retires owner a (a.remove_client i) (removeCloses a i (owner i)) := by
  rw [Host.remove_client, removeCloses, Chat.remove_client]
  by_cases hactive : (a.server.clients i).is_active = true
  · have hne : (a.server.clients i).socket_fd ≠ -1 := by
      have hpos := (h.connected i hactive).1
      omega
    rw [if_pos hactive, if_neg hne]
    exact retires_drop h i _ _ hactive rfl rfl
  · rw [if_neg hactive]
    exact retires_refl h

theorem retires_sweepSlot (input : SweepInput) (acc : Host × List Delivery) (i : Fin MAX_CLIENTS)
    (h : Attached acc.1) :
    Retires owner acc.1 (sweepSlot input acc i).1 (sweepSlotCloses owner input acc.1 i) := by
  unfold sweepSlot sweepSlotCloses
  simp only []
  by_cases hactive : (acc.1.server.clients i).is_active = true
  · simp only [hactive, Bool.not_true, Bool.false_eq_true, if_false]
    by_cases hsilent : silent input.now (acc.1.server.clients i) = true
    · simp only [hsilent, if_true]
      have hcounted : Retires owner acc.1 _ [] :=
        retires_setSlot h i (missed (acc.1.server.clients i)) rfl rfl fun _ => rfl
      have hremoved := hcounted.trans (retires_remove (h.shrinks hcounted.shrinks) i)
      by_cases hcount : (missed (acc.1.server.clients i)).inactive_count ≥ MAX_INACTIVE_COUNT
      · simp only [hcount, if_true]
        exact hremoved
      · simp only [hcount, if_false]
        cases Host.send { acc.1 with
          server := acc.1.server.setSlot i (missed (acc.1.server.clients i)) }
            (acc.1.server.clients i).socket_fd (create_message .MSG_ALIVE serverName
              (acc.1.server.clients i).client_id.bytes [] input.stamp) none (input.oks i) with
        | none => exact hremoved
        | some d => exact hcounted
    · simp only [hsilent, Bool.false_eq_true, if_false]
      exact retires_refl h
  · simp only [hactive, Bool.not_false, if_true]
    exact retires_refl h

theorem retires_stopSlot (now : TimeT) (oks : Fin MAX_CLIENTS → Bool) (acc : Host × List Delivery)
    (i : Fin MAX_CLIENTS) (h : Attached acc.1) :
    Retires owner acc.1 (stopSlot now oks acc i).1 (stopSlotCloses owner acc.1 i) := by
  unfold stopSlot stopSlotCloses
  simp only []
  by_cases hactive : (acc.1.server.clients i).is_active = true
  · rw [if_pos hactive, if_pos hactive]
    exact retires_drop h i _ acc.1.server.client_count hactive rfl rfl
  · rw [if_neg hactive, if_neg hactive]
    exact retires_refl h

/-- A loop over slots retires if its body does. -/
theorem retires_loop {f : Host × List Delivery → Fin MAX_CLIENTS → Host × List Delivery}
    {closes : Host → Fin MAX_CLIENTS → List Closing}
    (hf : ∀ acc i, Attached acc.1 → Retires owner acc.1 (f acc i).1 (closes acc.1 i))
    (l : List (Fin MAX_CLIENTS)) :
    ∀ acc, Attached acc.1 → Retires owner acc.1 (l.foldl f acc).1 (loopCloses f closes acc l) := by
  induction l with
  | nil => exact fun acc h => retires_refl h
  | cons i l ih =>
      intro acc h
      have hvisit := hf acc i h
      rw [List.foldl_cons, loopCloses]
      exact hvisit.trans (ih (f acc i) (h.shrinks hvisit.shrinks))

theorem retires_sweep (input : SweepInput) (h : Attached a) :
    Retires owner a (sweep input a).1 (sweepCloses owner input a) :=
  retires_loop (retires_sweepSlot input) _ (a, []) h

theorem retires_stopAll (now : TimeT) (oks : Fin MAX_CLIENTS → Bool) (h : Attached a) :
    Retires owner a (stopAll now oks a).1 (stopCloses owner now oks a) :=
  retires_loop (retires_stopSlot now oks) _ (a, []) h

end Sections

/-- The accounts of the server. Active slots and the main thread hold open
    descriptors, each its own; every active slot has the thread of a handler
    that has not ended; the slots that `server_cleanup` is past are inactive;
    and for each connection the calls made and the holders add up to one. -/
structure Accounted (l : Ledger) : Prop where
  attached : Attached l.state.host
  slots : ∀ i, (l.state.host.server.clients i).is_active = true →
    l.state.host.conns (l.state.host.server.clients i).socket_fd = some (l.state.owner i)
  main : ∀ a, l.state.main.closable = some a →
    l.state.host.conns a.client_socket = some a.conn ∧
      ∀ i, (l.state.host.server.clients i).is_active = true →
        (l.state.host.server.clients i).socket_fd ≠ a.client_socket
  served : ∀ i, (l.state.host.server.clients i).is_active = true →
    ∃ h, recorded l.state i = some h ∧ h.client = i ∧ h.pc ≠ .ended
  joined : ∀ n, l.state.main = .joining n → ∀ i : Fin MAX_CLIENTS, i.val < n →
    (l.state.host.server.clients i).is_active = false
  returned : l.state.main = .returned → ∀ i, (l.state.host.server.clients i).is_active = false
  hits : ∀ p ∈ l.closes, p.hit = some p.conn
  count : ∀ c, l.times c + mainHolds l.state.main c
      + slotsHold l.state.owner l.state.host.server c
    = if c < l.state.accepted then 1 else 0

section Accounts

variable {l : Ledger} {s' : State} {log : List Closing}

/-- A section that registers nobody keeps the accounts. -/
theorem accounted_retires (h : Accounted l)
    (hretires : Retires l.state.owner l.state.host s'.host log) (hmain : s'.main = l.state.main)
    (haccepted : s'.accepted = l.state.accepted) (howner : s'.owner = l.state.owner)
    (hserved : ∀ i, (s'.host.server.clients i).is_active = true →
      ∃ h, recorded s' i = some h ∧ h.client = i ∧ h.pc ≠ .ended) :
    Accounted { state := s', closes := l.closes ++ log } := by
  have hshrinks := hretires.shrinks
  refine ⟨h.attached.shrinks hshrinks, fun i hi => ?_, fun a ha => ⟨?_, fun i hi => ?_⟩,
    hserved, fun n hn i hi => ?_, fun hr i => ?_, fun p hp => ?_, fun c => ?_⟩
  · rcases hshrinks.active i hi with ⟨hactive, hfd, hconns⟩
    change s'.host.conns (s'.host.server.clients i).socket_fd = some (s'.owner i)
    rw [hfd, hconns, howner]
    exact h.slots i hactive
  · -- The main thread's descriptor is in no active slot, so it is not closed.
    change s'.main.closable = some a at ha
    rw [hmain] at ha
    rcases hshrinks.conns a.client_socket with hsame | ⟨_, i, hi, hfd⟩
    · exact hsame.trans (h.main a ha).1
    · exact absurd hfd ((h.main a ha).2 i hi)
  · change s'.main.closable = some a at ha
    rw [hmain] at ha
    rcases hshrinks.active i hi with ⟨hactive, hfd, _⟩
    change (s'.host.server.clients i).socket_fd ≠ _
    rw [hfd]
    exact (h.main a ha).2 i hactive
  · change s'.main = .joining n at hn
    rw [hmain] at hn
    by_contra hactive
    have hold := (hshrinks.active i (by simpa using hactive)).1
    exact absurd (h.joined n hn i hi) (by rw [hold]; decide)
  · change s'.main = .returned at hr
    rw [hmain] at hr
    by_contra hactive
    have hold := (hshrinks.active i (by simpa using hactive)).1
    exact absurd (h.returned hr i) (by rw [hold]; decide)
  · rcases List.mem_append.mp hp with hp | hp
    · exact h.hits p hp
    · exact hretires.hits h.slots p hp
  · have hbefore := h.count c
    have hcount := hretires.count c
    change ((l.closes ++ log).map Closing.conn).count c + mainHolds s'.main c
      + slotsHold s'.owner s'.host.server c = if c < s'.accepted then 1 else 0
    unfold Ledger.times at hbefore
    rw [List.map_append, List.count_append, hmain, howner, haccepted]
    omega

/-- The threads are where they were, as are the ids of active slots. -/
theorem served_of_eq (h : Accounted l)
    (hretires : Retires l.state.owner l.state.host s'.host log)
    (hthreads : s'.threads = l.state.threads) (i : Fin MAX_CLIENTS)
    (hi : (s'.host.server.clients i).is_active = true) :
    ∃ h, recorded s' i = some h ∧ h.client = i ∧ h.pc ≠ .ended := by
  unfold recorded
  rw [hretires.threads i hi, hthreads]
  exact h.served i (hretires.shrinks.active i hi).1

/-- A handler has moved, and if it has ended then its slot is not active. -/
theorem served_of_set (h : Accounted l)
    (hretires : Retires l.state.owner l.state.host s'.host log) {t : Nat} {hd : Handler}
    (ht : l.state.threads[t]? = some hd) {pc : HandlerPc}
    (hthreads : s'.threads = l.state.threads.set t { hd with pc := pc })
    (hended : pc = .ended → (s'.host.server.clients hd.client).is_active = false)
    (i : Fin MAX_CLIENTS) (hi : (s'.host.server.clients i).is_active = true) :
    ∃ h, recorded s' i = some h ∧ h.client = i ∧ h.pc ≠ .ended := by
  rcases h.served i (hretires.shrinks.active i hi).1 with ⟨hd', hrec, hclient, hpc⟩
  unfold recorded at hrec ⊢
  rw [hretires.threads i hi, hthreads]
  split_ifs at hrec ⊢ with hzero
  by_cases heq : (l.state.host.server.clients i).thread_id - 1 = t
  · -- It is the handler of this slot that has moved.
    rw [heq] at hrec ⊢
    rw [ht, Option.some.injEq] at hrec
    rcases List.getElem?_eq_some_iff.mp ht with ⟨hlt, _⟩
    refine ⟨{ hd with pc := pc }, by rw [List.getElem?_set_self hlt], ?_, fun hp => ?_⟩
    · rw [hrec]
      exact hclient
    · have hgone := hended hp
      rw [hrec, hclient, hi] at hgone
      exact absurd hgone (by decide)
  · rw [List.getElem?_set_ne (Ne.symm heq)]
    exact ⟨hd', hrec, hclient, hpc⟩

/-- The accounts do not depend on how the record is written beside the table,
    and a move of the main thread with what it holds keeps them. -/
theorem accounted_main (h : Accounted l) (hclients : s'.host.server.clients
      = l.state.host.server.clients) (hconns : s'.host.conns = l.state.host.conns)
    (haccepted : s'.accepted = l.state.accepted) (howner : s'.owner = l.state.owner)
    (hthreads : s'.threads = l.state.threads) (hmain : s'.main.closable = l.state.main.closable)
    (hjoined : ∀ n, s'.main = .joining n → ∀ i : Fin MAX_CLIENTS, i.val < n →
      (l.state.host.server.clients i).is_active = false)
    (hreturned : s'.main = .returned → ∀ i, (l.state.host.server.clients i).is_active = false) :
    Accounted { state := s', closes := l.closes } := by
  have hrecorded : ∀ i, recorded s' i = recorded l.state i := by
    intro i
    unfold recorded
    rw [hclients, hthreads]
  refine ⟨⟨?_, ?_, ?_⟩, ?_, ?_, ?_, ?_, ?_, h.hits, fun c => ?_⟩
  · simp only [hclients, hconns]
    exact h.attached.connected
  · simp only [hclients]
    exact h.attached.apart
  · simp only [hclients]
    exact h.attached.detached
  · simp only [hclients, hconns, howner]
    exact h.slots
  · simp only [hclients, hconns, hmain]
    exact h.main
  · simp only [hclients, hrecorded]
    exact h.served
  · simp only [hclients]
    exact hjoined
  · simp only [hclients]
    exact hreturned
  · have hbefore := h.count c
    unfold Ledger.times mainHolds slotsHold at hbefore ⊢
    simp only [hclients, howner, hmain, haccepted]
    exact hbefore

end Accounts

section Steps

variable {l : Ledger} {s' : State}

/-- A handler that moves on without having ended. -/
theorem accounted_move (h : Accounted l) {t : Nat} {hd : Handler}
    (ht : l.state.threads[t]? = some hd) (pc : HandlerPc) (hpc : pc ≠ .ended)
    (hretires : Retires l.state.owner l.state.host s'.host [])
    (hthreads : s'.threads = l.state.threads.set t { hd with pc := pc })
    (hmain : s'.main = l.state.main) (haccepted : s'.accepted = l.state.accepted)
    (howner : s'.owner = l.state.owner) :
    Accounted { state := s', closes := l.closes ++ [] } :=
  accounted_retires h hretires hmain haccepted howner
    (served_of_set h hretires ht hthreads fun hended => absurd hended hpc)

theorem accounted_handle (h : Accounted l) {t : Nat} {hd : Handler}
    (ht : l.state.threads[t]? = some hd) (conn : Conn) (msg : Message) (fd : Int) (now : TimeT)
    (ok : Bool) (oks : Fin MAX_CLIENTS → Bool) :
    Accounted { state := handle l.state t hd conn msg fd now ok oks, closes := l.closes ++ [] } := by
  have hsame : Retires l.state.owner l.state.host l.state.host [] := retires_refl h.attached
  unfold handle
  simp only []
  split_ifs
  · exact accounted_move h ht _ (by simp) hsame rfl rfl rfl rfl
  · exact accounted_move h ht _ (by simp) hsame rfl rfl rfl rfl
  · exact accounted_move h ht _ (by simp) hsame rfl rfl rfl rfl
  · exact accounted_move h ht _ (by simp) hsame rfl rfl rfl rfl
  · cases find_client_by_socket l.state.host.server fd with
    | none => exact accounted_move h ht _ (by simp) hsame rfl rfl rfl rfl
    | some i =>
        exact accounted_move h ht .test (by simp)
          (retires_setSlot h.attached i (refreshed now _) rfl rfl fun _ => rfl) rfl rfl rfl rfl

/-- When a handler has been through its cleanup section its slot is not active,
    whichever client it has removed there. -/
theorem cleanup_inactive (h : Attached l.state.host) (client : Fin MAX_CLIENTS) :
    match find_client_by_socket l.state.host.server
        (l.state.host.server.clients client).socket_fd with
    | none => (l.state.host.server.clients client).is_active = false
    | some i => ((l.state.host.remove_client i).server.clients client).is_active = false := by
  by_cases hactive : (l.state.host.server.clients client).is_active = true
  · have hfd := (h.connected client hactive).1
    cases hfound : find_client_by_socket l.state.host.server
        (l.state.host.server.clients client).socket_fd with
    | none =>
        -- A search for the descriptor of an active slot finds a slot.
        unfold find_client_by_socket at hfound
        rw [if_neg (by omega), firstSlot_eq_none_iff] at hfound
        have hmiss := hfound client
        simp [hactive] at hmiss
    | some i =>
        rcases find_client_by_socket_some hfound with ⟨_, hi, hsame⟩
        rw [h.apart i client hi hactive hsame]
        simp only [Host.remove_client, Chat.remove_client, hactive, if_true]
        rw [setSlot_self]
        rfl
  · have hinactive := Bool.eq_false_iff.mpr hactive
    cases find_client_by_socket l.state.host.server
        (l.state.host.server.clients client).socket_fd with
    | none => exact hinactive
    | some i =>
        by_contra hc
        have hshrinks := shrinks_remove h i
        exact hactive (hshrinks.active client (by simpa using hc)).1

theorem accounted_handlerStep (h : Accounted l) {t : Nat} {hd : Handler}
    (ht : l.state.threads[t]? = some hd) {e : HandlerEvent}
    (hstep : handlerStep l.state t hd e = some s') :
    Accounted { state := s', closes := l.closes ++ closings l.state (.handler t e) } := by
  have hsame : Retires l.state.owner l.state.host l.state.host [] := retires_refl h.attached
  cases e with
  | test =>
      rw [(handlerStep_test hstep).2]
      refine accounted_move h ht _ ?_ hsame rfl rfl rfl rfl
      split_ifs <;> simp
  | call =>
      rw [(handlerStep_call hstep).2]
      refine accounted_move h ht _ ?_ hsame rfl rfl rfl rfl
      split_ifs <;> simp
  | recv =>
      rcases handlerStep_recv hstep with ⟨fd, buffer, _, ⟨_, rfl⟩ | ⟨c, _, rfl⟩⟩
      · exact accounted_move h ht _ (by simp) hsame rfl rfl rfl rfl
      · exact accounted_move h ht _ (by simp) hsame rfl rfl rfl rfl
  | recv_return r now =>
      rcases handlerStep_recv_return hstep with ⟨fd, buffer, c, reads, pc, _, _, hpc, rfl⟩
      refine accounted_move h ht pc ?_ hsame rfl rfl rfl rfl
      rcases hpc with ⟨buffer', rfl⟩ | rfl | ⟨buffer', msg, _, rfl⟩
      · simp
      · simp
      · simp
  | note now =>
      rcases handlerStep_note hstep with ⟨c, msg, _, rfl⟩
      exact accounted_move h ht (.switch c msg) (by simp)
        (retires_setSlot h.attached hd.client (refreshed now _) rfl rfl fun _ => rfl) rfl rfl rfl rfl
  | switch =>
      rcases handlerStep_switch hstep with ⟨c, msg, _, rfl⟩
      refine accounted_move h ht _ ?_ hsame rfl rfl rfl rfl
      split_ifs <;> simp
  | handle now ok oks =>
      rcases handlerStep_handle hstep with ⟨c, msg, fd, _, _, rfl⟩
      exact accounted_handle h ht c msg fd now ok oks
  | reply ok =>
      rcases handlerStep_reply hstep with ⟨c, msg, fd, reply, last, _, rfl⟩
      refine accounted_move h ht _ ?_ hsame rfl rfl rfl rfl
      split_ifs <;> simp
  | cleanup =>
      have hinactive := cleanup_inactive h.attached hd.client
      rcases handlerStep_cleanup hstep with ⟨hpc, hfree, _⟩
      simp only [handlerStep, hpc, hfree, Bool.false_eq_true, if_false] at hstep
      simp only [closings, ht]
      cases hfound : find_client_by_socket l.state.host.server
          (l.state.host.server.clients hd.client).socket_fd with
      | none =>
          rw [hfound] at hinactive hstep
          rw [← Option.some.inj hstep]
          exact accounted_retires h hsame rfl rfl rfl
            (served_of_set h hsame ht rfl fun _ => hinactive)
      | some i =>
          rw [hfound] at hinactive hstep
          rw [← Option.some.inj hstep]
          have hremoved : Retires l.state.owner l.state.host (l.state.host.remove_client i) _ :=
            retires_remove h.attached i
          exact accounted_retires h hremoved rfl rfl rfl
            (served_of_set h hremoved ht rfl fun _ => hinactive)

/-- The main thread moves on and holds what it held. -/
theorem accounted_turn (h : Accounted l) (main : Main)
    (hmain : main.closable = l.state.main.closable)
    (hjoined : ∀ n, main = .joining n → ∀ i : Fin MAX_CLIENTS, i.val < n →
      (l.state.host.server.clients i).is_active = false)
    (hreturned : main = .returned → ∀ i, (l.state.host.server.clients i).is_active = false) :
    Accounted { state := { l.state with main := main }, closes := l.closes } :=
  accounted_main h rfl rfl rfl rfl rfl hmain hjoined hreturned

/-- A connection is accepted on a descriptor that was not open. -/
theorem accounted_accept (h : Accounted l) (hmain : l.state.main.closable = none) {fd : Int}
    (addr : SockAddrIn) (hfd : l.state.host.conns fd = none) :
    Accounted
      { state := { l.state with
          host := { l.state.host with
            conns := Function.update l.state.host.conns fd (some l.state.accepted) }
          accepted := l.state.accepted + 1
          main := .configuring
            { client_socket := fd, client_addr := addr, conn := l.state.accepted } }
        closes := l.closes } := by
  -- An active slot has an open descriptor, so it has another one.
  have hother : ∀ i, (l.state.host.server.clients i).is_active = true →
      (l.state.host.server.clients i).socket_fd ≠ fd := by
    intro i hi heq
    have hopen := (h.attached.connected i hi).2
    rw [heq, hfd] at hopen
    exact absurd hopen (by decide)
  refine ⟨⟨fun i hi => ?_, h.attached.apart, h.attached.detached⟩, fun i hi => ?_, fun a ha => ?_,
    h.served, fun n hn => absurd hn (by simp), fun hr => absurd hr (by simp), h.hits, fun c => ?_⟩
  · simp only [Function.update_of_ne (hother i hi)]
    exact h.attached.connected i hi
  · simp only [Function.update_of_ne (hother i hi)]
    exact h.slots i hi
  · simp only [Main.closable, Main.unregistered, Option.some.injEq] at ha
    rw [← ha]
    exact ⟨Function.update_self _ _ _, hother⟩
  · have hbefore := h.count c
    unfold Ledger.times mainHolds at hbefore ⊢
    rw [hmain] at hbefore
    simp only [Main.closable, Main.unregistered] at hbefore ⊢
    rcases Nat.lt_trichotomy c l.state.accepted with hlt | heq | hgt
    · rw [if_pos hlt] at hbefore
      rw [if_neg (Nat.ne_of_gt hlt), if_pos (Nat.lt_succ_of_lt hlt)]
      exact hbefore
    · -- The new connection has had no holder before.
      rw [if_neg (Nat.not_lt.mpr (Nat.le_of_eq heq.symm))] at hbefore
      rw [if_pos heq.symm, if_pos (Nat.lt_succ_of_le (Nat.le_of_eq heq))]
      omega
    · rw [if_neg (Nat.not_lt.mpr (Nat.le_of_lt hgt))] at hbefore
      rw [if_neg (Nat.ne_of_lt hgt), if_neg (Nat.not_lt.mpr hgt)]
      exact hbefore

/-- The main thread closes the descriptor it holds. -/
theorem accounted_close (h : Accounted l) {a : Accepted} (hmain : l.state.main = .closing a) :
    Accounted
      { state := { l.state with
          host := { l.state.host with
            conns := closeAll l.state.host.conns [a.client_socket] }
          main := .looping }
        closes := l.closes ++ [{ conn := a.conn, hit := l.state.host.conns a.client_socket }] } := by
  have hclosable : l.state.main.closable = some a := by rw [hmain]; rfl
  rcases h.main a hclosable with ⟨hconn, hother⟩
  have hopen : ∀ i, (l.state.host.server.clients i).is_active = true →
      closeAll l.state.host.conns [a.client_socket] (l.state.host.server.clients i).socket_fd
        = l.state.host.conns (l.state.host.server.clients i).socket_fd := by
    intro i hi
    simp [closeAll, hother i hi]
  refine ⟨⟨fun i hi => ?_, h.attached.apart, h.attached.detached⟩, fun i hi => ?_,
    fun b hb => absurd hb (by simp [Main.closable, Main.unregistered]), h.served,
    fun n hn => absurd hn (by simp), fun hr => absurd hr (by simp), fun p hp => ?_, fun c => ?_⟩
  · simp only [hopen i hi]
    exact h.attached.connected i hi
  · simp only [hopen i hi]
    exact h.slots i hi
  · rcases List.mem_append.mp hp with hp | hp
    · exact h.hits p hp
    · rw [List.mem_singleton.mp hp]
      exact hconn
  · have hbefore := h.count c
    unfold Ledger.times mainHolds at hbefore ⊢
    rw [hclosable] at hbefore
    simp only [Main.closable, Main.unregistered, List.map_append, List.map_cons, List.map_nil,
      List.count_append, List.count_singleton, beq_iff_eq] at hbefore ⊢
    omega

/-- The main thread gives the descriptor it holds to a free slot, and the slot a
    new handler. -/
theorem accounted_enrolled (h : Accounted l) {a : Accepted}
    (hmain : l.state.main.closable = some a) (client_id : List UInt8) (now : TimeT)
    {i : Fin MAX_CLIENTS} (hfd : 0 ≤ a.client_socket)
    (hfree : (l.state.host.server.clients i).is_active = false)
    (registered : List (Conn × List UInt8)) :
    Accounted
      { state := { l.state with
          host := { l.state.host with
            server := enrolled l.state.host.server a client_id now i
              (l.state.threads.length + 1) }
          threads := l.state.threads ++ [{ client := i, conn := a.conn, pc := .test }]
          owner := Function.update l.state.owner i a.conn
          registered := registered
          main := .welcoming a }
        closes := l.closes } := by
  rcases h.main a hmain with ⟨hconn, hother⟩
  have hself : (enrolled l.state.host.server a client_id now i
      (l.state.threads.length + 1)).clients i =
        { filled (l.state.host.server.clients i) a.client_socket a.client_addr client_id now with
          thread_id := l.state.threads.length + 1 } := setSlot_self _ _ _
  have hrest : ∀ j, j ≠ i → (enrolled l.state.host.server a client_id now i
      (l.state.threads.length + 1)).clients j = l.state.host.server.clients j :=
    fun j hj => setSlot_other _ _ hj
  refine ⟨⟨fun j hj => ?_, fun j k hj hk hsame => ?_, fun j hj => ?_⟩, fun j hj => ?_,
    fun b hb => absurd hb (by simp [Main.closable, Main.unregistered]), fun j hj => ?_,
    fun n hn => absurd hn (by simp), fun hr => absurd hr (by simp), h.hits, fun c => ?_⟩
  · by_cases hji : j = i
    · simp only [hji, hself, filled, hconn]
      exact ⟨hfd, rfl⟩
    · simp only [hrest j hji] at hj ⊢
      exact h.attached.connected j hj
  · -- The descriptor of the new client is in no other active slot.
    by_cases hji : j = i
    · by_cases hki : k = i
      · rw [hji, hki]
      · simp only [hji, hself, hrest k hki, filled] at hk hsame
        exact absurd hsame.symm (hother k hk)
    · by_cases hki : k = i
      · simp only [hki, hself, hrest j hji, filled] at hj hsame
        exact absurd hsame (hother j hj)
      · simp only [hrest j hji, hrest k hki] at hj hk hsame
        exact h.attached.apart j k hj hk hsame
  · by_cases hji : j = i
    · simp only [hji, hself, filled] at hj
      exact absurd hj (by decide)
    · simp only [hrest j hji] at hj ⊢
      exact h.attached.detached j hj
  · by_cases hji : j = i
    · simp only [hji, hself, filled, Function.update_self, hconn]
    · simp only [hrest j hji, Function.update_of_ne hji] at hj ⊢
      exact h.slots j hj
  · unfold recorded
    by_cases hji : j = i
    · -- The handler's thread id is the number of threads there are now.
      simp only [hji, hself]
      exact ⟨{ client := i, conn := a.conn, pc := .test }, by simp, rfl, by simp⟩
    · simp only [hrest j hji] at hj ⊢
      rcases h.served j hj with ⟨hd, hrec, hclient, hpc⟩
      unfold recorded at hrec
      split_ifs at hrec ⊢ with hzero
      rcases List.getElem?_eq_some_iff.mp hrec with ⟨hlt, _⟩
      exact ⟨hd, by rw [List.getElem?_append_left hlt, hrec], hclient, hpc⟩
  · have hbefore := h.count c
    unfold Ledger.times mainHolds slotsHold at hbefore ⊢
    rw [hmain] at hbefore
    have htable : (fun j => (((enrolled l.state.host.server a client_id now i
        (l.state.threads.length + 1)).clients j).is_active,
          Function.update l.state.owner i a.conn j))
        = Function.update (fun j => ((l.state.host.server.clients j).is_active, l.state.owner j)) i
            (true, a.conn) := by
      funext j
      by_cases hji : j = i
      · rw [hji, hself, Function.update_self, Function.update_self]
        rfl
      · rw [hrest j hji, Function.update_of_ne hji, Function.update_of_ne hji]
    have hsum := total_update (holding c)
      (fun j => ((l.state.host.server.clients j).is_active, l.state.owner j)) i (true, a.conn)
    have hnew : holding c (true, a.conn) = if a.conn = c then 1 else 0 := by simp [holding]
    have hold : holding c ((l.state.host.server.clients i).is_active, l.state.owner i) = 0 := by
      simp [holding, hfree]
    rw [hnew, hold] at hsum
    simp only [Main.closable, Main.unregistered] at hbefore ⊢
    rw [htable]
    omega

/-- What a registration comes to, in terms of the slot it would take. -/
theorem register_placed (s : State) (a : Accepted) (id_msg : Message) (now : TimeT)
    (created : Bool) :
    (placed s.host.server a id_msg now = none ∧
      ∃ err_msg, register s a id_msg now created = { s with main := .refusing a err_msg }) ∨
    (placed s.host.server a id_msg now).isSome = true ∧
      ∃ i, 0 ≤ a.client_socket ∧ (s.host.server.clients i).is_active = false ∧
        (created = true → register s a id_msg now created =
          { s with
            host := { s.host with
              server := enrolled s.host.server a id_msg.sender_id.bytes now i
                (s.threads.length + 1) }
            threads := s.threads ++ [{ client := i, conn := a.conn, pc := .test }]
            owner := Function.update s.owner i a.conn
            registered := s.registered ++ [(a.conn, id_msg.sender_id.str)]
            main := .welcoming a }) := by
  unfold register placed
  by_cases hvalid : validate_client_id id_msg.sender_id.bytes = true
  · cases hfound : find_client_by_id s.host.server id_msg.sender_id.bytes with
    | some j => exact Or.inl ⟨by simp [hvalid], _, by simp [hvalid]; rfl⟩
    | none =>
        cases hadd : add_client s.host.server a.client_socket a.client_addr
            id_msg.sender_id.bytes now with
        | mk server o =>
            cases o with
            | none => exact Or.inl ⟨by simp [hvalid], _, by simp [hvalid]; rfl⟩
            | some i =>
                rcases add_client_some hadd with ⟨hfd, hfill⟩
                rcases fillSlot_some hfill with ⟨hfree, rfl⟩
                have hinactive : (s.host.server.clients i).is_active = false := by
                  simpa only [Bool.not_eq_true'] using firstSlot_some hfree
                refine Or.inr ⟨by simp [hvalid], i, hfd, hinactive, fun hcreated => ?_⟩
                simp [hvalid, hcreated, enrolled, Server.setSlot, filled]
  · exact Or.inl ⟨by simp [hvalid], _, by simp [hvalid]; rfl⟩

theorem accounted_register (h : Accounted l) {a : Accepted} {id_msg : Message}
    (hmain : l.state.main = .registering a id_msg) (now : TimeT) (created : Bool)
    (hok : ThreadFound l (.main (.register now created))) :
    Accounted
      { state := register l.state a id_msg now created
        closes := l.closes ++ closings l.state (.main (.register now created)) } := by
  have hclosable : l.state.main.closable = some a := by rw [hmain]; rfl
  rcases register_placed l.state a id_msg now created with
    ⟨hnone, err_msg, hs'⟩ | ⟨hsome, i, hfd, hfree, hs'⟩
  · have hcloses : closings l.state (.main (.register now created)) = [] := by
      cases created with
      | true => rfl
      | false => simp only [closings, hmain, hnone]
    rw [hcloses, List.append_nil, hs']
    exact accounted_turn h _ hclosable.symm (fun n hn => absurd hn (by simp))
      fun hr => absurd hr (by simp)
  · cases created with
    | true =>
        rw [hs' rfl]
        have henrolled := accounted_enrolled h hclosable id_msg.sender_id.bytes now hfd hfree
          (l.state.registered ++ [(a.conn, id_msg.sender_id.str)])
        rw [← List.append_nil l.closes] at henrolled
        exact henrolled
    | false =>
        -- This is the step that closes a descriptor and keeps it.
        have hfails : threadFails l.state (.main (.register now false)) = true := by
          simp only [threadFails, hmain]
          exact hsome
        exact absurd hfails (Bool.eq_false_iff.mp hok)

/-- The thread id of a slot that is not active can be cleared. -/
theorem accounted_unrecord (h : Accounted l) {i : Fin MAX_CLIENTS}
    (hfree : (l.state.host.server.clients i).is_active = false) :
    Accounted
      { state := l.state.setServer (l.state.host.server.setSlot i
          { l.state.host.server.clients i with thread_id := 0 })
        closes := l.closes } := by
  have hretires : Retires l.state.owner l.state.host _ [] :=
    retires_setSlot h.attached i { l.state.host.server.clients i with thread_id := 0 } rfl rfl
      fun hactive => absurd hactive (by simp [hfree])
  have hcleared : Accounted { state := l.state.setServer _, closes := l.closes ++ [] } :=
    accounted_retires h hretires rfl rfl rfl (served_of_eq h hretires rfl)
  rw [List.append_nil] at hcleared
  exact hcleared

/-- A slot that `server_cleanup` goes past is inactive: the handler of an active
    slot has not ended. -/
theorem accounted_join (h : Accounted l) (hstep : mainStep l.state .join = some s') :
    Accounted { state := s', closes := l.closes } := by
  cases hmain : l.state.main with
  | joining n =>
      simp only [mainStep, hmain] at hstep
      have hclosable : l.state.main.closable = none := by rw [hmain]; rfl
      -- Every slot below the next one is known to be inactive.
      have hnext : ∀ hn : n < MAX_CLIENTS,
          (l.state.host.server.clients ⟨n, hn⟩).is_active = false →
          ∀ m, Main.joining (n + 1) = .joining m → ∀ i : Fin MAX_CLIENTS, i.val < m →
            (l.state.host.server.clients i).is_active = false := by
        intro hn hfree m hm i hi
        cases hm
        rcases Nat.lt_succ_iff_lt_or_eq.mp hi with hlt | heq
        · exact h.joined n hmain i hlt
        · rw [show i = ⟨n, hn⟩ from Fin.ext heq]
          exact hfree
      split_ifs at hstep with hn hid
      · rw [← Option.some.inj hstep]
        refine accounted_main h rfl rfl rfl rfl rfl hclosable.symm (hnext hn ?_)
          fun hr => absurd hr (by simp)
        by_contra hactive
        rcases h.served ⟨n, hn⟩ (by simpa using hactive) with ⟨hd, hrec, _⟩
        simp [recorded, hid] at hrec
      · split at hstep
        · rename_i hthread
          rw [← Option.some.inj hstep]
          have hfree : (l.state.host.server.clients ⟨n, hn⟩).is_active = false := by
            by_contra hactive
            rcases h.served ⟨n, hn⟩ (by simpa using hactive) with ⟨hd, hrec, _, hpc⟩
            unfold recorded at hrec
            rw [if_neg hid, hthread, Option.some.injEq] at hrec
            exact hpc (by rw [← hrec])
          have hcleared := accounted_unrecord h hfree
          have hmoved := accounted_turn hcleared (.joining (n + 1)) hclosable.symm
            (fun m hm i hi => ?_) fun hr => absurd hr (by simp)
          · exact hmoved
          · change ((l.state.host.server.setSlot ⟨n, hn⟩ _).clients i).is_active = false
            by_cases hin : i = ⟨n, hn⟩
            · rw [hin, setSlot_self]
              exact hfree
            · rw [setSlot_other _ _ hin]
              exact hnext hn hfree m hm i hi
        · exact absurd hstep (by simp)
      · rw [← Option.some.inj hstep]
        refine accounted_main h rfl rfl rfl rfl rfl hclosable.symm
          (fun m hm => absurd hm (by simp)) fun _ i => ?_
        exact h.joined n hmain i (by have := i.isLt; omega)
  | _ => simp [mainStep, hmain] at hstep

/-- A step that closes nothing. -/
theorem accounted_quiet {e : Event} (h : Accounted { state := s', closes := l.closes })
    (hcloses : closings l.state e = []) :
    Accounted { state := s', closes := l.closes ++ closings l.state e } := by
  rw [hcloses, List.append_nil]
  exact h

theorem accounted_mainStep (h : Accounted l) {e : MainEvent}
    (hok : ThreadFound l (.main e)) (hstep : mainStep l.state e = some s') :
    Accounted { state := s', closes := l.closes ++ closings l.state (.main e) } := by
  cases e with
  | start created =>
      rcases mainStep_start hstep with ⟨hmain, rfl⟩
      have hclosable : l.state.main.closable = none := by rw [hmain]; rfl
      refine accounted_quiet ?_ rfl
      cases created with
      | true => exact accounted_main h rfl rfl rfl rfl rfl hclosable.symm (by simp) (by simp)
      | false => exact accounted_main h rfl rfl rfl rfl rfl hclosable.symm (by simp) (by simp)
  | test =>
      rcases mainStep_test hstep with ⟨hmain, rfl⟩
      have hclosable : l.state.main.closable = none := by rw [hmain]; rfl
      refine accounted_quiet ?_ rfl
      cases l.state.host.server.is_running with
      | true => exact accounted_turn h _ hclosable.symm (by simp) (by simp)
      | false => exact accounted_turn h _ hclosable.symm (by simp) (by simp)
  | accept r =>
      rcases mainStep_accept hstep with ⟨hmain, ⟨_, rfl⟩ | ⟨fd, addr, _, _, hfd, rfl⟩⟩
      · have hclosable : l.state.main.closable = none := by rw [hmain]; rfl
        refine accounted_quiet ?_ rfl
        exact accounted_turn h _ hclosable.symm (by simp) (by simp)
      · have hclosable : l.state.main.closable = none := by rw [hmain]; rfl
        refine accounted_quiet ?_ rfl
        exact accounted_accept h hclosable addr hfd
  | configure ok =>
      rcases mainStep_configure hstep with ⟨a, hmain, rfl⟩
      have hclosable : l.state.main.closable = some a := by rw [hmain]; rfl
      refine accounted_quiet ?_ rfl
      cases ok with
      | true => exact accounted_turn h _ hclosable.symm (by simp) (by simp)
      | false => exact accounted_turn h _ hclosable.symm (by simp) (by simp)
  | identify r now =>
      rcases mainStep_identify hstep with ⟨a, hmain, rfl | ⟨id_msg, _, rfl⟩⟩
      · have hclosable : l.state.main.closable = some a := by rw [hmain]; rfl
        refine accounted_quiet ?_ rfl
        exact accounted_turn h _ hclosable.symm (by simp) (by simp)
      · have hclosable : l.state.main.closable = some a := by rw [hmain]; rfl
        refine accounted_quiet ?_ rfl
        exact accounted_turn h _ hclosable.symm (by simp) (by simp)
  | register now created =>
      rcases mainStep_register hstep with ⟨a, id_msg, hmain, rfl⟩
      exact accounted_register h hmain now created hok
  | refuse ok =>
      rcases mainStep_refuse hstep with ⟨a, err_msg, hmain, rfl⟩
      have hclosable : l.state.main.closable = some a := by rw [hmain]; rfl
      refine accounted_quiet ?_ rfl
      exact accounted_main h rfl rfl rfl rfl rfl hclosable.symm (by simp) (by simp)
  | close =>
      rcases mainStep_close hstep with ⟨a, hmain, rfl⟩
      simp only [closings, hmain]
      exact accounted_close h hmain
  | welcome now ok =>
      rcases mainStep_welcome hstep with ⟨a, message, hmain, rfl⟩
      have hclosable : l.state.main.closable = none := by rw [hmain]; rfl
      refine accounted_quiet ?_ rfl
      exact accounted_main h rfl rfl rfl rfl rfl hclosable.symm (by simp) (by simp)
  | lock =>
      rcases mainStep_lock hstep with ⟨hmain, rfl⟩
      have hclosable : l.state.main.closable = none := by rw [hmain]; rfl
      refine accounted_quiet ?_ rfl
      refine accounted_turn h _ hclosable.symm (fun n hn i hi => ?_) fun hr => absurd hr (by simp)
      cases hn
      exact absurd hi (Nat.not_lt_zero _)
  | join =>
      refine accounted_quiet ?_ rfl
      exact accounted_join h hstep

theorem accounted_keepaliveStep (h : Accounted l) {e : KeepaliveEvent}
    (hstep : keepaliveStep l.state e = some s') :
    Accounted { state := s', closes := l.closes ++ closings l.state (.keepalive e) } := by
  cases e with
  | test =>
      have hsame : Retires l.state.owner l.state.host l.state.host [] := retires_refl h.attached
      rw [keepaliveStep_test hstep]
      exact accounted_retires h hsame rfl rfl rfl (served_of_eq h hsame rfl)
  | sweep input =>
      have hsweep : Retires l.state.owner l.state.host _ _ := retires_sweep input h.attached
      rcases keepaliveStep_sweep hstep with ⟨_, rfl⟩
      rw [closings]
      generalize sweepCloses l.state.owner input l.state.host = log at hsweep ⊢
      generalize sweep input l.state.host = result at hsweep ⊢
      exact accounted_retires h hsweep rfl rfl rfl (served_of_eq h hsweep rfl)

theorem accounted_stopStep (h : Accounted l) {e : StopEvent}
    (hstep : stopStep l.state e = some s') :
    Accounted { state := s', closes := l.closes ++ closings l.state (.stop e) } := by
  have hsame : Retires l.state.owner l.state.host l.state.host [] := retires_refl h.attached
  cases e with
  | signal =>
      rcases stopStep_signal hstep with rfl | rfl
      · exact accounted_retires h hsame rfl rfl rfl (served_of_eq h hsame rfl)
      · have hrun : Retires l.state.owner l.state.host _ [] :=
          retires_same (shrinks_clients h.attached
            { l.state.host.server with is_running := false } rfl) (fun _ => rfl) fun _ _ => rfl
        exact accounted_retires h hrun rfl rfl rfl (served_of_eq h hrun rfl)
  | close =>
      have hsocket : Retires l.state.owner l.state.host _ [] :=
        retires_same (shrinks_clients h.attached
          { l.state.host.server with server_socket := -1 } rfl) (fun _ => rfl) fun _ _ => rfl
      rw [stopStep_close hstep]
      exact accounted_retires h hsocket rfl rfl rfl (served_of_eq h hsocket rfl)
  | notify now oks =>
      have hstop : Retires l.state.owner l.state.host _ _ := retires_stopAll now oks h.attached
      rcases stopStep_notify hstep with ⟨_, rfl⟩
      rw [closings]
      generalize stopCloses l.state.owner now oks l.state.host = log at hstop ⊢
      generalize stopAll now oks l.state.host = result at hstop ⊢
      exact accounted_retires h hstop rfl rfl rfl (served_of_eq h hstop rfl)
  | join =>
      rw [stopStep_join hstep]
      exact accounted_retires h hsame rfl rfl rfl (served_of_eq h hsame rfl)

/-- Every step at which no thread is missing keeps the accounts. -/
theorem accounted_step (h : Accounted l) {l' : Ledger} {e : Event} (hok : ThreadFound l e)
    (hstep : ledgerStep l e = some l') : Accounted l' := by
  rcases Option.map_eq_some_iff.mp hstep with ⟨s', hs', rfl⟩
  cases e with
  | handler t e =>
      rcases Option.bind_eq_some_iff.mp hs' with ⟨hd, ht, hmove⟩
      exact accounted_handlerStep h ht hmove
  | main e => exact accounted_mainStep h hok hs'
  | keepalive e => exact accounted_keepaliveStep h hs'
  | stop e => exact accounted_stopStep h hs'

theorem accounted_start {port server_socket : Int} {s : State}
    (h : start port server_socket = some s) : Accounted { state := s, closes := [] } := by
  rcases Option.map_eq_some_iff.mp h with ⟨server, hinit, rfl⟩
  have hslots : ∀ i, (server.clients i).is_active = false ∧ (server.clients i).socket_fd = -1 := by
    rw [server_init_some hinit]
    exact fun i => ⟨rfl, rfl⟩
  have hinactive : ∀ i, ¬ (server.clients i).is_active = true := fun i => by simp [(hslots i).1]
  refine ⟨⟨fun i hi => absurd hi (hinactive i), fun i j hi => absurd hi (hinactive i),
      fun i _ => (hslots i).2⟩, fun i hi => absurd hi (hinactive i),
    fun a ha => absurd ha (by simp [Main.closable, Main.unregistered]),
    fun i hi => absurd hi (hinactive i), fun n hn => absurd hn (by simp),
    fun hr => absurd hr (by simp), fun p hp => absurd hp List.not_mem_nil, fun c => ?_⟩
  have hnone : slotsHold (fun _ => 0) server c = 0 :=
    total_eq_zero _ fun i => by simp [holding, (hslots i).1]
  simp only [Ledger.times, List.map_nil, List.count_nil, mainHolds, Main.closable,
    Main.unregistered, hnone, Nat.not_lt_zero, if_false]

/-- What the accounts say about the calls of `close`. -/
theorem settled_of_accounted (h : Accounted l) : Settled l := by
  refine ⟨h.hits, fun c => ?_, fun c hc hnone => ?_, fun hr c hc => ?_⟩
  · have hcount := h.count c
    split_ifs at hcount <;> omega
  · have hcount := h.count c
    rw [hnone, if_pos hc, Nat.zero_add] at hcount
    -- One of the two holds the connection.
    by_cases hmain : mainHolds l.state.main c = 0
    · rw [hmain, Nat.zero_add] at hcount
      have hpos : 0 < slotsHold l.state.owner l.state.host.server c := by
        rw [hcount]
        exact Nat.one_pos
      rcases exists_of_total_pos (holding c) hpos with ⟨i, hi⟩
      unfold holding at hi
      split_ifs at hi with hslot
      · exact Or.inr ⟨i, hslot.1, hslot.2⟩
      · exact absurd hi (Nat.lt_irrefl 0)
    · unfold mainHolds at hmain
      cases hclosable : l.state.main.closable with
      | none => simp [hclosable] at hmain
      | some a =>
          rw [hclosable] at hmain
          by_cases ha : a.conn = c
          · exact Or.inl ⟨a, rfl, ha⟩
          · exact absurd (if_neg ha) hmain
  · have hcount := h.count c
    have hslots : slotsHold l.state.owner l.state.host.server c = 0 :=
      total_eq_zero _ fun i => by simp [holding, h.returned hr i]
    rw [hslots, if_pos hc, hr] at hcount
    exact hcount

/-- In every run of the server in which `pthread_create` does not fail for a
    client put into a slot, every call of `close` for a descriptor of `accept`
    closes the connection it is meant for, there is never a second one for it,
    and at the end there has been one for every connection. -/
theorem closed_once (port server_socket : Int) (s : State) (l : Ledger)
    (hstart : start port server_socket = some s)
    (hreach : Reaches ledgerStep ThreadFound { state := s, closes := [] } l) : Settled l :=
  settled_of_accounted (hreach.invariant (accounted_start hstart)
    fun _ _ _ hv hok hstep => accounted_step hv hok hstep)

end Steps

/-- A client is connected, and a second one that comes under its name is
    refused. Then the server is stopped and cleaned up. -/
def refusedAndStopped : List Event :=
  [.main (.start true)] ++ connect 4 "ann" 0 ++ awaits 0 ++ registers 5 "ann" 0 ++
    [.main (.refuse true), .main .close, .main .test] ++ stopping ++
    [.handler 0 (.recv_return .eof 0), .handler 0 .cleanup, .main .lock] ++
    List.replicate (MAX_CLIENTS + 1) (.main .join)

theorem closed_once_run :
    ∃ s l, start 5000 3 = some s ∧
      run ledgerStep { state := s, closes := [] } refusedAndStopped = some l ∧
      l.state.main = .returned ∧ l.state.accepted = 2 ∧
      l.closes = [{ conn := 1, hit := some 1 }, { conn := 0, hit := some 0 }] ∧ Settled l := by
  have hend : ((start 5000 3).bind fun s =>
      (run ledgerStep { state := s, closes := [] } refusedAndStopped).map fun l =>
        (decide (Meets ledgerStep ThreadFound { state := s, closes := [] } refusedAndStopped),
          l.state.main, l.state.accepted, l.closes))
        = some (true, .returned, 2, [{ conn := 1, hit := some 1 }, { conn := 0, hit := some 0 }]) := by
    decide +kernel
  rcases Option.bind_eq_some_iff.mp hend with ⟨s, hstart, hmap⟩
  rcases Option.map_eq_some_iff.mp hmap with ⟨l, hrun, hresult⟩
  rcases Prod.mk.inj hresult with ⟨hok, hrest⟩
  rcases Prod.mk.inj hrest with ⟨hmain, hrest⟩
  rcases Prod.mk.inj hrest with ⟨haccepted, hcloses⟩
  exact ⟨s, l, hstart, hrun, hmain, haccepted, hcloses,
    closed_once 5000 3 s l hstart (reaches_of_run hrun (of_decide_eq_true hok))⟩

/-- A client has been put into a slot, and there is no thread for it. -/
def threadless : List Event :=
  [.main (.start true), .main .test,
    .main (.accept (some (4, { sin_addr := 1, sin_port := 2 }))), .main (.configure true),
    .main (.identify (some (create_message .MSG_LIST (bytes "ann") [] [] 0)) 0),
    .main (.register 0 false), .main .close]

/-- Its descriptor is closed twice. By the second call the number stands for
    nothing any more. -/
theorem closed_twice :
    ¬ ∀ s l, start 5000 3 = some s → Reachable ledgerStep { state := s, closes := [] } l →
      Settled l := by
  intro hclaim
  have hend : ((start 5000 3).bind fun s =>
      run ledgerStep { state := s, closes := [] } threadless |>.map fun l => (l.closes, s.accepted))
        = some ([{ conn := 0, hit := some 0 }, { conn := 0, hit := none }], 0) := by
    decide +kernel
  rcases Option.bind_eq_some_iff.mp hend with ⟨s, hstart, hmap⟩
  rcases Option.map_eq_some_iff.mp hmap with ⟨l, hrun, hresult⟩
  have htwice : l.times 0 = 2 := by
    rw [Ledger.times, (Prod.mk.inj hresult).1]
    rfl
  have honce := (hclaim s l hstart (reachable_of_run hrun)).once 0
  omega

end Lab10

end OsLabs
