import OsLabs.Lab11.Descriptor
import OsLabs.Lab11.Headcount
import OsLabs.Lab11.Signals

/-!
# Stopping the UDP Server

`server_stop` closes the descriptor the server receives on, and then goes
through the table, tells every client over the descriptor in its slot, and
closes that one. In lab11 there is one descriptor only, of which every slot has
the number. So by the time the first client is told the descriptor is closed,
nobody hears anything, and the number is passed to `close` once more for every
client. It goes well for an empty table alone.

The function is written with a log of its calls of `sendto` and `close`. Next
to each message stands whether the descriptor was open at that moment.

## Main definitions

* `Action`: A call that is logged.
* `server_stop`: The function, up to joining the keepalive thread.
* `Owns`: The descriptors in the server's record.
* `StopsEveryone`: Everybody is told, everything is closed once, and nobody is
  left.

## Theorems

* `server_stop_host`: The log does not change what the loop does.
* `unheard_server_stop`: Every message goes to a closed descriptor.
* `stopsEveryone_iff`: When stopping goes well.
* `stop_tells_nobody`: A server with one client.
-/

namespace OsLabs

namespace Lab11

open Chat

/-- A call of `sendto`, with the state of its descriptor, or of `close`. -/
inductive Action
  | send (fd : Int) (is_open : Bool) (d : Datagram)
  | close (fd : Int)

/-- What is sent whereto, and whether the descriptor is open. -/
def Action.notice : Action → Option (Bool × BitVec 32 × SockAddrIn)
  | .send _ is_open d => some (is_open, d.message.type, d.dest)
  | .close _ => none

/-- The descriptor passed to `close`. -/
def Action.closed : Action → Option Int
  | .send _ _ _ => none
  | .close fd => some fd

/-- The calls the loop of `server_stop` makes for one slot. -/
def stopActions (now : TimeT) (results : Fin MAX_CLIENTS → Option Nat) (host : Host)
    (i : Fin MAX_CLIENTS) : List Action :=
  let c := host.server.clients i
  if c.is_active then
    [.send c.socket_fd (host.open_fds c.socket_fd) (send_message_protocol host.open_fds c.socket_fd
        (create_message .MSG_STOP serverName c.client_id.bytes (bytes "Server shutting down") now)
        c.addr (results i)),
      .close c.socket_fd]
  else []

/-- The body of the loop, with the log. -/
def stopLogged (now : TimeT) (results : Fin MAX_CLIENTS → Option Nat) (acc : Host × List Action)
    (i : Fin MAX_CLIENTS) : Host × List Action :=
  ((stopSlot now results (acc.1, []) i).1, acc.2 ++ stopActions now results acc.1 i)

/-- The server's record once `is_running` is cleared. -/
def Host.cleared (host : Host) : Host :=
  { host with server := { host.server with is_running := false } }

/-- `server_stop`: the host afterwards, and the calls made on the way. What
    remains after the loop is to join the keepalive thread. -/
def server_stop (now : TimeT) (results : Fin MAX_CLIENTS → Option Nat) (host : Host) :
    Host × List Action :=
  if !host.server.is_running then (host, [])
  else
    (List.finRange MAX_CLIENTS).foldl (stopLogged now results) (host.cleared.closeSocket,
      if host.server.server_socket = -1 then [] else [.close host.server.server_socket])

/-- The descriptor is the server's own or that of a client. -/
def Owns (server : Server) (fd : Int) : Prop :=
  server.server_socket = fd ∨
    ∃ i, (server.clients i).is_active = true ∧ (server.clients i).socket_fd = fd

/-- Every client is sent one `MSG_STOP` at its address while the descriptor is
    open, every open descriptor of the server is closed once, and no client is
    left. -/
structure StopsEveryone (host after : Host) (log : List Action) : Prop where
  told : List.Perm (log.filterMap Action.notice)
    (((List.finRange MAX_CLIENTS).filter fun i => (host.server.clients i).is_active).map fun i =>
      (true, MessageType.MSG_STOP.code, (host.server.clients i).addr))
  closed : ∀ fd, Owns host.server fd → host.open_fds fd = true →
    (log.filterMap Action.closed).count fd = 1
  empty : ∀ i, (after.server.clients i).is_active = false

section Loop

variable {now : TimeT} {results : Fin MAX_CLIENTS → Option Nat} {host : Host} {fd : Int}

/-- The log does not change what the loop does. -/
theorem server_stop_host (hrunning : host.server.is_running = true) :
    (server_stop now results host).1 = (stopAll now results host.cleared.closeSocket).1 := by
  rw [server_stop, if_neg (by rw [hrunning]; decide), stopAll]
  -- The two loops have the same hosts, whatever they have logged and sent so far.
  generalize (if host.server.server_socket = -1 then _ else _ : List Action) = log
  have hslot : ∀ (acc : Host) (sent : List Datagram) (i : Fin MAX_CLIENTS),
      (stopSlot now results (acc, sent) i).1 = (stopSlot now results (acc, []) i).1 := by
    intro acc sent i
    unfold stopSlot
    simp only []
    split_ifs <;> rfl
  have hfold : ∀ (l : List (Fin MAX_CLIENTS)) (acc : Host) (log : List Action)
      (sent : List Datagram), (l.foldl (stopLogged now results) (acc, log)).1
        = (l.foldl (stopSlot now results) (acc, sent)).1 := by
    intro l
    induction l with
    | nil => intro acc log sent; rfl
    | cons i l ih =>
        intro acc log sent
        rw [List.foldl_cons, List.foldl_cons, stopLogged, ← hslot acc sent i]
        exact ih _ _ (stopSlot now results (acc, sent) i).2
  exact hfold _ _ _ _

/-- Nobody is left in any case. -/
theorem server_stop_empty (hrunning : host.server.is_running = true) (i : Fin MAX_CLIENTS) :
    ((server_stop now results host).1.server.clients i).is_active = false := by
  rw [server_stop_host hrunning]
  exact (stopAll_clears now results host.cleared.closeSocket).2 i

/-- Closing the server's descriptor leaves the table alone. -/
theorem closeSocket_clients (host : Host) :
    host.cleared.closeSocket.server.clients = host.server.clients := by
  unfold Host.closeSocket
  split_ifs <;> rfl

/-- A slot that is not active is passed over. -/
theorem stopLogged_inactive {acc : Host × List Action} {i : Fin MAX_CLIENTS}
    (hinactive : (acc.1.server.clients i).is_active = false) :
    stopLogged now results acc i = acc := by
  simp only [stopLogged, stopSlot, stopActions, hinactive, if_false, List.append_nil,
    Bool.false_eq_true]

/-- All messages logged so far have found their descriptor closed. -/
def Unheard (log : List Action) : Prop :=
  ∀ n ∈ log.filterMap Action.notice, n.1 = false

/-- Once the descriptor is closed it stays so, and no slot has another. -/
structure Closed (fd : Int) (acc : Host × List Action) : Prop where
  shut : acc.1.open_fds fd = false
  slots : ∀ i, (acc.1.server.clients i).is_active = true → (acc.1.server.clients i).socket_fd = fd
  unheard : Unheard acc.2

theorem closed_stopLogged (acc : Host × List Action) (i : Fin MAX_CLIENTS) (h : Closed fd acc) :
    Closed fd (stopLogged now results acc i) := by
  by_cases hactive : (acc.1.server.clients i).is_active = true
  · -- The slot has the descriptor that is closed already.
    have hfd := h.slots i hactive
    refine ⟨?_, ?_, ?_⟩
    · simp only [stopLogged, stopSlot, hactive, if_true, closeAll, h.shut, Bool.false_and]
    · intro j hj
      simp only [stopLogged, stopSlot, hactive, if_true] at hj ⊢
      by_cases hji : j = i
      · -- The slot visited is not active any more.
        rw [hji, setSlot_self] at hj
        cases hj
      · rw [setSlot_other _ _ hji] at hj ⊢
        exact h.slots j hj
    · intro n hn
      simp only [stopLogged, stopActions, hactive, if_true, List.filterMap_append] at hn
      rcases List.mem_append.mp hn with hn | hn
      · exact h.unheard n hn
      · simp only [Action.notice, List.filterMap_cons, List.filterMap_nil, List.mem_singleton] at hn
        rw [hn, hfd]
        exact h.shut
  · rw [stopLogged_inactive (Bool.eq_false_iff.mpr hactive)]
    exact h

/-- Every message of `server_stop` goes to a closed descriptor. -/
theorem unheard_server_stop (h : SharedFd fd host.server) (hfd : fd ≠ -1) :
    Unheard (server_stop now results host).2 := by
  unfold server_stop
  split_ifs with hrunning hnone
  · exact fun n hn => absurd hn List.not_mem_nil
  · rw [h.server_socket] at hnone
    exact absurd hnone hfd
  · -- The descriptor is closed before the loop begins.
    have hstart : Closed fd (host.cleared.closeSocket, [.close host.server.server_socket]) := by
      have hclose : host.cleared.server.server_socket = fd := h.server_socket
      refine ⟨?_, ?_, fun n hn => by simp [Action.notice] at hn⟩
      · simp [Host.closeSocket, hclose, hfd, closeAll]
      · intro i hi
        simp only [closeSocket_clients] at hi ⊢
        exact h.slots i hi
    exact (foldl_preserves (fun acc i hacc => closed_stopLogged acc i hacc) _ _ hstart).unheard

/-- A client makes it go wrong: the message to it is not heard. -/
theorem not_stopsEveryone (h : SharedFd fd host.server) (hfd : fd ≠ -1) {i : Fin MAX_CLIENTS}
    (hactive : (host.server.clients i).is_active = true) :
    ¬ StopsEveryone host (server_stop now results host).1 (server_stop now results host).2 := by
  intro hstops
  have hmem : (true, MessageType.MSG_STOP.code, (host.server.clients i).addr) ∈
      (server_stop now results host).2.filterMap Action.notice := by
    rw [hstops.told.mem_iff]
    exact List.mem_map.mpr ⟨i, List.mem_filter.mpr ⟨List.mem_finRange i, hactive⟩, rfl⟩
  have hheard := unheard_server_stop h hfd _ hmem
  cases hheard

/-- Without a client all there is to do is to close the descriptor. -/
theorem stopsEveryone_empty (h : SharedFd fd host.server) (hfd : fd ≠ -1)
    (hrunning : host.server.is_running = true)
    (hempty : ∀ i, (host.server.clients i).is_active = false) :
    StopsEveryone host (server_stop now results host).1 (server_stop now results host).2 := by
  have hlog : (server_stop now results host).2 = [.close fd] := by
    -- The loop finds nobody.
    have hskip : ∀ (l : List (Fin MAX_CLIENTS)) (acc : Host × List Action),
        acc.1.server.clients = host.server.clients →
          l.foldl (stopLogged now results) acc = acc := by
      intro l
      induction l with
      | nil => intro acc _; rfl
      | cons i l ih =>
          intro acc hacc
          have hinactive : (acc.1.server.clients i).is_active = false := by rw [hacc, hempty i]
          rw [List.foldl_cons, stopLogged_inactive hinactive]
          exact ih acc hacc
    rw [server_stop, if_neg (by rw [hrunning]; decide), h.server_socket, if_neg hfd,
      hskip _ _ (closeSocket_clients host)]
  refine ⟨?_, ?_, server_stop_empty hrunning⟩
  · -- No message is logged, and none is asked for.
    have hnobody : (List.finRange MAX_CLIENTS).filter
        (fun i => (host.server.clients i).is_active) = [] :=
      List.filter_eq_nil_iff.mpr fun i _ => by simp [hempty i]
    rw [hlog, hnobody]
    exact List.Perm.refl _
  · intro fd' howns _
    -- The server owns the one descriptor.
    have hfd' : fd' = fd := by
      rcases howns with hown | ⟨i, hactive, _⟩
      · rw [← hown, h.server_socket]
      · rw [hempty i] at hactive
        cases hactive
    rw [hlog, hfd']
    simp [Action.closed]

end Loop

/-- In every state a server can be in, `server_stop` tells everybody, closes
    every descriptor once and leaves nobody registered, exactly if there is
    nobody to tell. -/
theorem stopsEveryone_iff (port : Int) (fd : Nat) (others : Int → Bool) (s t : State)
    (hstart : start port fd others = some s) (hreach : Reachable step s t) (now : TimeT)
    (results : Fin MAX_CLIENTS → Option Nat) :
    StopsEveryone t.host (server_stop now results t.host).1 (server_stop now results t.host).2 ↔
      ∀ i, (t.host.server.clients i).is_active = false := by
  have hshared := reachable_preserves (kept_sharedFd fd) (sharedFd_start hstart) hreach
  have hfd : (fd : Int) ≠ -1 := by omega
  have hrunning : t.host.server.is_running = true := by
    refine reachable_preserves (Signals.kept_is_running true) ?_ hreach
    rcases Option.map_eq_some_iff.mp hstart with ⟨server, _, rfl⟩
    rfl
  refine ⟨fun h i => ?_, stopsEveryone_empty hshared hfd hrunning⟩
  by_contra hactive
  exact not_stopsEveryone hshared hfd (Bool.not_eq_false _ ▸ hactive) h

/-- A server nobody has come to. -/
theorem stopsEveryone_iff_empty :
    ∃ s, start 5000 3 (fun _ => false) = some s ∧
      StopsEveryone s.host (server_stop 0 (fun _ => none) s.host).1
        (server_stop 0 (fun _ => none) s.host).2 := by
  have hsome : (start 5000 3 (fun _ => false)).isSome = true := by decide
  rcases Option.isSome_iff_exists.mp hsome with ⟨s, hstart⟩
  refine ⟨s, hstart, (stopsEveryone_iff 5000 3 _ s s hstart .refl 0 (fun _ => none)).mpr ?_⟩
  rcases Option.map_eq_some_iff.mp hstart with ⟨server, hinit, rfl⟩
  rw [server_init_some hinit]
  exact fun _ => rfl

/-- A server with one client. -/
theorem stop_tells_nobody :
    ∃ s t, start 5000 3 (fun _ => false) = some s ∧
      run step s (exchange .MSG_LIST (bytes "ann") ann) = some t ∧
      ¬ StopsEveryone t.host (server_stop 0 (fun _ => some SIZEOF_MESSAGE) t.host).1
        (server_stop 0 (fun _ => some SIZEOF_MESSAGE) t.host).2 := by
  have hend : ((start 5000 3 (fun _ => false)).bind fun s =>
      run step s (exchange .MSG_LIST (bytes "ann") ann)).map
        (fun t => (t.host.server.clients ⟨0, by decide⟩).is_active) = some true := by
    decide +kernel
  rcases Option.map_eq_some_iff.mp hend with ⟨t, hbind, hactive⟩
  rcases Option.bind_eq_some_iff.mp hbind with ⟨s, hstart, hrun⟩
  have hshared := reachable_preserves (kept_sharedFd 3) (sharedFd_start hstart)
    (reachable_of_run hrun)
  exact ⟨s, t, hstart, hrun, not_stopsEveryone hshared (by decide) hactive⟩

end Lab11

end OsLabs
