import OsLabs.Lab11.Server

/-!
# The Descriptor of the UDP Server

The UDP server receives and sends on one descriptor. `add_client_udp` copies
that descriptor into the slot of every client it registers, and
`remove_client`, written for a server with a descriptor for each client,
closes the one it finds in the slot. So the first client removed takes the
server's descriptor with it: every later `sendto` fails, and so does every
later `recvfrom`.

What is proved is how far that goes. A step closes the descriptor exactly when
it removes somebody, so the descriptor is open after a run exactly when no step
of it removed a client. `RemovesNobody` says this of the state before the step
and of the event, in terms of what is tested on the way to a removal: the
search that precedes a STOP, and the count, the clock and the answer of
`sendto` in a sweep.

## Main definitions

* `SharedFd`: Every active slot holds the server's descriptor.
* `Spared`: A sweep leaves the client in a slot alone.
* `RemovesNobody`: The step removes no client.

## Theorems

* `kept_sharedFd`: Each change to a registry keeps the descriptor shared.
* `remove_client_open_iff`: Removal closes it if there is a client to remove.
* `dispatch_open_iff`, `sweep_open_iff`: When a critical section leaves it open.
* `step_open_iff`: When a step does.
* `server_socket_open_iff`: When a run does.
* `server_socket_open_run`: A run that does.
* `stop_closes_server_socket`: A run that does not.
-/

namespace OsLabs

namespace Lab11

open Chat

/-- The server serves on `fd`, and so do all its slots. -/
structure SharedFd (fd : Int) (server : Server) : Prop where
  server_socket : server.server_socket = fd
  slots : ∀ i, (server.clients i).is_active = true → (server.clients i).socket_fd = fd

/-- A slot may be rewritten with the descriptor all others hold. -/
theorem sharedFd_setSlot {fd : Int} {server : Server} (h : SharedFd fd server)
    (i : Fin MAX_CLIENTS) (c : ServerClient) (hc : c.is_active = true → c.socket_fd = fd) :
    SharedFd fd (server.setSlot i c) := by
  refine ⟨h.server_socket, fun j => ?_⟩
  by_cases hj : j = i
  · rw [hj, setSlot_self]
    exact hc
  · rw [setSlot_other server c hj]
    exact h.slots j

theorem sharedFd_count {fd : Int} {server : Server} (h : SharedFd fd server) (count : Int) :
    SharedFd fd { server with client_count := count } :=
  ⟨h.server_socket, h.slots⟩

/-- A new client is given the server's descriptor, and no slot is ever given
    another. -/
theorem kept_sharedFd (fd : Int) : Kept (SharedFd fd) where
  added server client_addr client_id now h _ _ := by
    rw [add_client_udp, fillSlot]
    cases freeSlot server with
    | none => exact h
    | some i => exact sharedFd_count (sharedFd_setSlot h i _ fun _ => h.server_socket) _
  heard server i client_addr now h hactive :=
    sharedFd_setSlot h i _ fun _ => h.slots i hactive
  missed server i h hactive _ := sharedFd_setSlot h i _ fun _ => h.slots i hactive
  removed server i h := by
    rw [Chat.remove_client]
    by_cases hactive : (server.clients i).is_active = true
    · rw [if_pos hactive]
      exact sharedFd_count (sharedFd_setSlot h i _ fun hc => absurd hc Bool.false_ne_true) _
    · rw [if_neg hactive]
      exact h

theorem sharedFd_start {port : Int} {fd : Nat} {others : Int → Bool} {s : State}
    (h : start port fd others = some s) : SharedFd fd s.host.server := by
  rcases Option.map_eq_some_iff.mp h with ⟨server, hinit, rfl⟩
  obtain rfl := server_init_some hinit
  exact ⟨rfl, fun i hi => absurd hi Bool.false_ne_true⟩

theorem open_start {port : Int} {fd : Nat} {others : Int → Bool} {s : State}
    (h : start port fd others = some s) : s.host.open_fds fd = true := by
  rcases Option.map_eq_some_iff.mp h with ⟨server, _, rfl⟩
  simp only [Function.update_self]

/-- A sweep leaves the client of a slot alone: it is not silent, or it has
    missed too few sweeps to be removed and `sendto` takes the whole message. -/
def Spared (input : SweepInput) (server : Server) (i : Fin MAX_CLIENTS) : Prop :=
  (server.clients i).is_active = true → silent input.now (server.clients i) = true →
    (missed (server.clients i)).inactive_count < MAX_INACTIVE_COUNT ∧
      input.results i = some SIZEOF_MESSAGE

/-- The step removes no client. Taking a message in never does, a handler does
    for a STOP whose sender is registered, and a sweep does for a client it
    does not spare. -/
def RemovesNobody (s : State) : Event → Prop
  | .receive .. => True
  | .dispatch .. => ∀ p, s.pending = some p → p.1.type = MessageType.MSG_STOP.code →
      find_client_by_id s.host.server p.1.sender_id.bytes = none
  | .sweep input => ∀ i, Spared input s.host.server i

section Closing

variable {fd : Nat}

/-- Removal leaves the descriptor open only if there was no client to
    remove. -/
theorem remove_client_open_iff {host : Host} (h : SharedFd fd host.server) (i : Fin MAX_CLIENTS) :
    (host.remove_client i).open_fds fd = true ↔
      host.open_fds fd = true ∧ (host.server.clients i).is_active = false := by
  simp only [Host.remove_client, closeAll, Chat.remove_client]
  by_cases hactive : (host.server.clients i).is_active = true
  · -- The slot's descriptor is the shared one, and it is closed.
    have hne : (fd : Int) ≠ -1 := by omega
    rw [if_pos hactive, h.slots i hactive, if_neg hne, hactive]
    simp
  · rw [if_neg hactive]
    simp [Bool.eq_false_iff.mpr hactive]

theorem enroll_open (host : Host) (msg : Message) (client_addr : SockAddrIn) (now : TimeT)
    (result : Option Nat) :
    (enroll host msg client_addr now result).1.open_fds = host.open_fds := by
  unfold enroll
  cases find_client_by_id host.server msg.sender_id.bytes with
  | some i => rfl
  | none =>
      simp only []
      split_ifs
      · rfl
      · rfl
      · cases add_client_udp host.server client_addr msg.sender_id.bytes now with
        | mk server o => cases o <;> rfl

/-- A handler leaves the descriptor open unless it stops a registered
    client. -/
theorem dispatch_open_iff {host : Host} (h : SharedFd fd host.server) (msg : Message)
    (client_addr : SockAddrIn) (now : TimeT) (result : Option Nat)
    (results : Fin MAX_CLIENTS → Option Nat) :
    (dispatch host msg client_addr now result results).1.open_fds fd = true ↔
      host.open_fds fd = true ∧ (msg.type = MessageType.MSG_STOP.code →
        find_client_by_id host.server msg.sender_id.bytes = none) := by
  by_cases hstop : msg.type = MessageType.MSG_STOP.code
  · -- The three types tried before STOP are others.
    have hlist : msg.type ≠ MessageType.MSG_LIST.code := by rw [hstop]; decide
    have hall : msg.type ≠ MessageType.MSG_2ALL.code := by rw [hstop]; decide
    have hone : msg.type ≠ MessageType.MSG_2ONE.code := by rw [hstop]; decide
    rw [dispatch, if_neg hlist, if_neg hall, if_neg hone, if_pos hstop, handle_stop_request_udp]
    cases hfound : find_client_by_id host.server msg.sender_id.bytes with
    | none => simp only [implies_true, and_true]
    | some i =>
        simp only [remove_client_open_iff h, (find_client_by_id_some hfound).1, hstop,
          reduceCtorEq, imp_false, not_true_eq_false]
  · -- Every other function only sends or updates a slot.
    rw [dispatch, if_neg hstop]
    split_ifs <;> exact ⟨fun ho => ⟨ho, fun hs => absurd hs hstop⟩, fun ho => ho.1⟩

/-- On a descriptor that is open, sending succeeds if `sendto` takes the whole
    message. -/
theorem send_message_protocol_result (open_fds : Int → Bool) (hopen : open_fds fd = true)
    (message : Message) (addr : SockAddrIn) (result : Option Nat) :
    (send_message_protocol open_fds fd message addr result).result ≤ 0 ↔
      result ≠ some SIZEOF_MESSAGE := by
  have hfd : ¬(fd : Int) < 0 := by omega
  have hsize : 0 < SIZEOF_MESSAGE := by decide
  unfold send_message_protocol
  simp only [if_neg hfd, hopen, Bool.not_true, Bool.false_eq_true, if_false]
  cases result with
  | none => simp only [ne_eq, reduceCtorEq, not_false_eq_true, iff_true]; omega
  | some bytes_sent =>
      by_cases hall : bytes_sent = SIZEOF_MESSAGE
      · simp only [hall, ne_eq, not_true_eq_false, if_false, iff_false]
        omega
      · simp only [ne_eq, hall, not_false_eq_true, if_true, Option.some.injEq, iff_true]
        omega

/-- A visit of the sweep leaves the descriptor open exactly when it spares the
    client of the slot. -/
theorem sweepSlot_open_iff (input : SweepInput) (acc : Host × List Datagram) (i : Fin MAX_CLIENTS)
    (h : SharedFd fd acc.1.server) :
    (sweepSlot input acc i).1.open_fds fd = true ↔
      acc.1.open_fds fd = true ∧ Spared input acc.1.server i := by
  unfold sweepSlot Spared
  by_cases hactive : (acc.1.server.clients i).is_active = true
  · by_cases hsilent : silent input.now (acc.1.server.clients i) = true
    · rw [if_neg (by rw [hactive]; decide), if_pos hsilent]
      simp only [hactive, hsilent, forall_const]
      -- The slot is counted before anything else, which leaves the descriptor shared.
      have hcounted : SharedFd fd (acc.1.server.setSlot i (missed (acc.1.server.clients i))) :=
        sharedFd_setSlot h i _ fun _ => h.slots i hactive
      have hclosed : ¬ (Host.remove_client ⟨acc.1.server.setSlot i
          (missed (acc.1.server.clients i)), acc.1.open_fds⟩ i).open_fds fd = true := by
        rw [remove_client_open_iff hcounted, setSlot_self, missed, hactive]
        simp
      by_cases hcount : (missed (acc.1.server.clients i)).inactive_count ≥ MAX_INACTIVE_COUNT
      · rw [if_pos hcount]
        exact ⟨fun ho => absurd ho hclosed, fun ho => absurd ho.2.1 (by omega)⟩
      · rw [if_neg hcount]
        by_cases hopen : acc.1.open_fds fd = true
        · have hserver : (acc.1.server.setSlot i (missed (acc.1.server.clients i))).server_socket
              = fd := h.server_socket
          simp only [hserver, send_message_protocol_result acc.1.open_fds hopen]
          by_cases hresult : input.results i = some SIZEOF_MESSAGE
          · rw [if_neg (by simp [hresult])]
            exact ⟨fun ho => ⟨ho, by omega, hresult⟩, fun ho => ho.1⟩
          · rw [if_pos hresult]
            exact ⟨fun ho => absurd ho hclosed, fun ho => absurd ho.2.2 hresult⟩
        · -- A descriptor that is closed stays so, with or without a removal.
          refine ⟨fun ho => absurd ho ?_, fun ho => absurd ho.1 hopen⟩
          split_ifs
          · exact hclosed
          · exact hopen
    · rw [if_neg (by rw [hactive]; decide), if_neg hsilent]
      exact ⟨fun ho => ⟨ho, fun _ hs => absurd hs hsilent⟩, fun ho => ho.1⟩
  · rw [if_pos (by rw [Bool.eq_false_iff.mpr hactive]; rfl)]
    exact ⟨fun ho => ⟨ho, fun ha => absurd ha hactive⟩, fun ho => ho.1⟩

/-- A visit leaves every other slot as it is. -/
theorem sweepSlot_other (input : SweepInput) (acc : Host × List Datagram) {i j : Fin MAX_CLIENTS}
    (h : j ≠ i) :
    (sweepSlot input acc i).1.server.clients j = acc.1.server.clients j := by
  rcases sweepSlot_cases input acc i with hsame | ⟨c, counted, alive, rfl, -, rfl, -, hdone⟩
  · rw [hsame]
  · have hcounted := setSlot_other acc.1.server (missed (acc.1.server.clients i)) h
    have hremoved := (remove_client_other _ h).trans hcounted
    rcases hdone with hdone | hdone | ⟨-, hdone⟩
    · rw [hdone]
      exact hremoved
    · rw [hdone]
      exact hremoved
    · rw [hdone]
      exact hcounted

/-- A sweep leaves the descriptor open exactly when it spares every client. -/
theorem sweep_open_iff (input : SweepInput) {host : Host} (h : SharedFd fd host.server) :
    (sweep input host).1.open_fds fd = true ↔
      host.open_fds fd = true ∧ ∀ i, Spared input host.server i := by
  -- Each slot is visited once and unchanged until then, so that the condition
  -- for it can be read before the sweep.
  have hall : ∀ l : List (Fin MAX_CLIENTS), l.Nodup → ∀ acc : Host × List Datagram,
      SharedFd fd acc.1.server →
      ((l.foldl (sweepSlot input) acc).1.open_fds fd = true ↔
        acc.1.open_fds fd = true ∧ ∀ i ∈ l, Spared input acc.1.server i) :=
    @foldl_iff _ _ (sweepSlot input) (fun acc => SharedFd fd acc.1.server)
      (fun acc => acc.1.open_fds fd = true) (fun acc i => Spared input acc.1.server i)
      (fun acc i hacc => sweepSlot_preserves (kept_sharedFd fd) input acc i hacc)
      (fun acc i hacc => sweepSlot_open_iff input acc i hacc)
      (fun acc i j hij => by simp only [Spared, sweepSlot_other input acc hij.symm])
  rw [sweep, hall _ (List.nodup_finRange _) _ h]
  exact and_congr_right fun _ => forall_congr' fun i =>
    ⟨fun hi => hi (List.mem_finRange i), fun hi _ => hi⟩

/-- A step leaves the descriptor open exactly when it removes nobody. -/
theorem step_open_iff {s s' : State} {e : Event} (h : SharedFd fd s.host.server)
    (hstep : step s e = some s') :
    s'.host.open_fds fd = true ↔ s.host.open_fds fd = true ∧ RemovesNobody s e := by
  cases e with
  | receive msg client_addr checked now result =>
      have henroll := enroll_open s.host msg client_addr now result
      rw [RemovesNobody, and_true]
      rw [step] at hstep
      split_ifs at hstep with hpending hvalid
      · rw [← Option.some.inj hstep]
      · cases hresult : enroll s.host msg client_addr now result with
        | mk host reply =>
            rw [hresult] at hstep henroll
            cases reply <;> rw [← Option.some.inj hstep, ← henroll]
  | dispatch now result results =>
      rw [step, Option.map_eq_some_iff] at hstep
      rcases hstep with ⟨p, hp, hs'⟩
      rw [← hs', dispatch_open_iff h, RemovesNobody, hp]
      simp only [Option.some.injEq, forall_eq']
  | sweep input =>
      have hsweep := sweep_open_iff input h
      cases hresult : sweep input s.host with
      | mk host sent =>
          rw [step, hresult, Option.some.injEq] at hstep
          rw [hresult] at hsweep
          rw [← hstep]
          exact hsweep

/-- A run leaves the descriptor open exactly when all its steps do. -/
theorem run_open_iff (events : List Event) (s t : State) (h : SharedFd fd s.host.server)
    (hrun : run step s events = some t) :
    t.host.open_fds fd = true ↔ s.host.open_fds fd = true ∧ Meets step RemovesNobody s events := by
  have hinv : ∀ v e w, SharedFd fd v.host.server → step v e = some w →
      SharedFd fd w.host.server := fun v e w hv hstep =>
        step_preserves (kept_sharedFd fd) v w e hv hstep
  have hiff : ∀ v e w, SharedFd fd v.host.server → step v e = some w →
      (w.host.open_fds fd = true ↔ v.host.open_fds fd = true ∧ RemovesNobody v e) :=
    fun _ _ _ hv hstep => step_open_iff hv hstep
  exact run_iff hinv hiff events h hrun

end Closing

/-- After any run of the server the descriptor it serves on is open exactly
    when no step of the run removed a client. -/
theorem server_socket_open_iff (port : Int) (fd : Nat) (others : Int → Bool) (s t : State)
    (events : List Event) (hstart : start port fd others = some s)
    (hrun : run step s events = some t) :
    t.host.server.server_socket = fd ∧
      (t.host.open_fds t.host.server.server_socket = true ↔
        Meets step RemovesNobody s events) := by
  have hshared := sharedFd_start hstart
  have hfd : t.host.server.server_socket = fd :=
    (reachable_preserves (kept_sharedFd fd) hshared (reachable_of_run hrun)).server_socket
  refine ⟨hfd, ?_⟩
  rw [hfd, run_open_iff events s t hshared hrun, open_start hstart]
  exact and_iff_right rfl

def ann : SockAddrIn := { sin_addr := 1, sin_port := 2 }
def bob : SockAddrIn := { sin_addr := 1, sin_port := 3 }

/-- One message of the type, taken in and handled. -/
def exchange (type : MessageType) (client_id : List UInt8) (addr : SockAddrIn) : List Event :=
  [.receive (create_message type client_id [] [] 0) addr 0 0 none,
    .dispatch 0 (some SIZEOF_MESSAGE) (fun _ => none)]

/-- A client that registers and is heard from again leaves the descriptor
    open. -/
theorem server_socket_open_run :
    ∃ s t, start 5000 3 (fun _ => false) = some s ∧
      run step s (exchange .MSG_LIST (bytes "ann") ann ++ exchange .MSG_ALIVE (bytes "ann") ann)
        = some t ∧
      Meets step RemovesNobody s
        (exchange .MSG_LIST (bytes "ann") ann ++ exchange .MSG_ALIVE (bytes "ann") ann) := by
  have hend : ((start 5000 3 (fun _ => false)).bind fun s => run step s
      (exchange .MSG_LIST (bytes "ann") ann ++ exchange .MSG_ALIVE (bytes "ann") ann)).map
        (fun t => t.host.open_fds t.host.server.server_socket) = some true := by decide +kernel
  rcases Option.map_eq_some_iff.mp hend with ⟨t, hbind, hopen⟩
  rcases Option.bind_eq_some_iff.mp hbind with ⟨s, hstart, hrun⟩
  have hiff := (server_socket_open_iff 5000 3 (fun _ => false) s t _ hstart hrun).2
  exact ⟨s, t, hstart, hrun, hiff.mp hopen⟩

/-- Two clients are registered, and one of them says STOP. The other is still
    registered, and the server can no longer send to it. -/
theorem stop_closes_server_socket :
    ¬ ∀ (s t : State) (events : List Event), start 5000 3 (fun _ => false) = some s →
      run step s events = some t → t.host.open_fds t.host.server.server_socket = true := by
  intro hclaim
  have hend : ((start 5000 3 (fun _ => false)).bind fun s => run step s
      (exchange .MSG_LIST (bytes "ann") ann ++ exchange .MSG_LIST (bytes "bob") bob
        ++ exchange .MSG_STOP (bytes "ann") ann)).map
        (fun t => (t.host.open_fds t.host.server.server_socket,
          find_client_by_id t.host.server (bytes "bob")))
        = some (false, some ⟨1, by decide⟩) := by decide +kernel
  rcases Option.map_eq_some_iff.mp hend with ⟨t, hbind, hclosed⟩
  rcases Option.bind_eq_some_iff.mp hbind with ⟨s, hstart, hrun⟩
  rw [Prod.mk.injEq, hclaim s t _ hstart hrun] at hclosed
  exact absurd hclosed.1.symm Bool.false_ne_true

end Lab11

end OsLabs
