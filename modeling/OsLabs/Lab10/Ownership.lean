import OsLabs.Lab10.Server

/-!
# Whose Connection a Handler Works On

A handler is started for one connection, but all it keeps is the address of a
slot and, while it receives, the number of a descriptor. Both may come to stand
for something else. When the keepalive thread removes a client, its slot is
inactive and its descriptor closed, while its handler is still there, waiting
in `recv` for instance. The next client may then be given the slot, so that the
old handler reads the new client's descriptor from it, receives its messages,
and at the end removes its registration. Or the next connection may be given
the descriptor, and the old handler's next call of `recv` reads from it.

These two are the only ways. `NoReuse` says, of the state before a step, that
the step is neither of them: `accept` does not return a descriptor some handler
is receiving from, and a client is not registered into the slot of a handler
that has not ended. In runs of such steps every handler reads from its own
connection only and removes no registration but its own.

## Main definitions

* `HandlerPc.receiving`: The descriptor a handler is receiving from.
* `NoReuse`: The step gives away nothing a handler still works on.
* `Separate`: Handlers have read and removed only what is theirs.
* `Loyal`: What keeps a handler to its connection.
* `Owned`: The invariant.

## Theorems

* `owned_shrinks`, `owned_setHandler`, `owned_main`: What a section, a
  handler's move and the main thread's move preserve.
* `owned_step`: What a step preserves that reuses nothing.
* `separate_of_reaches`: In runs without reuse the handlers stay apart.
* `separate_of_reaches_run`: Such a run.
* `slot_reused`: A run in which a handler reads from another's connection.
-/

namespace OsLabs

namespace Lab10

open Chat

/-- The descriptor a handler is receiving from. -/
def HandlerPc.receiving : HandlerPc → Option Int
  | .recv fd _ => some fd
  | .blocked fd _ _ => some fd
  | _ => none

/-- If the main thread is about to register a client whose name is acceptable
    and new, no handler that has not ended works on the slot the client gets. -/
def SlotIsClear (s : State) : Prop :=
  match s.main with
  | .registering _ id_msg =>
    validate_client_id id_msg.sender_id.bytes = true →
      find_client_by_id s.host.server id_msg.sender_id.bytes = none →
      ∀ h ∈ s.threads, freeSlot s.host.server = some h.client → h.pc = .ended
  | _ => True

instance (s : State) : Decidable (SlotIsClear s) := by
  unfold SlotIsClear
  split <;> infer_instance

/-- The step gives away nothing that a handler still works on: `accept` returns
    no descriptor one is receiving from, and a client that is registered does
    not get the slot of one that has not ended. -/
def NoReuse (s : State) : Event → Prop
  | .main (.accept (some r)) => ∀ h ∈ s.threads, h.pc.receiving ≠ some r.1
  | .main (.register _ true) => SlotIsClear s
  | _ => True

instance (s : State) (e : Event) : Decidable (NoReuse s e) := by
  unfold NoReuse
  split <;> infer_instance

/-- Handlers have read and removed only what is theirs. -/
structure Separate (s : State) : Prop where
  reads : ∀ r ∈ s.reads, r.2 = r.1
  removals : ∀ r ∈ s.removals, r.2 = r.1

/-- What keeps a handler to its connection: its slot is registered for it, if
    it is active at all, and the descriptor it is receiving from stands for it,
    if for anything. -/
structure Loyal (s : State) (h : Handler) : Prop where
  slot : (s.host.server.clients h.client).is_active = true → s.owner h.client = h.conn
  fd : ∀ fd c, h.pc.receiving = some fd → s.host.conns fd = some c → c = h.conn
  blocked : ∀ fd buffer c, h.pc = .blocked fd buffer c → c = h.conn

/-- The connection the main thread is working on, as long as it is not
    registered. -/
def Main.unregistered : Main → Option Accepted
  | .configuring a => some a
  | .identifying a => some a
  | .registering a _ => some a
  | _ => none

/-- The connection whose descriptor the main thread may still close. -/
def Main.closable : Main → Option Accepted
  | .refusing a _ => some a
  | .closing a => some a
  | m => m.unregistered

structure Owned (s : State) : Prop where
  attached : Attached s.host
  owner : ∀ i, (s.host.server.clients i).is_active = true →
    s.host.conns (s.host.server.clients i).socket_fd = some (s.owner i)
  handlers : ∀ h ∈ s.threads, h.pc ≠ .ended → Loyal s h
  unregistered : ∀ a, s.main.unregistered = some a →
    s.host.conns a.client_socket = some a.conn
  closable : ∀ a, s.main.closable = some a →
    ∀ i, (s.host.server.clients i).is_active = true →
      (s.host.server.clients i).socket_fd ≠ a.client_socket

section Preservation

variable {s s' : State}

/-- A section that registers nobody. -/
theorem owned_shrinks (h : Owned s) {b : Host} (hb : Shrinks s.host b) :
    Owned { s with host := b } := by
  -- Descriptors are only closed, so one that is open stood for the same before.
  have hconns : ∀ fd c, b.conns fd = some c → s.host.conns fd = some c := by
    intro fd c hc
    rcases hb.conns fd with hsame | ⟨hnone, _⟩
    · rw [← hsame, hc]
    · exact absurd (hnone.symm.trans hc) (by simp)
  refine ⟨h.attached.shrinks hb, fun i hi => ?_, fun hd hmem hpc => ?_, fun a ha => ?_,
    fun a ha i hi => ?_⟩
  · rcases hb.active i hi with ⟨ha, hfd, hsame⟩
    change b.conns (b.server.clients i).socket_fd = some (s.owner i)
    rw [hfd, hsame]
    exact h.owner i ha
  · have hloyal := h.handlers hd hmem hpc
    exact ⟨fun hi => hloyal.slot (hb.active _ hi).1,
      fun fd c hfd hc => hloyal.fd fd c hfd (hconns fd c hc), hloyal.blocked⟩
  · -- The main thread's descriptor is in no active slot, so it is not closed.
    have hclosable : s.main.closable = some a := by
      cases hmain : s.main <;> rw [hmain] at ha <;> first | exact ha | cases ha
    rcases hb.conns a.client_socket with hsame | ⟨_, i, hi, hfd⟩
    · exact hsame.trans (h.unregistered a ha)
    · exact absurd hfd (h.closable a hclosable i hi)
  · rcases hb.active i hi with ⟨hai, hfd, _⟩
    change (b.server.clients i).socket_fd ≠ a.client_socket
    rw [hfd]
    exact h.closable a ha i hai

/-- A handler that moves, and stays loyal if it has not ended. -/
theorem owned_setHandler (h : Owned s) (t : Nat) (hd : Handler) (pc : HandlerPc)
    (hloyal : pc ≠ .ended → Loyal s { hd with pc := pc }) : Owned (s.setHandler t hd pc) := by
  refine ⟨h.attached, h.owner, fun hd' hmem hpc => ?_, h.unregistered, h.closable⟩
  have hl : Loyal s hd' := by
    rcases List.mem_or_eq_of_mem_set hmem with hold | rfl
    · exact h.handlers hd' hold hpc
    · exact hloyal hpc
  exact ⟨hl.slot, hl.fd, hl.blocked⟩

/-- A handler that moves outside `receive_message_protocol`. -/
theorem owned_move (h : Owned s) {t : Nat} {hd : Handler} (ht : s.threads[t]? = some hd)
    (hold : hd.pc ≠ .ended) (pc : HandlerPc) (hnew : pc.receiving = none) :
    Owned (s.setHandler t hd pc) := by
  refine owned_setHandler h t hd pc fun _ => ?_
  have hloyal := h.handlers hd (List.mem_of_getElem? ht) hold
  refine ⟨hloyal.slot, fun fd c hfd => ?_, fun fd buffer c hpc => ?_⟩
  · exact absurd (hnew.symm.trans hfd) (by simp)
  · exact absurd hnew (by rw [show pc = _ from hpc]; simp [HandlerPc.receiving])

/-- The main thread moves on with the connection it has, or without one. -/
theorem owned_main (h : Owned s) (main : Main)
    (hu : ∀ a, main.unregistered = some a → s.main.unregistered = some a)
    (hc : ∀ a, main.closable = some a → s.main.closable = some a) :
    Owned { s with main := main } :=
  ⟨h.attached, h.owner, fun hd hmem hpc =>
      ⟨(h.handlers hd hmem hpc).slot, (h.handlers hd hmem hpc).fd,
        (h.handlers hd hmem hpc).blocked⟩,
    fun a ha => h.unregistered a (hu a ha), fun a ha => h.closable a (hc a ha)⟩

/-- What only history and the other threads' places change. -/
theorem owned_of_eq (h : Owned s) (hhost : s'.host = s.host) (hmain : s'.main = s.main)
    (hthreads : s'.threads = s.threads) (howner : s'.owner = s.owner) : Owned s' := by
  refine ⟨by rw [hhost]; exact h.attached, ?_, ?_, ?_, ?_⟩
  · rw [hhost, howner]
    exact h.owner
  · rw [hthreads]
    intro hd hmem hpc
    have hloyal := h.handlers hd hmem hpc
    exact ⟨by rw [hhost, howner]; exact hloyal.slot, by rw [hhost]; exact hloyal.fd,
      hloyal.blocked⟩
  · rw [hhost, hmain]
    exact h.unregistered
  · rw [hhost, hmain]
    exact h.closable

theorem owned_deliver (h : Owned s) (sent : List Delivery) : Owned (s.deliver sent) :=
  owned_of_eq h rfl rfl rfl rfl

/-- A slot rewritten without touching its descriptor. -/
theorem owned_setSlot (h : Owned s) (i : Fin MAX_CLIENTS) (c : ServerClient)
    (hactive : c.is_active = (s.host.server.clients i).is_active)
    (hfd : c.socket_fd = (s.host.server.clients i).socket_fd) :
    Owned (s.setServer (s.host.server.setSlot i c)) :=
  owned_shrinks h (shrinks_setSlot h.attached i c hactive hfd)

theorem owned_handle (h : Owned s) {t : Nat} {hd : Handler} (ht : s.threads[t]? = some hd)
    (hold : hd.pc ≠ .ended) (conn : Conn) (msg : Message) (fd : Int) (now : TimeT) (ok : Bool)
    (oks : Fin MAX_CLIENTS → Bool) : Owned (handle s t hd conn msg fd now ok oks) := by
  unfold handle
  simp only []
  split_ifs
  · exact owned_move h ht hold _ rfl
  · exact owned_deliver (owned_move h ht hold _ rfl) _
  · exact owned_deliver (owned_move h ht hold _ rfl) _
  · exact owned_move h ht hold _ rfl
  · cases find_client_by_socket s.host.server fd with
    | none => exact owned_move h ht hold _ rfl
    | some i =>
        have hset := owned_setSlot h i (refreshed now (s.host.server.clients i)) rfl rfl
        exact owned_move hset ht hold .test rfl

/-- The descriptor in a loyal handler's slot stands for its connection, if it
    is one. -/
theorem slot_fd (h : Owned s) {hd : Handler} (hloyal : Loyal s hd)
    (hfd : ¬ (s.host.server.clients hd.client).socket_fd < 0) :
    (s.host.server.clients hd.client).is_active = true ∧
      s.host.conns (s.host.server.clients hd.client).socket_fd = some hd.conn := by
  have hactive : (s.host.server.clients hd.client).is_active = true := by
    by_contra hinactive
    have hnone := h.attached.detached hd.client (Bool.eq_false_iff.mpr hinactive)
    omega
  exact ⟨hactive, by rw [h.owner _ hactive, hloyal.slot hactive]⟩

/-- A handler keeps to its connection, whatever it does. -/
theorem owned_handlerStep (h : Owned s) {t : Nat} {hd : Handler} (ht : s.threads[t]? = some hd)
    {e : HandlerEvent} (hstep : handlerStep s t hd e = some s') : Owned s' := by
  have hmem := List.mem_of_getElem? ht
  cases e with
  | test =>
      rcases handlerStep_test hstep with ⟨hpc, rfl⟩
      refine owned_move h ht (by simp [hpc]) _ ?_
      split_ifs <;> rfl
  | call =>
      rcases handlerStep_call hstep with ⟨hpc, rfl⟩
      have hloyal := h.handlers hd hmem (by simp [hpc])
      by_cases hneg : (s.host.server.clients hd.client).socket_fd < 0
      · rw [if_pos hneg]
        exact owned_move h ht (by simp [hpc]) _ rfl
      · -- The descriptor comes from the handler's own slot, where it stands for
        -- its connection.
        rw [if_neg hneg]
        have hconn := (slot_fd h hloyal hneg).2
        refine owned_setHandler h t hd _ fun _ => ⟨hloyal.slot, fun fd c hfd hc => ?_, ?_⟩
        · rw [← Option.some.inj hfd, hconn] at hc
          exact (Option.some.inj hc).symm
        · exact fun fd buffer c hb => by simp at hb
  | recv =>
      rcases handlerStep_recv hstep with ⟨fd, buffer, hpc, ⟨_, rfl⟩ | ⟨c, hc, rfl⟩⟩
      · exact owned_move h ht (by simp [hpc]) _ rfl
      · have hloyal := h.handlers hd hmem (by simp [hpc])
        -- Nobody was given the descriptor since it was read from the slot.
        have hown : c = hd.conn := hloyal.fd fd c (by simp [hpc, HandlerPc.receiving]) hc
        refine owned_setHandler h t hd _ fun _ => ⟨hloyal.slot, fun fd' c' hfd hc' => ?_, ?_⟩
        · exact hloyal.fd fd' c' (by rw [hpc]; exact hfd) hc'
        · intro fd' buffer' c' hb
          cases hb
          exact hown
  | recv_return r now =>
      rcases handlerStep_recv_return hstep with ⟨fd, buffer, c, reads, pc, hpc, _, hnext, rfl⟩
      have hreads : Owned { s with reads := reads } := owned_of_eq h rfl rfl rfl rfl
      rcases hnext with ⟨buffer', rfl⟩ | rfl | ⟨_, msg, _, rfl⟩
      · -- Only going round the loop keeps the descriptor in hand.
        have hloyal := h.handlers hd hmem (by simp [hpc])
        refine owned_setHandler hreads t hd _ fun _ =>
          ⟨hloyal.slot, fun fd' c' hfd hc' => ?_, ?_⟩
        · exact hloyal.fd fd' c' (by rw [hpc]; exact hfd) hc'
        · exact fun fd' buffer' c' hb => by simp at hb
      · exact owned_move hreads ht (by simp [hpc]) _ rfl
      · exact owned_move hreads ht (by simp [hpc]) _ rfl
  | note now =>
      rcases handlerStep_note hstep with ⟨c, msg, hpc, rfl⟩
      have hset := owned_setSlot h hd.client (refreshed now (s.host.server.clients hd.client))
        rfl rfl
      exact owned_move hset ht (by simp [hpc]) _ rfl
  | switch =>
      rcases handlerStep_switch hstep with ⟨c, msg, hpc, rfl⟩
      refine owned_move h ht (by simp [hpc]) _ ?_
      split_ifs <;> rfl
  | handle now ok oks =>
      rcases handlerStep_handle hstep with ⟨c, msg, fd, hpc, _, rfl⟩
      exact owned_handle h ht (by simp [hpc]) c msg fd now ok oks
  | reply ok =>
      rcases handlerStep_reply hstep with ⟨c, msg, fd, reply, last, hpc, rfl⟩
      refine owned_deliver (owned_move h ht (by simp [hpc]) _ ?_) _
      split_ifs <;> rfl
  | cleanup =>
      rcases handlerStep_cleanup hstep with ⟨hpc, _, rfl | ⟨i, _, rfl⟩⟩
      · exact owned_move h ht (by simp [hpc]) _ rfl
      · -- A removal takes a slot and a descriptor away and gives out neither.
        have hmoved := owned_move h ht (by simp [hpc]) .ended rfl
        exact owned_of_eq (owned_shrinks hmoved (shrinks_remove hmoved.attached i)) rfl rfl rfl rfl

/-- A descriptor that no active slot has may be closed. -/
theorem owned_close (h : Owned s) (fd : Int)
    (hfd : ∀ i, (s.host.server.clients i).is_active = true →
      (s.host.server.clients i).socket_fd ≠ fd)
    (hmain : s.main.unregistered = none) :
    Owned { s with host := { s.host with conns := closeAll s.host.conns [fd] } } := by
  have hkept : ∀ fd', fd' ≠ fd → closeAll s.host.conns [fd] fd' = s.host.conns fd' := by
    intro fd' hne
    simp [closeAll, hne]
  have hsub : ∀ fd' c, closeAll s.host.conns [fd] fd' = some c → s.host.conns fd' = some c := by
    intro fd' c hc
    by_cases hne : fd' = fd
    · simp [closeAll, hne] at hc
    · rw [← hkept fd' hne, hc]
  refine ⟨⟨fun i hi => ?_, h.attached.apart, h.attached.detached⟩, fun i hi => ?_,
    fun hd hmem hpc => ?_, fun a ha => ?_, h.closable⟩
  · refine ⟨(h.attached.connected i hi).1, ?_⟩
    change (closeAll s.host.conns [fd] _).isSome = true
    rw [hkept _ (hfd i hi)]
    exact (h.attached.connected i hi).2
  · change closeAll s.host.conns [fd] _ = _
    rw [hkept _ (hfd i hi)]
    exact h.owner i hi
  · have hloyal := h.handlers hd hmem hpc
    exact ⟨hloyal.slot, fun fd' c hfd' hc => hloyal.fd fd' c hfd' (hsub fd' c hc),
      hloyal.blocked⟩
  · exact absurd (hmain.symm.trans ha) (by simp)

/-- A new connection gets a descriptor that nobody has and no handler is
    receiving from. -/
theorem owned_accept (h : Owned s) (fd : Int) (addr : SockAddrIn) (hnone : s.host.conns fd = none)
    (hok : ∀ hd ∈ s.threads, hd.pc.receiving ≠ some fd) :
    Owned { s with
      host := { s.host with conns := Function.update s.host.conns fd (some s.accepted) }
      accepted := s.accepted + 1
      main := .configuring { client_socket := fd, client_addr := addr, conn := s.accepted } } := by
  have hne : ∀ i, (s.host.server.clients i).is_active = true →
      (s.host.server.clients i).socket_fd ≠ fd := by
    intro i hi heq
    have hsome := (h.attached.connected i hi).2
    rw [heq, hnone] at hsome
    exact Bool.false_ne_true hsome
  refine ⟨⟨fun i hi => ⟨(h.attached.connected i hi).1, ?_⟩, h.attached.apart,
    h.attached.detached⟩, fun i hi => ?_, fun hd hmem hpc => ?_, fun a ha => ?_, fun a ha i hi => ?_⟩
  · change (Function.update s.host.conns fd _ _).isSome = true
    rw [Function.update_of_ne (hne i hi)]
    exact (h.attached.connected i hi).2
  · change Function.update s.host.conns fd _ _ = _
    rw [Function.update_of_ne (hne i hi)]
    exact h.owner i hi
  · have hloyal := h.handlers hd hmem hpc
    refine ⟨hloyal.slot, fun fd' c hfd' hc => ?_, hloyal.blocked⟩
    have hfd'' : fd' ≠ fd := fun heq => hok hd hmem (by rw [hfd', heq])
    change Function.update s.host.conns fd _ fd' = _ at hc
    rw [Function.update_of_ne hfd''] at hc
    exact hloyal.fd fd' c hfd' hc
  · cases ha
    exact Function.update_self fd _ s.host.conns
  · cases ha
    exact hne i hi

/-- A new client gets a slot that no handler works on, and a handler of its
    own. -/
theorem owned_register (h : Owned s) {a : Accepted} {id_msg : Message}
    (hmain : s.main = .registering a id_msg) {i : Fin MAX_CLIENTS} (hpos : 0 ≤ a.client_socket)
    (server : Server) (hactive : (server.clients i).is_active = true)
    (hfd : (server.clients i).socket_fd = a.client_socket)
    (hother : ∀ j, j ≠ i → server.clients j = s.host.server.clients j)
    (hok : ∀ hd ∈ s.threads, hd.client = i → hd.pc = .ended)
    (registered : List (Conn × List UInt8)) :
    Owned { s with
      host := { s.host with server := server }
      threads := s.threads ++ [{ client := i, conn := a.conn, pc := .test }]
      owner := Function.update s.owner i a.conn
      registered := registered
      main := .welcoming a } := by
  have hconn : s.host.conns a.client_socket = some a.conn := h.unregistered a (by rw [hmain]; rfl)
  have hapart := h.closable a (by rw [hmain]; rfl)
  have hattached : Attached { s.host with server := server } :=
    attached_filled h.attached server hactive hfd hpos (by rw [hconn]; rfl) hapart hother
  refine ⟨hattached, fun j hj => ?_, fun hd hmem hpc => ?_,
    fun b hb => by simp [Main.unregistered] at hb,
    fun b hb => by simp [Main.closable, Main.unregistered] at hb⟩
  · -- The owner recorded for the slot is the connection just accepted.
    change (server.clients j).is_active = true at hj
    change s.host.conns (server.clients j).socket_fd = some (Function.update s.owner i a.conn j)
    by_cases hji : j = i
    · rw [hji, hfd, hconn, Function.update_self]
    · rw [hother j hji] at hj ⊢
      rw [Function.update_of_ne hji]
      exact h.owner j hj
  · rcases List.mem_append.mp hmem with hold | hnew
    · -- A handler that has not ended has another slot, and keeps it.
      have hloyal := h.handlers hd hold hpc
      have hne : hd.client ≠ i := fun heq => hpc (hok hd hold heq)
      refine ⟨?_, hloyal.fd, hloyal.blocked⟩
      change (server.clients hd.client).is_active = true →
        Function.update s.owner i a.conn hd.client = hd.conn
      rw [hother _ hne, Function.update_of_ne hne]
      exact hloyal.slot
    · -- The new handler has just this slot and has read nothing yet.
      rw [List.mem_singleton.mp hnew]
      refine ⟨fun _ => Function.update_self i a.conn s.owner, fun fd c hrecv => ?_, ?_⟩
      · exact absurd hrecv (by simp [HandlerPc.receiving])
      · exact fun fd buffer c hb => by simp at hb

/-- A client whose handler could not be created leaves the table as it was, as
    far as descriptors go, and its own is closed. -/
theorem owned_register_failed (h : Owned s) {a : Accepted} {id_msg : Message}
    (hmain : s.main = .registering a id_msg) {i : Fin MAX_CLIENTS} (hpos : 0 ≤ a.client_socket)
    (hfree : freeSlot s.host.server = some i) (client_id : List UInt8) (now : TimeT) :
    Owned { s with
      host := Host.remove_client
        { s.host with server := enrolled s.host.server a client_id now i 0 } i
      main := .closing a } := by
  have hclosing : Owned { s with main := .closing a } := by
    refine owned_main h _ (fun b hb => by simp [Main.unregistered] at hb) fun b hb => ?_
    rw [hmain]
    exact hb
  have hclosed := owned_close hclosing a.client_socket (h.closable a (by rw [hmain]; rfl)) rfl
  -- Filling the slot in and clearing it again comes to clearing it.
  have hremoved : ∃ server, Chat.remove_client (enrolled s.host.server a client_id now i 0) i
      = (server, [a.client_socket]) ∧ (server.clients i).is_active = false ∧
        (server.clients i).socket_fd = -1 ∧
        ∀ j, j ≠ i → server.clients j = s.host.server.clients j := by
    have hself : (enrolled s.host.server a client_id now i 0).clients i
        = filled (s.host.server.clients i) a.client_socket a.client_addr client_id now :=
      setSlot_self _ _ _
    have hne : a.client_socket ≠ -1 := by omega
    rw [Chat.remove_client, hself]
    refine ⟨_, by simp [filled, hne]; rfl, ?_, ?_, fun j hj => ?_⟩
    · exact congrArg ServerClient.is_active (setSlot_self _ i _)
    · exact congrArg ServerClient.socket_fd (setSlot_self _ i _)
    · exact (setSlot_other _ _ hj).trans (setSlot_other _ _ hj)
  rcases hremoved with ⟨server, hremoved, hactive, hfd, hother⟩
  rw [Host.remove_client, hremoved]
  refine owned_shrinks hclosed ⟨fun j hj => ?_, fun j hj => ?_, fun _ => Or.inl rfl⟩
  · change (server.clients j).is_active = true at hj
    have hji : j ≠ i := by
      rintro rfl
      rw [hactive] at hj
      exact Bool.false_ne_true hj
    rw [hother j hji] at hj
    exact ⟨hj, congrArg ServerClient.socket_fd (hother j hji), rfl⟩
  · change (server.clients j).is_active = false at hj
    change (server.clients j).socket_fd = -1
    by_cases hji : j = i
    · rw [hji, hfd]
    · rw [hother j hji] at hj ⊢
      exact h.attached.detached j hj

theorem owned_mainStep (h : Owned s) {e : MainEvent} (hok : NoReuse s (.main e))
    (hstep : mainStep s e = some s') : Owned s' := by
  have hnone : ∀ a, (none : Option Accepted) = some a → s.main.unregistered = some a :=
    fun a ha => by cases ha
  have hnone' : ∀ a, (none : Option Accepted) = some a → s.main.closable = some a :=
    fun a ha => by cases ha
  have hserver : ∀ server : Server, server.clients = s.host.server.clients →
      Owned (s.setServer server) := fun server hclients =>
    owned_shrinks h (shrinks_clients h.attached server hclients)
  cases e with
  | start created =>
      rcases mainStep_start hstep with ⟨_, rfl⟩
      cases created with
      | true =>
          have hrun := hserver { s.host.server with is_running := true } rfl
          exact owned_of_eq (owned_main hrun .looping hnone hnone') rfl rfl rfl rfl
      | false => exact owned_of_eq (owned_main h .finished hnone hnone') rfl rfl rfl rfl
  | test =>
      rcases mainStep_test hstep with ⟨_, rfl⟩
      cases s.host.server.is_running with
      | true => exact owned_main h _ hnone hnone'
      | false => exact owned_main h _ hnone hnone'
  | accept r =>
      rcases mainStep_accept hstep with ⟨_, ⟨_, rfl⟩ | ⟨fd, addr, rfl, _, hfd, rfl⟩⟩
      · exact owned_main h _ hnone hnone'
      · exact owned_accept h fd addr hfd hok
  | configure ok =>
      rcases mainStep_configure hstep with ⟨a, hmain, rfl⟩
      cases ok with
      | true => exact owned_main h _ (by rw [hmain]; exact fun _ ha => ha)
                  (by rw [hmain]; exact fun _ ha => ha)
      | false => exact owned_main h _ hnone (by rw [hmain]; exact fun _ ha => ha)
  | identify r now =>
      rcases mainStep_identify hstep with ⟨a, hmain, rfl | ⟨id_msg, _, rfl⟩⟩
      · exact owned_main h _ hnone (by rw [hmain]; exact fun _ ha => ha)
      · exact owned_main h _ (by rw [hmain]; exact fun _ ha => ha)
          (by rw [hmain]; exact fun _ ha => ha)
  | register now created =>
      rcases mainStep_register hstep with ⟨a, id_msg, hmain, rfl⟩
      rcases register_cases a id_msg now created with
        ⟨err_msg, hs'⟩ | ⟨i, hpos, hfree, hvalid, hnew, hs'⟩
      · rw [hs']
        exact owned_main h _ hnone (by rw [hmain]; exact fun _ ha => ha)
      · rw [hs']
        cases created with
        | true =>
            have hself := setSlot_self s.host.server i
              { filled (s.host.server.clients i) a.client_socket a.client_addr
                  id_msg.sender_id.bytes now with thread_id := s.threads.length + 1 }
            rw [if_pos rfl]
            refine owned_register h hmain hpos (enrolled s.host.server a id_msg.sender_id.bytes now
              i (s.threads.length + 1)) (congrArg ServerClient.is_active hself)
              (congrArg ServerClient.socket_fd hself) (fun j hj => setSlot_other _ _ hj) ?_ _
            -- The handlers of the slot's earlier clients have all ended.
            have hclear : SlotIsClear s := hok
            rw [SlotIsClear, hmain] at hclear
            exact fun hd hmem heq => hclear hvalid hnew hd hmem (by rw [heq, hfree])
        | false => exact owned_register_failed h hmain hpos hfree id_msg.sender_id.bytes now
  | refuse ok =>
      rcases mainStep_refuse hstep with ⟨a, err_msg, hmain, rfl⟩
      have hsent : Owned (s.mainSend a err_msg ok) := owned_deliver h _
      refine owned_main hsent _ hnone ?_
      change ∀ b, _ = some b → s.main.closable = some b
      rw [hmain]
      exact fun _ hb => hb
  | close =>
      rcases mainStep_close hstep with ⟨a, hmain, rfl⟩
      have hclosed := owned_close h a.client_socket (h.closable a (by rw [hmain]; rfl))
        (by rw [hmain]; rfl)
      exact owned_main hclosed .looping hnone hnone'
  | welcome now ok =>
      rcases mainStep_welcome hstep with ⟨a, message, _, rfl⟩
      have hsent : Owned (s.mainSend a message ok) := owned_deliver h _
      exact owned_main hsent .looping hnone hnone'
  | lock =>
      rcases mainStep_lock hstep with ⟨_, rfl⟩
      exact owned_main h _ hnone hnone'
  | join =>
      rcases mainStep_join hstep with ⟨n, _, rfl | ⟨hn, rfl⟩ | rfl⟩
      · exact owned_main h _ hnone hnone'
      · have hset := owned_setSlot h ⟨n, hn⟩
          { s.host.server.clients ⟨n, hn⟩ with thread_id := 0 } rfl rfl
        exact owned_main hset _ hnone hnone'
      · have hgone := hserver { s.host.server with server_socket := -1 } rfl
        exact owned_main hgone .returned hnone hnone'

theorem owned_keepaliveStep (h : Owned s) {e : KeepaliveEvent}
    (hstep : keepaliveStep s e = some s') : Owned s' := by
  cases e with
  | test =>
      rw [keepaliveStep_test hstep]
      exact owned_of_eq h rfl rfl rfl rfl
  | sweep input =>
      have hsweep := shrinks_sweep input h.attached
      rcases keepaliveStep_sweep hstep with ⟨_, rfl⟩
      generalize sweep input s.host = result at hsweep ⊢
      exact owned_of_eq (owned_shrinks h hsweep) rfl rfl rfl rfl

theorem owned_stopStep (h : Owned s) {e : StopEvent} (hstep : stopStep s e = some s') :
    Owned s' := by
  cases e with
  | signal =>
      rcases stopStep_signal hstep with rfl | rfl
      · exact h
      · have hrun := shrinks_clients h.attached { s.host.server with is_running := false } rfl
        exact owned_of_eq (owned_shrinks h hrun) rfl rfl rfl rfl
  | close =>
      rw [stopStep_close hstep]
      have hsocket := shrinks_clients h.attached { s.host.server with server_socket := -1 } rfl
      exact owned_of_eq (owned_shrinks h hsocket) rfl rfl rfl rfl
  | notify now oks =>
      have hstop := shrinks_stopAll now oks h.attached
      rcases stopStep_notify hstep with ⟨_, rfl⟩
      generalize stopAll now oks s.host = result at hstop ⊢
      exact owned_of_eq (owned_shrinks h hstop) rfl rfl rfl rfl
  | join =>
      rw [stopStep_join hstep]
      exact owned_of_eq h rfl rfl rfl rfl

/-- The invariant survives every step that reuses nothing. -/
theorem owned_step (h : Owned s) {e : Event} (hok : NoReuse s e) (hstep : step s e = some s') :
    Owned s' := by
  cases e with
  | handler t e =>
      rcases Option.bind_eq_some_iff.mp hstep with ⟨hd, ht, hmove⟩
      exact owned_handlerStep h ht hmove
  | main e => exact owned_mainStep h hok hstep
  | keepalive e => exact owned_keepaliveStep h hstep
  | stop e => exact owned_stopStep h hstep

/-- A handler that keeps to its connection reads and removes only what is
    its. In the cleanup section its slot is still its own, or inactive, in
    which case the search finds nobody. -/
theorem separate_handlerStep (h : Owned s) (hsep : Separate s) {t : Nat} {hd : Handler}
    (ht : s.threads[t]? = some hd) {e : HandlerEvent} (hstep : handlerStep s t hd e = some s') :
    Separate s' := by
  have hmem := List.mem_of_getElem? ht
  cases e with
  | recv_return r now =>
      rcases handlerStep_recv_return hstep with ⟨fd, buffer, c, reads, pc, hpc, hreads, _, rfl⟩
      refine ⟨fun r hr => ?_, hsep.removals⟩
      rcases hreads with rfl | rfl
      · exact hsep.reads r hr
      · rcases List.mem_append.mp hr with hr | hr
        · exact hsep.reads r hr
        · -- The bytes come from the connection the call has been waiting on.
          rw [List.mem_singleton.mp hr]
          exact (h.handlers hd hmem (by simp [hpc])).blocked fd buffer c hpc
  | cleanup =>
      rcases handlerStep_cleanup hstep with ⟨hpc, _, rfl | ⟨i, hfound, rfl⟩⟩
      · exact ⟨hsep.reads, hsep.removals⟩
      · refine ⟨hsep.reads, fun r hr => ?_⟩
        rcases List.mem_append.mp hr with hr | hr
        · exact hsep.removals r hr
        · -- The search found an active slot with the descriptor of the handler's
          -- own slot, and descriptors tell active slots apart.
          have hloyal := h.handlers hd hmem (by simp [hpc])
          rcases find_client_by_socket_some hfound with ⟨hpos, hactive, hfd⟩
          have hslot := (slot_fd h hloyal (by omega)).1
          rw [List.mem_singleton.mp hr, h.attached.apart i hd.client hactive hslot hfd]
          exact hloyal.slot hslot
  | test => rw [(handlerStep_test hstep).2]; exact ⟨hsep.reads, hsep.removals⟩
  | call => rw [(handlerStep_call hstep).2]; exact ⟨hsep.reads, hsep.removals⟩
  | recv =>
      rcases handlerStep_recv hstep with ⟨fd, buffer, _, ⟨_, rfl⟩ | ⟨c, _, rfl⟩⟩
      · exact ⟨hsep.reads, hsep.removals⟩
      · exact ⟨hsep.reads, hsep.removals⟩
  | note now =>
      rcases handlerStep_note hstep with ⟨c, msg, _, rfl⟩
      exact ⟨hsep.reads, hsep.removals⟩
  | switch =>
      rcases handlerStep_switch hstep with ⟨c, msg, _, rfl⟩
      exact ⟨hsep.reads, hsep.removals⟩
  | handle now ok oks =>
      rcases handlerStep_handle hstep with ⟨c, msg, fd, _, _, rfl⟩
      rcases handle_frame (s := s) (t := t) (h := hd) c msg fd now ok oks with
        ⟨_, _, _, _, hreads, hremovals⟩
      exact ⟨by rw [hreads]; exact hsep.reads, by rw [hremovals]; exact hsep.removals⟩
  | reply ok =>
      rcases handlerStep_reply hstep with ⟨c, msg, fd, reply, last, _, rfl⟩
      exact ⟨hsep.reads, hsep.removals⟩

/-- Only handlers read and remove on behalf of a connection. -/
theorem separate_elsewhere (hsep : Separate s) (hstep : Elsewhere s s') : Separate s' :=
  ⟨by rw [hstep.reads]; exact hsep.reads, by rw [hstep.removals]; exact hsep.removals⟩

theorem separate_step (h : Owned s) (hsep : Separate s) {e : Event} (hstep : step s e = some s') :
    Separate s' := by
  cases e with
  | handler t e =>
      rcases Option.bind_eq_some_iff.mp hstep with ⟨hd, ht, hmove⟩
      exact separate_handlerStep h hsep ht hmove
  | main e => exact separate_elsewhere hsep (mainStep_elsewhere hstep)
  | keepalive e => exact separate_elsewhere hsep (keepaliveStep_elsewhere hstep)
  | stop e => exact separate_elsewhere hsep (stopStep_elsewhere hstep)

theorem owned_start {port server_socket : Int} (h : start port server_socket = some s) :
    Owned s ∧ Separate s := by
  rcases Option.map_eq_some_iff.mp h with ⟨server, hinit, rfl⟩
  obtain rfl := server_init_some hinit
  have hinactive : ∀ i : Fin MAX_CLIENTS, freshSlot.is_active = true → False :=
    fun _ hi => Bool.false_ne_true hi
  refine ⟨⟨⟨fun i hi => (hinactive i hi).elim, fun i j hi => (hinactive i hi).elim,
    fun _ _ => rfl⟩, fun i hi => (hinactive i hi).elim, fun hd hmem => ?_, fun a ha => ?_,
    fun a ha => ?_⟩, fun r hr => ?_, fun r hr => ?_⟩
  · exact absurd hmem List.not_mem_nil
  · cases ha
  · cases ha
  · exact absurd hr List.not_mem_nil
  · exact absurd hr List.not_mem_nil

end Preservation

/-- In a run that gives away nothing a handler still works on, every handler
    reads from its own connection only and removes no registration but its
    own. -/
theorem separate_of_reaches (port server_socket : Int) (s t : State)
    (hstart : start port server_socket = some s) (hreach : Reaches step NoReuse s t) :
    Separate t := by
  have hinv : ∀ v e w, Owned v ∧ Separate v → NoReuse v e → step v e = some w →
      Owned w ∧ Separate w := fun v e w hv hok hstep =>
    ⟨owned_step hv.1 hok hstep, separate_step hv.1 hv.2 hstep⟩
  exact (hreach.invariant (owned_start hstart) hinv).2

/-- The first client leaves before the second comes, which gets the slot and
    the descriptor that are free again. -/
def succession : List Event :=
  [.main (.start true)] ++ connect 4 "ann" 0 ++ awaits 0 ++
    [.handler 0 (.recv_return .eof 0), .handler 0 .cleanup] ++ connect 4 "bob" 0 ++ awaits 1 ++
    [.handler 1 (.recv_return (.data [0]) 0)]

theorem separate_of_reaches_run :
    ∃ s t, start 5000 3 = some s ∧ run step s succession = some t ∧
      t.removals = [(0, 0)] ∧ t.reads = [(1, 1)] ∧ Separate t := by
  have hend : ((start 5000 3).bind fun s => (run step s succession).map fun t =>
      (decide (Meets step NoReuse s succession), t.removals, t.reads))
        = some (true, [(0, 0)], [(1, 1)]) := by decide +kernel
  rcases Option.bind_eq_some_iff.mp hend with ⟨s, hstart, hmap⟩
  rcases Option.map_eq_some_iff.mp hmap with ⟨t, hrun, htriple⟩
  rcases Prod.mk.inj htriple with ⟨hok, hlogs⟩
  rcases Prod.mk.inj hlogs with ⟨hremovals, hreads⟩
  exact ⟨s, t, hstart, hrun, hremovals, hreads,
    separate_of_reaches 5000 3 s t hstart (reaches_of_run hrun (of_decide_eq_true hok))⟩

/-- A sweep a minute after the start, in which all messages can be sent. -/
def aMinuteLater : List Event :=
  [.keepalive .test, .keepalive (.sweep { now := 60, stamp := 60, oks := fun _ => true })]

/-- The keepalive thread removes the first client while its handler waits in
    `recv`. The second client gets its slot and its descriptor. Then the first
    client answers after all, and its handler goes round and receives from the
    second client's connection; when that ends, it removes the second client. -/
def takeover : List Event :=
  [.main (.start true)] ++ connect 4 "ann" 0 ++ awaits 0 ++
    aMinuteLater ++ aMinuteLater ++ aMinuteLater ++ connect 4 "bob" 60 ++
    serves 0 (create_message .MSG_ALIVE_RESPONSE (bytes "ann") [] [] 60) 60 ++
    awaits 0 ++ [.handler 0 (.recv_return (.data [0]) 60), .handler 0 .recv,
      .handler 0 (.recv_return .eof 60), .handler 0 .cleanup]

theorem slot_reused :
    ¬ ∀ s t : State, start 5000 3 = some s → Reachable step s t → Separate t := by
  intro hclaim
  have hend : ((start 5000 3).bind fun s => run step s takeover).map
      (fun t => (t.reads, t.removals)) = some ([(0, 0), (0, 1)], [(0, 1)]) := by decide +kernel
  rcases Option.map_eq_some_iff.mp hend with ⟨t, hbind, hlogs⟩
  rcases Option.bind_eq_some_iff.mp hbind with ⟨s, hstart, hrun⟩
  have hreads := (hclaim s t hstart (reachable_of_run hrun)).reads
  rw [(Prod.mk.inj hlogs).1] at hreads
  exact absurd (hreads (0, 1) (by simp)) (by decide)

end Lab10

end OsLabs
