import OsLabs.Chat.Registry

/-!
# The Table and the Descriptors of the TCP Server

What a mutex-protected section of `lab10/src/server.c` works on: the server's
record, and the descriptors `accept` has returned. Unlike lab11, where all
slots share one descriptor, a slot of lab10 has a descriptor of its own, and
closing it frees the number for the next connection.

A connection is numbered by its place in the order of `accept`, so it keeps
its identity when a descriptor is used again. Which connection a descriptor
stands for is the process's table of open files, `conns`.

A call of `send_message_protocol` is seen here from the outside: whether all
bytes were accepted is up to the operating system, and `Host.send` is what
arrives if they were. `Delivery.cause` is not data of the program. It records
for whose message a handler sends, and is `none` for what the server sends on
its own account.

## Main definitions

* `Conn`, `Host`: Connections, and the table with the open descriptors.
* `Delivery`, `Host.send`: One message delivered, and one attempt to.
* `Host.remove_client`: Removal, with the descriptors it closes.
* `broadcast_message`, `send_private_message`: The two deliveries.
* `sweepSlot`, `sweep`: One round of `keepalive_monitor`.
* `stopSlot`, `stopAll`: The loop of `server_stop`.
* `Attached`: Every active slot has an open descriptor, and its own.
* `Shrinks`: What a section does that registers nobody.

## Theorems

* `shrinks_setSlot`, `shrinks_clients`, `shrinks_remove`, `shrinks_sweep`, `shrinks_stopAll`: The
  sections that register nobody.
* `sweepSlot_cases`: What a visit of the keepalive loop can do.
* `Attached.shrinks`: They keep the table attached.
* `attached_filled`: So does filling in a slot with a new descriptor.
* `send_spec`: What arrives of a message, and where.
* `broadcast_message_mem`, `send_private_message_mem`, `sweep_cause`, `stopAll_cause`: What is
  delivered, and for whom.
-/

namespace OsLabs

namespace Lab10

open Chat

/-- A connection, numbered in the order of `accept`. -/
abbrev Conn := Nat

/-- The server's record, and the connection each open descriptor stands for. -/
structure Host where
  server : Server
  conns : Int → Option Conn

/-- A message that has been delivered in full. -/
structure Delivery where
  dest : Conn
  message : Message
  /-- The message whose handling led to this one, and where it came from. -/
  cause : Option (Conn × Message)
  deriving DecidableEq

/-- `send_message_protocol`: with `ok` the operating system accepts all bytes.
    The value returned is positive exactly when there is a delivery. -/
def Host.send (host : Host) (socketfd : Int) (message : Message)
    (cause : Option (Conn × Message)) (ok : Bool) : Option Delivery :=
  if socketfd < 0 then none
  else match host.conns socketfd with
    -- The descriptor is closed, and `send` fails.
    | none => none
    | some c => if ok then some { dest := c, message := message, cause := cause } else none

/-- Descriptors passed to `close` stand for no connection. -/
def closeAll (conns : Int → Option Conn) (fds : List Int) : Int → Option Conn :=
  fun fd => if fds.contains fd then none else conns fd

/-- `remove_client`, with its effect on the descriptors. -/
def Host.remove_client (host : Host) (i : Fin MAX_CLIENTS) : Host where
  server := (Chat.remove_client host.server i).1
  conns := closeAll host.conns (Chat.remove_client host.server i).2

def serverName : List UInt8 := bytes "SERVER"

/-- `broadcast_message`: what is delivered, in slot order. -/
def broadcast_message (host : Host) (message : Message) (sender_socket : Int)
    (cause : Option (Conn × Message)) (oks : Fin MAX_CLIENTS → Bool) : List Delivery :=
  (List.finRange MAX_CLIENTS).flatMap fun i =>
    let c := host.server.clients i
    if c.is_active && decide (c.socket_fd ≠ sender_socket) then
      (host.send c.socket_fd message cause (oks i)).toList
    else []

/-- `send_private_message`: what is delivered. -/
def send_private_message (host : Host) (message : Message) (recipient_id : List UInt8)
    (cause : Option (Conn × Message)) (ok : Bool) : List Delivery :=
  match find_client_by_id host.server recipient_id with
  | none => []
  | some i => (host.send (host.server.clients i).socket_fd message cause ok).toList

/-- What a sweep reads: the time it compares with, the time in the messages it
    builds, and whether sending to each slot succeeds. -/
structure SweepInput where
  now : TimeT
  stamp : TimeT
  oks : Fin MAX_CLIENTS → Bool

/-- The body of the loop of `keepalive_monitor` for one slot, with what has
    been delivered so far. -/
def sweepSlot (input : SweepInput) (acc : Host × List Delivery) (i : Fin MAX_CLIENTS) :
    Host × List Delivery :=
  let c := acc.1.server.clients i
  if !c.is_active then acc
  else if silent input.now c then
    let counted : Host := { acc.1 with server := acc.1.server.setSlot i (missed c) }
    if (missed c).inactive_count ≥ MAX_INACTIVE_COUNT then (counted.remove_client i, acc.2)
    else match counted.send c.socket_fd
        (create_message .MSG_ALIVE serverName c.client_id.bytes [] input.stamp) none
        (input.oks i) with
      | none => (counted.remove_client i, acc.2)
      | some d => (counted, acc.2 ++ [d])
  else acc

/-- One round of `keepalive_monitor`, between taking and releasing the
    mutex. -/
def sweep (input : SweepInput) (host : Host) : Host × List Delivery :=
  (List.finRange MAX_CLIENTS).foldl (sweepSlot input) (host, [])

/-- A slot as `server_stop` leaves it: the thread and the name stay. -/
def stopped (c : ServerClient) : ServerClient :=
  { c with socket_fd := -1, is_active := false }

/-- The body of the loop of `server_stop` for one slot. -/
def stopSlot (now : TimeT) (oks : Fin MAX_CLIENTS → Bool) (acc : Host × List Delivery)
    (i : Fin MAX_CLIENTS) : Host × List Delivery :=
  let c := acc.1.server.clients i
  if c.is_active then
    ({ server := acc.1.server.setSlot i (stopped c)
       conns := closeAll acc.1.conns [c.socket_fd] },
      acc.2 ++ (acc.1.send c.socket_fd (create_message .MSG_STOP serverName c.client_id.bytes
        (bytes "Server shutting down") now) none (oks i)).toList)
  else acc

/-- The section of `server_stop`. -/
def stopAll (now : TimeT) (oks : Fin MAX_CLIENTS → Bool) (host : Host) : Host × List Delivery :=
  (List.finRange MAX_CLIENTS).foldl (stopSlot now oks) (host, [])

/-- Every active slot has an open descriptor, which no other active slot has,
    and a slot that is not active has none. -/
structure Attached (host : Host) : Prop where
  connected : ∀ i, (host.server.clients i).is_active = true →
    0 ≤ (host.server.clients i).socket_fd ∧
      (host.conns (host.server.clients i).socket_fd).isSome = true
  apart : ∀ i j, (host.server.clients i).is_active = true →
    (host.server.clients j).is_active = true →
    (host.server.clients i).socket_fd = (host.server.clients j).socket_fd → i = j
  detached : ∀ i, (host.server.clients i).is_active = false →
    (host.server.clients i).socket_fd = -1

/-- A slot may be filled in with an open descriptor that is in no other. -/
theorem attached_filled {host : Host} (h : Attached host) {i : Fin MAX_CLIENTS} {fd : Int}
    (server : Server) (hactive : (server.clients i).is_active = true)
    (hfd : (server.clients i).socket_fd = fd) (hpos : 0 ≤ fd)
    (hopen : (host.conns fd).isSome = true)
    (hapart : ∀ j, (host.server.clients j).is_active = true →
      (host.server.clients j).socket_fd ≠ fd)
    (hother : ∀ j, j ≠ i → server.clients j = host.server.clients j) :
    Attached { host with server := server } := by
  constructor
  case connected =>
    intro j hj
    change 0 ≤ (server.clients j).socket_fd ∧ (host.conns (server.clients j).socket_fd).isSome
    change (server.clients j).is_active = true at hj
    by_cases hji : j = i
    · rw [hji, hfd]
      exact ⟨hpos, hopen⟩
    · rw [hother j hji] at hj ⊢
      exact h.connected j hj
  case apart =>
    intro j k hj hk hjk
    change (server.clients j).is_active = true at hj
    change (server.clients k).is_active = true at hk
    change (server.clients j).socket_fd = (server.clients k).socket_fd at hjk
    -- No slot but the new one has the new descriptor.
    by_cases hji : j = i
    · by_cases hki : k = i
      · rw [hji, hki]
      · rw [hother k hki] at hk hjk
        rw [hji, hfd] at hjk
        exact absurd hjk.symm (hapart k hk)
    · rw [hother j hji] at hj hjk
      by_cases hki : k = i
      · rw [hki, hfd] at hjk
        exact absurd hjk (hapart j hj)
      · rw [hother k hki] at hk hjk
        exact h.apart j k hj hk hjk
  case detached =>
    intro j hj
    change (server.clients j).is_active = false at hj
    change (server.clients j).socket_fd = -1
    by_cases hji : j = i
    · rw [hji, hactive] at hj
      exact absurd hj.symm Bool.false_ne_true
    · rw [hother j hji] at hj ⊢
      exact h.detached j hj

/-- What a section does that registers nobody. Active slots stay attached as
    they are or become inactive and lose their descriptor, and no descriptor
    is closed but one of a slot that was active. -/
structure Shrinks (a b : Host) : Prop where
  active : ∀ i, (b.server.clients i).is_active = true →
    (a.server.clients i).is_active = true ∧
      (b.server.clients i).socket_fd = (a.server.clients i).socket_fd ∧
      b.conns (a.server.clients i).socket_fd = a.conns (a.server.clients i).socket_fd
  detached : ∀ i, (b.server.clients i).is_active = false →
    (b.server.clients i).socket_fd = -1
  conns : ∀ fd, b.conns fd = a.conns fd ∨ b.conns fd = none ∧
    ∃ i, (a.server.clients i).is_active = true ∧ (a.server.clients i).socket_fd = fd

section Sections

variable {a b c : Host}

theorem shrinks_refl (h : Attached a) : Shrinks a a :=
  ⟨fun _ hi => ⟨hi, rfl, rfl⟩, h.detached, fun _ => Or.inl rfl⟩

theorem Shrinks.trans (hab : Shrinks a b) (hbc : Shrinks b c) : Shrinks a c := by
  refine ⟨fun i hi => ?_, hbc.detached, fun fd => ?_⟩
  · -- What is active in the end was active all along, with one descriptor.
    rcases hbc.active i hi with ⟨hb, hfd, hconns⟩
    rcases hab.active i hb with ⟨ha, hfd', hconns'⟩
    rw [hfd'] at hconns
    exact ⟨ha, hfd.trans hfd', hconns.trans hconns'⟩
  · rcases hab.conns fd with hsame | hclosed
    · rcases hbc.conns fd with hsame' | ⟨hnone, i, hb, hi⟩
      · exact Or.inl (hsame'.trans hsame)
      · rcases hab.active i hb with ⟨ha, hfd, _⟩
        exact Or.inr ⟨hnone, i, ha, hfd.symm.trans hi⟩
    · -- What is closed stays closed.
      refine Or.inr ⟨?_, hclosed.2⟩
      rcases hbc.conns fd with hsame' | hnone
      · exact hsame'.trans hclosed.1
      · exact hnone.1

/-- A table that shrinks stays attached. -/
theorem Attached.shrinks (h : Attached a) (hab : Shrinks a b) : Attached b := by
  refine ⟨fun i hi => ?_, fun i j hi hj hfd => ?_, hab.detached⟩
  · rcases hab.active i hi with ⟨ha, hfd, hconns⟩
    rw [hfd, hconns]
    exact h.connected i ha
  · rcases hab.active i hi with ⟨hai, hfdi, _⟩
    rcases hab.active j hj with ⟨haj, hfdj, _⟩
    exact h.apart i j hai haj (hfdi.symm.trans (hfd.trans hfdj))

/-- Rewriting a slot without touching its descriptor. -/
theorem shrinks_setSlot (h : Attached a) (i : Fin MAX_CLIENTS) (c : ServerClient)
    (hactive : c.is_active = (a.server.clients i).is_active)
    (hfd : c.socket_fd = (a.server.clients i).socket_fd) :
    Shrinks a { a with server := a.server.setSlot i c } := by
  refine ⟨fun j => ?_, fun j => ?_, fun _ => Or.inl rfl⟩
  · by_cases hj : j = i
    · rw [hj, setSlot_self, hactive, hfd]
      exact fun hi => ⟨hi, rfl, rfl⟩
    · rw [setSlot_other _ _ hj]
      exact fun hi => ⟨hi, rfl, rfl⟩
  · by_cases hj : j = i
    · rw [hj, setSlot_self, hactive, hfd]
      exact h.detached i
    · rw [setSlot_other _ _ hj]
      exact h.detached j

/-- Changing what the record holds beside the table. -/
theorem shrinks_clients (h : Attached a) (server : Server)
    (hclients : server.clients = a.server.clients) : Shrinks a { a with server := server } :=
  ⟨by simp [hclients], by rw [hclients]; exact h.detached, fun _ => Or.inl rfl⟩

/-- Giving up an active slot and closing its descriptor. No other active slot
    has that descriptor, so all of them stay connected. -/
theorem shrinks_drop (h : Attached a) (i : Fin MAX_CLIENTS) (c : ServerClient) (count : Int)
    (hactive : (a.server.clients i).is_active = true) (hc : c.is_active = false)
    (hfd : c.socket_fd = -1) :
    Shrinks a
      { server := { a.server.setSlot i c with client_count := count }
        conns := closeAll a.conns [(a.server.clients i).socket_fd] } := by
  refine ⟨fun j => ?_, fun j => ?_, fun fd => ?_⟩
  · change ((a.server.setSlot i c).clients j).is_active = true → _
    by_cases hj : j = i
    · rw [hj, setSlot_self, hc]
      exact fun hi => absurd hi Bool.false_ne_true
    · -- Another active slot has another descriptor, which is not closed.
      rw [setSlot_other _ _ hj]
      intro hi
      have hne : (a.server.clients j).socket_fd ≠ (a.server.clients i).socket_fd :=
        fun heq => hj (h.apart j i hi hactive heq)
      exact ⟨hi, rfl, by simp [closeAll, hne]⟩
  · change ((a.server.setSlot i c).clients j).is_active = false →
      ((a.server.setSlot i c).clients j).socket_fd = -1
    by_cases hj : j = i
    · rw [hj, setSlot_self]
      exact fun _ => hfd
    · rw [setSlot_other _ _ hj]
      exact h.detached j
  · by_cases hsame : fd = (a.server.clients i).socket_fd
    · refine Or.inr ⟨?_, i, hactive, hsame.symm⟩
      simp [closeAll, hsame]
    · refine Or.inl ?_
      simp [closeAll, hsame]

theorem shrinks_remove (h : Attached a) (i : Fin MAX_CLIENTS) : Shrinks a (a.remove_client i) := by
  rw [Host.remove_client, Chat.remove_client]
  by_cases hactive : (a.server.clients i).is_active = true
  · have hne : (a.server.clients i).socket_fd ≠ -1 := by
      have hpos := (h.connected i hactive).1
      omega
    rw [if_pos hactive, if_neg hne]
    exact shrinks_drop h i _ _ hactive rfl rfl
  · rw [if_neg hactive]
    exact shrinks_refl h

/-- A visit of the keepalive loop does nothing, or it counts a miss of a silent
    client, which is then removed or reminded. -/
theorem sweepSlot_cases (input : SweepInput) (acc : Host × List Delivery) (i : Fin MAX_CLIENTS) :
    sweepSlot input acc i = acc ∨
    ∃ c counted, c = acc.1.server.clients i ∧ c.is_active = true ∧ silent input.now c = true ∧
      counted = { acc.1 with server := acc.1.server.setSlot i (missed c) } ∧
      (sweepSlot input acc i = (counted.remove_client i, acc.2) ∨
        ∃ d, (missed c).inactive_count < MAX_INACTIVE_COUNT ∧
          counted.send c.socket_fd
            (create_message .MSG_ALIVE serverName c.client_id.bytes [] input.stamp) none
            (input.oks i) = some d ∧
          sweepSlot input acc i = (counted, acc.2 ++ [d])) := by
  unfold sweepSlot
  by_cases hactive : (acc.1.server.clients i).is_active = true
  · rw [if_neg (by rw [hactive]; decide)]
    by_cases hsilent : silent input.now (acc.1.server.clients i) = true
    · rw [if_pos hsilent]
      refine Or.inr ⟨_, _, rfl, hactive, hsilent, rfl, ?_⟩
      by_cases hcount : (missed (acc.1.server.clients i)).inactive_count ≥ MAX_INACTIVE_COUNT
      · exact Or.inl (if_pos hcount)
      · rw [if_neg hcount]
        split
        · exact Or.inl rfl
        · rename_i d hsend
          exact Or.inr ⟨d, Int.lt_of_not_ge hcount, hsend, rfl⟩
    · exact Or.inl (if_neg hsilent)
  · exact Or.inl (if_pos (by rw [Bool.eq_false_iff.mpr hactive]; rfl))

theorem shrinks_sweepSlot (input : SweepInput) (acc : Host × List Delivery) (i : Fin MAX_CLIENTS)
    (h : Attached acc.1) : Shrinks acc.1 (sweepSlot input acc i).1 := by
  rcases sweepSlot_cases input acc i with hsame | ⟨c, counted, rfl, -, -, rfl, hdone⟩
  · rw [hsame]
    exact shrinks_refl h
  · -- The miss is counted first, which leaves the slot attached.
    have hcounted := shrinks_setSlot h i (missed (acc.1.server.clients i)) rfl rfl
    rcases hdone with hremoved | ⟨d, -, -, hreminded⟩
    · rw [hremoved]
      exact hcounted.trans (shrinks_remove (h.shrinks hcounted) i)
    · rw [hreminded]
      exact hcounted

theorem shrinks_stopSlot (now : TimeT) (oks : Fin MAX_CLIENTS → Bool) (acc : Host × List Delivery)
    (i : Fin MAX_CLIENTS) (h : Attached acc.1) :
    Shrinks acc.1 (stopSlot now oks acc i).1 := by
  unfold stopSlot
  by_cases hactive : (acc.1.server.clients i).is_active = true
  · rw [if_pos hactive]
    exact shrinks_drop h i _ acc.1.server.client_count hactive rfl rfl
  · rw [if_neg hactive]
    exact shrinks_refl h

/-- A loop over the slots shrinks the table if its body does. -/
theorem shrinks_foldl {f : Host × List Delivery → Fin MAX_CLIENTS → Host × List Delivery}
    (hf : ∀ acc i, Attached acc.1 → Shrinks acc.1 (f acc i).1) (h : Attached a)
    (l : List (Fin MAX_CLIENTS)) (sent : List Delivery) :
    Shrinks a (l.foldl f (a, sent)).1 := by
  have hall : ∀ acc : Host × List Delivery, Attached acc.1 ∧ Shrinks a acc.1 →
      Attached (l.foldl f acc).1 ∧ Shrinks a (l.foldl f acc).1 :=
    foldl_preserves (fun acc i hacc =>
      ⟨hacc.1.shrinks (hf acc i hacc.1), hacc.2.trans (hf acc i hacc.1)⟩) l
  exact (hall (a, sent) ⟨h, shrinks_refl h⟩).2

theorem shrinks_sweep (input : SweepInput) (h : Attached a) : Shrinks a (sweep input a).1 := by
  rw [sweep]
  exact shrinks_foldl (shrinks_sweepSlot input) h _ _

theorem shrinks_stopAll (now : TimeT) (oks : Fin MAX_CLIENTS → Bool) (h : Attached a) :
    Shrinks a (stopAll now oks a).1 := by
  rw [stopAll]
  exact shrinks_foldl (shrinks_stopSlot now oks) h _ _

end Sections

section Deliveries

/-- What arrives is the message that is sent, at the connection the descriptor
    stands for. -/
theorem send_spec {host : Host} {fd : Int} {message : Message} {cause : Option (Conn × Message)}
    {ok : Bool} {d : Delivery} (h : d ∈ (host.send fd message cause ok).toList) :
    ∃ c, host.conns fd = some c ∧ d = { dest := c, message := message, cause := cause } := by
  unfold Host.send at h
  by_cases hfd : fd < 0
  · simp [hfd] at h
  · rw [if_neg hfd] at h
    -- Nothing is delivered over a descriptor that stands for no connection.
    cases hc : host.conns fd with
    | none => simp [hc] at h
    | some c =>
        cases ok with
        | false => simp [hc] at h
        | true => exact ⟨c, rfl, by simpa [hc] using h⟩

theorem send_mem {host : Host} {fd : Int} {message : Message} {cause : Option (Conn × Message)}
    {ok : Bool} {d : Delivery} (h : d ∈ (host.send fd message cause ok).toList) :
    d.message = message ∧ d.cause = cause := by
  rcases send_spec h with ⟨c, _, hd⟩
  rw [hd]
  exact ⟨rfl, rfl⟩

theorem broadcast_message_mem {host : Host} {message : Message} {fd : Int}
    {cause : Option (Conn × Message)} {oks : Fin MAX_CLIENTS → Bool} {d : Delivery}
    (h : d ∈ broadcast_message host message fd cause oks) :
    d.message = message ∧ d.cause = cause := by
  rcases List.mem_flatMap.mp h with ⟨i, _, hi⟩
  simp only [] at hi
  split_ifs at hi
  · exact send_mem hi
  · exact absurd hi List.not_mem_nil

theorem send_private_message_mem {host : Host} {message : Message} {recipient_id : List UInt8}
    {cause : Option (Conn × Message)} {ok : Bool} {d : Delivery}
    (h : d ∈ send_private_message host message recipient_id cause ok) :
    d.message = message ∧ d.cause = cause := by
  unfold send_private_message at h
  cases hfound : find_client_by_id host.server recipient_id with
  | none => simp [hfound] at h
  | some i =>
      rw [hfound] at h
      exact send_mem h

/-- A loop over the slots delivers nothing on a client's behalf if its body
    does not. -/
theorem foldl_cause {f : Host × List Delivery → Fin MAX_CLIENTS → Host × List Delivery}
    (hf : ∀ acc i, (∀ d ∈ acc.2, d.cause = none) → ∀ d ∈ (f acc i).2, d.cause = none)
    (l : List (Fin MAX_CLIENTS)) (host : Host) :
    ∀ d ∈ (l.foldl f (host, [])).2, d.cause = none := by
  have hall : ∀ acc : Host × List Delivery, (∀ d ∈ acc.2, d.cause = none) →
      ∀ d ∈ (l.foldl f acc).2, d.cause = none := foldl_preserves hf l
  exact hall (host, []) fun d hd => absurd hd List.not_mem_nil

theorem sweep_cause (input : SweepInput) (host : Host) :
    ∀ d ∈ (sweep input host).2, d.cause = none := by
  rw [sweep]
  refine foldl_cause (fun acc i hacc d hd => ?_) _ host
  rcases sweepSlot_cases input acc i with hsame | ⟨c, counted, rfl, -, -, rfl, hdone⟩
  · rw [hsame] at hd
    exact hacc d hd
  · rcases hdone with hremoved | ⟨sent, -, hsend, hreminded⟩
    · rw [hremoved] at hd
      exact hacc d hd
    · -- The keepalive message is the only thing a visit can send.
      rw [hreminded] at hd
      rcases List.mem_append.mp hd with hd | hd
      · exact hacc d hd
      · exact (send_mem (by rw [hsend]; exact hd)).2

theorem stopAll_cause (now : TimeT) (oks : Fin MAX_CLIENTS → Bool) (host : Host) :
    ∀ d ∈ (stopAll now oks host).2, d.cause = none := by
  rw [stopAll]
  refine foldl_cause (fun acc i hacc d hd => ?_) _ host
  unfold stopSlot at hd
  simp only [] at hd
  split_ifs at hd with hactive
  · rcases List.mem_append.mp hd with hd | hd
    · exact hacc d hd
    · exact (send_mem hd).2
  · exact hacc d hd

end Deliveries

end Lab10

end OsLabs
