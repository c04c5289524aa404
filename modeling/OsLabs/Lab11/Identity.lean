import OsLabs.Lab11.Registry

/-!
# Who Answers to a Name

A name in use should stay with whoever has it. The server of lab10 refuses a
second client that comes with it. The server of lab11 looks the name up and
writes down the address the datagram came from, whoever sent it, so the next
datagram that claims a registered name moves its client to another address:
messages for the client go there from then on, and a STOP from there removes
it.

The address changes in no other way. Other names have other slots, a sweep
changes no address, and the handlers work on what the first section has left
behind. So a client keeps its address in exactly the runs in which no datagram
claims its name from elsewhere while it is registered.

## Main definitions

* `Reserved`: A name is registered at an address.
* `Foreign`: A step that deals with a datagram that claims the name from
  another address.
* `sent`: The datagrams a step sends.
* `Keeps`: A step leaves a name to the client that has it.
* `NoTakeover`: No acceptable datagram claims the name from elsewhere.
* `Thinned`: A registry in which clients may be missing.
* `Current`: A sender taken in is registered at the address it has sent from.

## Theorems

* `enroll_frame`: Taking in a datagram changes no slot with another name.
* `swept_sweep`, `addressed_sweep`: What a sweep leaves and whom it addresses.
* `keeps_iff_noTakeover`: One step.
* `takeover_free`: Any run.
* `takeover_free_run`: A run with two clients.
* `stop_from_elsewhere`: A client removed by a datagram from another address.
-/

namespace OsLabs

namespace Lab11

open Chat

/-- A client of that name is registered at the address. -/
def Reserved (addr : SockAddrIn) (name : List UInt8) (server : Server) : Prop :=
  ∃ i, (server.clients i).is_active = true ∧ (server.clients i).client_id.str = name ∧
    (server.clients i).addr = addr

/-- A client of that name is registered. -/
def Registered (name : List UInt8) (server : Server) : Prop :=
  ∃ i, (server.clients i).is_active = true ∧ (server.clients i).client_id.str = name

/-- The step takes in or handles a datagram that claims the name and has come
    from another address. -/
def Foreign (addr : SockAddrIn) (name : List UInt8) (s : State) : Event → Prop
  | .receive msg client_addr _ _ _ => msg.sender_id.str = name ∧ client_addr ≠ addr
  | .dispatch _ _ _ => ∃ p, s.pending = some p ∧ p.1.sender_id.str = name ∧ p.2 ≠ addr
  | .sweep _ => False

/-- The datagrams a step sends. -/
def sent (s : State) : Event → List Datagram
  | .receive msg client_addr checked now result =>
    if s.pending.isSome then []
    else if !validate_message msg checked then []
    else (enroll s.host msg client_addr now result).2.toList
  | .dispatch now result results =>
    match s.pending with
    | none => []
    | some p => (dispatch s.host p.1 p.2 now result results).2
  | .sweep input => (sweep input s.host).2

/-- After the step the client has its name and address still, or is gone and
    not because of a datagram from elsewhere; and what the step sends to the
    name goes to the address. -/
def Keeps (addr : SockAddrIn) (name : List UInt8) (s : State) (e : Event) : Prop :=
  Reserved addr name s.host.server →
    (∀ s', step s e = some s' → Reserved addr name s'.host.server ∨
      ¬ Registered name s'.host.server ∧ ¬ Foreign addr name s e) ∧
    ∀ d ∈ sent s e, d.message.recipient_id.str = name → d.dest = addr

/-- No acceptable datagram comes from elsewhere and claims the name while it is
    registered at the address. -/
def NoTakeover (addr : SockAddrIn) (name : List UInt8) (s : State) : Event → Prop
  | .receive msg client_addr checked _ _ =>
    Reserved addr name s.host.server → validate_message msg checked = true →
      msg.sender_id.str = name → client_addr = addr
  | _ => True

section Slots

variable {addr : SockAddrIn} {name : List UInt8} {server server' : Server}

/-- In a sound registry a client is in one slot only. -/
theorem addr_of_reserved (hinv : RegistryInv server) (h : Reserved addr name server)
    {i : Fin MAX_CLIENTS} (hactive : (server.clients i).is_active = true)
    (hname : (server.clients i).client_id.str = name) : (server.clients i).addr = addr := by
  rcases h with ⟨j, hj, hjname, haddr⟩
  rw [hinv.distinct i j hactive hj (hname.trans hjname.symm)]
  exact haddr

/-- Every client of the second registry is one of the first, under its name
    and at its address. -/
def Thinned (server server' : Server) : Prop :=
  ∀ i, (server'.clients i).is_active = true →
    (server.clients i).is_active = true ∧
      (server'.clients i).client_id = (server.clients i).client_id ∧
      (server'.clients i).addr = (server.clients i).addr

theorem thinned_refl (server : Server) : Thinned server server := fun _ hi => ⟨hi, rfl, rfl⟩

theorem thinned_trans {server'' : Server} (h : Thinned server server')
    (h' : Thinned server' server'') : Thinned server server'' := by
  intro i hi
  rcases h' i hi with ⟨hi', hname', haddr'⟩
  rcases h i hi' with ⟨hfirst, hname, haddr⟩
  exact ⟨hfirst, hname'.trans hname, haddr'.trans haddr⟩

theorem thinned_remove (server : Server) (i : Fin MAX_CLIENTS) :
    Thinned server (remove_client server i).1 := by
  intro j hj
  by_cases hji : j = i
  · -- The slot removed is not active any more.
    rw [hji, remove_client] at hj
    by_cases hactive : (server.clients i).is_active = true
    · rw [if_pos hactive] at hj
      change ((server.setSlot i _).clients i).is_active = true at hj
      rw [setSlot_self] at hj
      exact absurd hj Bool.false_ne_true
    · rw [if_neg hactive] at hj
      exact absurd hj hactive
  · rw [remove_client_other server hji] at hj ⊢
    exact ⟨hj, rfl, rfl⟩

theorem thinned_missed (server : Server) (i : Fin MAX_CLIENTS) :
    Thinned server (server.setSlot i (missed (server.clients i))) := by
  intro j hj
  by_cases hji : j = i
  · rw [hji, setSlot_self] at hj ⊢
    exact ⟨hj, rfl, rfl⟩
  · rw [setSlot_other server _ hji] at hj ⊢
    exact ⟨hj, rfl, rfl⟩

/-- A client that is not missing is where it was. -/
theorem reserved_of_thinned (hinv : RegistryInv server) (h : Reserved addr name server)
    (hthin : Thinned server server') :
    Reserved addr name server' ∨ ¬ Registered name server' := by
  by_cases hreg : Registered name server'
  · rcases hreg with ⟨i, hi, hname⟩
    rcases hthin i hi with ⟨hactive, hid, haddr⟩
    have hold := addr_of_reserved hinv h hactive (by rw [← hid]; exact hname)
    exact Or.inl ⟨i, hi, hname, haddr.trans hold⟩
  · exact Or.inr hreg

end Slots

section Enrolling

variable {host host' : Host} {msg : Message} {client_addr : SockAddrIn} {now : TimeT}
  {result : Option Nat}

/-- The ways the first section can end: the sender is known and moved to the
    address; it is not and has sent a STOP; it is refused with a message to it;
    or it gets a free slot at the address. -/
theorem enroll_cases (host : Host) (msg : Message) (client_addr : SockAddrIn) (now : TimeT)
    (result : Option Nat) :
    (∃ i, find_client_by_id host.server msg.sender_id.bytes = some i ∧
      enroll host msg client_addr now result = ({ host with
        server := host.server.setSlot i (heard (host.server.clients i) client_addr now) },
          none)) ∨
    find_client_by_id host.server msg.sender_id.bytes = none ∧
      (enroll host msg client_addr now result = (host, none) ∨
      (∃ text, enroll host msg client_addr now result = (host, some
        (send_message_protocol host.open_fds host.server.server_socket
          (create_message .MSG_ERROR serverName msg.sender_id.bytes (bytes text) now)
          client_addr result))) ∨
      ∃ i c host', (host.server.clients i).is_active = false ∧ c.addr = client_addr ∧
        host'.server.clients = Function.update host.server.clients i c ∧
        enroll host msg client_addr now result = (host', none)) := by
  unfold enroll
  cases hfound : find_client_by_id host.server msg.sender_id.bytes with
  | some i => exact Or.inl ⟨i, rfl, rfl⟩
  | none =>
      refine Or.inr ⟨rfl, ?_⟩
      simp only []
      split_ifs with hstop hvalid
      · exact Or.inl rfl
      · exact Or.inr (Or.inl ⟨_, rfl⟩)
      · unfold add_client_udp fillSlot
        cases hfree : freeSlot host.server with
        | none => exact Or.inr (Or.inl ⟨_, rfl⟩)
        | some i =>
            have hinactive : (host.server.clients i).is_active = false := by
              simpa only [Bool.not_eq_true'] using firstSlot_some hfree
            -- The slot is filled in and heard from in one section.
            refine Or.inr (Or.inr ⟨i, heard (filled (host.server.clients i)
              host.server.server_socket client_addr msg.sender_id.bytes now) client_addr now, _,
              hinactive, rfl, ?_, rfl⟩)
            simp only [Server.setSlot, Function.update_self, Function.update_idem]

/-- Taking in a datagram leaves a client with another name where it is. -/
theorem enroll_frame {i : Fin MAX_CLIENTS} (hactive : (host.server.clients i).is_active = true)
    (hname : (host.server.clients i).client_id.str ≠ msg.sender_id.str) :
    (enroll host msg client_addr now result).1.server.clients i = host.server.clients i := by
  rcases enroll_cases host msg client_addr now result with
    ⟨j, hfound, henroll⟩ | ⟨_, henroll | ⟨text, henroll⟩ | ⟨j, c, _, hfree, _, hclients, henroll⟩⟩
  · -- The slot heard from has the name of the sender.
    have hij : i ≠ j := fun hij => hname (by rw [hij]; exact (find_client_by_id_some hfound).2)
    rw [henroll]
    exact setSlot_other _ _ hij
  · rw [henroll]
  · rw [henroll]
  · have hij : i ≠ j := by
      rintro rfl
      rw [hactive] at hfree
      exact absurd hfree (by decide)
    rw [henroll, hclients, Function.update_of_ne hij]

/-- Whoever has the name of a sender taken in has its address too. -/
theorem enroll_current (hinv : RegistryInv host.server)
    (henroll : enroll host msg client_addr now result = (host', none)) (i : Fin MAX_CLIENTS)
    (hactive : (host'.server.clients i).is_active = true)
    (hname : (host'.server.clients i).client_id.str = msg.sender_id.str) :
    (host'.server.clients i).addr = client_addr := by
  rcases enroll_cases host msg client_addr now result with
    ⟨j, hfound, hcase⟩ | ⟨hnone, hcase | ⟨text, hcase⟩ | ⟨j, c, host'', hfree, haddr, hclients, hcase⟩⟩
  · rw [henroll, Prod.mk.injEq] at hcase
    rw [hcase.1] at hactive hname ⊢
    by_cases hij : i = j
    · rw [hij, setSlot_self]
      rfl
    · rw [setSlot_other _ _ hij] at hactive hname
      rcases find_client_by_id_some hfound with ⟨hj, hjname⟩
      exact absurd (hinv.distinct i j hactive hj (hname.trans hjname.symm)) hij
  · rw [henroll, Prod.mk.injEq] at hcase
    rw [hcase.1] at hactive hname
    exact absurd hname (find_client_by_id_none.mp hnone i hactive)
  · rw [henroll, Prod.mk.injEq] at hcase
    exact absurd hcase.2 (by simp)
  · rw [henroll, Prod.mk.injEq] at hcase
    rw [hcase.1, hclients] at hactive hname ⊢
    by_cases hij : i = j
    · rw [hij, Function.update_self]
      exact haddr
    · -- The other slots are as they were, when nobody had the name.
      rw [Function.update_of_ne hij] at hactive hname
      exact absurd hname (find_client_by_id_none.mp hnone i hactive)

end Enrolling

section Handling

variable {addr : SockAddrIn} {name : List UInt8} {host : Host}

theorem thinned_dispatch (host : Host) (msg : Message) (client_addr : SockAddrIn) (now : TimeT)
    (result : Option Nat) (results : Fin MAX_CLIENTS → Option Nat) :
    Thinned host.server (dispatch host msg client_addr now result results).1.server := by
  unfold dispatch
  split_ifs with hlist hall hone hstop
  · exact thinned_refl _
  · exact thinned_refl _
  · exact thinned_refl _
  · rw [handle_stop_request_udp]
    cases find_client_by_id host.server msg.sender_id.bytes with
    | none => exact thinned_refl _
    | some i => exact thinned_remove _ i
  · exact thinned_refl _

/-- A message built without a recipient is for no client. -/
theorem not_addressed (hne : name ≠ []) (type : MessageType) (sender content : List UInt8)
    (now : TimeT) : (create_message type sender [] content now).recipient_id.str ≠ name := by
  rw [create_message_recipient]
  exact hne.symm

/-- The name of a client fits into a message whole. -/
theorem take_name (hinv : RegistryInv host.server) {i : Fin MAX_CLIENTS}
    (hactive : (host.server.clients i).is_active = true) :
    (host.server.clients i).client_id.str.take (MAX_CLIENT_NAME - 1)
      = (host.server.clients i).client_id.str := by
  rcases (validate_client_id_iff _).mp (hinv.valid i hactive) with ⟨_, hlen, _⟩
  have hmax : MAX_CLIENT_NAME = 100 := rfl
  have hstr : (host.server.clients i).client_id.str.length < MAX_CLIENT_NAME := hlen
  exact List.take_of_length_le (by omega)

/-- What the handlers send to a client goes to its address. -/
theorem addressed_dispatch (hinv : RegistryInv host.server)
    (h : Reserved addr name host.server) (hne : name ≠ []) {msg : Message}
    {client_addr : SockAddrIn} {now : TimeT} {result : Option Nat}
    {results : Fin MAX_CLIENTS → Option Nat} {d : Datagram}
    (hd : d ∈ (dispatch host msg client_addr now result results).2)
    (hto : d.message.recipient_id.str = name) : d.dest = addr := by
  unfold dispatch at hd
  split_ifs at hd with hlist hall hone hstop
  · rw [List.mem_singleton.mp hd] at hto
    exact absurd hto (not_addressed hne _ _ _ _)
  · rcases List.mem_map.mp hd with ⟨i, _, rfl⟩
    exact absurd hto (not_addressed hne _ _ _ _)
  · rw [Option.mem_toList, handle_2one_request_udp, Option.map_eq_some_iff] at hd
    rcases hd with ⟨i, hfound, rfl⟩
    rcases find_client_by_id_some hfound with ⟨hactive, hname⟩
    -- The recipient named in the message is the client that has been found.
    have hrecipient : (host.server.clients i).client_id.str = name := by
      rw [← hto]
      change _ = (create_message _ _ _ _ _).recipient_id.str
      rw [create_message_recipient, ← hname, take_name hinv hactive]
    exact addr_of_reserved hinv h hactive hrecipient
  · rw [List.mem_singleton.mp hd] at hto
    exact absurd hto (not_addressed hne _ _ _ _)
  · exact absurd hd (List.not_mem_nil)

/-- The datagram is for a client of the registry and goes to its address. -/
def Addressed (server : Server) (d : Datagram) : Prop :=
  ∃ i, (server.clients i).is_active = true ∧
    d.message.recipient_id.str = (server.clients i).client_id.str.take (MAX_CLIENT_NAME - 1) ∧
    d.dest = (server.clients i).addr

/-- What a sweep has done so far: clients may be gone, and what is sent goes to
    clients at their addresses. -/
def Swept (host : Host) (acc : Host × List Datagram) : Prop :=
  Thinned host.server acc.1.server ∧ ∀ d ∈ acc.2, Addressed host.server d

theorem swept_slot (input : SweepInput) (acc : Host × List Datagram) (i : Fin MAX_CLIENTS)
    (h : Swept host acc) : Swept host (sweepSlot input acc i) := by
  rcases h with ⟨hthin, hsent⟩
  rcases sweepSlot_cases input acc i with hsame | ⟨c, counted, alive, rfl, hactive, rfl, rfl, hdone⟩
  · rw [hsame]
    exact ⟨hthin, hsent⟩
  · have hcounted := thinned_trans hthin (thinned_missed acc.1.server i)
    have hremoved := thinned_trans hcounted (thinned_remove _ i)
    -- The request goes to the client of the slot the loop is at.
    have hall : ∀ d ∈ acc.2 ++ [send_message_protocol acc.1.open_fds acc.1.server.server_socket
        (create_message .MSG_ALIVE serverName (acc.1.server.clients i).client_id.bytes []
          input.stamp) (acc.1.server.clients i).addr (input.results i)],
        Addressed host.server d := by
      intro d hd
      rcases List.mem_append.mp hd with hd | hd
      · exact hsent d hd
      · rcases hthin i hactive with ⟨hold, hid, haddr⟩
        rw [List.mem_singleton.mp hd]
        refine ⟨i, hold, ?_, haddr⟩
        change (create_message _ _ _ _ _).recipient_id.str = _
        rw [create_message_recipient, hid]
        rfl
    rcases hdone with hdone | hdone | ⟨-, hdone⟩
    · rw [hdone]
      exact ⟨hremoved, hsent⟩
    · rw [hdone]
      exact ⟨hremoved, hall⟩
    · rw [hdone]
      exact ⟨hcounted, hall⟩

theorem swept_sweep (input : SweepInput) (host : Host) : Swept host (sweep input host) := by
  rw [sweep]
  exact foldl_preserves (fun acc i hacc => swept_slot input acc i hacc) _ (host, [])
    ⟨thinned_refl _, fun d hd => absurd hd (List.not_mem_nil)⟩

/-- What a sweep sends to a client goes to its address. -/
theorem addressed_sweep (hinv : RegistryInv host.server) (h : Reserved addr name host.server)
    {input : SweepInput} {d : Datagram} (hd : d ∈ (sweep input host).2)
    (hto : d.message.recipient_id.str = name) : d.dest = addr := by
  rcases (swept_sweep input host).2 d hd with ⟨i, hactive, hrecipient, hdest⟩
  rw [hto, take_name hinv hactive] at hrecipient
  rw [hdest, addr_of_reserved hinv h hactive hrecipient.symm]

end Handling

section Steps

variable {addr : SockAddrIn} {name : List UInt8} {s s' : State}

/-- The registry is sound, and a sender that has been taken in is registered,
    if it is, at the address it has sent from. -/
structure Current (s : State) : Prop where
  sound : RegistryInv s.host.server
  pending : ∀ p, s.pending = some p → ∀ i, (s.host.server.clients i).is_active = true →
    (s.host.server.clients i).client_id.str = p.1.sender_id.str →
    (s.host.server.clients i).addr = p.2

/-- The ways a datagram can be received: it is not acceptable, it is answered
    at once, or it is kept for its handler. -/
theorem step_receive {msg : Message} {client_addr : SockAddrIn} {checked now : TimeT}
    {result : Option Nat} (hstep : step s (.receive msg client_addr checked now result) = some s') :
    s.pending = none ∧
      (validate_message msg checked = false ∧ s' = s ∨
      validate_message msg checked = true ∧
        s'.host = (enroll s.host msg client_addr now result).1 ∧
        (s'.pending = none ∨ s'.pending = some (msg, client_addr) ∧
          (enroll s.host msg client_addr now result).2 = none)) := by
  rw [step] at hstep
  split_ifs at hstep with hpending hvalid
  · refine ⟨by simpa using hpending, Or.inl ⟨by simpa using hvalid, ?_⟩⟩
    exact (Option.some.inj hstep).symm
  · refine ⟨by simpa using hpending, Or.inr ⟨by simpa using hvalid, ?_⟩⟩
    cases hresult : enroll s.host msg client_addr now result with
    | mk host reply =>
        rw [hresult] at hstep
        cases reply with
        | none =>
            rw [← Option.some.inj hstep]
            exact ⟨rfl, Or.inr ⟨rfl, rfl⟩⟩
        | some d =>
            rw [← Option.some.inj hstep]
            exact ⟨rfl, Or.inl rfl⟩

theorem current_step (h : Current s) {e : Event} (hstep : step s e = some s') : Current s' := by
  refine ⟨step_preserves kept_registryInv s s' e h.sound hstep, ?_⟩
  cases e with
  | receive msg client_addr checked now result =>
      rcases step_receive hstep with ⟨_, ⟨_, rfl⟩ | ⟨_, hhost, hnone | ⟨hsome, hreply⟩⟩⟩
      · exact h.pending
      · intro p hp
        rw [hnone] at hp
        exact absurd hp (by simp)
      · intro p hp
        rw [hsome, Option.some.injEq] at hp
        rw [← hp, hhost]
        exact enroll_current h.sound (Prod.ext rfl hreply)
  | dispatch now result results =>
      rcases Option.map_eq_some_iff.mp hstep with ⟨q, _, rfl⟩
      intro p hp
      exact absurd hp (by simp)
  | sweep input =>
      have hthin := (swept_sweep input s.host).1
      rw [step, Option.some.injEq] at hstep
      subst hstep
      generalize sweep input s.host = result at hthin ⊢
      intro p hp i hactive hname
      -- A client that is left is where it was before the sweep.
      rcases hthin i hactive with ⟨hold, hid, haddr⟩
      exact haddr.trans (h.pending p hp i hold (by rw [← hid]; exact hname))

theorem current_start {port : Int} {fd : Nat} {others : Int → Bool}
    (h : start port fd others = some s) : Current s := by
  refine ⟨registryInv_start h, ?_⟩
  rcases Option.map_eq_some_iff.mp h with ⟨server, _, rfl⟩
  intro p hp
  exact absurd hp (by simp)

/-- A name in use is not empty. -/
theorem reserved_ne_nil (h : Current s) (hres : Reserved addr name s.host.server) :
    name ≠ [] := by
  rcases hres with ⟨i, hactive, rfl, _⟩
  rcases (validate_client_id_iff _).mp (h.sound.valid i hactive) with ⟨hlen, _⟩
  exact List.ne_nil_of_length_pos hlen

/-- A datagram that claims a registered name moves its client to where the
    datagram has come from. -/
theorem enroll_moves (h : Current s) (hres : Reserved addr name s.host.server) {msg : Message}
    {client_addr : SockAddrIn} {now : TimeT} {result : Option Nat}
    (hclaims : msg.sender_id.str = name) :
    Reserved client_addr name (enroll s.host msg client_addr now result).1.server := by
  rcases hres with ⟨i, hactive, hname, _⟩
  have hfound := (find_client_by_id_eq_some_iff h.sound msg.sender_id.bytes i).mpr
    ⟨hactive, hname.trans hclaims.symm⟩
  rcases enroll_cases s.host msg client_addr now result with ⟨j, hj, henroll⟩ | ⟨hnone, _⟩
  · rw [hfound, Option.some.injEq] at hj
    rw [henroll, ← hj]
    refine ⟨i, ?_, ?_, ?_⟩
    · rw [setSlot_self]
      exact hactive
    · rw [setSlot_self]
      exact hname
    · rw [setSlot_self]
      rfl
  · rw [hfound] at hnone
    exact absurd hnone (by simp)

/-- A registered client stays where it is when a datagram is taken in that
    claims another name or comes from its address. -/
theorem reserved_enroll (h : Current s) (hres : Reserved addr name s.host.server)
    {msg : Message} {client_addr : SockAddrIn} {now : TimeT} {result : Option Nat}
    (hown : msg.sender_id.str = name → client_addr = addr) :
    Reserved addr name (enroll s.host msg client_addr now result).1.server := by
  by_cases hclaims : msg.sender_id.str = name
  · rw [← hown hclaims]
    exact enroll_moves h hres hclaims
  · rcases hres with ⟨i, hactive, hname, haddr⟩
    have hother : (s.host.server.clients i).client_id.str ≠ msg.sender_id.str :=
      fun hc => hclaims (hc.symm.trans hname)
    refine ⟨i, ?_, ?_, ?_⟩
    · rw [enroll_frame hactive hother]
      exact hactive
    · rw [enroll_frame hactive hother]
      exact hname
    · rw [enroll_frame hactive hother]
      exact haddr

/-- A client that is registered gets no refusal. -/
theorem addressed_enroll (hres : Reserved addr name s.host.server)
    {msg : Message} {client_addr : SockAddrIn} {checked now : TimeT} {result : Option Nat}
    (hvalid : validate_message msg checked = true) {d : Datagram}
    (hd : d ∈ (enroll s.host msg client_addr now result).2.toList) :
    d.message.recipient_id.str ≠ name := by
  rcases hres with ⟨i, hactive, hname, _⟩
  rcases enroll_cases s.host msg client_addr now result with
    ⟨j, _, henroll⟩ | ⟨hnone, henroll | ⟨text, henroll⟩ | ⟨j, c, host, _, _, _, henroll⟩⟩
  · rw [henroll] at hd
    exact absurd hd (by simp)
  · rw [henroll] at hd
    exact absurd hd (by simp)
  · rw [henroll, Option.mem_toList, Option.some.injEq] at hd
    have hmax : MAX_CLIENT_NAME = 100 := rfl
    have hlen := (validate_message_strings hvalid).1
    have hwhole : msg.sender_id.str.take (MAX_CLIENT_NAME - 1) = msg.sender_id.str :=
      List.take_of_length_le (by omega)
    intro hto
    rw [← hd] at hto
    change (create_message _ _ _ _ _).recipient_id.str = name at hto
    rw [create_message_recipient] at hto
    -- The refusal is for a sender that nobody is registered as.
    exact find_client_by_id_none.mp hnone i hactive (hname.trans (hto.symm.trans hwhole))
  · rw [henroll] at hd
    exact absurd hd (by simp)

/-- One step leaves a name to its client exactly when it takes in no acceptable
    datagram that claims the name from elsewhere. -/
theorem keeps_iff_noTakeover (h : Current s) {e : Event} (hstep : step s e = some s') :
    Keeps addr name s e ↔ NoTakeover addr name s e := by
  cases e with
  | receive msg client_addr checked now result =>
      rcases step_receive hstep with ⟨hidle, hcase⟩
      constructor
      · intro hkeeps hres hvalid hclaims
        rcases hcase with ⟨hinvalid, _⟩ | ⟨_, hhost, _⟩
        · rw [hvalid] at hinvalid
          exact absurd hinvalid (by decide)
        · -- The client is registered still, and where the datagram came from.
          have hmoved : Reserved client_addr name s'.host.server := by
            rw [hhost]
            exact enroll_moves h hres hclaims
          rcases hmoved with ⟨i, hi, hname, haddr⟩
          have hsound := (current_step h hstep).sound
          rcases (hkeeps hres).1 s' hstep with hkept | ⟨hgone, _⟩
          · rw [← haddr]
            exact addr_of_reserved hsound hkept hi hname
          · exact absurd ⟨i, hi, hname⟩ hgone
      · intro hfree hres
        constructor
        · intro t ht
          rw [hstep, Option.some.injEq] at ht
          rw [← ht]
          rcases hcase with ⟨_, rfl⟩ | ⟨hvalid, hhost, _⟩
          · exact Or.inl hres
          · rw [hhost]
            exact Or.inl (reserved_enroll h hres (hfree hres hvalid))
        · intro d hd hto
          simp only [sent, hidle, Option.isSome_none, Bool.false_eq_true, if_false] at hd
          split_ifs at hd with hinvalid
          · exact absurd hd (List.not_mem_nil)
          · have hvalid : validate_message msg checked = true := by simpa using hinvalid
            exact absurd hto (addressed_enroll hres hvalid hd)
  | dispatch now result results =>
      refine ⟨fun _ => trivial, fun _ hres => ⟨?_, ?_⟩⟩
      · intro t ht
        rcases Option.map_eq_some_iff.mp ht with ⟨p, hp, rfl⟩
        have hthin := thinned_dispatch s.host p.1 p.2 now result results
        refine (reserved_of_thinned h.sound hres hthin).imp_right fun hgone => ⟨hgone, ?_⟩
        -- A sender that is registered has sent from the address it is at.
        rintro ⟨q, hq, hclaims, hforeign⟩
        rcases hres with ⟨i, hactive, hname, haddr⟩
        exact hforeign ((h.pending q hq i hactive (hname.trans hclaims.symm)).symm.trans haddr)
      · intro d hd hto
        rcases Option.map_eq_some_iff.mp hstep with ⟨p, hp, _⟩
        simp only [sent, hp] at hd
        exact addressed_dispatch h.sound hres (reserved_ne_nil h hres) hd hto
  | sweep input =>
      refine ⟨fun _ => trivial, fun _ hres => ⟨?_, ?_⟩⟩
      · intro t ht
        have hthin := (swept_sweep input s.host).1
        rw [step, Option.some.injEq] at ht
        subst ht
        generalize sweep input s.host = result at hthin ⊢
        exact (reserved_of_thinned h.sound hres hthin).imp_right fun hgone => ⟨hgone, id⟩
      · intro d hd hto
        exact addressed_sweep h.sound hres hd hto

theorem current_of_reaches {port : Int} {fd : Nat} {others : Int → Bool} {t : State}
    (hstart : start port fd others = some s) (hreach : Reachable step s t) : Current t :=
  hreach.invariant (current_start hstart) fun _ _ _ hv _ hstep => current_step hv hstep

/-- On a run from a current registry the two conditions say the same. -/
theorem meets_keeps_iff (h : Current s) (addr : SockAddrIn) (name : List UInt8)
    (events : List Event) :
    Meets step (Keeps addr name) s events ↔ Meets step (NoTakeover addr name) s events :=
  meets_congr (fun _ _ _ hv hstep => keeps_iff_noTakeover hv hstep)
    (fun _ _ _ hv _ hstep => current_step hv hstep) events h

/-- From every state the server reaches, a run leaves a name to the client that
    has it, in each of its steps, exactly when no step of it takes in an
    acceptable datagram that claims the name from another address. -/
theorem takeover_free (port : Int) (fd : Nat) (others : Int → Bool) (s t : State)
    (hstart : start port fd others = some s) (hreach : Reachable step s t)
    (addr : SockAddrIn) (name : List UInt8) (events : List Event) :
    Meets step (Keeps addr name) t events ↔ Meets step (NoTakeover addr name) t events :=
  meets_keeps_iff (current_of_reaches hstart hreach) addr name events

end Steps

instance (addr : SockAddrIn) (name : List UInt8) (server : Server) :
    Decidable (Reserved addr name server) := by
  unfold Reserved
  infer_instance

instance (name : List UInt8) (server : Server) : Decidable (Registered name server) := by
  unfold Registered
  infer_instance

instance (addr : SockAddrIn) (name : List UInt8) :
    ∀ s e, Decidable (NoTakeover addr name s e)
  | s, .receive msg client_addr checked _ _ =>
    inferInstanceAs (Decidable (Reserved addr name s.host.server →
      validate_message msg checked = true → msg.sender_id.str = name → client_addr = addr))
  | _, .dispatch _ _ _ => isTrue trivial
  | _, .sweep _ => isTrue trivial

/-- A message of this type arrives that claims the name, and is handled. -/
def claims (type : MessageType) (name : String) (client_addr : SockAddrIn) : List Event :=
  [.receive (create_message type (bytes name) (bytes "ann") [] 0) client_addr 0 0 none,
    .dispatch 0 none (fun _ => none)]

/-- While a second client comes and writes to the first, and while the first
    leaves, the first keeps its name and address. -/
theorem takeover_free_run :
    ∃ s t, start 5000 3 (fun _ => false) = some s ∧
      run step s (claims .MSG_LIST "ann" { sin_addr := 1, sin_port := 2 }) = some t ∧
      Reserved { sin_addr := 1, sin_port := 2 } (bytes "ann") t.host.server ∧
      Meets step (Keeps { sin_addr := 1, sin_port := 2 } (bytes "ann")) t
        (claims .MSG_2ONE "bob" { sin_addr := 3, sin_port := 4 } ++
          claims .MSG_STOP "ann" { sin_addr := 1, sin_port := 2 }) := by
  have hend : ((start 5000 3 fun _ => false).bind fun s =>
      run step s (claims .MSG_LIST "ann" { sin_addr := 1, sin_port := 2 })).map (fun t =>
        (decide (Reserved { sin_addr := 1, sin_port := 2 } (bytes "ann") t.host.server),
          decide (Meets step (NoTakeover { sin_addr := 1, sin_port := 2 } (bytes "ann")) t
            (claims .MSG_2ONE "bob" { sin_addr := 3, sin_port := 4 } ++
              claims .MSG_STOP "ann" { sin_addr := 1, sin_port := 2 }))))
        = some (true, true) := by decide +kernel
  rcases Option.map_eq_some_iff.mp hend with ⟨t, hbind, hpair⟩
  rcases Option.bind_eq_some_iff.mp hbind with ⟨s, hstart, hrun⟩
  rcases Prod.mk.inj hpair with ⟨hres, hmeets⟩
  exact ⟨s, t, hstart, hrun, of_decide_eq_true hres,
    (takeover_free 5000 3 _ s t hstart (reachable_of_run hrun) _ _ _).mpr
      (of_decide_eq_true hmeets)⟩

/-- A client is registered, and somebody else sends a STOP in its name: the
    client is moved to the other address at once, and then removed. -/
theorem stop_from_elsewhere :
    ¬ ∀ (s t : State) (addr : SockAddrIn) (name : List UInt8) (events : List Event),
      start 5000 3 (fun _ => false) = some s → Reachable step s t →
      (run step t events).isSome = true → Meets step (Keeps addr name) t events := by
  intro hclaim
  have hend : ((start 5000 3 fun _ => false).bind fun s =>
      run step s (claims .MSG_LIST "ann" { sin_addr := 1, sin_port := 2 })).map (fun t =>
        (decide (Reserved { sin_addr := 1, sin_port := 2 } (bytes "ann") t.host.server),
          (run step t (claims .MSG_STOP "ann" { sin_addr := 3, sin_port := 4 })).map fun u =>
            decide (Registered (bytes "ann") u.host.server),
          decide (Meets step (NoTakeover { sin_addr := 1, sin_port := 2 } (bytes "ann")) t
            (claims .MSG_STOP "ann" { sin_addr := 3, sin_port := 4 }))))
        = some (true, some false, false) := by decide +kernel
  rcases Option.map_eq_some_iff.mp hend with ⟨t, hbind, htriple⟩
  rcases Option.bind_eq_some_iff.mp hbind with ⟨s, hstart, hrun⟩
  rcases Prod.mk.inj htriple with ⟨_, hlast⟩
  rcases Prod.mk.inj hlast with ⟨hgone, htakeover⟩
  have hsome : (run step t (claims .MSG_STOP "ann" { sin_addr := 3, sin_port := 4 })).isSome
      = true := by
    rcases Option.map_eq_some_iff.mp hgone with ⟨u, hu, _⟩
    rw [hu]
    rfl
  have hreach := reachable_of_run hrun
  have hmeets := hclaim s t { sin_addr := 1, sin_port := 2 } (bytes "ann") _ hstart hreach hsome
  have hfree := (meets_keeps_iff (current_of_reaches hstart hreach) _ _ _).mp hmeets
  exact absurd hfree (of_decide_eq_false htakeover)

end Lab11

end OsLabs
