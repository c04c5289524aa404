import OsLabs.Lab6.PosixChat

/-!
# Numbers and Fan-Out

A client that is confirmed keeps its slot for good, since no branch of the
server's loop frees one. So the active slots are the confirmed ones, a new
client is confirmed in a slot nobody was confirmed in before, and when all
slots are taken an `INIT` does nothing.

A line is sent on to what is active then, whatever number the message claims to
come from: the number only leaves out the slot that has it, if there is one.

## Main definitions

* `confirmed`: The numbers of the answers that were sent.
* `Confirmation`: The active slots are the confirmed ones.

## Theorems

* `confirmation_step`: A pass of the loop keeps that.
* `handle_INIT_full`: With all slots confirmed an `INIT` does nothing.
* `filter_broadcast`: The calls of `mq_send` for one slot.
* `fan_out`: Numbers and fan-out in every state the server reaches.
* `fan_out_run`: Two clients and a line.
-/

namespace OsLabs

namespace Lab6

/-- The slots that have been confirmed by an answer that could be sent. -/
def confirmedSlots (s : State) : List (Fin MAX_CLIENTS) := (s.replies.filter Send.ok).map Send.slot

/-- Their numbers. -/
def confirmed (s : State) : List Nat := (confirmedSlots s).map Fin.val

/-- Nobody is confirmed twice in a slot, the active slots are the confirmed ones
    and each answer carries the number of its slot. -/
structure Confirmation (s : State) : Prop where
  nodup : (confirmedSlots s).Nodup
  active : ∀ i, (s.clients i).active = true ↔ i ∈ confirmedSlots s
  text : ∀ d ∈ s.replies, d.text = idText d.slot

section Runs

variable {s s' : State}

theorem confirmation_start : Confirmation start where
  nodup := List.nodup_nil
  active _ := ⟨fun h => absurd h Bool.false_ne_true, fun h => absurd h List.not_mem_nil⟩
  text _ hd := absurd hd List.not_mem_nil

theorem freeSlot_inactive {slot : Fin MAX_CLIENTS} (h : s.freeSlot = some slot) :
    (s.clients slot).active = false := by
  have hp := firstSlot_some h
  rwa [Bool.not_eq_true'] at hp

/-- A registration confirms a slot nobody was confirmed in, or none. -/
theorem confirmation_handle_INIT (h : Confirmation s) (buf : List UInt8) (o : Outcome) :
    Confirmation (handle_INIT s buf o) := by
  rcases handle_INIT_cases s buf o with
    hsame | ⟨slot, reply, client, hfree, hslot, htext, hactive, _, hs'⟩
  · rw [hsame]
    exact h
  have hnew : slot ∉ confirmedSlots s := by
    rw [← h.active slot, freeSlot_inactive hfree]
    exact Bool.false_ne_true
  have htexts : ∀ d ∈ s.replies ++ [reply], d.text = idText d.slot := by
    intro d hd
    rcases List.mem_append.mp hd with hold | hlast
    · exact h.text d hold
    · rw [List.mem_singleton.mp hlast, htext, hslot]
  rw [hs']
  -- The answer confirms the slot exactly if it could be sent.
  cases hok : reply.ok with
  | true =>
      have hconf : confirmedSlots { s with
          clients := Function.update s.clients slot client, replies := s.replies ++ [reply] }
            = confirmedSlots s ++ [slot] := by
        simp [confirmedSlots, hok, hslot]
      refine ⟨?_, fun i => ?_, htexts⟩
      · rw [hconf]
        exact List.nodup_append.mpr ⟨h.nodup, List.nodup_singleton slot, fun a ha b hb => by
          rw [List.mem_singleton.mp hb]
          rintro rfl
          exact hnew ha⟩
      · rw [hconf, List.mem_append, List.mem_singleton]
        by_cases hi : i = slot
        · simp only [hi, Function.update_self, hactive, hok, or_true]
        · simp only [Function.update_of_ne hi, h.active i, hi, or_false]
  | false =>
      have hconf : confirmedSlots { s with
          clients := Function.update s.clients slot client, replies := s.replies ++ [reply] }
            = confirmedSlots s := by
        simp [confirmedSlots, hok]
      refine ⟨?_, fun i => ?_, htexts⟩
      · rw [hconf]
        exact h.nodup
      · rw [hconf]
        by_cases hi : i = slot
        · simp only [hi, Function.update_self, hactive, hok, hnew, Bool.false_eq_true]
        · simp only [Function.update_of_ne hi, h.active i]

theorem confirmation_step (h : Confirmation s) {e : Event} (hstep : step s e = some s') :
    Confirmation s' := by
  rcases step_moves hstep with ⟨buf, o, rfl⟩ | ⟨sender, text, o, rfl⟩ | rfl | rfl
  · exact confirmation_handle_INIT h buf o
  · exact ⟨h.nodup, h.active, h.text⟩
  · exact ⟨h.nodup, h.active, h.text⟩
  · exact h

theorem confirmation_reachable (hreach : Reachable step start s) : Confirmation s :=
  hreach.invariant confirmation_start fun _ _ _ h _ hstep => confirmation_step h hstep

/-- When as many clients are confirmed as there are slots, no slot is free. -/
theorem handle_INIT_full (h : Confirmation s) (hfull : MAX_CLIENTS ≤ (confirmedSlots s).length)
    (buf : List UInt8) (o : Outcome) : handle_INIT s buf o = s := by
  have hall : ∀ i, i ∈ confirmedSlots s := by
    intro i
    by_contra hi
    have hlt := List.Nodup.length_le_card (List.nodup_cons.mpr ⟨hi, h.nodup⟩)
    rw [Fintype.card_fin, List.length_cons] at hlt
    omega
  have hnone : s.freeSlot = none := firstSlot_eq_none_iff.mpr fun i => by
    rw [(h.active i).mpr (hall i)]
    rfl
  rw [handle_INIT, hnone]

/-- A slot that is active and has not the sender's number gets the message once,
    and no other slot gets it. -/
theorem filter_broadcast (s : State) (sender : Int) (text : List UInt8) (o : Outcome)
    (i : Fin MAX_CLIENTS) :
    (broadcast s sender text o).filter (fun d => d.slot = i) =
      if (s.clients i).active ∧ (i : Int) ≠ sender then
        [{ slot := i, mqd := (s.clients i).mqd, text := fromText sender text
           ok := o.mq_send i (fromText sender text) }]
      else [] := by
  refine filter_flatMap_slot Send.slot (fun j d hd => ?_) i
  split_ifs at hd with hsent
  · rw [List.mem_singleton.mp hd]
  · exact absurd hd List.not_mem_nil

end Runs

/-- In every state the server reaches, the numbers confirmed by an answer that
    was sent are distinct and below `MAX_CLIENTS`; once `MAX_CLIENTS` clients
    are confirmed a further `INIT` changes nothing; and a well-formed `MSG`,
    whatever number it claims to come from, leads to one call of `mq_send` for
    each active slot but the one of that number, to none for any other slot
    and to no other change, whichever of the calls succeed. -/
theorem fan_out (s : State) (hreach : Reachable step start s) :
    (confirmed s).Nodup ∧ (∀ k ∈ confirmed s, k < MAX_CLIENTS) ∧
    (∀ d ∈ s.replies, d.text = idText d.slot) ∧
    (MAX_CLIENTS ≤ (confirmed s).length → ∀ msg o s',
      (bytes "INIT ").isPrefixOf (cstr msg) = true → step s (.message msg o) = some s' → s' = s) ∧
    (∀ msg o s' sender text, (bytes "MSG ").isPrefixOf (cstr msg) = true →
      scanMsg o.overflowed (cstr msg) = some (sender, text) →
      step s (.message msg o) = some s' →
      ∃ new, s' = { s with broadcasts := s.broadcasts ++ new } ∧
        ∀ i, new.filter (fun d => d.slot = i) =
          if (s.clients i).active ∧ (i : Int) ≠ sender then
            [{ slot := i, mqd := (s.clients i).mqd, text := fromText sender text
               ok := o.mq_send i (fromText sender text) }]
          else []) := by
  have h := confirmation_reachable hreach
  refine ⟨h.nodup.map Fin.val_injective, ?_, h.text, ?_, ?_⟩
  · intro k hk
    rcases List.mem_map.mp hk with ⟨i, _, rfl⟩
    exact i.isLt
  · intro hfull msg o s' hinit hstep
    rw [confirmed, List.length_map] at hfull
    rw [step] at hstep
    split_ifs at hstep
    rw [← Option.some.inj hstep, handle, if_pos hinit]
    exact handle_INIT_full h hfull _ o
  · intro msg o s' sender text hmsg hscan hstep
    refine ⟨broadcast s sender text o, ?_, filter_broadcast s sender text o⟩
    rw [step] at hstep
    split_ifs at hstep
    -- A string cannot begin both ways.
    have hinit : ¬ (bytes "INIT ").isPrefixOf (cstr msg) = true := by
      intro hinit
      have hi := List.isPrefixOf_iff_prefix.mp hinit
      have hm := List.isPrefixOf_iff_prefix.mp hmsg
      rcases List.prefix_or_prefix_of_prefix hi hm with hpre | hpre
      · exact absurd hpre (by decide)
      · exact absurd hpre (by decide)
    rw [← Option.some.inj hstep, handle, if_neg hinit, if_pos hmsg, handle_MSG, hscan]

/-- An outcome in which every call succeeds. -/
def succeeding (mqd : Int) : Outcome where
  queue_name := CharArray.zero 64
  overflowed := 0
  mq_open := mqd
  mq_send _ _ := true

/-- Two clients register. -/
def twoClients : List Event :=
  [.message (bytes "INIT /client_7") (succeeding 4), .message (bytes "INIT /client_8") (succeeding 5)]

/-- The second client's line goes to the first one. -/
theorem fan_out_run :
    ∃ s, run step start twoClients = some s ∧ confirmed s = [0, 1] ∧ (confirmed s).Nodup ∧
      ∃ s', step s (.message (bytes "MSG 1 hello") (succeeding 0)) = some s' ∧
        s'.broadcasts.map Send.text = [bytes "From 1: hello"] := by
  have hend : (run step start twoClients).map (fun s =>
      (confirmed s, (step s (.message (bytes "MSG 1 hello") (succeeding 0))).map
        fun s' => s'.broadcasts.map Send.text)) = some ([0, 1], some [bytes "From 1: hello"]) := by
    decide +kernel
  rcases Option.map_eq_some_iff.mp hend with ⟨s, hrun, hpair⟩
  rcases Prod.mk.inj hpair with ⟨hconf, hsent⟩
  rcases Option.map_eq_some_iff.mp hsent with ⟨s', hstep, htext⟩
  exact ⟨s, hrun, hconf, (fan_out s (reachable_of_run hrun)).1, s', hstep, htext⟩

end Lab6

end OsLabs
