import OsLabs.Lab6.SystemVChat

/-!
# All or Nothing

A client asks to be registered with `INIT` and the name of its queue. It should
be in the table afterwards if and only if its queue was opened and the answer
went out, and the table should be as it was otherwise.

Each of the two servers forgets one of the tests the other one makes. The POSIX
server does not look at the result of `sscanf`, so an `INIT` without a name is
answered on the queue whose name happens to be in `queue_name`. The System V
server does not take the client out again if the answer cannot be sent. Both
read no more than 63 bytes of the name, so that a longer one registers another
queue.

## Main definitions

* `AllOrNothing`: A table gets one new entry, or stays as it is.
* `initName`: The queue a message asks to be registered.
* `State.queues`, `Completed`, `Lapse`: The queues registered, a registration
  that goes through, and one that goes wrong, in the POSIX server.
* `SysV.State.queues`, `SysV.Completed`, `SysV.Lapse`: In the other one.

## Theorems

* `allOrNothing_same`, `allOrNothing_update`: What a table tells.
* `allOrNothing_iff`: When the POSIX server keeps to it.
* `SysV.allOrNothing_iff`: When the System V server does.
* `registration_atomic_iff`: Both.
* `registration_not_atomic`: A message to each of them.
-/

namespace OsLabs

namespace Lab6

section Tables

variable {ι α : Type*} [DecidableEq ι]

/-- If it is complete, exactly one entry that was empty holds the value
    afterwards. If not, nothing is different. -/
def AllOrNothing (complete : Prop) (value : α) (table table' : ι → Option α) : Prop :=
  (complete → ∃ i, table i = none ∧ table' = Function.update table i (some value)) ∧
    (¬ complete → table' = table)

/-- A table left as it is is right if there was nothing to complete. -/
theorem allOrNothing_same {complete : Prop} {value : α} {table : ι → Option α} :
    AllOrNothing complete value table table ↔ ¬ complete := by
  refine ⟨fun h hcomplete => ?_, fun h => ⟨fun hcomplete => absurd hcomplete h, fun _ => rfl⟩⟩
  -- The entry that should be new is empty.
  rcases h.1 hcomplete with ⟨i, hnone, hupdate⟩
  have hvalue := congrFun hupdate i
  rw [Function.update_self, hnone] at hvalue
  cases hvalue

/-- A table with a new entry is right if there was something to complete. -/
theorem allOrNothing_update {complete : Prop} {value : α} {table : ι → Option α} {i : ι}
    (hnone : table i = none) :
    AllOrNothing complete value table (Function.update table i (some value)) ↔ complete := by
  refine ⟨fun h => ?_, fun h => ⟨fun _ => ⟨i, hnone, rfl⟩, fun hnot => absurd h hnot⟩⟩
  by_contra hnot
  -- The entry that should be empty holds the value.
  have hvalue := congrFun (h.2 hnot) i
  rw [Function.update_self, hnone] at hvalue
  cases hvalue

end Tables

section Names

/-- The first word of a text. -/
def firstWord (s : List UInt8) : List UInt8 :=
  (s.dropWhile isBlank).takeWhile fun c => !isBlank c

/-- The queue a message asks to be registered, if it is an `INIT` that names
    one. -/
def initName (msg : List UInt8) : Option (List UInt8) :=
  if (bytes "INIT ").isPrefixOf (cstr msg) ∧ firstWord ((cstr msg).drop 5) ≠ [] then
    some (firstWord ((cstr msg).drop 5))
  else none

/-- `%s` stores a prefix of the word. -/
theorem scanWord_map (width : Nat) (hpos : 0 < width) (s : List UInt8) :
    (scanWord width s).map Prod.fst
      = if firstWord s = [] then none else some ((firstWord s).take width) := by
  unfold scanWord
  simp only []
  change Option.map Prod.fst (if (firstWord s).take width = [] then none else _) = _
  by_cases hword : firstWord s = []
  · rw [if_pos hword, if_pos (by rw [hword, List.take_nil])]
    rfl
  · have htake : (firstWord s).take width ≠ [] := by
      rw [Ne, List.take_eq_nil_iff, not_or]
      exact ⟨by omega, hword⟩
    rw [if_neg hword, if_neg htake]
    rfl

/-- A word of a string has no terminator in it. -/
theorem firstWord_no_zero {s : List UInt8} (h : ∀ b ∈ s, b ≠ 0) : ∀ b ∈ firstWord s, b ≠ 0 := by
  intro b hb
  have hdrop := List.takeWhile_subset _ hb
  exact h b ((List.dropWhile_suffix _).subset hdrop)

end Names

/-- The queues of the active slots. -/
def State.queues (s : State) (i : Fin MAX_CLIENTS) : Option Int :=
  if (s.clients i).active then some (s.clients i).mqd else none

/-- The message names a queue, there is a slot for it, that queue is the one
    opened, and the answer is sent. -/
def Completed (s : State) (msg : List UInt8) (o : Outcome) : Prop :=
  ∃ name slot, initName msg = some name ∧ s.freeSlot = some slot ∧
    (queueName (cstr msg) o).str = name ∧ o.mq_open ≠ -1 ∧ o.mq_send slot (idText slot) = true

/-- An `INIT` that names no queue, or one whose name does not fit, finds a
    slot, a queue that can be opened and a reader for its answer. -/
def Lapse (s : State) (msg : List UInt8) (o : Outcome) : Prop :=
  (bytes "INIT ").isPrefixOf (cstr msg) = true ∧
    (∀ name, initName msg = some name → 63 < name.length) ∧
    o.mq_open ≠ -1 ∧ ∃ slot, s.freeSlot = some slot ∧ o.mq_send slot (idText slot) = true

section Posix

variable {s : State} {msg : List UInt8} {o : Outcome} {slot : Fin MAX_CLIENTS}

theorem queues_free (hslot : s.freeSlot = some slot) : s.queues slot = none := by
  have hinactive : (s.clients slot).active = false := by
    simpa only [Bool.not_eq_true'] using firstSlot_some hslot
  rw [State.queues, hinactive]
  rfl

/-- The array handed to `mq_open` holds the name as far as it fits. -/
theorem queueName_str {name : List UInt8} (hname : initName msg = some name) :
    (queueName (cstr msg) o).str = name.take 63 := by
  unfold initName at hname
  split_ifs at hname with hinit
  have hword : firstWord ((cstr msg).drop 5) = name := Option.some.inj hname
  -- `sscanf` finds the name and stores 63 bytes of it at most.
  have hscan := scanWord_map 63 (by decide) ((cstr msg).drop 5)
  rw [if_neg hinit.2, hword] at hscan
  rcases Option.map_eq_some_iff.mp hscan with ⟨w, hw, hfst⟩
  have hno : ∀ b ∈ name.take 63, b ≠ 0 := by
    intro b hb
    have hmem := List.mem_of_mem_take hb
    rw [← hword] at hmem
    exact firstWord_no_zero (fun c hc => cstr_no_zero msg c (List.mem_of_mem_drop hc)) b hmem
  have hcopy : queueName (cstr msg) o = o.queue_name.strcpy (name.take 63) := by
    rw [queueName, hw, ← hfst]
    rfl
  have hlen : strlen (name.take 63) < 64 := by
    rw [strlen, cstr_of_no_zero hno]
    exact Nat.lt_of_le_of_lt (List.length_take_le _ _) (by decide)
  rw [hcopy, CharArray.str_strcpy _ _ hlen, cstr_of_no_zero hno]

/-- Other messages leave the queues alone. -/
theorem handle_other (hinit : (bytes "INIT ").isPrefixOf (cstr msg) = false) :
    (handle s msg o).queues = s.queues := by
  unfold handle
  simp only [hinit, Bool.false_eq_true, if_false]
  split_ifs
  · unfold handle_MSG
    cases scanMsg o.overflowed (cstr msg) <;> rfl
  · rfl
  · rfl

/-- Of a slot that is found and a queue that is opened the answer decides what
    becomes. -/
theorem handle_INIT_queues (hslot : s.freeSlot = some slot) (hopen : o.mq_open ≠ -1)
    (buf : List UInt8) :
    (handle_INIT s buf o).queues = if o.mq_send slot (idText slot) then
      Function.update s.queues slot (some o.mq_open) else s.queues := by
  have hfree := queues_free hslot
  unfold handle_INIT
  simp only [hslot, if_neg hopen]
  funext i
  by_cases hi : i = slot
  · subst hi
    -- If the answer fails the slot is inactive again, as it was.
    cases hsend : o.mq_send i (idText i)
    · simp [State.queues] at hfree ⊢
      exact hfree
    · simp [State.queues]
  · cases hsend : o.mq_send slot (idText slot)
    · simp [State.queues, Function.update_of_ne hi]
    · simp [State.queues, Function.update_of_ne hi]

/-- Where a slot is found, a queue opened and the answer sent, the registration
    goes through or wrong, as the name is there and short enough or not. -/
theorem completed_iff (hinit : (bytes "INIT ").isPrefixOf (cstr msg) = true)
    (hslot : s.freeSlot = some slot) (hopen : o.mq_open ≠ -1)
    (hsend : o.mq_send slot (idText slot) = true) :
    Completed s msg o ↔ ¬ Lapse s msg o := by
  refine ⟨?_, fun h => ?_⟩
  · rintro ⟨name, _, hname, _, hopened, _⟩ hlapse
    -- What was opened is the beginning of the name, which is too long.
    have hlong := hlapse.2.1 name hname
    rw [queueName_str hname, List.take_eq_self_iff] at hopened
    omega
  · by_contra hnot
    refine h ⟨hinit, fun name hname => ?_, hopen, slot, hslot, hsend⟩
    by_contra hshort
    refine hnot ⟨name, slot, hname, hslot, ?_, hopen, hsend⟩
    rw [queueName_str hname, List.take_of_length_le (by omega)]

/-- The POSIX server registers all or nothing if and only if the message is not
    one it answers without having read a name. -/
theorem allOrNothing_iff (s : State) (msg : List UInt8) (o : Outcome) :
    AllOrNothing (Completed s msg o) o.mq_open s.queues (handle s msg o).queues ↔
      ¬ Lapse s msg o := by
  by_cases hinit : (bytes "INIT ").isPrefixOf (cstr msg) = true
  · have hhandle : handle s msg o = handle_INIT s (cstr msg) o := by
      unfold handle
      exact if_pos hinit
    rw [hhandle]
    cases hslot : s.freeSlot with
    | none =>
        have hsame : handle_INIT s (cstr msg) o = s := by
          unfold handle_INIT
          rw [hslot]
        rw [hsame, allOrNothing_same]
        refine iff_of_true ?_ ?_
        · rintro ⟨name, slot, _, hsome, _⟩
          rw [hslot] at hsome
          cases hsome
        · rintro ⟨_, _, _, slot, hsome, _⟩
          rw [hslot] at hsome
          cases hsome
    | some slot =>
        by_cases hopen : o.mq_open = -1
        · have hsame : handle_INIT s (cstr msg) o = s := by
            unfold handle_INIT
            rw [hslot]
            exact if_pos hopen
          rw [hsame, allOrNothing_same]
          exact iff_of_true (fun ⟨_, _, _, _, _, h, _⟩ => h hopen) fun h => h.2.2.1 hopen
        · rw [handle_INIT_queues hslot hopen]
          by_cases hsend : o.mq_send slot (idText slot) = true
          · -- The slot is filled, so the message has to have named the queue.
            rw [if_pos hsend, allOrNothing_update (queues_free hslot)]
            exact completed_iff hinit hslot hopen hsend
          · rw [if_neg hsend, allOrNothing_same]
            refine iff_of_true ?_ ?_
            · rintro ⟨_, slot', _, hslot', _, _, hsent⟩
              rw [hslot, Option.some.injEq] at hslot'
              rw [← hslot'] at hsent
              exact hsend hsent
            · rintro ⟨_, _, _, slot', hslot', hsent⟩
              rw [hslot, Option.some.injEq] at hslot'
              rw [← hslot'] at hsent
              exact hsend hsent
  · -- Nothing but an INIT registers anybody, and none is asked for.
    have hfalse := Bool.eq_false_iff.mpr hinit
    rw [handle_other hfalse, allOrNothing_same]
    refine iff_of_true ?_ fun h => hinit h.1
    rintro ⟨name, _, hname, _⟩
    unfold initName at hname
    rw [if_neg (fun h => hinit h.1)] at hname
    cases hname

end Posix

namespace SysV

/-- The queues of the active slots. -/
def State.queues (s : State) (i : Fin MAX_CLIENTS) : Option Int :=
  if (s.clients i).active then some (s.clients i).qid else none

/-- The message names a queue, there is a slot for it, that queue is the one
    opened, and the answer is sent. -/
def Completed (s : State) (msg : List UInt8) (o : Outcome) : Prop :=
  ∃ name slot, initName msg = some name ∧ s.freeSlot = some slot ∧
    (scanWord 63 ((cstr msg).drop 5)).map Prod.fst = some name ∧ o.ftok ≠ -1 ∧ o.msgget ≠ -1 ∧
    o.msgsnd slot (idText slot) = true

/-- An `INIT` finds a slot and a queue that can be opened, and the answer is
    not sent or the name of the queue has not fit. -/
def Lapse (s : State) (msg : List UInt8) (o : Outcome) : Prop :=
  ∃ name slot, initName msg = some name ∧ s.freeSlot = some slot ∧ o.ftok ≠ -1 ∧
    o.msgget ≠ -1 ∧ (o.msgsnd slot (idText slot) = false ∨ 63 < name.length)

variable {s : State} {msg : List UInt8} {o : Outcome} {slot : Fin MAX_CLIENTS}

theorem queues_free (hslot : s.freeSlot = some slot) : s.queues slot = none := by
  have hinactive : (s.clients slot).active = false := by
    simpa only [Bool.not_eq_true'] using firstSlot_some hslot
  rw [State.queues, hinactive]
  rfl

/-- What is read of a name, and that nothing is read where there is none. -/
theorem scanWord_init (hinit : (bytes "INIT ").isPrefixOf (cstr msg) = true) :
    (scanWord 63 ((cstr msg).drop 5)).map Prod.fst = (initName msg).map (List.take 63) := by
  rw [scanWord_map 63 (by decide), initName]
  by_cases hword : firstWord ((cstr msg).drop 5) = []
  · rw [if_pos hword, if_neg fun h => h.2 hword]
    rfl
  · rw [if_neg hword, if_pos ⟨hinit, hword⟩]
    rfl

/-- Other messages leave the queues alone. -/
theorem handle_other (hinit : (bytes "INIT ").isPrefixOf (cstr msg) = false) :
    (handle s msg o).queues = s.queues := by
  unfold handle
  simp only [hinit, Bool.false_eq_true, if_false]
  split_ifs
  · unfold handle_MSG
    cases scanMsg o.overflowed (cstr msg) <;> rfl
  · rfl
  · rfl

/-- An `INIT` that gets as far as opening its queue fills the slot. -/
theorem handle_INIT_queues {name : List UInt8}
    (hinit : (bytes "INIT ").isPrefixOf (cstr msg) = true) (hname : initName msg = some name)
    (hslot : s.freeSlot = some slot) (hftok : o.ftok ≠ -1) (hget : o.msgget ≠ -1) :
    (handle_INIT s (cstr msg) o).queues
      = Function.update s.queues slot (some o.msgget) := by
  have hscan := scanWord_init hinit
  rw [hname] at hscan
  rcases Option.map_eq_some_iff.mp hscan with ⟨w, hw, _⟩
  unfold handle_INIT
  simp only [hw, hslot, if_neg hftok, if_neg hget]
  funext i
  by_cases hi : i = slot
  · subst hi
    simp [State.queues]
  · simp [State.queues, Function.update_of_ne hi]

/-- Any other `INIT` is given up before the table is touched. -/
theorem handle_INIT_given_up
    (hinit : (bytes "INIT ").isPrefixOf (cstr msg) = true)
    (h : initName msg = none ∨ s.freeSlot = none ∨ o.ftok = -1 ∨ o.msgget = -1) :
    handle_INIT s (cstr msg) o = s := by
  have hscan := scanWord_init hinit
  unfold handle_INIT
  cases hw : scanWord 63 ((cstr msg).drop 5) with
  | none => rfl
  | some w =>
      have hname : initName msg ≠ none := by
        intro hnone
        rw [hw, hnone] at hscan
        cases hscan
      cases hslot : s.freeSlot with
      | none => rfl
      | some slot =>
          simp only []
          split_ifs with hftok hget
          · rfl
          · rfl
          · -- None of the tests has failed.
            rcases h with h | h | h | h
            · exact absurd h hname
            · rw [hslot] at h
              cases h
            · exact absurd h hftok
            · exact absurd h hget

/-- Where a queue is opened, the registration goes through or wrong, as the
    answer is sent and the name is short enough or not. -/
theorem completed_iff {name : List UInt8}
    (hinit : (bytes "INIT ").isPrefixOf (cstr msg) = true) (hname : initName msg = some name)
    (hslot : s.freeSlot = some slot) (hftok : o.ftok ≠ -1) (hget : o.msgget ≠ -1) :
    Completed s msg o ↔ ¬ Lapse s msg o := by
  have hscan := scanWord_init hinit
  rw [hname, Option.map_some] at hscan
  refine ⟨?_, fun h => ?_⟩
  · rintro ⟨name', slot', hname', hslot', hread, _, _, hsend⟩
      ⟨name'', slot'', hname'', hslot'', _, _, hwrong⟩
    -- Both speak of the same name and slot.
    rw [hname, Option.some.injEq] at hname' hname''
    rw [hslot, Option.some.injEq] at hslot' hslot''
    subst hname' hname'' hslot' hslot''
    rcases hwrong with hwrong | hlong
    · rw [hsend] at hwrong
      cases hwrong
    · rw [hscan, Option.some.injEq, List.take_eq_self_iff] at hread
      omega
  · refine ⟨name, slot, hname, hslot, ?_, hftok, hget, ?_⟩
    · by_contra hread
      refine h ⟨name, slot, hname, hslot, hftok, hget, Or.inr ?_⟩
      by_contra hshort
      exact hread (by rw [hscan, List.take_of_length_le (by omega)])
    · by_contra hsend
      exact h ⟨name, slot, hname, hslot, hftok, hget, Or.inl (Bool.eq_false_iff.mpr hsend)⟩

/-- The System V server registers all or nothing if and only if the message is
    not one it registers without having answered it, or under a part of its
    name. -/
theorem allOrNothing_iff (s : State) (msg : List UInt8) (o : Outcome) :
    AllOrNothing (Completed s msg o) o.msgget s.queues (handle s msg o).queues ↔
      ¬ Lapse s msg o := by
  by_cases hinit : (bytes "INIT ").isPrefixOf (cstr msg) = true
  · have hhandle : handle s msg o = handle_INIT s (cstr msg) o := by
      unfold handle
      exact if_pos hinit
    rw [hhandle]
    by_cases hup : initName msg = none ∨ s.freeSlot = none ∨ o.ftok = -1 ∨ o.msgget = -1
    · -- The table is not touched, and each reason to give up is one not to register.
      rw [handle_INIT_given_up hinit hup, allOrNothing_same]
      refine iff_of_true ?_ ?_
      · rintro ⟨name, slot, hname, hslot, _, hftok, hget, _⟩
        rw [hname, hslot] at hup
        simp [hftok, hget] at hup
      · rintro ⟨name, slot, hname, hslot, hftok, hget, _⟩
        rw [hname, hslot] at hup
        simp [hftok, hget] at hup
    · -- From here on the slot is filled, and nothing takes it back.
      rw [not_or, not_or, not_or] at hup
      rcases hup with ⟨hname, hslot, hftok, hget⟩
      rcases Option.ne_none_iff_exists'.mp hname with ⟨name, hname⟩
      rcases Option.ne_none_iff_exists'.mp hslot with ⟨slot, hslot⟩
      rw [handle_INIT_queues hinit hname hslot hftok hget, allOrNothing_update (queues_free hslot)]
      exact completed_iff hinit hname hslot hftok hget
  · have hfalse := Bool.eq_false_iff.mpr hinit
    have hnone : initName msg = none := if_neg fun h => hinit h.1
    rw [handle_other hfalse, allOrNothing_same]
    refine iff_of_true ?_ ?_
    · rintro ⟨name, _, hname, _⟩
      rw [hnone] at hname
      cases hname
    · rintro ⟨name, _, hname, _⟩
      rw [hnone] at hname
      cases hname

end SysV

/-- When the two servers register all or nothing, for every table of either,
    every message and everything the system may answer. -/
theorem registration_atomic_iff (s : State) (o : Outcome) (s' : SysV.State) (o' : SysV.Outcome)
    (msg : List UInt8) :
    (AllOrNothing (Completed s msg o) o.mq_open s.queues (handle s msg o).queues ↔
      ¬ Lapse s msg o) ∧
    (AllOrNothing (SysV.Completed s' msg o') o'.msgget s'.queues (SysV.handle s' msg o').queues ↔
      ¬ SysV.Lapse s' msg o') :=
  ⟨allOrNothing_iff s msg o, SysV.allOrNothing_iff s' msg o'⟩

/-- An `INIT` without a name registers a queue nobody has named, and a client
    whose answer is lost stays registered. -/
theorem registration_not_atomic :
    (∃ (o : Outcome), ¬ AllOrNothing (Completed start (bytes "INIT ") o) o.mq_open start.queues
      (handle start (bytes "INIT ") o).queues) ∧
    (∃ (o : SysV.Outcome), ¬ AllOrNothing (SysV.Completed SysV.start (bytes "INIT /tmp") o) o.msgget
      SysV.start.queues (SysV.handle SysV.start (bytes "INIT /tmp") o).queues) := by
  have hslot : start.freeSlot = some ⟨0, by decide⟩ := by decide
  have hslot' : SysV.start.freeSlot = some ⟨0, by decide⟩ := by decide
  have hnone : initName (bytes "INIT ") = none := by decide
  have hsome : initName (bytes "INIT /tmp") = some (bytes "/tmp") := by decide
  refine ⟨⟨{ queue_name := (CharArray.zero 64).strcpy (bytes "/q"), overflowed := 0, mq_open := 5
             mq_send := fun _ _ => true }, ?_⟩,
    ⟨{ overflowed := 0, ftok := 1, msgget := 5, msgsnd := fun _ _ => false }, ?_⟩⟩
  · rw [allOrNothing_iff, not_not]
    refine ⟨by decide, fun name hname => ?_, by decide, _, hslot, rfl⟩
    rw [hnone] at hname
    cases hname
  · rw [SysV.allOrNothing_iff, not_not]
    exact ⟨_, _, hsome, hslot', by decide, by decide, Or.inl rfl⟩

end Lab6

end OsLabs
