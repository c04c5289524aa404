import OsLabs.Lab6.FanOut
import OsLabs.Lab6.SystemVChat

/-!
# The Number a Client Is Told

The server answers `INIT` with `ID` and the number of the slot, and the client
reads the number back. The System V server sends the terminator along. The
POSIX server sends the characters only and the POSIX client puts a terminator
17 bytes behind its array, so between the two stands whatever was on its stack
before. If a digit happens to stand right behind the number, the client reads
it as a part of the number.

## Main definitions

* `stale`: The digits right behind the number.
* `Undisturbed`: The digits there do not change the number.

## Theorems

* `read_id_iff`: When the POSIX client reads the number it was sent.
* `read_id_withEnd`: The System V client always does.
* `handshake_iff`: The same for all registrations of the two servers.
* `handshake_stale_digit`: A client that is told 0 and reads 5.
-/

namespace OsLabs

namespace Lab6

/-- The digits that stand on the stack right behind the answer, in front of the
    client's terminator. -/
def stale (stack : Stack) : List UInt8 :=
  ((stack.bytes.take (MSG_SIZE + 18)).drop 4).takeWhile isDecimal

/-- There are none, or there are only zeros and the number is zero. -/
def Undisturbed (stack : Stack) (slot : Nat) : Prop :=
  stale stack = [] ∨ slot = 0 ∧ ∀ c ∈ stale stack, c = 48

section Texts

variable {slot : Fin MAX_CLIENTS}

theorem no_zero_id (slot : Fin MAX_CLIENTS) : ∀ b ∈ bytes "ID " ++ numeral slot, b ≠ 0 := by
  revert slot
  decide +kernel

theorem idText_eq (slot : Fin MAX_CLIENTS) : idText slot = bytes "ID " ++ numeral slot := by
  revert slot
  decide +kernel

theorem length_idText (slot : Fin MAX_CLIENTS) : (idText slot).length = 4 := by
  revert slot
  decide +kernel

/-- The zero byte that ends a string is no digit. -/
theorem takeWhile_cstr (s : List UInt8) :
    (cstr s).takeWhile isDecimal = s.takeWhile isDecimal := by
  rw [cstr, List.takeWhile_takeWhile]
  refine congrArg (fun p => s.takeWhile p) (funext fun c => ?_)
  by_cases hc : isDecimal c = true
  · have hne : c ≠ 0 := by
      rintro rfl
      exact absurd hc (by decide)
    simp only [hc, hne, decide_true, ne_eq, not_false_eq_true, and_self]
  · simp only [hc, false_and, decide_false, Bool.false_eq_true]

theorem cstr_append {s : List UInt8} (h : ∀ b ∈ s, b ≠ 0) (t : List UInt8) :
    cstr (s ++ t) = s ++ cstr t :=
  List.takeWhile_append_of_pos fun b hb => decide_eq_true (h b hb)

/-- Reading the number in front of whatever follows it. -/
theorem scanId_append (overflowed : Int) (slot : Fin MAX_CLIENTS) (rest : List UInt8) :
    scanId overflowed (bytes "ID " ++ numeral slot ++ rest)
      = (scanInt overflowed (numeral slot ++ rest)).map Prod.fst := by
  rcases head_numeral slot rest with ⟨c, hhead, hdigit⟩
  have hskip : (bytes " " ++ (numeral slot ++ rest)).dropWhile isBlank = numeral slot ++ rest :=
    dropWhile_of_head hhead (digit_not_other hdigit).1
  rw [scanId, List.append_assoc]
  change (if _ then (scanInt overflowed ((bytes " " ++ _).dropWhile isBlank)).map Prod.fst else _) = _
  rw [hskip]
  exact if_pos rfl

/-- A zero byte at the end of some memory does not change the string in it. -/
theorem cstr_append_end (s : List UInt8) : cstr (s ++ [0]) = cstr s := by
  induction s with
  | nil => rfl
  | cons b s ih =>
      rw [List.cons_append, cstr, cstr, List.takeWhile_cons, List.takeWhile_cons]
      exact congrArg (fun l => if decide (b ≠ 0) = true then b :: l else []) ih

theorem bytes_received {n : Nat} (a : CharArray n) {msg : List UInt8} (hlen : msg.length ≤ n) :
    (received a msg).bytes = msg ++ a.bytes.drop msg.length := by
  have hall : (msg ++ a.bytes.drop msg.length).length = n := by
    rw [List.length_append, List.length_drop, a.length_eq]
    omega
  change (msg ++ a.bytes.drop msg.length ++ List.replicate n 0).take n = _
  rw [List.take_append_of_le_length (Nat.le_of_eq hall.symm),
    List.take_of_length_le (Nat.le_of_eq hall)]

/-- The string the POSIX client reads from. -/
theorem str_received (stack : Stack) (slot : Fin MAX_CLIENTS) :
    ((received stack (idText slot)).set (MSG_SIZE + 18) 0).str
      = bytes "ID " ++ numeral slot ++ cstr ((stack.bytes.take (MSG_SIZE + 18)).drop 4) := by
  have hsize : MSG_SIZE = 1024 := rfl
  have hid := length_idText slot
  have hlen : (idText slot ++ stack.bytes.drop 4).length = MSG_SIZE + 19 := by
    rw [List.length_append, List.length_drop, stack.length_eq, hid]
    rfl
  have hbytes : (received stack (idText slot)).bytes = idText slot ++ stack.bytes.drop 4 := by
    rw [bytes_received stack (by rw [hid, hsize]; decide), hid]
  -- The terminator is the last byte of the memory looked at.
  have hset : (idText slot ++ stack.bytes.drop 4).set (MSG_SIZE + 18) 0
      = idText slot ++ (stack.bytes.take (MSG_SIZE + 18)).drop 4 ++ [0] := by
    have hend : (idText slot ++ stack.bytes.drop 4).drop (MSG_SIZE + 18 + 1) = [] :=
      List.drop_of_length_le (by omega)
    have hfront : (idText slot).take (MSG_SIZE + 18) = idText slot :=
      List.take_of_length_le (by omega)
    rw [List.set_eq_take_append_cons_drop, if_pos (by omega), hend, List.take_append, hid, hfront,
      List.drop_take]
  rw [CharArray.str, CharArray.set]
  change cstr ((received stack (idText slot)).bytes.set (MSG_SIZE + 18) 0) = _
  rw [hbytes, hset, cstr_append_end, idText_eq, cstr_append (no_zero_id slot)]

/-- The POSIX client reads the number it was sent, whatever an overflow would
    store, exactly if the digits behind it do not disturb it. -/
theorem read_id_iff (stack : Stack) (slot : Fin MAX_CLIENTS) :
    (∀ overflowed, read_id overflowed stack (idText slot) = some (slot : Int)) ↔
      Undisturbed stack slot := by
  have hlt : (slot : Nat) < 2 ^ 31 := Nat.lt_of_lt_of_le slot.isLt (by decide)
  have hread := scanInt_eq_iff hlt (cstr ((stack.bytes.take (MSG_SIZE + 18)).drop 4))
  rw [takeWhile_cstr] at hread
  unfold Undisturbed stale
  rw [← hread]
  refine forall_congr' fun overflowed => ?_
  rw [read_id, str_received, scanId_append]

/-- The System V client reads the number it was sent. -/
theorem read_id_withEnd (overflowed : Int) (message : CharArray MSG_SIZE) (slot : Fin MAX_CLIENTS) :
    SysV.read_id overflowed message (SysV.idText slot) = some (slot : Int) := by
  have hid : SysV.idText slot = bytes "ID " ++ numeral slot ++ 0 :: [] := by
    revert slot
    decide +kernel
  have hlen : (SysV.idText slot).length ≤ MSG_SIZE := by
    revert slot
    decide +kernel
  have hlt : (slot : Nat) < 2 ^ 31 := Nat.lt_of_lt_of_le slot.isLt (by decide)
  have hread := (scanInt_eq_iff hlt []).mpr (Or.inl rfl) overflowed
  rw [SysV.read_id, CharArray.str, bytes_received message hlen, hid, List.append_assoc,
    List.cons_append, cstr_append_zero (no_zero_id slot)]
  have hscan := scanId_append overflowed slot []
  rw [List.append_nil] at hscan
  rw [hscan, hread]

end Texts

/-- Whatever registrations a server has handled, an answer it has sent comes
    from the slot in which the client's queue is stored. The POSIX client reads
    the number of that slot, whatever an overflow would store, exactly if the
    digits on its stack do not disturb it. The System V client always does. -/
theorem handshake_iff (stack : Stack) (message : CharArray MSG_SIZE) :
    (∀ s e s' d, Reachable step start s → step s e = some s' → s'.replies = s.replies ++ [d] →
      d.ok = true →
      (s'.clients d.slot).active = true ∧ (s'.clients d.slot).mqd = d.mqd ∧
        ((∀ overflowed, read_id overflowed stack d.text = some (d.slot : Int)) ↔
          Undisturbed stack d.slot)) ∧
    (∀ s e s' d, Reachable SysV.step SysV.start s → SysV.step s e = some s' →
      s'.replies = s.replies ++ [d] → d.ok = true →
      (s'.clients d.slot).active = true ∧ (s'.clients d.slot).qid = d.qid ∧
        ∀ overflowed, SysV.read_id overflowed message d.text = some (d.slot : Int)) := by
  constructor
  · intro s e s' d _ hstep hreply hok
    rcases step_replies hstep hreply with ⟨hactive, hmqd, htext⟩
    rw [htext, read_id_iff]
    exact ⟨hactive.trans hok, hmqd, Iff.rfl⟩
  · intro s e s' d _ hstep hreply _
    rcases SysV.step_replies hstep hreply with ⟨hactive, hqid, htext⟩
    rw [htext]
    exact ⟨hactive, hqid, fun overflowed => read_id_withEnd overflowed message d.slot⟩

/-- The first client to register. -/
def firstClient : Event := .message (bytes "INIT /client_7") (succeeding 4)

/-- The answer to it. -/
def firstAnswer : Send := { slot := 0, mqd := 4, text := bytes "ID 0", ok := true }

theorem firstClient_answered :
    ∃ s, step start firstClient = some s ∧ s.replies = start.replies ++ [firstAnswer] := by
  have hend : (step start firstClient).map State.replies = some [firstAnswer] := by
    decide +kernel
  rcases Option.map_eq_some_iff.mp hend with ⟨s, hstep, hreplies⟩
  exact ⟨s, hstep, hreplies⟩

/-- On a stack of zeros the POSIX client reads its number. -/
theorem handshake_run :
    ∃ s, step start firstClient = some s ∧ s.replies = [firstAnswer] ∧
      ∀ overflowed, read_id overflowed (CharArray.zero _) firstAnswer.text = some 0 := by
  rcases firstClient_answered with ⟨s, hstep, hreplies⟩
  have hiff := (handshake_iff (CharArray.zero _) (CharArray.zero _)).1 start firstClient s firstAnswer
    Reaches.refl hstep hreplies rfl
  have hclean : Undisturbed (CharArray.zero _) 0 := Or.inl (by decide +kernel)
  exact ⟨s, hstep, hreplies, hiff.2.2.mpr hclean⟩

/-- A stack with a digit where the number ends. -/
def staleStack : Stack := CharArray.ofList _ (bytes "MSG 5")

/-- The first client is told 0 and reads 5. -/
theorem handshake_stale_digit :
    ∃ s, step start firstClient = some s ∧ s.replies = start.replies ++ [firstAnswer] ∧
      (s.clients firstAnswer.slot).mqd = firstAnswer.mqd ∧ firstAnswer.slot = 0 ∧
      read_id 0 staleStack firstAnswer.text = some 5 := by
  rcases firstClient_answered with ⟨s, hstep, hreplies⟩
  exact ⟨s, hstep, hreplies, (step_replies hstep hreplies).2.1, rfl, by decide +kernel⟩

end Lab6

end OsLabs
