import Mathlib.Data.BitVec
import OsLabs.Core.Memory

/-!
# Internet Addresses

The text form of an IPv4 address, and the byte order of a port.

`inet_pton` reads an address in dotted decimals: four numbers up to 255 without
leading zeros, and nothing else. It goes through the text once and keeps the
number it is in, whether it has seen a digit of it, and how many numbers it has
begun. Each number has three digits at most, so that no text of more than 15
characters is an address.

## Main definitions

* `InetState`, `inetStep`, `inetRun`: The machine that reads an address.
* `inet_pton`: The address a text denotes.
* `htons`: A port in the byte order of the network.

## Theorems

* `inetRun_length`: How much text the machine can still accept.
* `inet_pton_length`: An address has 15 characters at most.
* `htons_htons`: The byte order goes back and forth.
-/

namespace OsLabs

/-- What is known of an address in the middle of its text: the numbers that are
    complete, the one being read, whether it has a digit yet, and how many have
    been begun. -/
structure InetState where
  done : List UInt8
  current : Nat
  saw_digit : Bool
  octets : Nat

/-- One character. -/
def inetStep (st : InetState) (ch : UInt8) : Option InetState :=
  if 48 ≤ ch ∧ ch ≤ 57 then
    -- A number of several digits begins with none that is zero.
    let new := st.current * 10 + (ch.toNat - 48)
    if st.saw_digit = true ∧ st.current = 0 then none
    else if new > 255 then none
    else if st.saw_digit then some { st with current := new }
    else if st.octets + 1 > 4 then none
    else some { st with current := new, saw_digit := true, octets := st.octets + 1 }
  else if ch = 46 ∧ st.saw_digit = true then
    -- A dot ends a number, and not the last one.
    if st.octets = 4 then none
    else some
      { st with done := st.done ++ [UInt8.ofNat st.current], current := 0, saw_digit := false }
  else none

/-- The four numbers of an address. -/
def inetRun (st : InetState) : List UInt8 → Option (List UInt8)
  | [] => if st.octets < 4 then none else some (st.done ++ [UInt8.ofNat st.current])
  | ch :: s => (inetStep st ch).bind fun st => inetRun st s

/-- `inet_pton` for IPv4: the four bytes in the order they have in memory. -/
def inet_pton (src : List UInt8) : Option (BitVec 32) :=
  (inetRun { done := [], current := 0, saw_digit := false, octets := 0 } (cstr src)).map fun tmp =>
    BitVec.ofNat 32 (leNat tmp)

/-- The two bytes of a port exchanged, which `ntohs` does as well. -/
def htons (port : BitVec 16) : BitVec 16 :=
  BitVec.ofNat 16 (port.toNat % 256 * 256 + port.toNat / 256)

theorem htons_htons (port : BitVec 16) : htons (htons port) = port := by
  have hlt := port.isLt
  -- Nothing is lost when the bytes are exchanged once.
  have hswap : (htons port).toNat = port.toNat % 256 * 256 + port.toNat / 256 := by
    rw [htons, BitVec.toNat_ofNat]
    exact Nat.mod_eq_of_lt (by omega)
  have hparts := Nat.div_add_mod port.toNat 256
  have hlow := Nat.mod_lt port.toNat (by decide : 0 < 256)
  refine BitVec.eq_of_toNat_eq ?_
  rw [htons, hswap, BitVec.toNat_ofNat]
  generalize port.toNat / 256 = high at hparts ⊢
  generalize port.toNat % 256 = low at hparts hlow ⊢
  -- Of the exchanged bytes the low one is the high one again.
  have hmod : (low * 256 + high) % 256 = high := by omega
  have hdiv : (low * 256 + high) / 256 = low := by omega
  have hsmall : high * 256 + low < 65536 := by omega
  rw [hmod, hdiv]
  change (high * 256 + low) % 65536 = port.toNat
  rw [Nat.mod_eq_of_lt hsmall, ← hparts, Nat.mul_comm]

/-- The digits of a number up to 255. -/
def digitsOf (v : Nat) : Nat := if v < 10 then 1 else if v < 100 then 2 else 3

/-- How many characters an address can have from here on. -/
def InetState.room (st : InetState) : Nat :=
  if st.saw_digit then 3 - digitsOf st.current + 4 * (4 - st.octets) else 4 * (4 - st.octets) - 1

/-- Between two numbers there is one to come. -/
structure InetState.Sound (st : InetState) : Prop where
  octets_le : st.octets ≤ 4
  between : st.saw_digit = false → st.octets < 4
  zero : st.saw_digit = false → st.current = 0

/-- A character takes up room. -/
theorem inetStep_room {st st' : InetState} {ch : UInt8} (h : st.Sound)
    (hstep : inetStep st ch = some st') : st'.Sound ∧ st'.room + 1 ≤ st.room := by
  have hle := h.octets_le
  unfold inetStep at hstep
  simp only [] at hstep
  split_ifs at hstep with hdigit hzero hlarge hsaw hmany hdot hlast
  · -- One more digit of a number that is not zero.
    rw [Option.some.injEq] at hstep
    subst hstep
    refine ⟨⟨hle, fun hno => ?_, fun hno => ?_⟩, ?_⟩
    · rw [hsaw] at hno
      cases hno
    · rw [hsaw] at hno
      cases hno
    · have hpos : st.current ≠ 0 := fun hc => hzero ⟨hsaw, hc⟩
      simp only [InetState.room, hsaw, if_true, digitsOf]
      split_ifs <;> omega
  · -- The first digit of a number.
    rw [Option.some.injEq] at hstep
    subst hstep
    have hno := Bool.eq_false_iff.mpr hsaw
    have hcurrent := h.zero hno
    have hbetween := h.between hno
    refine ⟨⟨?_, fun hc => (by cases hc), fun hc => (by cases hc)⟩, ?_⟩
    · simp only
      omega
    · simp only [InetState.room, hno, if_true, digitsOf, Bool.false_eq_true, if_false]
      split_ifs <;> omega
  · -- A dot, which is followed by a number.
    rw [Option.some.injEq] at hstep
    subst hstep
    refine ⟨⟨hle, fun _ => by simp only; omega, fun _ => rfl⟩, ?_⟩
    simp only [InetState.room, hdot.2, if_true, Bool.false_eq_true, if_false]
    omega

/-- A text that is accepted is no longer than there is room. -/
theorem inetRun_length {s : List UInt8} {st : InetState} {tmp : List UInt8} (h : st.Sound)
    (hrun : inetRun st s = some tmp) : s.length ≤ st.room := by
  induction s generalizing st with
  | nil => exact Nat.zero_le _
  | cons ch s ih =>
      rcases Option.bind_eq_some_iff.mp hrun with ⟨st', hstep, hrest⟩
      rcases inetStep_room h hstep with ⟨hsound, hroom⟩
      -- What is left has to do with the room that is left.
      have hlen := ih hsound hrest
      rw [List.length_cons]
      omega

/-- An address has 15 characters at most. -/
theorem inet_pton_length {src : List UInt8} {addr : BitVec 32} (h : inet_pton src = some addr) :
    strlen src ≤ 15 := by
  rcases Option.map_eq_some_iff.mp h with ⟨tmp, hrun, _⟩
  have hsound : InetState.Sound { done := [], current := 0, saw_digit := false, octets := 0 } :=
    ⟨Nat.zero_le 4, fun _ => by decide, fun _ => rfl⟩
  exact inetRun_length hsound hrun

/-- What counts of the text is the string. -/
theorem inet_pton_cstr (src : List UInt8) : inet_pton (cstr src) = inet_pton src := by
  rw [inet_pton, inet_pton, cstr_cstr]

end OsLabs
