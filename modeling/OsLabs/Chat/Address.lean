import OsLabs.Chat.Common
import OsLabs.Core.Inet
import OsLabs.Core.Scan

/-!
# Addresses with a Port

`parse_address`, by which `common.c` of both labs takes an address and a port
from one string. No program of the two labs calls it.

The string is copied to 256 bytes, so that of a longer one only the beginning is
looked at, and divided at its last colon. The port is what `strtol` makes of the
rest, which may begin with white space and a sign. And the address is stored
before the port has been looked at. Each of the three goes wrong for some
string: a port that is not written in digits only is accepted, so is a string
that goes on behind what is looked at, and where the port is refused the address
has been stored.

## Main definitions

* `Parsed`: What `parse_address` returns and stores.
* `parsePair`, `parse_address`: The function, and its part behind the colon.
* `IsAddress`: An address, a colon and a port.
* `IsPort`: A port as `strtol` takes it.
* `Holds`: An array holds a string already.
* `AsStated`: The string is accepted if it is an address with a port, and else
  nothing is stored.
* `Suits`: When that is so.

## Theorems

* `parsePair_refused`, `parsePair_accepted`, `parsePair_stored`: The three ways out.
* `parse_address_undivided`, `parse_address_divided`: What is done with a string.
* `IsAddress.divided`: How an address with a port is divided.
* `asStated_iff_of_no_address`, `asStated_iff_of_address`: What the parts of the string decide.
* `suits_of_isAddress`: An address with a port is accepted unless it is too long.
* `parse_address_iff`: When the function does what is stated.
* `parse_address_wrong`: Three strings for which it does not.
-/

namespace OsLabs

namespace Chat

/-- What `parse_address` returns, and the memory behind its two pointers. -/
structure Parsed (n : Nat) where
  result : Int
  ip : CharArray n
  port : Int
  deriving DecidableEq

variable {n : Nat}

/-- `parse_address` from the division of the string on. -/
def parsePair (temp port_str : List UInt8) (ip : CharArray n) (ip_size : Nat) (port : Int) :
    Parsed n :=
  if strlen temp = 0 ∨ strlen temp ≥ ip_size then { result := -1, ip := ip, port := port }
  else if inet_pton temp = none then { result := -1, ip := ip, port := port }
  else
    let ip := safe_strcpy ip temp ip_size
    let (port_long, endptr) := strtol port_str
    if endptr.headD 0 ≠ 0 ∨ port_long < PORT_MIN ∨ port_long > PORT_MAX then
      { result := -1, ip := ip, port := port }
    else { result := 0, ip := ip, port := port_long }

/-- `parse_address`, with what is in `temp` before it is written. The pointers
    are not null. -/
def parse_address (addr_str : List UInt8) (ip : CharArray n) (ip_size : Nat) (port : Int)
    (temp : CharArray 256) : Parsed n :=
  let temp := safe_strcpy temp addr_str 256
  match strrchr temp.bytes 58 with
  | none => { result := -1, ip := ip, port := port }
  | some colon =>
    let temp := temp.set colon 0
    parsePair temp.bytes (temp.bytes.drop (colon + 1)) ip ip_size port

/-- An IPv4 address, a colon, and digits that denote a port. -/
structure IsAddress (s host digits : List UInt8) : Prop where
  text : s = host ++ 58 :: digits
  address : (inet_pton host).isSome
  digits_ne : digits ≠ []
  decimal : ∀ c ∈ digits, isDecimal c = true
  port_low : PORT_MIN ≤ ofNumeral digits
  port_high : ofNumeral digits ≤ PORT_MAX

/-- A port as `strtol` takes it: after white space, and maybe with a sign. -/
def IsPort (s : List UInt8) : Prop :=
  ∃ sign digits, IsNumber s sign digits [] ∧
    PORT_MIN ≤ signedNumeral sign digits ∧ signedNumeral sign digits ≤ PORT_MAX

/-- The first elements of an array are a string and zeros. -/
def Holds (a : CharArray n) (size : Nat) (s : List UInt8) : Prop :=
  a.bytes.take size = s ++ List.replicate (size - s.length) 0

/-- The string is accepted exactly if it is an address with a port, which are
    then stored. If it is not accepted nothing is stored. -/
structure AsStated (s : List UInt8) (ip : CharArray n) (port : Int) (out : Parsed n) : Prop where
  accepted_iff : out.result = 0 ↔ ∃ host digits, IsAddress s host digits
  parts : ∀ host digits, out.result = 0 → IsAddress s host digits →
    out.ip.str = host ∧ out.port = ofNumeral digits
  unchanged : out.result = -1 → out.ip = ip ∧ out.port = port

/-- If what is looked at has an address before its last colon, then either the
    rest is a port in digits and nothing has been cut off, or it is no port, the
    address is there already, and the whole string is no address with a port
    either. -/
def Suits (s : List UInt8) (ip : CharArray n) (ip_size : Nat) : Prop :=
  ∀ host rest, s.take 255 = host ++ 58 :: rest → 58 ∉ rest → (inet_pton host).isSome →
    IsPort rest ∧ (∀ c ∈ rest, isDecimal c = true) ∧ s.length ≤ 255 ∨
    ¬ IsPort rest ∧ Holds ip ip_size host ∧ ∀ host' digits, ¬ IsAddress s host' digits

section Pair

variable {temp port_str host : List UInt8} {ip : CharArray n} {ip_size : Nat} {port : Int}

/-- What is left over is part of the string. -/
theorem mem_strtol {b : UInt8} (h : b ∈ (strtol port_str).2) : b ∈ cstr port_str := by
  unfold strtol at h
  cases hread : readNumber (cstr port_str) with
  | none =>
      rw [hread] at h
      exact h
  | some p =>
      rw [hread] at h
      rcases isNumber_of_readNumber hread with ⟨sign, digits, hnumber, -⟩
      rcases hnumber.text with ⟨blanks, -, htext⟩
      rw [htext]
      exact List.mem_append_right _ (List.mem_append_right _ (List.mem_append_right _ h))

/-- `*endptr` is the terminator if nothing is left over. -/
theorem endptr_iff : (strtol port_str).2.headD 0 = 0 ↔ (strtol port_str).2 = [] := by
  cases hend : (strtol port_str).2 with
  | nil => exact iff_of_true rfl rfl
  | cons b rest =>
      have hb := mem_strtol (hend ▸ List.mem_cons_self : b ∈ (strtol port_str).2)
      exact iff_of_false (cstr_no_zero _ b hb) (List.cons_ne_nil b rest)

theorem parsePair_refused (h : inet_pton temp = none) :
    parsePair temp port_str ip ip_size port = { result := -1, ip := ip, port := port } := by
  unfold parsePair
  split_ifs
  · rfl
  · rfl

theorem address_ne_nil (h : (inet_pton temp).isSome) : strlen temp ≠ 0 := by
  intro hlen
  have hnil : cstr temp = [] := List.length_eq_zero_iff.mp hlen
  rw [← inet_pton_cstr, hnil] at h
  exact absurd h (by decide)

theorem address_length (h : (inet_pton temp).isSome) : strlen temp ≤ 15 := by
  rcases Option.isSome_iff_exists.mp h with ⟨addr, haddr⟩
  exact inet_pton_length haddr

/-- The address is stored before the port is looked at. -/
theorem parsePair_stored (h : (inet_pton temp).isSome) (hsize : 16 ≤ ip_size)
    (hport : ¬ IsPort (cstr port_str)) :
    parsePair temp port_str ip ip_size port
      = { result := -1, ip := safe_strcpy ip temp ip_size, port := port } := by
  have hne := address_ne_nil h
  have hlen := address_length h
  have hrefused : (strtol port_str).2.headD 0 ≠ 0 ∨ (strtol port_str).1 < PORT_MIN ∨
      (strtol port_str).1 > PORT_MAX := by
    by_contra hnot
    rw [not_or, not_or, not_not, endptr_iff, not_lt, not_lt] at hnot
    exact hport (isNumber_of_strtol (by decide) (by decide) hnot.1 hnot.2)
  rw [parsePair, if_neg (by omega), if_neg (Option.ne_none_iff_isSome.mpr h)]
  exact if_pos hrefused

theorem parsePair_accepted (h : (inet_pton temp).isSome) (hsize : 16 ≤ ip_size)
    {sign digits : List UInt8} (hnumber : IsNumber (cstr port_str) sign digits [])
    (hlow : PORT_MIN ≤ signedNumeral sign digits) (hhigh : signedNumeral sign digits ≤ PORT_MAX) :
    parsePair temp port_str ip ip_size port
      = { result := 0, ip := safe_strcpy ip temp ip_size, port := signedNumeral sign digits } := by
  have hne := address_ne_nil h
  have hlen := address_length h
  have hfits : LONG_MIN ≤ signedNumeral sign digits ∧ signedNumeral sign digits ≤ LONG_MAX :=
    ⟨le_trans (by decide) hlow, le_trans hhigh (by decide)⟩
  rw [parsePair, if_neg (by omega), if_neg (Option.ne_none_iff_isSome.mpr h),
    strtol_of_isNumber hnumber hfits]
  refine if_neg ?_
  rw [not_or, not_or, not_lt, not_lt]
  exact ⟨fun hend => hend rfl, hlow, hhigh⟩

end Pair

section Division

variable {addr_str host rest : List UInt8} (ip : CharArray n) (ip_size : Nat) (port : Int)
  (temp : CharArray 256)

/-- The copy that is looked at. -/
theorem temp_bytes (temp : CharArray 256) (addr_str : List UInt8) :
    ∃ tail, (safe_strcpy temp addr_str 256).bytes = (cstr addr_str).take 255 ++ 0 :: tail := by
  have hstr := str_safe_strcpy temp addr_str (by decide : 0 < 256) (Nat.le_refl 256)
  have hlen : (safe_strcpy temp addr_str 256).str.length < 256 := by
    rw [hstr, List.length_take]
    omega
  rcases CharArray.bytes_of_str_lt hlen with ⟨tail, htail⟩
  exact ⟨tail, by rw [htail, hstr]⟩

theorem take_no_zero (s : List UInt8) : ∀ b ∈ (cstr s).take 255, b ≠ 0 :=
  fun b hb => cstr_no_zero s b (List.mem_of_mem_take hb)

theorem parse_address_undivided (h : 58 ∉ (cstr addr_str).take 255) :
    parse_address addr_str ip ip_size port temp = { result := -1, ip := ip, port := port } := by
  rcases temp_bytes temp addr_str with ⟨tail, htail⟩
  have hlast : strrchr (safe_strcpy temp addr_str 256).bytes 58 = none := by
    rw [strrchr, htail, cstr_append_zero (take_no_zero addr_str)]
    exact lastIndex_eq_none_iff.mpr h
  rw [parse_address, hlast]

/-- At the last colon the string is divided in two. -/
theorem parse_address_divided (h : (cstr addr_str).take 255 = host ++ 58 :: rest)
    (hrest : 58 ∉ rest) :
    ∃ a b, cstr a = host ∧ cstr b = rest ∧
      parse_address addr_str ip ip_size port temp = parsePair a b ip ip_size port := by
  rcases temp_bytes temp addr_str with ⟨tail, htail⟩
  have hno := take_no_zero addr_str
  rw [h] at htail hno
  have hhost : ∀ b ∈ host, b ≠ 0 := fun b hb => hno b (List.mem_append_left _ hb)
  have hport : ∀ b ∈ rest, b ≠ 0 :=
    fun b hb => hno b (List.mem_append_right _ (List.mem_cons_of_mem _ hb))
  have hlast : strrchr (safe_strcpy temp addr_str 256).bytes 58 = some host.length := by
    rw [strrchr, htail, cstr_append_zero hno]
    exact lastIndex_of_split hrest
  -- The colon is replaced by a terminator.
  have hset : ((safe_strcpy temp addr_str 256).set host.length 0).bytes
      = host ++ 0 :: (rest ++ 0 :: tail) := by
    change (safe_strcpy temp addr_str 256).bytes.set host.length 0 = _
    rw [htail, List.append_assoc, List.set_append_right _ _ (Nat.le_refl _), Nat.sub_self]
    rfl
  refine ⟨_, _, ?_, ?_, by rw [parse_address, hlast]⟩
  · rw [hset, cstr_append_zero hhost]
  · rw [hset, List.drop_append, List.drop_of_length_le (by omega), Nat.add_sub_cancel_left]
    exact cstr_append_zero hport tail

end Division

section Exact

variable {s host host' rest digits : List UInt8} {ip : CharArray n} {ip_size : Nat}

/-- A string that fits is there already if copying it changes nothing. -/
theorem holds_iff {src : List UInt8} (hlen : strlen src < ip_size) (hsize : ip_size ≤ n) :
    safe_strcpy ip src ip_size = ip ↔ Holds ip ip_size (cstr src) := by
  have hbytes := bytes_safe_strcpy ip hlen hsize
  have hwhole := List.take_append_drop ip_size ip.bytes
  constructor
  · intro heq
    rw [heq] at hbytes
    exact List.append_cancel_right (hwhole.trans hbytes)
  · intro hholds
    have hfirst := congrArg (fun l => l ++ ip.bytes.drop ip_size) hholds
    exact CharArray.ext (hbytes.trans (hfirst.symm.trans hwhole))

theorem colon_not_mem (h : ∀ c ∈ digits, isDecimal c = true) : 58 ∉ digits := by
  intro hmem
  exact absurd (h 58 hmem) (by decide)

theorem IsAddress.host_length (h : IsAddress s host digits) (hs : ∀ b ∈ s, b ≠ 0) :
    host.length ≤ 15 := by
  have hno : ∀ b ∈ host, b ≠ 0 := by
    intro b hb
    refine hs b ?_
    rw [h.text]
    exact List.mem_append_left _ hb
  have hlen := address_length h.address
  rw [strlen, cstr_of_no_zero hno] at hlen
  exact hlen

/-- An address with a port is divided at its colon. -/
theorem IsAddress.divided (h : IsAddress s host digits) (hs : ∀ b ∈ s, b ≠ 0) :
    s.take 255 = host ++ 58 :: digits.take (254 - host.length) ∧
      58 ∉ digits.take (254 - host.length) := by
  have hlen := h.host_length hs
  refine ⟨?_, fun hmem => colon_not_mem h.decimal (List.mem_of_mem_take hmem)⟩
  rw [h.text, List.take_append, List.take_of_length_le (by omega),
    show 255 - host.length = 254 - host.length + 1 by omega, List.take_succ_cons]

theorem IsAddress.unique (h : IsAddress s host' digits) (hs : ∀ b ∈ s, b ≠ 0)
    (hdiv : s.take 255 = host ++ 58 :: rest) (hrest : 58 ∉ rest) :
    host' = host ∧ digits.take (254 - host.length) = rest := by
  rcases h.divided hs with ⟨hdiv', hrest'⟩
  rcases split_unique (hdiv'.symm.trans hdiv) hrest' hrest with ⟨rfl, htake⟩
  exact ⟨rfl, htake⟩

end Exact

section Result

variable {addr_str host rest : List UInt8} {ip : CharArray n} {ip_size : Nat} {port : Int}
  {temp : CharArray 256}

/-- A string that is no address with a port and is refused before anything is
    stored. -/
theorem asStated_refused {s : List UInt8} (h : ∀ host digits, ¬ IsAddress s host digits) :
    AsStated s ip port { result := -1, ip := ip, port := port } where
  accepted_iff := iff_of_false (show ¬ (-1 : Int) = 0 by decide)
    fun ⟨host, digits, haddr⟩ => h host digits haddr
  parts _ _ hres := absurd hres (show ¬ (-1 : Int) = 0 by decide)
  unchanged _ := ⟨rfl, rfl⟩

/-- Where the port is refused, the address must be there already. -/
theorem asStated_stored_iff {s : List UInt8} {ip' : CharArray n} :
    AsStated s ip port { result := -1, ip := ip', port := port } ↔
      ip' = ip ∧ ∀ host digits, ¬ IsAddress s host digits := by
  constructor
  · intro h
    exact ⟨(h.unchanged rfl).1, fun host digits haddr =>
      absurd (h.accepted_iff.mpr ⟨host, digits, haddr⟩) (show ¬ (-1 : Int) = 0 by decide)⟩
  · rintro ⟨rfl, hnone⟩
    exact asStated_refused hnone

/-- Where the port is accepted, it must be written in digits, and the string must
    end with it. -/
theorem asStated_accepted_iff {s sign digits : List UInt8} {ip' : CharArray n}
    (hs : ∀ b ∈ s, b ≠ 0) (hdiv : s.take 255 = host ++ 58 :: rest) (hrest : 58 ∉ rest)
    (haddr : (inet_pton host).isSome) (hip : ip'.str = host) (hnumber : IsNumber rest sign digits [])
    (hlow : PORT_MIN ≤ signedNumeral sign digits) (hhigh : signedNumeral sign digits ≤ PORT_MAX) :
    AsStated s ip port { result := 0, ip := ip', port := signedNumeral sign digits } ↔
      (∀ c ∈ rest, isDecimal c = true) ∧ s.length ≤ 255 := by
  -- A port in digits is the number they denote.
  have hval : (∀ c ∈ rest, isDecimal c = true) → rest ≠ [] ∧
      signedNumeral sign digits = ofNumeral rest := by
    intro hdec
    have hne : rest ≠ [] := by
      rintro rfl
      rcases hnumber.text with ⟨blanks, -, htext⟩
      have hnil := (List.append_eq_nil_iff.mp (List.append_eq_nil_iff.mp
        (List.append_eq_nil_iff.mp htext.symm).2).2).1
      exact hnumber.digits_ne hnil
    exact ⟨hne, (hnumber.unique (isNumber_digits hne hdec)).1⟩
  constructor
  · intro h
    rcases h.accepted_iff.mp rfl with ⟨host', digits', haddr'⟩
    rcases haddr'.unique hs hdiv hrest with ⟨rfl, htake⟩
    have hdec : ∀ c ∈ rest, isDecimal c = true := by
      intro c hc
      rw [← htake] at hc
      exact haddr'.decimal c (List.mem_of_mem_take hc)
    refine ⟨hdec, ?_⟩
    by_contra hlong
    -- Of the digits some have been cut off, and the number is larger with them.
    have hport := (h.parts host' digits' rfl haddr').2
    rcases hval hdec with ⟨hne, hrestval⟩
    have hsplit : digits' = rest ++ digits'.drop (254 - host'.length) := by
      rw [← htake, List.take_append_drop]
    have hmore : digits'.drop (254 - host'.length) ≠ [] := by
      intro hnil
      rw [List.drop_eq_nil_iff] at hnil
      rw [haddr'.text, List.length_append, List.length_cons] at hlong
      have hlen := haddr'.host_length hs
      omega
    have hpos : 0 < ofNumeral rest := by
      have hmin : (0 : Int) < PORT_MIN := by decide
      omega
    have hlarger := ofNumeral_lt_append hpos hmore
    rw [← hsplit] at hlarger
    change signedNumeral sign digits = (ofNumeral digits' : Int) at hport
    omega
  · rintro ⟨hdec, hlen⟩
    rw [List.take_of_length_le hlen] at hdiv
    rcases hval hdec with ⟨hne, hrestval⟩
    have haddr' : IsAddress s host rest :=
      ⟨hdiv, haddr, hne, hdec, hrestval ▸ hlow, hrestval ▸ hhigh⟩
    refine ⟨iff_of_true rfl ⟨host, rest, haddr'⟩, fun host' digits' _ hother => ?_,
      fun hres => absurd hres (show ¬ (0 : Int) = -1 by decide)⟩
    rcases split_unique (hother.text.symm.trans hdiv) (colon_not_mem hother.decimal) hrest with
      ⟨rfl, rfl⟩
    exact ⟨hip, hrestval⟩

/-- A string is divided in one way, so that the condition is about that. -/
theorem suits_divided_iff {s : List UInt8} (hdiv : s.take 255 = host ++ 58 :: rest)
    (hrest : 58 ∉ rest) (haddr : (inet_pton host).isSome) :
    Suits s ip ip_size ↔
      IsPort rest ∧ (∀ c ∈ rest, isDecimal c = true) ∧ s.length ≤ 255 ∨
      ¬ IsPort rest ∧ Holds ip ip_size host ∧ ∀ host' digits, ¬ IsAddress s host' digits := by
  refine ⟨fun h => h host rest hdiv hrest haddr, fun h host' rest' hdiv' hrest' _ => ?_⟩
  rcases split_unique (hdiv.symm.trans hdiv') hrest hrest' with ⟨rfl, rfl⟩
  exact h

/-- Without an address before the last colon the string is refused, and rightly
    so. -/
theorem asStated_iff_of_no_address {s : List UInt8} (hs : ∀ b ∈ s, b ≠ 0)
    (h : ∀ host rest, s.take 255 = host ++ 58 :: rest → 58 ∉ rest → ¬ (inet_pton host).isSome) :
    AsStated s ip port { result := -1, ip := ip, port := port } ↔ Suits s ip ip_size := by
  refine iff_of_true (asStated_refused fun host digits haddr => ?_)
    fun host rest hdiv hrest haddr => absurd haddr (h host rest hdiv hrest)
  rcases haddr.divided hs with ⟨hdiv, hrest⟩
  exact h host _ hdiv hrest haddr.address

/-- With an address there it depends on what follows. -/
theorem asStated_iff_of_address {s a b : List UInt8} (hmin : 16 ≤ ip_size) (hsize : ip_size ≤ n)
    (hs : ∀ b ∈ s, b ≠ 0) (hdiv : s.take 255 = cstr a ++ 58 :: cstr b) (hrest : 58 ∉ cstr b)
    (haddr : (inet_pton (cstr a)).isSome) :
    AsStated s ip port (parsePair a b ip ip_size port) ↔ Suits s ip ip_size := by
  have haddr' : (inet_pton a).isSome := by
    rw [← inet_pton_cstr]
    exact haddr
  have hlen := address_length haddr'
  rw [suits_divided_iff hdiv hrest haddr]
  by_cases hport : IsPort (cstr b)
  · have hsome := hport
    rcases hsome with ⟨sign, digits, hnumber, hlow, hhigh⟩
    have hip : (safe_strcpy ip a ip_size).str = cstr a := by
      rw [str_safe_strcpy _ _ (by omega) hsize, List.take_of_length_le]
      exact Nat.le_trans hlen (by omega)
    rw [parsePair_accepted haddr' hmin hnumber hlow hhigh,
      asStated_accepted_iff hs hdiv hrest haddr hip hnumber hlow hhigh]
    exact ⟨fun h => Or.inl ⟨hport, h⟩, fun h => h.elim And.right fun h => absurd hport h.1⟩
  · rw [parsePair_stored haddr' hmin hport, asStated_stored_iff, holds_iff (by omega) hsize]
    exact ⟨fun h => Or.inr ⟨hport, h⟩, fun h => h.elim (fun h => absurd h.1 hport) And.right⟩

/-- Whatever the string and whatever is in memory: the function does what is
    stated exactly if the condition holds. -/
theorem parse_address_iff (addr_str : List UInt8) (ip : CharArray n) {ip_size : Nat} (port : Int)
    (temp : CharArray 256) (hmin : 16 ≤ ip_size) (hsize : ip_size ≤ n) :
    AsStated (cstr addr_str) ip port (parse_address addr_str ip ip_size port temp) ↔
      Suits (cstr addr_str) ip ip_size := by
  have hs := cstr_no_zero addr_str
  by_cases hcolon : 58 ∈ (cstr addr_str).take 255
  · rcases split_of_mem hcolon with ⟨host, rest, hdiv, hrest⟩
    rcases parse_address_divided ip ip_size port temp hdiv hrest with ⟨a, b, rfl, rfl, hout⟩
    rw [hout]
    by_cases haddr : (inet_pton (cstr a)).isSome
    · exact asStated_iff_of_address hmin hsize hs hdiv hrest haddr
    · have hrefused : inet_pton a = none := by
        rw [← inet_pton_cstr]
        exact Option.not_isSome_iff_eq_none.mp haddr
      rw [parsePair_refused hrefused]
      refine asStated_iff_of_no_address hs fun host rest hdiv' hrest' haddr' => ?_
      -- There is no other last colon.
      rcases split_unique (hdiv.symm.trans hdiv') hrest hrest' with ⟨hhost, -⟩
      rw [hhost] at haddr
      exact haddr haddr'
  · rw [parse_address_undivided ip ip_size port temp hcolon]
    refine asStated_iff_of_no_address hs fun host rest hdiv _ _ => ?_
    rw [hdiv] at hcolon
    exact hcolon (List.mem_append_right _ List.mem_cons_self)

/-- A character behind the colon that is no digit. -/
theorem not_isAddress {s host rest : List UInt8} {c : UInt8} (hs : s = host ++ 58 :: rest)
    (hrest : 58 ∉ rest) (hc : c ∈ rest) (hdec : isDecimal c = false) (host' digits : List UInt8) :
    ¬ IsAddress s host' digits := by
  intro h
  rcases split_unique (h.text.symm.trans hs) (colon_not_mem h.decimal) hrest with ⟨-, rfl⟩
  rw [h.decimal c hc] at hdec
  cases hdec

/-- An address with a port is accepted unless it is too long. -/
theorem suits_of_isAddress {s host digits : List UInt8} (h : IsAddress s host digits)
    (hlen : s.length ≤ 255) : Suits s ip ip_size := by
  have hdiv : s.take 255 = host ++ 58 :: digits := by
    rw [List.take_of_length_le hlen]
    exact h.text
  have hport : IsPort digits :=
    ⟨[], digits, isNumber_digits h.digits_ne h.decimal, h.port_low, h.port_high⟩
  exact (suits_divided_iff hdiv (colon_not_mem h.decimal) h.address).mpr
    (Or.inl ⟨hport, h.decimal, hlen⟩)

/-- A port of the local host. -/
theorem parse_address_iff_local :
    AsStated (cstr (bytes "127.0.0.1:8080")) (CharArray.zero 16) 0
      (parse_address (bytes "127.0.0.1:8080") (CharArray.zero 16) 16 0 (CharArray.zero 256)) := by
  have haddr : IsAddress (cstr (bytes "127.0.0.1:8080")) (bytes "127.0.0.1") (bytes "8080") :=
    ⟨by decide, by decide, by decide, List.all_eq_true.mp (by decide), by decide, by decide⟩
  have hsuits : Suits (cstr (bytes "127.0.0.1:8080")) (CharArray.zero 16) 16 :=
    suits_of_isAddress haddr (by decide)
  exact (parse_address_iff (bytes "127.0.0.1:8080") (CharArray.zero 16) 0 (CharArray.zero 256)
    (Nat.le_refl 16) (Nat.le_refl 16)).mpr hsuits

/-- A port behind a space is accepted, and so is one with a letter far behind.
    Where the port is too small the address is stored. -/
theorem parse_address_wrong :
    (∃ s, s = bytes "127.0.0.1: 8080" ∧ ¬ AsStated (cstr s) (CharArray.zero 16) 0
      (parse_address s (CharArray.zero 16) 16 0 (CharArray.zero 256))) ∧
    (∃ s, s = bytes "127.0.0.1:" ++ List.replicate 241 48 ++ bytes "8080x" ∧
      ¬ AsStated (cstr s) (CharArray.zero 16) 0
        (parse_address s (CharArray.zero 16) 16 0 (CharArray.zero 256))) ∧
    ∃ s, s = bytes "127.0.0.1:80" ∧ ¬ AsStated (cstr s) (CharArray.zero 16) 0
      (parse_address s (CharArray.zero 16) 16 0 (CharArray.zero 256)) := by
  refine ⟨⟨_, rfl, fun h => ?_⟩, ⟨_, rfl, fun h => ?_⟩, ⟨_, rfl, fun h => ?_⟩⟩
  · rcases h.accepted_iff.mp (by decide +kernel) with ⟨host, digits, haddr⟩
    exact not_isAddress (c := 32) (by decide : _ = bytes "127.0.0.1" ++ 58 :: bytes " 8080")
      (by decide) (by decide) (by decide) host digits haddr
  · rcases h.accepted_iff.mp (by decide +kernel) with ⟨host, digits, haddr⟩
    exact not_isAddress (c := 120)
      (by decide +kernel : _ = bytes "127.0.0.1" ++ 58 :: (List.replicate 241 48 ++ bytes "8080x"))
      (by decide +kernel) (by decide +kernel) (by decide) host digits haddr
  · have hsame := (h.unchanged (by decide +kernel)).1
    revert hsame
    decide +kernel

end Result

end Chat

end OsLabs
