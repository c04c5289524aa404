import Mathlib.Data.Nat.Digits.Defs
import OsLabs.Core.Memory

/-!
# Formatted Text

What `printf` writes for a number and what `scanf` and `strtol` read back, for
the conversions by which programs pass numbers and lines to each other.

A conversion of `scanf` takes text from the front and leaves the rest, so each
one here returns both, or nothing when it does not match. `%d` reads as many
digits as there are. If they denote a number that is no `int`, C leaves open
what is stored, so what is stored then is an argument, and a result that does
not depend on it is stated for all of them.

A number is read back from its numeral whatever follows it, as long as that
is no digit. `ofNumeral_numeral_append` says what happens if digits follow:
unless the numeral is a zero, followed by zeros only, another number is read.

## Main definitions

* `isDecimal`, `isBlank`: Digits and white space.
* `numeral`, `ofNumeral`: The digits of a number, and the number they denote.
* `intNumeral`: What `%d` writes.
* `scanInt`, `scanWord`, `scanLine`: `%d`, `%s` and `%[^\n]`.
* `readNumber`: The number at the front of a text, of any size.
* `strtol`: The conversion to `long`.
* `IsNumber`: A text begins with a number, as `%d` takes it.
* `snprintf`: The bounded formatting of a text.

## Theorems

* `ofNumeral_numeral`: A number is read back from its digits.
* `ofNumeral_numeral_append`: When digits that follow do not change it.
* `scanInt_intNumeral`: What `%d` writes it also reads.
* `scanInt_numeral_append`: What it reads when digits follow.
* `scanInt_eq_iff`: When it reads the number that was written.
* `strtol_of_isNumber`, `isNumber_of_strtol`: Which texts `strtol` converts to the end.
-/

namespace OsLabs

/-- A decimal digit. -/
def isDecimal (c : UInt8) : Bool := 48 ≤ c && c ≤ 57

/-- `isspace` in the C locale. -/
def isBlank (c : UInt8) : Bool := c == 32 || (9 ≤ c && c ≤ 13)

/-- The digits of a number, most significant first. -/
def numeral (n : Nat) : List UInt8 :=
  if n = 0 then [48] else (Nat.digits 10 n).reverse.map fun d => UInt8.ofNat (48 + d)

/-- The number a list of digits denotes. -/
def ofNumeral (s : List UInt8) : Nat := Nat.ofDigits 10 (s.reverse.map fun c => c.toNat - 48)

/-- What `%d` writes. -/
def intNumeral (n : Int) : List UInt8 :=
  if n < 0 then 45 :: numeral n.natAbs else numeral n.natAbs

/-- The number stored in an `int`. Out of range it is the argument. -/
def storedInt (overflowed n : Int) : Int := if -2 ^ 31 ≤ n ∧ n < 2 ^ 31 then n else overflowed

/-- `%d`: white space, a sign or none, and as many digits as there are. -/
def scanInt (overflowed : Int) (s : List UInt8) : Option (Int × List UInt8) :=
  let t := s.dropWhile isBlank
  let negative := t.head? = some 45
  let u := if negative ∨ t.head? = some 43 then t.tail else t
  let digits := u.takeWhile isDecimal
  if digits = [] then none
  else some (storedInt overflowed (if negative then -ofNumeral digits else ofNumeral digits),
    u.dropWhile isDecimal)

/-- A number at the front of a text, as `%d` takes it, and the rest. -/
def readNumber (s : List UInt8) : Option (Int × List UInt8) :=
  let t := s.dropWhile isBlank
  let negative := t.head? = some 45
  let u := if negative ∨ t.head? = some 43 then t.tail else t
  let digits := u.takeWhile isDecimal
  if digits = [] then none
  else some (if negative then -ofNumeral digits else ofNumeral digits, u.dropWhile isDecimal)

def LONG_MIN : Int := -2 ^ 63
def LONG_MAX : Int := 2 ^ 63 - 1

/-- `strtol` for decimals: the number, cut to the range of `long`, and the text
    from `endptr` on. Without a number these are 0 and the whole text. -/
def strtol (nptr : List UInt8) : Int × List UInt8 :=
  match readNumber (cstr nptr) with
  | none => (0, cstr nptr)
  | some (n, endptr) => (max LONG_MIN (min LONG_MAX n), endptr)

/-- `%s` with a width: white space, and up to so many other bytes. -/
def scanWord (width : Nat) (s : List UInt8) : Option (List UInt8 × List UInt8) :=
  let t := s.dropWhile isBlank
  let word := (t.takeWhile fun c => !isBlank c).take width
  if word = [] then none else some (word, t.drop word.length)

/-- `%[^\n]` with a width: up to so many bytes of the line. -/
def scanLine (width : Nat) (s : List UInt8) : Option (List UInt8 × List UInt8) :=
  let line := (s.takeWhile (· ≠ 10)).take width
  if line = [] then none else some (line, s.drop line.length)

/-- The text begins with white space, a sign or none, and digits, and with no
    more digits goes on as given. -/
structure IsNumber (s sign digits rest : List UInt8) : Prop where
  text : ∃ blanks, (∀ c ∈ blanks, isBlank c = true) ∧ s = blanks ++ (sign ++ (digits ++ rest))
  signed : sign = [] ∨ sign = [45] ∨ sign = [43]
  digits_ne : digits ≠ []
  decimal : ∀ c ∈ digits, isDecimal c = true
  ends : rest.takeWhile isDecimal = []

/-- The number that sign and digits denote. -/
def signedNumeral (sign digits : List UInt8) : Int :=
  if sign = [45] then -ofNumeral digits else ofNumeral digits

/-- What `snprintf` leaves in an array of that size, of the text formatted. -/
def snprintf (size : Nat) (text : List UInt8) : List UInt8 := text.take (size - 1)

theorem toNat_digit {d : Nat} (h : d < 10) : (UInt8.ofNat (48 + d)).toNat = 48 + d := by
  rw [UInt8.toNat_ofNat']
  exact Nat.mod_eq_of_lt (by omega)

theorem isDecimal_digit {d : Nat} (h : d < 10) : isDecimal (UInt8.ofNat (48 + d)) = true := by
  have hval := toNat_digit h
  rw [isDecimal, Bool.and_eq_true, decide_eq_true_eq, decide_eq_true_eq, UInt8.le_iff_toNat_le,
    UInt8.le_iff_toNat_le, hval]
  exact ⟨Nat.le_add_right 48 d, show 48 + d ≤ 57 by omega⟩

theorem isDecimal_numeral (n : Nat) : ∀ c ∈ numeral n, isDecimal c = true := by
  intro c hc
  rw [numeral] at hc
  by_cases hn : n = 0
  · rw [if_pos hn, List.mem_singleton] at hc
    rw [hc]
    rfl
  · rw [if_neg hn] at hc
    rcases List.mem_map.mp hc with ⟨d, hd, rfl⟩
    exact isDecimal_digit (Nat.digits_lt_base (by decide) (List.mem_reverse.mp hd))

theorem numeral_ne_nil (n : Nat) : numeral n ≠ [] := by
  rw [numeral]
  by_cases hn : n = 0
  · rw [if_pos hn]
    exact List.cons_ne_nil _ _
  · rw [if_neg hn, Ne, List.map_eq_nil_iff, List.reverse_eq_nil_iff]
    exact Nat.digits_ne_nil_iff_ne_zero.mpr hn

/-- A number is read back from its digits. -/
theorem ofNumeral_numeral (n : Nat) : ofNumeral (numeral n) = n := by
  rw [ofNumeral, numeral]
  by_cases hn : n = 0
  · rw [if_pos hn, hn]
    rfl
  · -- Each digit is written as one character and read back from it.
    have hsame : (Nat.digits 10 n).map ((fun c => c.toNat - 48) ∘ fun d => UInt8.ofNat (48 + d))
        = (Nat.digits 10 n).map id := by
      refine List.map_congr_left fun d hd => ?_
      have hval := toNat_digit (Nat.digits_lt_base (by decide) hd)
      rw [Function.comp_apply, hval, Nat.add_sub_cancel_left, id]
    rw [if_neg hn, ← List.map_reverse, List.reverse_reverse, List.map_map, hsame, List.map_id,
      Nat.ofDigits_digits]

theorem ofNumeral_append (s t : List UInt8) :
    ofNumeral (s ++ t) = ofNumeral s * 10 ^ t.length + ofNumeral t := by
  rw [ofNumeral, List.reverse_append, List.map_append, Nat.ofDigits_append, List.length_map,
    List.length_reverse, Nat.add_comm, Nat.mul_comm]
  rfl

/-- More digits make a number larger that is not zero. -/
theorem ofNumeral_lt_append {s t : List UInt8} (hs : 0 < ofNumeral s) (ht : t ≠ []) :
    ofNumeral s < ofNumeral (s ++ t) := by
  have hpow : 10 ^ 1 ≤ 10 ^ t.length :=
    Nat.pow_le_pow_right (by decide) (List.length_pos_iff.mpr ht)
  have hten : ofNumeral s * 10 ≤ ofNumeral s * 10 ^ t.length := Nat.mul_le_mul_left _ hpow
  rw [ofNumeral_append]
  omega

/-- Digits denote zero exactly when all of them are zeros. -/
theorem ofNumeral_eq_zero_iff {s : List UInt8} (h : ∀ c ∈ s, isDecimal c = true) :
    ofNumeral s = 0 ↔ ∀ c ∈ s, c = 48 := by
  induction s with
  | nil => exact ⟨fun _ c hc => absurd hc List.not_mem_nil, fun _ => rfl⟩
  | cons c s ih =>
      have hdigit := h c List.mem_cons_self
      rw [isDecimal, Bool.and_eq_true, decide_eq_true_eq, UInt8.le_iff_toNat_le] at hdigit
      have hhead : ofNumeral [c] = 0 ↔ c = 48 := by
        have hval : ofNumeral [c] = c.toNat - 48 := Nat.add_zero _
        have hlow : 48 ≤ c.toNat := hdigit.1
        rw [hval, ← UInt8.toNat_inj]
        change _ ↔ c.toNat = 48
        omega
      -- The first digit counts for a power of ten, which is not zero.
      have hpow : 0 < 10 ^ s.length := Nat.pow_pos (by decide)
      rw [List.forall_mem_cons, ← hhead, ← ih fun b hb => h b (List.mem_cons_of_mem c hb),
        show c :: s = [c] ++ s from rfl, ofNumeral_append, Nat.add_eq_zero_iff, Nat.mul_eq_zero]
      exact and_congr_left fun _ => or_iff_left (Nat.ne_of_gt hpow)

/-- Digits that follow a numeral leave its number as it is only if there are
    none, or if the numeral is a zero and so are they. -/
theorem ofNumeral_numeral_append (n : Nat) {s : List UInt8} (h : ∀ c ∈ s, isDecimal c = true) :
    ofNumeral (numeral n ++ s) = n ↔ s = [] ∨ n = 0 ∧ ∀ c ∈ s, c = 48 := by
  constructor
  · intro heq
    by_cases hs : s = []
    · exact Or.inl hs
    · have hn : n = 0 := by
        by_contra hne
        have hpos : 0 < ofNumeral (numeral n) := by
          rw [ofNumeral_numeral]
          exact Nat.pos_of_ne_zero hne
        have hlarger := ofNumeral_lt_append hpos hs
        rw [heq, ofNumeral_numeral] at hlarger
        exact absurd hlarger (Nat.lt_irrefl n)
      rw [ofNumeral_append, ofNumeral_numeral, hn, Nat.zero_mul, Nat.zero_add] at heq
      exact Or.inr ⟨hn, (ofNumeral_eq_zero_iff h).mp heq⟩
  · rintro (rfl | ⟨rfl, hzero⟩)
    · rw [List.append_nil, ofNumeral_numeral]
    · rw [ofNumeral_append, ofNumeral_numeral, Nat.zero_mul, Nat.zero_add]
      exact (ofNumeral_eq_zero_iff h).mpr hzero

section Reading

variable (overflowed : Int)

theorem head_numeral (n : Nat) (rest : List UInt8) :
    ∃ c, (numeral n ++ rest).head? = some c ∧ isDecimal c = true := by
  cases hs : numeral n with
  | nil => exact absurd hs (numeral_ne_nil n)
  | cons c s => exact ⟨c, rfl, isDecimal_numeral n c (hs ▸ List.mem_cons_self)⟩

/-- A digit is no white space and no sign. -/
theorem digit_not_other {c : UInt8} (h : isDecimal c = true) :
    isBlank c = false ∧ c ≠ 45 ∧ c ≠ 43 := by
  rw [isDecimal, Bool.and_eq_true, decide_eq_true_eq, UInt8.le_iff_toNat_le] at h
  -- All three others come before the digits.
  have hlow : 48 ≤ c.toNat := h.1
  refine ⟨?_, ?_, ?_⟩
  · rw [isBlank, Bool.or_eq_false_iff, Bool.and_eq_false_iff, beq_eq_false_iff_ne,
      decide_eq_false_iff_not, decide_eq_false_iff_not, UInt8.le_iff_toNat_le,
      UInt8.le_iff_toNat_le, Ne, ← UInt8.toNat_inj]
    exact ⟨fun h => by rw [h] at hlow; exact absurd hlow (by decide),
      Or.inr fun h => absurd (Nat.le_trans hlow h) (by decide)⟩
  · rintro rfl
    exact absurd hlow (by decide)
  · rintro rfl
    exact absurd hlow (by decide)

theorem dropWhile_of_head {p : UInt8 → Bool} {s : List UInt8} {c : UInt8} (h : s.head? = some c)
    (hp : p c = false) : s.dropWhile p = s := by
  cases s with
  | nil => rfl
  | cons b s =>
      rw [List.head?_cons, Option.some.injEq] at h
      rw [List.dropWhile_cons, h, hp, if_neg Bool.false_ne_true]

/-- `%d` at a numeral reads its digits and all that follow. -/
theorem scanInt_numeral_append (n : Nat) (rest : List UInt8) :
    scanInt overflowed (numeral n ++ rest)
      = some (storedInt overflowed (ofNumeral (numeral n ++ rest.takeWhile isDecimal)),
          rest.dropWhile isDecimal) := by
  -- The numeral begins with a digit, so nothing is skipped and there is no sign.
  rcases head_numeral n rest with ⟨c, hhead, hdigit⟩
  rcases digit_not_other hdigit with ⟨hblank, hminus, hplus⟩
  have hnil : ¬ numeral n ++ rest.takeWhile isDecimal = [] :=
    fun h => numeral_ne_nil n (List.append_eq_nil_iff.mp h).1
  have hdigits := isDecimal_numeral n
  simp only [scanInt, dropWhile_of_head hhead hblank, hhead, Option.some.injEq, hminus, hplus,
    or_self, if_false, List.takeWhile_append_of_pos hdigits, List.dropWhile_append_of_pos hdigits,
    if_neg hnil]

/-- `%d` at a minus sign and a numeral. -/
theorem scanInt_neg_append (n : Nat) (rest : List UInt8) :
    scanInt overflowed (45 :: numeral n ++ rest)
      = some (storedInt overflowed (-ofNumeral (numeral n ++ rest.takeWhile isDecimal)),
          rest.dropWhile isDecimal) := by
  have hnil : ¬ numeral n ++ rest.takeWhile isDecimal = [] :=
    fun h => numeral_ne_nil n (List.append_eq_nil_iff.mp h).1
  have hdigits := isDecimal_numeral n
  -- The sign is no white space, and is taken off.
  have hdrop : (45 :: (numeral n ++ rest)).dropWhile isBlank = 45 :: (numeral n ++ rest) := rfl
  simp only [scanInt, List.cons_append, hdrop, List.head?_cons, true_or, if_true, List.tail_cons,
    List.takeWhile_append_of_pos hdigits, List.dropWhile_append_of_pos hdigits, if_neg hnil]

/-- What `%d` writes for an `int` it also reads, if no digit follows. -/
theorem scanInt_intNumeral {n : Int} (hfits : -2 ^ 31 ≤ n ∧ n < 2 ^ 31) {rest : List UInt8}
    (hrest : rest.takeWhile isDecimal = []) :
    scanInt overflowed (intNumeral n ++ rest) = some (n, rest) := by
  have hdrop : rest.dropWhile isDecimal = rest := by
    have happ := List.takeWhile_append_dropWhile (p := isDecimal) (l := rest)
    rw [hrest, List.nil_append] at happ
    exact happ
  unfold intNumeral
  by_cases hneg : n < 0
  · rw [if_pos hneg, scanInt_neg_append, hrest, hdrop, List.append_nil, ofNumeral_numeral,
      show -(n.natAbs : Int) = n by omega, storedInt, if_pos hfits]
  · rw [if_neg hneg, scanInt_numeral_append, hrest, hdrop, List.append_nil, ofNumeral_numeral,
      show (n.natAbs : Int) = n by omega, storedInt, if_pos hfits]

/-- What is taken is white space, a sign, and all the digits. -/
theorem readNumber_of_isNumber {s sign digits rest : List UInt8}
    (h : IsNumber s sign digits rest) :
    readNumber s = some (signedNumeral sign digits, rest) := by
  rcases h.text with ⟨blanks, hblanks, rfl⟩
  rcases List.exists_cons_of_ne_nil h.digits_ne with ⟨c, digits', hcons⟩
  have hdigit : isDecimal c = true := h.decimal c (by rw [hcons]; exact List.mem_cons_self)
  rcases digit_not_other hdigit with ⟨hblank, hminus, hplus⟩
  -- Neither a sign nor a digit is white space.
  have hdrop : (blanks ++ (sign ++ (digits ++ rest))).dropWhile isBlank
      = sign ++ (digits ++ rest) := by
    rw [List.dropWhile_append_of_pos hblanks]
    rcases h.signed with rfl | rfl | rfl
    · exact dropWhile_of_head (c := c) (by rw [hcons]; rfl) hblank
    · rfl
    · rfl
  have htake : (digits ++ rest).takeWhile isDecimal = digits := by
    rw [List.takeWhile_append_of_pos h.decimal, h.ends, List.append_nil]
  have hrest : (digits ++ rest).dropWhile isDecimal = rest := by
    have hwhole := List.takeWhile_append_dropWhile (p := isDecimal) (l := digits ++ rest)
    rw [htake] at hwhole
    exact List.append_cancel_left hwhole
  have hhead : (digits ++ rest).head? = some c := by rw [hcons]; rfl
  unfold readNumber signedNumeral
  simp only [hdrop]
  rcases h.signed with rfl | rfl | rfl
  · simp only [List.nil_append, hhead, Option.some.injEq, hminus, hplus, or_self, if_false, htake,
      hrest, if_neg h.digits_ne, List.nil_eq, reduceCtorEq]
  · simp only [List.cons_append, List.nil_append, List.head?_cons, true_or, if_true,
      List.tail_cons, htake, hrest, if_neg h.digits_ne]
  · have hother : ¬ (43 : UInt8) = 45 := by decide
    simp only [List.cons_append, List.nil_append, List.head?_cons, or_true, if_true,
      List.tail_cons, htake, hrest, if_neg h.digits_ne, Option.some.injEq, hother, if_false,
      List.cons.injEq, false_and]

/-- Whatever is read is there. -/
theorem isNumber_of_readNumber {s rest : List UInt8} {n : Int}
    (h : readNumber s = some (n, rest)) :
    ∃ sign digits, IsNumber s sign digits rest ∧ n = signedNumeral sign digits := by
  unfold readNumber at h
  simp only [] at h
  have hblanks : ∀ c ∈ s.takeWhile isBlank, isBlank c = true :=
    fun c hc => List.mem_takeWhile_imp hc
  have hs : s.takeWhile isBlank ++ s.dropWhile isBlank = s := List.takeWhile_append_dropWhile
  generalize s.takeWhile isBlank = blanks at hblanks hs
  generalize s.dropWhile isBlank = t at h hs
  have hends : ∀ u : List UInt8, (u.dropWhile isDecimal).takeWhile isDecimal = [] := by
    intro u
    cases hu : u.dropWhile isDecimal with
    | nil => rfl
    | cons c v =>
        have hc := List.head?_dropWhile_not isDecimal u
        rw [hu] at hc
        rw [List.takeWhile_cons, if_neg (by simpa using hc)]
  -- What is left of the text after a sign is the digits and the rest.
  have hparts : ∀ sign u : List UInt8, t = sign ++ u → (sign = [] ∨ sign = [45] ∨ sign = [43]) →
      (if u.takeWhile isDecimal = [] then none
        else some (signedNumeral sign (u.takeWhile isDecimal), u.dropWhile isDecimal))
        = some (n, rest) →
      ∃ sign digits, IsNumber s sign digits rest ∧ n = signedNumeral sign digits := by
    intro sign u ht hsign hread
    split_ifs at hread with hnil
    rw [Option.some.injEq, Prod.mk.injEq] at hread
    rcases hread with ⟨rfl, rfl⟩
    refine ⟨sign, u.takeWhile isDecimal, ⟨⟨blanks, hblanks, ?_⟩, hsign, hnil,
      fun c hc => List.mem_takeWhile_imp hc, hends u⟩, rfl⟩
    rw [← hs, ht, List.takeWhile_append_dropWhile]
  by_cases hminus : t.head? = some 45
  · rcases List.head?_eq_some_iff.mp hminus with ⟨u, rfl⟩
    simp only [hminus, true_or, if_true, List.tail_cons] at h
    exact hparts [45] u rfl (Or.inr (Or.inl rfl)) h
  · by_cases hplus : t.head? = some 43
    · rcases List.head?_eq_some_iff.mp hplus with ⟨u, rfl⟩
      simp only [hplus, or_true, if_true, List.tail_cons] at h
      exact hparts [43] u rfl (Or.inr (Or.inr rfl)) h
    · simp only [hminus, hplus, or_self, if_false] at h
      exact hparts [] t rfl (Or.inl rfl) h

/-- Digits are a number. -/
theorem isNumber_digits {digits : List UInt8} (hne : digits ≠ [])
    (h : ∀ c ∈ digits, isDecimal c = true) : IsNumber digits [] digits [] where
  text := ⟨[], fun _ hc => absurd hc List.not_mem_nil, by rw [List.append_nil]; rfl⟩
  signed := Or.inl rfl
  digits_ne := hne
  decimal := h
  ends := rfl

/-- A text begins with one number. -/
theorem IsNumber.unique {s sign digits rest sign' digits' rest' : List UInt8}
    (h : IsNumber s sign digits rest) (h' : IsNumber s sign' digits' rest') :
    signedNumeral sign digits = signedNumeral sign' digits' ∧ rest = rest' := by
  have hread := readNumber_of_isNumber h
  rw [readNumber_of_isNumber h', Option.some.injEq, Prod.mk.injEq] at hread
  exact ⟨hread.1.symm, hread.2.symm⟩

/-- A number that is a `long` is converted, with all that is not part of it left
    over. -/
theorem strtol_of_isNumber {nptr sign digits rest : List UInt8}
    (h : IsNumber (cstr nptr) sign digits rest)
    (hfits : LONG_MIN ≤ signedNumeral sign digits ∧ signedNumeral sign digits ≤ LONG_MAX) :
    strtol nptr = (signedNumeral sign digits, rest) := by
  rw [strtol, readNumber_of_isNumber h]
  simp only [min_eq_right hfits.2, max_eq_right hfits.1]

/-- A text that is converted to the end into a number of a range is such a
    number, if zero and the limits of `long` are not of the range. -/
theorem isNumber_of_strtol {nptr : List UInt8} {low high : Int} (hlow : 0 < low)
    (hhigh : high < LONG_MAX) (hend : (strtol nptr).2 = [])
    (hrange : low ≤ (strtol nptr).1 ∧ (strtol nptr).1 ≤ high) :
    ∃ sign digits, IsNumber (cstr nptr) sign digits [] ∧
      low ≤ signedNumeral sign digits ∧ signedNumeral sign digits ≤ high := by
  unfold strtol at hend hrange
  cases hread : readNumber (cstr nptr) with
  | none =>
      rw [hread] at hrange
      exact absurd hrange.1 (not_le.mpr hlow)
  | some p =>
      rcases isNumber_of_readNumber hread with ⟨sign, digits, hnumber, hval⟩
      rw [hread] at hend hrange
      simp only [] at hend hrange
      rw [hend] at hnumber
      -- A number that has been cut would be one of the limits.
      have hmin : LONG_MIN < 0 := by decide
      exact ⟨sign, digits, hnumber, by omega, by omega⟩

/-- `%d` stores the number that is read. -/
theorem scanInt_eq (s : List UInt8) :
    scanInt overflowed s = (readNumber s).map fun p => (storedInt overflowed p.1, p.2) := by
  unfold scanInt readNumber
  simp only []
  split_ifs <;> rfl

theorem scanInt_of_isNumber {s sign digits rest : List UInt8} (h : IsNumber s sign digits rest) :
    scanInt overflowed s = some (storedInt overflowed (signedNumeral sign digits), rest) := by
  rw [scanInt_eq, readNumber_of_isNumber h]
  rfl

theorem isNumber_of_scanInt {s rest : List UInt8} {n : Int}
    (h : scanInt overflowed s = some (n, rest)) :
    ∃ sign digits, IsNumber s sign digits rest ∧
      n = storedInt overflowed (signedNumeral sign digits) := by
  rw [scanInt_eq, Option.map_eq_some_iff] at h
  rcases h with ⟨⟨m, rest'⟩, hread, heq⟩
  rw [Prod.mk.injEq] at heq
  rcases heq with ⟨rfl, rfl⟩
  rcases isNumber_of_readNumber hread with ⟨sign, digits, hnumber, rfl⟩
  exact ⟨sign, digits, hnumber, rfl⟩

end Reading

/-- A number is read as it was written, whatever is stored for one that is no
    `int`, exactly if the digits that follow it do not change it. -/
theorem scanInt_eq_iff {n : Nat} (hfits : n < 2 ^ 31) (rest : List UInt8) :
    (∀ overflowed, (scanInt overflowed (numeral n ++ rest)).map Prod.fst = some (n : Int)) ↔
      rest.takeWhile isDecimal = [] ∨ n = 0 ∧ ∀ c ∈ rest.takeWhile isDecimal, c = 48 := by
  rw [← ofNumeral_numeral_append n fun c hc => List.mem_takeWhile_imp hc]
  simp only [scanInt_numeral_append, Option.map_some, Option.some.injEq]
  constructor
  · intro hall
    -- Out of range anything might be stored, so also another number.
    have hother := hall (n + 1)
    unfold storedInt at hother
    split_ifs at hother <;> omega
  · intro heq overflowed
    rw [heq, storedInt, if_pos ⟨by omega, by omega⟩]

end OsLabs
