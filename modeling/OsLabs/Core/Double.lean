import Mathlib

/-!
# Numbers of Type `double`

Lean's `Float` is the `double` of C, bits and all. What is needed of it here is
where its arithmetic does not round: a result that is a normal number, or zero,
is the result there would be without rounding.

A normal number has a mantissa of 53 bits whose first one is set, so that it is
written in one way only, and everything comes down to that. Whatever mantissa
and exponent an operation has computed, if they denote a normal number then
rounding moves the mantissa to its 53 bits and loses nothing.

## Main definitions

* `Normal`: Mantissa and exponent of a normal number.
* `Exact`: Zero, and the numbers that have such a form.
* `Denotes`: The number that an unpacked float stands for.
* `IsDouble`: The number that a float stands for.

## Theorems

* `log2_add_eq`: Two forms of one number have their first bit at one place.
* `roundWithAccuracy_exact`, `round_exact`, `normalize_exact`: What rounding does to a normal number.
* `unpack_pack`: Nothing is lost in 64 bits.
* `isDouble_ofInt32`, `isDouble_add`, `isDouble_half`: A conversion, a sum and a half.
* `IsDouble.unique`: A float stands for one number.
-/

namespace OsLabs

namespace Double

open Float.Model Float.Model.UnpackedFloat

/-- Mantissa and exponent of a normal number. -/
structure Normal (t : Nat) (e : Int) : Prop where
  low : 2 ^ 52 ≤ t
  high : t < 2 ^ 53
  exponent_low : -1074 ≤ e
  exponent_high : e ≤ 971

/-- A number that needs no rounding. -/
def Exact (q : ℚ) : Prop :=
  q = 0 ∨ ∃ (s : Sign) (t : Nat) (e : Int), Normal t e ∧ q = s.apply t * 2 ^ e

/-- The number that an unpacked float stands for, which is zero or a normal
    one. -/
inductive Denotes : UnpackedFloat → ℚ → Prop
  | zero (s : Sign) : Denotes (.zero s) 0
  | normal (s : Sign) {t : Nat} {e : Int} (h : Normal t e) (hpos : 0 < t) :
      Denotes (.finite s t e hpos) (s.apply t * 2 ^ e)

/-- The number that a float stands for. -/
def IsDouble (f : Float) (q : ℚ) : Prop := Denotes f.toModel.unpack q

/-- The conversion of an `int`. -/
def ofInt32 (n : Int32) : Float := .ofModel (.ofInt32 n)

section Forms

variable {m n t t' : Nat} {a b e e' : Int}

theorem Normal.pos (h : Normal t e) : 0 < t := Nat.lt_of_lt_of_le (by decide) h.low

theorem Normal.log2_eq (h : Normal t e) : t.log2 = 52 :=
  (Nat.log2_eq_iff (Nat.ne_of_gt h.pos)).mpr ⟨h.low, h.high⟩

/-- Of two forms of a number the one with the smaller exponent has the larger
    mantissa. -/
theorem mantissa_eq (h : (m : ℚ) * 2 ^ a = n * 2 ^ b) (hab : a ≤ b) :
    m = n * 2 ^ (b - a).toNat := by
  have hshift : (2 : ℚ) ^ b = 2 ^ (b - a).toNat * 2 ^ a := by
    rw [← zpow_natCast, ← zpow_add₀ two_ne_zero]
    congr 1
    omega
  have hne : (2 : ℚ) ^ a ≠ 0 := zpow_ne_zero a two_ne_zero
  rw [hshift, ← mul_assoc] at h
  exact_mod_cast mul_right_cancel₀ hne h

theorem log2_mul_pow (hn : n ≠ 0) (k : Nat) : (n * 2 ^ k).log2 = n.log2 + k := by
  induction k with
  | zero => rw [Nat.pow_zero, Nat.mul_one, Nat.add_zero]
  | succ k ih =>
      have hne : n * 2 ^ k ≠ 0 := Nat.mul_ne_zero hn (Nat.ne_of_gt (Nat.two_pow_pos k))
      rw [Nat.pow_succ, ← Nat.mul_assoc, Nat.mul_comm, Nat.log2_two_mul hne, ih, Nat.add_assoc]

/-- Two forms of a number have their first bit at one place. -/
theorem log2_add_eq (h : (m : ℚ) * 2 ^ a = n * 2 ^ b) (hm : m ≠ 0) (hn : n ≠ 0) :
    (m.log2 : Int) + a = n.log2 + b := by
  rcases Int.le_total a b with hab | hba
  · have hlog := log2_mul_pow hn (b - a).toNat
    rw [← mantissa_eq h hab] at hlog
    omega
  · have hlog := log2_mul_pow hm (a - b).toNat
    rw [← mantissa_eq h.symm hba] at hlog
    omega

end Forms

section Rounding

variable {m t d : Nat} {e e' : Int}

/-- Bits that are zero are shifted out without a trace. -/
theorem shiftRight_exact (t d : Nat) :
    ExtendedMantissa.ofMantissaAndAccuracy (t * 2 ^ d) .exact >>> d
      = ⟨t, false, false⟩ := by
  change Nat.repeat ExtendedMantissa.shiftRightOne d ⟨t * 2 ^ d, false, false⟩ = _
  induction d generalizing t with
  | zero => rw [Nat.pow_zero, Nat.mul_one]; rfl
  | succ d ih =>
      have hmul : t * 2 ^ (d + 1) = 2 * t * 2 ^ d := by
        rw [Nat.pow_succ, Nat.mul_comm (2 ^ d), ← Nat.mul_assoc, Nat.mul_comm t]
      have hodd : 2 * t % 2 = 0 := Nat.mul_mod_right 2 t
      -- What is left after the other shifts is even.
      rw [Nat.repeat, hmul, ih, ExtendedMantissa.shiftRightOne, hodd,
        Nat.mul_div_cancel_left t (by decide : 0 < 2)]
      rfl

theorem Normal.targetExponent (h : Normal t e) (d : Nat) :
    Format.binary64.targetExponent (totalExponent (t * 2 ^ d) (e - d)) = e := by
  have hlow := h.exponent_low
  rw [Format.targetExponent, totalExponent, log2_mul_pow (Nat.ne_of_gt h.pos), h.log2_eq]
  change max (((52 + d : Nat) : Int) + 1 + (e - d) - 53) (-1074) = e
  omega

theorem shift_exact (h : Normal t e) (d : Nat) :
    shiftToTargetExponent Format.binary64 (t * 2 ^ d) (e - d) .exact = (⟨t, false, false⟩, e) := by
  rw [shiftToTargetExponent, h.targetExponent d, shiftToExponent]
  have hamount : (e - (e - d)).toNat = d := by omega
  rw [hamount, shiftRight_exact]
  congr 1
  omega

/-- A normal number with zeros behind its mantissa is not changed. -/
theorem roundWithAccuracy_exact (h : Normal t e) (s : Sign) (d : Nat) :
    roundWithAccuracy Format.binary64 s (t * 2 ^ d) (e - d) .exact = .finite s t e h.pos := by
  have hfirst := shift_exact h d
  -- There is nothing to be shifted any more.
  have hsecond := shift_exact h 0
  rw [Nat.pow_zero, Nat.mul_one, Nat.cast_zero, Int.sub_zero] at hsecond
  have hround : ExtendedMantissa.roundedMantissa ⟨t, false, false⟩ = t := rfl
  simp only [roundWithAccuracy, hfirst, hround, hsecond, Nat.ne_of_gt h.pos, dite_false]

/-- Whatever the form of a normal number, it is brought into the one there is. -/
theorem round_exact (h : Normal t e) (s : Sign) (hm : m ≠ 0)
    (heq : (m : ℚ) * 2 ^ e' = t * 2 ^ e) :
    UnpackedFloat.round Format.binary64 s m e' = .finite s t e h.pos := by
  have hlog := log2_add_eq heq hm (Nat.ne_of_gt h.pos)
  rw [h.log2_eq] at hlog
  have htarget : Format.binary64.targetExponent (totalExponent m e') = e := by
    have hlow := h.exponent_low
    rw [Format.targetExponent, totalExponent]
    change max ((m.log2 : Int) + 1 + e' - 53) (-1074) = e
    omega
  rw [UnpackedFloat.round, htarget, decreaseExponent]
  rcases Int.le_total e e' with hle | hle
  · -- The mantissa is made longer.
    have hmant := mantissa_eq heq.symm hle
    have hexp : e' - ((e' - e).toNat : Int) = e := by omega
    have hround := roundWithAccuracy_exact h s 0
    rw [Nat.pow_zero, Nat.mul_one, Nat.cast_zero, Int.sub_zero] at hround
    simp only [Nat.shiftLeft_eq, ← hmant, hexp]
    exact hround
  · -- Its last bits are zeros.
    have hmant := mantissa_eq heq hle
    have hzero : (e' - e).toNat = 0 := by omega
    have hexp : e - ((e - e').toNat : Int) = e' := by omega
    have hround := roundWithAccuracy_exact h s (e - e').toNat
    rw [hexp, ← hmant] at hround
    simp only [hzero, Nat.shiftLeft_zero, Nat.cast_zero, Int.sub_zero]
    exact hround

/-- A number and the mantissa of its form have one sign. -/
theorem normalize_exact (h : Normal t e) (s : Sign) {n : Int} (zeroSign : Sign)
    (heq : (n : ℚ) * 2 ^ e' = s.apply t * 2 ^ e) :
    UnpackedFloat.normalize Format.binary64 n e' zeroSign = .finite s t e h.pos := by
  have hpow : (0 : ℚ) < 2 ^ e' := zpow_pos two_pos e'
  have hvalue : (0 : ℚ) < t * 2 ^ e :=
    mul_pos (Nat.cast_pos.mpr h.pos) (zpow_pos two_pos e)
  unfold UnpackedFloat.normalize
  cases s with
  | positive =>
      change (n : ℚ) * 2 ^ e' = (t : ℚ) * 2 ^ e at heq
      have hn : 0 < n := by
        rw [← heq] at hvalue
        exact_mod_cast pos_of_mul_pos_left hvalue hpow.le
      have hnat : ((n.toNat : ℕ) : ℚ) = n := by exact_mod_cast Int.toNat_of_nonneg hn.le
      rw [Int.compare_eq_gt.mpr hn]
      exact round_exact h .positive (by omega) (by rw [hnat, heq])
  | negative =>
      change (n : ℚ) * 2 ^ e' = ((-(t : Int) : Int) : ℚ) * 2 ^ e at heq
      rw [Int.cast_neg, Int.cast_natCast] at heq
      have hn : n < 0 := by
        have hneg : (0 : ℚ) < -n * 2 ^ e' := by
          rw [neg_mul, heq, neg_mul, neg_neg]
          exact hvalue
        exact_mod_cast neg_pos.mp (pos_of_mul_pos_left hneg hpow.le)
      have hnat : (((-n).toNat : ℕ) : ℚ) = -n := by
        exact_mod_cast Int.toNat_of_nonneg (show 0 ≤ -n by omega)
      rw [Int.compare_eq_lt.mpr hn]
      exact round_exact h .negative (by omega) (by rw [hnat, neg_mul, heq, neg_mul, neg_neg])

end Rounding

section Packing

variable {t : Nat} {e : Int}

/-- The first bit of the mantissa is not stored. -/
theorem hidden_bit (h : Normal t e) : (1#1 ++ BitVec.ofNat 52 t).toNat = t := by
  have hlow := h.low
  have hhigh := h.high
  have hmod : t % 2 ^ 52 = t - 2 ^ 52 := by omega
  have hstored : (BitVec.ofNat 52 t).toNat = t - 2 ^ 52 := by rw [BitVec.toNat_ofNat, hmod]
  rw [BitVec.toNat_append, ← Nat.shiftLeft_add_eq_or_of_lt (BitVec.ofNat 52 t).isLt, hstored]
  have hone : (1#1).toNat = 1 := rfl
  rw [hone, Nat.one_shiftLeft]
  omega

/-- Nothing of a normal number is lost in 64 bits. -/
theorem unpack_pack (h : Normal t e) (s : Sign) :
    (pack (.finite s t e h.pos)).unpack = .finite s t e h.pos := by
  have hlow := h.exponent_low
  have hhigh := h.exponent_high
  -- The exponent as it is stored, neither all zeros nor all ones.
  obtain ⟨biased, hbiased⟩ : ∃ biased : Nat, (biased : Int) = e + 1075 :=
    ⟨(e + 1075).toNat, Int.toNat_of_nonneg (by omega)⟩
  have hsmall : biased % 2048 = biased := Nat.mod_eq_of_lt (by omega)
  have hpacked : UnpackedFloat.pack Format.binary64 (.finite s t e h.pos)
      = packComponents Format.binary64 s (BitVec.ofNat 11 biased) (BitVec.ofNat 52 t) := by
    have hexp : (e + (Format.binary64.exponentBias : Int)
        + (Format.binary64.mantissaBitsWithoutImplicit : Int)).toNat = biased := by
      change (e + 1023 + 52).toNat = biased
      omega
    have hfits : ¬ 2 ^ Format.binary64.exponentBits ≤ biased + 1 := by
      change ¬ 2 ^ 11 ≤ biased + 1
      omega
    have hbits : t.log2 + 1 = Format.binary64.mantissaBits := by
      rw [h.log2_eq]
      rfl
    simp only [UnpackedFloat.pack, hexp, if_neg hfits, if_pos hbits]
  have hnat : (BitVec.ofNat 11 biased).toNat = biased := by
    rw [BitVec.toNat_ofNat]
    exact hsmall
  have hones : BitVec.ofNat 11 biased ≠ -1#11 := by
    intro heq
    have hval := congrArg BitVec.toNat heq
    rw [hnat] at hval
    change biased = 2047 at hval
    omega
  have hzeros : BitVec.ofNat 11 biased ≠ 0#11 := by
    intro heq
    have hval := congrArg BitVec.toNat heq
    rw [hnat] at hval
    change biased = 0 at hval
    omega
  change UnpackedFloat.unpack Format.binary64
    (UnpackedFloat.pack Format.binary64 (.finite s t e h.pos)) = _
  rw [hpacked]
  simp only [UnpackedFloat.unpack, unpackMantissa_packComponents, unpackExponent_packComponents,
    unpackSign_packComponents, Sign.ofBitVec_toBitVec, hidden_bit h, if_neg hones, if_neg hzeros,
    hnat]
  congr 1
  change (biased : Int) - (1023 + 52) = e
  omega

end Packing

section Operations

variable {f g : Float} {p q : ℚ}

/-- Numbers of 53 bits, and what comes of them by moving the point. -/
theorem exact_mul_pow {n k : Int} (hn : n.natAbs < 2 ^ 53) (hlow : -1022 ≤ k) (hhigh : k ≤ 971) :
    Exact (n * 2 ^ k) := by
  by_cases hzero : n = 0
  · exact Or.inl (by rw [hzero, Int.cast_zero, zero_mul])
  · have hne : n.natAbs ≠ 0 := Int.natAbs_ne_zero.mpr hzero
    have hlog : n.natAbs.log2 < 53 := (Nat.log2_lt hne).mpr hn
    obtain ⟨d, hd⟩ : ∃ d, n.natAbs.log2 + d = 52 := ⟨52 - n.natAbs.log2, by omega⟩
    -- The mantissa is filled up with zeros.
    have hmant := log2_mul_pow hne d
    rw [hd, Nat.log2_eq_iff (Nat.mul_ne_zero hne (Nat.ne_of_gt (Nat.two_pow_pos d)))] at hmant
    have hnormal : Normal (n.natAbs * 2 ^ d) (k - d) :=
      ⟨hmant.1, hmant.2, by omega, by omega⟩
    have hpow : (2 : ℚ) ^ k = 2 ^ d * 2 ^ (k - d) := by
      rw [← zpow_natCast, ← zpow_add₀ two_ne_zero]
      congr 1
      omega
    rcases Int.natAbs_eq n with hsign | hsign
    · refine Or.inr ⟨.positive, _, _, hnormal, ?_⟩
      rw [hpow, ← mul_assoc, hsign]
      simp [Sign.apply]
    · refine Or.inr ⟨.negative, _, _, hnormal, ?_⟩
      rw [hpow, ← mul_assoc, hsign]
      simp [Sign.apply]

theorem exact_int {n : Int} (hn : n.natAbs < 2 ^ 53) : Exact n := by
  have hexact := exact_mul_pow hn (by decide : -1022 ≤ (0 : Int)) (by decide)
  rw [zpow_zero, mul_one] at hexact
  exact hexact

/-- Zeros and normal numbers are the same after they have been stored. -/
theorem denotes_pack {u : UnpackedFloat} (h : Denotes u q) : Denotes (pack u).unpack q := by
  cases h with
  | zero s =>
      have hzero : (pack (.zero s)).unpack = .zero s := unpack_packedZero
      rw [hzero]
      exact .zero s
  | normal s hnormal hpos =>
      rw [unpack_pack hnormal s]
      exact .normal s hnormal hpos

/-- What is computed exactly and need not be rounded is not changed. -/
theorem denotes_normalize {n e : Int} (zeroSign : Sign) (hq : (n : ℚ) * 2 ^ e = q) (h : Exact q) :
    Denotes (UnpackedFloat.normalize Format.binary64 n e zeroSign) q := by
  rcases h with rfl | ⟨s, t, e', hnormal, rfl⟩
  · have hn : n = 0 := by
      exact_mod_cast (mul_eq_zero.mp hq).resolve_right (zpow_ne_zero e two_ne_zero)
    rw [hn]
    exact .zero zeroSign
  · rw [normalize_exact hnormal s zeroSign hq]
    exact .normal s hnormal hnormal.pos

/-- An `int` is converted exactly. -/
theorem isDouble_ofInt32 (n : Int32) : IsDouble (ofInt32 n) n.toInt := by
  have hlow := n.le_toInt
  have hhigh := n.toInt_lt
  have hexact : Exact (n.toInt : ℚ) := exact_int (by omega)
  exact denotes_pack (denotes_normalize .positive (by rw [zpow_zero, mul_one]) hexact)

theorem shiftLeft_value (s : Sign) (t : Nat) {e e' : Int} (h : e' ≤ e) :
    (s.apply (t <<< (e - e').toNat : Nat) : ℚ) * 2 ^ e' = s.apply t * 2 ^ e := by
  have hpow : (2 : ℚ) ^ e = 2 ^ (e - e').toNat * 2 ^ e' := by
    rw [← zpow_natCast, ← zpow_add₀ two_ne_zero]
    congr 1
    omega
  rw [hpow, ← mul_assoc, Nat.shiftLeft_eq]
  cases s <;> simp [Sign.apply]

/-- A sum that need not be rounded. -/
theorem isDouble_add (hf : IsDouble f p) (hg : IsDouble g q) (h : Exact (p + q)) :
    IsDouble (f + g) (p + q) := by
  refine denotes_pack ?_
  unfold IsDouble at hf hg
  generalize f.toModel.unpack = u at hf ⊢
  generalize g.toModel.unpack = v at hg ⊢
  cases hf with
  | zero s =>
      rw [zero_add]
      cases hg with
      | zero s' =>
          unfold UnpackedFloat.add
          simp only []
          split_ifs <;> exact .zero _
      | normal s' hnormal hpos => exact .normal s' hnormal hpos
  | normal s hnormal hpos =>
      cases hg with
      | zero s' =>
          rw [add_zero]
          exact .normal s hnormal hpos
      | normal s' hnormal' hpos' =>
          refine denotes_normalize .positive ?_ h
          -- Both are brought to the smaller exponent.
          rw [Int.cast_add, add_mul, shiftLeft_value s _ (min_le_left _ _),
            shiftLeft_value s' _ (min_le_right _ _)]

theorem abs_value (s : Sign) (t : Nat) (e : Int) : |(s.apply t : ℚ) * 2 ^ e| = t * 2 ^ e := by
  have hsign : |(s.apply t : ℚ)| = t := by cases s <;> simp [Sign.apply]
  rw [abs_mul, hsign, abs_of_pos (zpow_pos two_pos e)]

/-- The form of a normal number, if the number needs no rounding. -/
theorem normal_of_exact {s : Sign} {t : Nat} {e e' : Int} (hnormal : Normal t e)
    (h : Exact (s.apply t * 2 ^ e')) : Normal t e' := by
  have hpos := hnormal.pos
  rcases h with hzero | ⟨s', t', e'', hnormal', heq⟩
  · have habs := abs_value s t e'
    rw [hzero, abs_zero] at habs
    exact absurd habs (ne_of_lt (mul_pos (Nat.cast_pos.mpr hpos) (zpow_pos two_pos e')))
  · have habs := abs_value s t e'
    rw [heq, abs_value] at habs
    have hlog := log2_add_eq habs (Nat.ne_of_gt hnormal'.pos) (Nat.ne_of_gt hpos)
    rw [hnormal.log2_eq, hnormal'.log2_eq] at hlog
    have hexp : e'' = e' := by omega
    exact ⟨hnormal.low, hnormal.high, hexp ▸ hnormal'.exponent_low, hexp ▸ hnormal'.exponent_high⟩

/-- Half of a number. -/
theorem isDouble_half (hf : IsDouble f q) (h : Exact (q / 2)) :
    IsDouble (f / ofInt32 2) (q / 2) := by
  have htwo : (ofInt32 2).toModel.unpack = .finite .positive (2 ^ 52) (-51) (by decide) := by
    have hnormal : Normal (2 ^ 52) (-51) := ⟨by decide, by decide, by decide, by decide⟩
    have hround : UnpackedFloat.normalize Format.binary64 2 0 .positive
        = .finite .positive (2 ^ 52) (-51) _ :=
      normalize_exact hnormal .positive .positive (by norm_num [Sign.apply, zpow_neg])
    change (pack (UnpackedFloat.normalize Format.binary64 2 0 .positive)).unpack = _
    rw [hround]
    exact unpack_pack hnormal .positive
  refine denotes_pack ?_
  unfold IsDouble at hf
  rw [htwo]
  generalize f.toModel.unpack = u at hf ⊢
  cases hf with
  | zero s =>
      rw [zero_div]
      exact .zero _
  | @normal s t e hnormal hpos =>
      have hhalf : (s.apply t : ℚ) * 2 ^ e / 2 = s.apply t * 2 ^ (e - 1) := by
        rw [zpow_sub_one₀ two_ne_zero, mul_div_assoc, div_eq_mul_inv]
      rw [hhalf] at h ⊢
      -- Only the exponent changes.
      have hnormal' := normal_of_exact hnormal h
      have hlow := hnormal'.exponent_low
      obtain ⟨target, htarget⟩ : ∃ target, min (e - -51) (Format.binary64.targetExponent
          (totalExponent t e - totalExponent (2 ^ 52) (-51))) = target := ⟨_, rfl⟩
      have hbounds : e - 2 ≤ target ∧ target ≤ e - 1 := by
        rw [Format.targetExponent, totalExponent, totalExponent, hnormal.log2_eq,
          Nat.log2_two_pow] at htarget
        change min (e - -51) (max (52 + 1 + e - (52 + 1 + -51) - 53) (-1074)) = target at htarget
        omega
      obtain ⟨d, hd⟩ : ∃ d : Nat, (d : Int) = e - 1 - target :=
        ⟨(e - 1 - target).toNat, Int.toNat_of_nonneg (by omega)⟩
      have hshift : (e - -51 - target).toNat = d + 52 := by omega
      have hcore : divCore Format.binary64 t e (2 ^ 52) (-51) = (t * 2 ^ d, target, .exact) := by
        have hmul : t <<< (d + 52) = t * 2 ^ d * 2 ^ 52 := by
          rw [Nat.shiftLeft_eq, Nat.pow_add, Nat.mul_assoc]
        rw [divCore, htarget, hshift, hmul, Nat.mul_div_cancel _ (Nat.two_pow_pos 52),
          Nat.mul_mod_left]
        rfl
      have hround := roundWithAccuracy_exact hnormal' s d
      have hexp : e - 1 - (d : Int) = target := by omega
      rw [hexp] at hround
      have hsign : s / .positive = s := by cases s <;> rfl
      simp only [UnpackedFloat.div, hcore, hsign, hround]
      exact .normal s hnormal' hpos

/-- A float stands for one number. -/
theorem IsDouble.unique (hp : IsDouble f p) (hq : IsDouble f q) : p = q := by
  unfold IsDouble at hp hq
  generalize f.toModel.unpack = u at hp hq
  cases hp with
  | zero s =>
      cases hq with
      | zero => rfl
  | normal s hnormal hpos =>
      cases hq with
      | normal => rfl

end Operations

end Double

end OsLabs
