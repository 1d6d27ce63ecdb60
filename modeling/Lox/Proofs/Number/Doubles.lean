import Lox.Proofs.Number.Reading

/-!
Contract: doubles and the exact numbers that they stand for.

Owns:
- that unpacked doubles are canonical, and that packing loses nothing of canonical ones;
- the exact value of a double made from a dyadic number, and of a negated double;
- that a finite double without a minus sign is made from its exact value;
- the sign bit and the order of doubles, by their exact values.

Does not own: which decimal numbers are read as a double.
-/

namespace Lox.Number

open Float.Model (UnpackedFloat)
open Float.Model.UnpackedFloat

/-- The exponent of the last place of the greatest finite doubles. -/
def greatestExponent : ℤ := 971

/-- The dyadic number is the magnitude of a finite double other than zero. -/
structure Dyadic.IsDouble (dyadic : Dyadic) : Prop where
  normal : dyadic.IsNormal
  mantissa_pos : 0 < dyadic.mantissa
  le_greatest : dyadic.exponent ≤ greatestExponent

/-! ## Packing -/

/-- An unpacked double is canonical if its finite magnitude is that of a double. -/
def IsCanonical : UnpackedFloat → Prop
  | .finite _ mantissa exponent _ => Dyadic.IsDouble ⟨mantissa, exponent⟩
  | _ => True

/-- The double with the fields: the sign, the exponent, which is biased so that it is natural, and
the fraction.  A normal double has one digit more than its fraction, a leading one. -/
def ofFields (sign : Sign) (biased fraction : ℕ) : UnpackedFloat :=
  if biased = 2047 then if fraction = 0 then .infinity sign else .notANumber
  else if biased = 0 then
    if zero : fraction = 0 then .zero sign
    else .finite sign fraction leastExponent (Nat.pos_of_ne_zero zero)
  else
    .finite sign (2 ^ 52 + fraction) (biased - 1 + leastExponent)
      (Nat.add_pos_left (by decide) fraction)

private theorem toNat_implicit (fraction : BitVec 52) :
    (1#1 ++ fraction).toNat = 2 ^ 52 + fraction.toNat := by
  rw [BitVec.toNat_append, ← Nat.shiftLeft_add_eq_or_of_lt fraction.isLt]
  simp [Nat.shiftLeft_eq]

private theorem eq_ofNat_iff
    {width value : ℕ}
    (field : BitVec width)
    (fits : value < 2 ^ width) :
    field = BitVec.ofNat width value ↔ field.toNat = value := by
  rw [← BitVec.toNat_inj, BitVec.toNat_ofNat, Nat.mod_eq_of_lt fits]

/-- Unpacking takes the fields apart. -/
theorem unpack_eq_ofFields (bits : BitVec 64) :
    UnpackedFloat.unpack .binary64 bits =
      ofFields (Sign.ofBitVec (@unpackSign .binary64 bits)) (@unpackExponent .binary64 bits).toNat
        (@unpackMantissa .binary64 bits).toNat := by
  have greatest : @unpackExponent .binary64 bits = -1#11 ↔
      (@unpackExponent .binary64 bits).toNat = 2047 :=
    eq_ofNat_iff _ (by decide)
  have least : @unpackExponent .binary64 bits = 0#11 ↔
      (@unpackExponent .binary64 bits).toNat = 0 :=
    eq_ofNat_iff _ (by decide)
  have zero : @unpackMantissa .binary64 bits = 0#52 ↔
      (@unpackMantissa .binary64 bits).toNat = 0 :=
    eq_ofNat_iff _ (by decide)
  unfold UnpackedFloat.unpack ofFields
  simp only [greatest, least, zero]
  split
  · rfl
  · split
    · rename_i subnormal
      split
      · rfl
      · congr 1
        rw [subnormal]
        decide
    · congr 1
      · exact toNat_implicit _
      · simp [leastExponent, Float.Model.Format.exponentBias]
        omega

theorem isCanonical_ofFields
    (sign : Sign)
    {biased fraction : ℕ}
    (biasedLt : biased < 2 ^ 11)
    (fractionLt : fraction < 2 ^ 52) :
    IsCanonical (ofFields sign biased fraction) := by
  unfold ofFields
  split
  · split <;> trivial
  · split
    · split
      · trivial
      · rename_i nonzero
        refine ⟨⟨?_, le_rfl, .inr rfl⟩, Nat.pos_of_ne_zero nonzero, Int.neg_ofNat_le_natCast _ _⟩
        exact fractionLt.trans (by decide)
    · refine ⟨⟨?_, ?_, .inl ?_⟩, Nat.add_pos_left (by decide) _, ?_⟩
      · dsimp only [mantissaWidth]
        omega
      · dsimp only
        omega
      · exact Nat.le_add_right _ _
      · dsimp only [greatestExponent, leastExponent]
        omega

/-- Every unpacked double is canonical. -/
theorem isCanonical_unpack (model : Float.Model) : IsCanonical model.unpack := by
  rw [Float.Model.unpack, unpack_eq_ofFields]
  exact isCanonical_ofFields _ (BitVec.isLt _) (BitVec.isLt _)

theorem unpack_packComponents
    (sign : Sign)
    {biased fraction : ℕ}
    (biasedLt : biased < 2 ^ 11)
    (fractionLt : fraction < 2 ^ 52) :
    UnpackedFloat.unpack .binary64 (packComponents .binary64 sign (.ofNat 11 biased)
      (.ofNat 52 fraction)) = ofFields sign biased fraction := by
  rw [unpack_eq_ofFields, unpackSign_packComponents, unpackExponent_packComponents,
    unpackMantissa_packComponents, Sign.ofBitVec_toBitVec, BitVec.toNat_ofNat, BitVec.toNat_ofNat,
    Nat.mod_eq_of_lt biasedLt, Nat.mod_eq_of_lt fractionLt]

/-- Packing a double puts its fields together: the leading digit of a mantissa of full length is
not among them. -/
private theorem pack_finite
    (sign : Sign)
    {mantissa biased : ℕ}
    {exponent : ℤ}
    (positive : 0 < mantissa)
    (isBiased : exponent = biased - 1 + leastExponent)
    (biasedLt : biased < 2047) :
    UnpackedFloat.pack .binary64 (.finite sign mantissa exponent positive) =
      if mantissa.log2 + 1 = 53 then
        packComponents .binary64 sign (.ofNat 11 biased) (.ofNat 52 mantissa)
      else packComponents .binary64 sign 0#11 (.ofNat 52 mantissa) := by
  have bias : (Float.Model.Format.binary64.exponentBias : ℤ) = 1023 := by decide
  have sameBiased : (exponent + Float.Model.Format.binary64.exponentBias + (52 : ℕ)).toNat =
      biased := by
    rw [bias, isBiased, leastExponent]
    omega
  unfold UnpackedFloat.pack
  dsimp only
  rw [sameBiased, if_neg (by omega)]
  rfl

/-- Packing loses nothing of what is canonical. -/
theorem unpack_pack {unpacked : UnpackedFloat} (canonical : IsCanonical unpacked) :
    (Float.Model.pack unpacked).unpack = unpacked := by
  unfold Float.Model.unpack Float.Model.pack
  dsimp only
  cases unpacked with
  | notANumber => exact unpack_packedNaN
  | infinity sign => exact unpack_packComponents sign (by decide) (by decide)
  | zero sign => exact unpack_packedZero
  | finite sign mantissa exponent positive =>
    obtain ⟨⟨mantissaLt, leastLe, full⟩, _, leGreatest⟩ := canonical
    dsimp only [mantissaWidth] at mantissaLt leastLe full leGreatest
    obtain ⟨biased, isBiased⟩ : ∃ biased : ℕ, exponent = biased - 1 + leastExponent :=
      ⟨(exponent + 1 - leastExponent).toNat, by omega⟩
    have biasedLt : biased < 2047 := by
      simp only [greatestExponent, leastExponent] at leGreatest isBiased
      omega
    rw [pack_finite sign positive isBiased biasedLt]
    split
    · rename_i long
      have normal : 2 ^ 52 ≤ mantissa := (Nat.le_log2 positive.ne').1 (by omega)
      obtain ⟨fraction, rfl⟩ := Nat.exists_eq_add_of_le normal
      have dropped : BitVec.ofNat 52 (2 ^ 52 + fraction) = BitVec.ofNat 52 fraction := by
        apply BitVec.eq_of_toNat_eq
        simp
      rw [dropped, unpack_packComponents sign (by omega) (by omega), ofFields, if_neg (by omega),
        if_neg (by omega)]
      simp only [isBiased]
    · rename_i short
      have subnormal : mantissa < 2 ^ 52 := by
        have := (Nat.log2_lt positive.ne').2 mantissaLt
        exact (Nat.log2_lt positive.ne').1 (by omega)
      have least : exponent = leastExponent := full.resolve_left (by omega)
      refine (unpack_packComponents sign (by decide) subnormal).trans ?_
      rw [ofFields, if_neg (by decide), if_pos rfl, dif_neg positive.ne']
      simp only [least]

/-! ## Exact values -/

namespace Exact

/-- The exact value of an unpacked double. -/
def ofUnpacked : UnpackedFloat → Exact
  | .notANumber => .notANumber
  | .infinity sign => .infinite (sign == .negative)
  | .zero sign => .finite (sign == .negative) ⟨0, 0⟩
  | .finite sign mantissa exponent _ => .finite (sign == .negative) ⟨mantissa, exponent⟩

theorem ofDouble_eq_ofUnpacked (number : Float) :
    ofDouble number = ofUnpacked number.toModel.unpack := by
  unfold ofDouble ofUnpacked
  cases number.toModel.unpack with
  | notANumber => rfl
  | infinity sign => cases sign <;> rfl
  | zero sign => cases sign <;> rfl
  | finite sign mantissa exponent positive => cases sign <;> rfl

theorem ofDouble_pack (unpacked : UnpackedFloat) (canonical : IsCanonical unpacked) :
    ofDouble (.ofModel (.pack unpacked)) = ofUnpacked unpacked := by
  rw [ofDouble_eq_ofUnpacked, unpack_pack canonical]

theorem isFinite_iff {number : Float} :
    number.isFinite = true ↔ ∃ negative magnitude, ofDouble number = .finite negative magnitude := by
  rw [ofDouble_eq_ofUnpacked]
  change number.toModel.unpack.isFinite = true ↔ _
  cases number.toModel.unpack <;> simp [UnpackedFloat.isFinite, ofUnpacked]

theorem isInf_of_ofDouble
    {number : Float}
    {negative : Bool}
    (exact : ofDouble number = .infinite negative) :
    number.isInf = true := by
  rw [ofDouble_eq_ofUnpacked] at exact
  change number.toModel.unpack.isInf = true
  generalize number.toModel.unpack = unpacked at exact ⊢
  cases unpacked with
  | infinity sign => rfl
  | _ => cases exact

/-- The magnitude of a finite double is zero or one of the other magnitudes of doubles. -/
theorem isDouble_of_ofDouble
    {number : Float}
    {negative : Bool}
    {magnitude : Dyadic}
    (exact : ofDouble number = .finite negative magnitude) :
    magnitude = ⟨0, 0⟩ ∨ magnitude.IsDouble := by
  have canonical := isCanonical_unpack number.toModel
  rw [ofDouble_eq_ofUnpacked] at exact
  generalize number.toModel.unpack = unpacked at exact canonical
  cases unpacked with
  | notANumber => cases exact
  | infinity sign => cases exact
  | zero sign =>
    cases exact
    exact .inl rfl
  | finite sign mantissa exponent positive =>
    cases exact
    exact .inr canonical

theorem ofDouble_neg
    {number : Float}
    {negative : Bool}
    {magnitude : Dyadic}
    (exact : ofDouble number = .finite negative magnitude) :
    ofDouble (-number) = .finite (!negative) magnitude := by
  have canonical := isCanonical_unpack number.toModel
  rw [ofDouble_eq_ofUnpacked] at exact
  have packed : -number = .ofModel (.pack number.toModel.unpack.neg) := rfl
  rw [packed]
  generalize number.toModel.unpack = unpacked at exact canonical
  cases unpacked with
  | notANumber => cases exact
  | infinity sign => cases exact
  | zero sign =>
    cases exact
    rw [UnpackedFloat.neg, ofDouble_pack (.zero (-sign)) trivial]
    cases sign <;> rfl
  | finite sign mantissa exponent positive =>
    cases exact
    rw [UnpackedFloat.neg, ofDouble_pack (.finite (-sign) mantissa exponent positive) canonical]
    cases sign <;> rfl

end Exact

namespace Dyadic

variable {dyadic : Dyadic}

theorem ofDouble_toDouble (isDouble : dyadic.IsDouble) :
    Exact.ofDouble dyadic.toDouble = .finite false dyadic := by
  rw [toDouble, dif_neg isDouble.mantissa_pos.ne']
  exact Exact.ofDouble_pack _ isDouble

theorem ofDouble_toDouble_of_zero (zero : dyadic.mantissa = 0) :
    Exact.ofDouble dyadic.toDouble = .finite false ⟨0, 0⟩ := by
  rw [toDouble, dif_pos zero]
  exact Exact.ofDouble_pack (.zero .positive) trivial

theorem ofDouble_toDouble_of_exceeds
    (mantissaPositive : 0 < dyadic.mantissa)
    (exceeds : greatestExponent < dyadic.exponent) :
    Exact.ofDouble dyadic.toDouble = .infinite false := by
  have packed : UnpackedFloat.pack .binary64
      (.finite .positive dyadic.mantissa dyadic.exponent mantissaPositive) =
        UnpackedFloat.pack .binary64 (.infinity .positive) := by
    have bias : (Float.Model.Format.binary64.exponentBias : ℤ) = 1023 := by decide
    have tooGreat : 2 ^ 11 ≤
        (dyadic.exponent + Float.Model.Format.binary64.exponentBias + (52 : ℕ)).toNat + 1 := by
      rw [bias]
      simp only [greatestExponent] at exceeds
      omega
    unfold UnpackedFloat.pack
    exact if_pos tooGreat
  have same : dyadic.toDouble = .ofModel (.pack (.infinity .positive)) := by
    rw [toDouble, dif_neg mantissaPositive.ne', Float.Model.pack]
    simp only [packed]
    rfl
  rw [same]
  exact Exact.ofDouble_pack (.infinity .positive) trivial

/-- A normal dyadic number of a double's exponent, zero included, is the value of a double. -/
theorem IsNormal.exists_ofDouble
    (normal : dyadic.IsNormal)
    (leGreatest : dyadic.exponent ≤ greatestExponent) :
    ∃ magnitude : Dyadic, Exact.ofDouble dyadic.toDouble = .finite false magnitude ∧
      magnitude.value = dyadic.value := by
  by_cases zero : dyadic.mantissa = 0
  · refine ⟨⟨0, 0⟩, ofDouble_toDouble_of_zero zero, ?_⟩
    rw [value, value, zero, Nat.cast_zero, zero_mul, zero_mul]
  · exact ⟨dyadic, ofDouble_toDouble ⟨normal, Nat.pos_of_ne_zero zero, leGreatest⟩, rfl⟩

end Dyadic

/-- A finite double without a minus sign is the one that its exact value gives. -/
theorem Exact.toDouble_of_ofDouble
    {number : Float}
    {magnitude : Dyadic}
    (exact : ofDouble number = .finite false magnitude) :
    magnitude.toDouble = number := by
  have packed : number = .ofModel (.pack number.toModel.unpack) :=
    (Float.ofBits_toBits number).symm
  rw [ofDouble_eq_ofUnpacked] at exact
  generalize number.toModel.unpack = unpacked at exact packed
  subst packed
  cases unpacked with
  | notANumber => cases exact
  | infinity sign => cases exact
  | zero sign =>
    cases sign with
    | negative => cases exact
    | positive =>
      cases exact
      rfl
  | finite sign mantissa exponent positive =>
    cases sign with
    | negative => cases exact
    | positive =>
      cases exact
      rw [Dyadic.toDouble, dif_neg positive.ne']

/-! ## Signs and order -/

/-- The number with the sign. -/
def signed (negative : Bool) (magnitude : ℚ) : ℚ :=
  if negative then -magnitude else magnitude

/-- Two signed numbers are in order if the magnitudes are, or for negative ones the other way
round. -/
theorem signed_le_signed_iff (negative : Bool) {magnitude other : ℚ} :
    signed negative magnitude ≤ signed negative other ↔
      if negative then other ≤ magnitude else magnitude ≤ other := by
  cases negative with
  | true => exact neg_le_neg_iff
  | false => exact Iff.rfl

private theorem ofBitVec_beq_negative (bit : BitVec 1) :
    (Sign.ofBitVec bit == .negative) = bit.msb := by
  revert bit
  decide

private theorem msb_unpackSign (bits : BitVec 64) :
    (@unpackSign .binary64 bits).msb = bits.msb := by
  simp [unpackSign, BitVec.msb_eq_getLsbD_last]
  rfl

/-- Magnitudes of doubles are compared by their exponents and then by their mantissas. -/
theorem Dyadic.IsNormal.value_le_of_isLE
    {dyadic other : Dyadic}
    (normal : dyadic.IsNormal)
    (otherNormal : other.IsNormal)
    (ordered : ((compare dyadic.exponent other.exponent).then
      (compare dyadic.mantissa other.mantissa)).isLE = true) :
    dyadic.value ≤ other.value := by
  rw [Ordering.isLE_then_iff_or, Int.compare_eq_lt, Int.compare_eq_eq, Nat.isLE_compare] at ordered
  obtain below | ⟨same, mantissaLe⟩ := ordered
  · exact (normal.value_lt_of_exponent_lt otherNormal below).le
  · rw [value, value, same]
    exact mul_le_mul_of_nonneg_right (by exact_mod_cast mantissaLe) (two_zpow_pos _).le

namespace Exact

/-- The minus sign is the leading bit. -/
theorem negative_eq_msb
    {number : Float}
    {negative : Bool}
    {magnitude : Dyadic}
    (exact : ofDouble number = .finite negative magnitude) :
    negative = number.toBits.toBitVec.msb := by
  rw [ofDouble_eq_ofUnpacked, Float.Model.unpack, unpack_eq_ofFields] at exact
  unfold ofFields at exact
  rw [← msb_unpackSign, ← ofBitVec_beq_negative]
  split at exact
  · split at exact <;> cases exact
  · split at exact
    · split at exact <;> cases exact <;> rfl
    · cases exact
      rfl

/-- Finite doubles are ordered as their exact values are. -/
theorem signed_le_signed
    {number other : Float}
    {negative otherNegative : Bool}
    {magnitude otherMagnitude : Dyadic}
    (exact : ofDouble number = .finite negative magnitude)
    (otherExact : ofDouble other = .finite otherNegative otherMagnitude)
    (ordered : number ≤ other) :
    signed negative magnitude.value ≤ signed otherNegative otherMagnitude.value := by
  have canonical := isCanonical_unpack number.toModel
  have otherCanonical := isCanonical_unpack other.toModel
  have compared : number.toModel.unpack.le other.toModel.unpack = true :=
    decide_eq_true_iff.1 ordered
  have nonneg := magnitude.value_nonneg
  have otherNonneg := otherMagnitude.value_nonneg
  rw [ofDouble_eq_ofUnpacked] at exact otherExact
  generalize number.toModel.unpack = unpacked at *
  generalize other.toModel.unpack = otherUnpacked at *
  cases unpacked with
  | notANumber | infinity => cases exact
  | zero sign =>
    cases otherUnpacked with
    | notANumber | infinity => cases otherExact
    | zero otherSign =>
      cases exact
      cases otherExact
      rw [Dyadic.value_zero]
      cases sign <;> cases otherSign <;> simp [signed]
    | finite otherSign mantissa exponent positive =>
      cases exact
      cases otherExact
      rw [Dyadic.value_zero]
      cases otherSign with
      | negative => cases compared
      | positive => cases sign <;> simpa [signed] using otherNonneg
  | finite sign mantissa exponent positive =>
    cases otherUnpacked with
    | notANumber | infinity => cases otherExact
    | zero otherSign =>
      cases exact
      cases otherExact
      rw [Dyadic.value_zero]
      cases sign with
      | negative => cases otherSign <;> simpa [signed] using nonneg
      | positive => cases compared
    | finite otherSign otherMantissa otherExponent otherPositive =>
      cases exact
      cases otherExact
      cases sign <;> cases otherSign
      · refine (signed_le_signed_iff true).2 ?_
        refine otherCanonical.normal.value_le_of_isLE canonical.normal ?_
        rw [← Int.compare_swap, ← Nat.compare_swap, ← Ordering.swap_then]
        exact compared
      · exact (neg_nonpos.2 nonneg).trans otherNonneg
      · cases compared
      · exact (signed_le_signed_iff false).2
          (canonical.normal.value_le_of_isLE otherCanonical.normal compared)

end Exact

end Lox.Number
