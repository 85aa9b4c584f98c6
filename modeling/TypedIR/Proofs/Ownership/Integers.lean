import Mathlib.Data.Int.ModEq
import Mathlib.Data.Int.Order.Lemmas
import TypedIR.Proofs.Ownership.Constants

/-!
Contract: the numbers that integer constants store.

Owns:
- the residue of a number in the signed range of a width, of which there is one;
- that a constant stores this residue, which is the number itself from 64 bits on;
- which numbers are stored alike, and the parity that a single bit stores;
- the residue as two machine shifts.

Modulo a power of two of more than 64 bits, only equal numbers of 64 bits are congruent, so the
statements about residues hold for all widths alike.
-/

namespace TypedIR

variable {bits : UInt32} {number other : Int64}

/-- The number of values of the width, of which the residues are taken. -/
def modulus (bits : UInt32) : Int := ((Nat.pow 2 bits.toNat : Nat) : Int)

/-- Congruent to the number, and in the signed range of the width. -/
structure IsResidue (bits : UInt32) (number stored : Int) : Prop where
  congruent : stored ≡ number [ZMOD modulus bits]
  range : SignedRange bits stored

theorem modulus_eq (positive : 0 < bits) :
    modulus bits = 2 * ((Nat.pow 2 (bits.toNat - 1) : Nat) : Int) := by
  have split : bits.toNat - 1 + 1 = bits.toNat :=
    Nat.sub_add_cancel (UInt32.lt_iff_toNat_lt.mp positive)
  have doubled : Nat.pow 2 bits.toNat = Nat.pow 2 (bits.toNat - 1) * 2 :=
    (congrArg (Nat.pow 2) split).symm
  rw [modulus, doubled]
  omega

/-- The signed range of a width holds one number of each residue class. -/
theorem IsResidue.unique (positive : 0 < bits) {number one two : Int}
    (first : IsResidue bits number one) (second : IsResidue bits number two) : one = two := by
  have divides : modulus bits ∣ one - two :=
    (first.congruent.trans second.congruent.symm).symm.dvd
  have near : |one - two| < modulus bits := by
    obtain ⟨oneLower, oneUpper⟩ := first.range
    obtain ⟨twoLower, twoUpper⟩ := second.range
    rw [modulus_eq positive, abs_lt]
    omega
  have same := Int.eq_zero_of_abs_lt_dvd divides near
  omega

theorem IsResidue.of_congruent {number other stored : Int} (residue : IsResidue bits number stored)
    (congruent : number ≡ other [ZMOD modulus bits]) : IsResidue bits other stored :=
  ⟨residue.congruent.trans congruent, residue.range⟩

/-- What is stored is in its own residue class. -/
theorem IsResidue.settled {number stored : Int} (residue : IsResidue bits number stored) :
    IsResidue bits stored stored :=
  ⟨Int.ModEq.refl stored, residue.range⟩

/-! ### Truncation -/

theorem truncate_of_wide (wide : 64 ≤ bits) : truncate bits number = number := if_pos wide

/-- A constant stores the residue of its number in the signed range of its width. -/
theorem isResidue_truncate (positive : 0 < bits) (number : Int64) :
    IsResidue bits number.toInt (truncate bits number).toInt where
  congruent := by
    by_cases wide : 64 ≤ bits
    · rw [truncate_of_wide wide]
    · rw [toInt_truncate (UInt32.not_le.mp wide)]
      exact Int.bmod_emod
  range := truncate_range positive number

theorem isResidue_iff (positive : 0 < bits) {stored : Int} :
    IsResidue bits number.toInt stored ↔ stored = (truncate bits number).toInt := by
  have residue := isResidue_truncate positive number
  constructor
  · exact fun given => given.unique positive residue
  · rintro rfl
    exact residue

/-- What is stored is stored unchanged. -/
theorem truncate_truncate (positive : 0 < bits) :
    truncate bits (truncate bits number) = truncate bits number := by
  have settled := (isResidue_truncate positive number).settled
  exact (Int64.toInt_inj.mp ((isResidue_iff positive).mp settled)).symm

/-- Two numbers are stored alike exactly if they are congruent. -/
theorem truncate_eq_iff (positive : 0 < bits) :
    truncate bits number = truncate bits other ↔
      number.toInt ≡ other.toInt [ZMOD modulus bits] := by
  have residue := isResidue_truncate positive number
  have otherResidue := isResidue_truncate positive other
  constructor
  · intro same
    rw [← same] at otherResidue
    exact residue.congruent.symm.trans otherResidue.congruent
  · intro congruent
    exact Int64.toInt_inj.mp ((residue.of_congruent congruent).unique positive otherResidue)

/-- A single bit is zero exactly for even numbers. -/
theorem truncate_one_eq_zero_iff : truncate 1 number = 0 ↔ Even number.toInt := by
  have zero : truncate 1 0 = 0 := by decide
  calc truncate 1 number = 0
      ↔ truncate 1 number = truncate 1 0 := by rw [zero]
    _ ↔ number.toInt ≡ 0 [ZMOD modulus 1] := truncate_eq_iff (by decide)
    _ ↔ 2 ∣ number.toInt := Int.modEq_zero_iff_dvd
    _ ↔ Even number.toInt := even_iff_two_dvd.symm

/-! ### Machine shifts -/

/-- Shifting a word to the left multiplies it, and shifting it back divides it again. -/
theorem toInt_shifts (number : Int64) {amount : Nat} (inside : amount < 64) :
    ((number <<< Int64.ofNat amount) >>> Int64.ofNat amount).toInt =
      (number.toInt * (Nat.pow 2 amount : Nat)).bmod (Nat.pow 2 64) / (Nat.pow 2 amount : Nat) := by
  have places : ((Int64.ofNat amount).toBitVec.smod 64).toNat = amount := by
    have each : ∀ amount < 64, ((Int64.ofNat amount).toBitVec.smod 64).toNat = amount := by decide
    exact each amount inside
  have left : (number <<< Int64.ofNat amount).toInt =
      (number.toInt * (Nat.pow 2 amount : Nat)).bmod (Nat.pow 2 64) := by
    rw [← Int64.toInt_toBitVec, Int64.toBitVec_shiftLeft, BitVec.shiftLeft_eq', places,
      BitVec.toInt_shiftLeft, ← Int64.toInt_toBitVec number, BitVec.toInt_eq_toNat_bmod,
      Nat.shiftLeft_eq, Int.natCast_mul]
    exact Int.bmod_mul_bmod.symm
  rw [← Int64.toInt_toBitVec, Int64.toBitVec_shiftRight, BitVec.sshiftRight', places,
    BitVec.toInt_sshiftRight, Int64.toInt_toBitVec, left, Int.shiftRight_eq_div_pow]
  rfl

/-- The bits above the width go out at the top, and the sign bit comes in again. -/
theorem truncate_eq_shifts (positive : 0 < bits) (narrow : bits < 64) :
    truncate bits number =
      (number <<< Int64.ofNat (64 - bits.toNat)) >>> Int64.ofNat (64 - bits.toNat) := by
  have low : 0 < bits.toNat := UInt32.lt_iff_toNat_lt.mp positive
  have high : bits.toNat < 64 := UInt32.lt_iff_toNat_lt.mp narrow
  have word : Nat.pow 2 64 = Nat.pow 2 (64 - bits.toNat) * Nat.pow 2 bits.toNat := by
    have whole : Nat.pow 2 (64 - bits.toNat + bits.toNat) = _ := Nat.pow_add 2 _ _
    rwa [Nat.sub_add_cancel (Nat.le_of_lt high)] at whole
  have even : 2 ∣ Nat.pow 2 bits.toNat := Dvd.dvd.pow (Nat.dvd_refl 2) (Nat.ne_of_gt low)
  have factor : 0 < Nat.pow 2 (64 - bits.toNat) := Nat.two_pow_pos _
  apply Int64.toInt_inj.mp
  rw [toInt_shifts number (by omega), toInt_truncate narrow, word, Int.mul_comm,
    Int.mod_bmod_mul_of_pos _ _ factor even,
    Int.mul_ediv_cancel_left _ (Int.natCast_ne_zero.mpr (Nat.ne_of_gt factor))]

end TypedIR
