import Mathlib.Algebra.Group.Nat.Defs
import BankedController.Bus.Register

namespace BankedController

namespace RegisterBus

theorem toNat_joinBytes (b3 b2 b1 b0 : UInt8) :
    (joinBytes b3 b2 b1 b0).toNat =
      2 ^ 24 * b3.toNat + 2 ^ 16 * b2.toNat + 2 ^ 8 * b1.toNat + b0.toNat := by
  have h3 := b3.toNat_lt
  have h2 := b2.toNat_lt
  have h1 := b1.toNat_lt
  have h0 := b0.toNat_lt
  have shift (b : UInt8) (k : Nat) (hk : k ≤ 24) : b.toNat <<< k % 2 ^ 32 = 2 ^ k * b.toNat := by
    have hb := b.toNat_lt
    have hpow : 2 ^ k ≤ 2 ^ 24 := Nat.pow_le_pow_right (by decide) hk
    have hmul : 2 ^ k * b.toNat ≤ 2 ^ 24 * b.toNat := Nat.mul_le_mul_right _ hpow
    rw [Nat.shiftLeft_eq, Nat.mul_comm]
    apply Nat.mod_eq_of_lt
    omega
  -- the bytes do not overlap, so that setting their bits is adding them up
  have htop : 2 ^ 24 * b3.toNat ||| 2 ^ 16 * b2.toNat = 2 ^ 24 * b3.toNat + 2 ^ 16 * b2.toNat :=
    (Nat.two_pow_add_eq_or_of_lt (by omega) _).symm
  have hmid : 2 ^ 24 * b3.toNat + 2 ^ 16 * b2.toNat =
      2 ^ 16 * (2 ^ 8 * b3.toNat + b2.toNat) := by omega
  have hlow : 2 ^ 16 * (2 ^ 8 * b3.toNat + b2.toNat) + 2 ^ 8 * b1.toNat =
      2 ^ 8 * (2 ^ 16 * b3.toNat + 2 ^ 8 * b2.toNat + b1.toNat) := by omega
  simp only [joinBytes, UInt32.toNat_or, UInt32.toNat_shiftLeft, UInt8.toNat_toUInt32]
  change ((b3.toNat <<< 24 % 2 ^ 32 ||| b2.toNat <<< 16 % 2 ^ 32) |||
    b1.toNat <<< 8 % 2 ^ 32) ||| b0.toNat = _
  rw [shift b3 24 (by decide), shift b2 16 (by decide), shift b1 8 (by decide), htop, hmid,
    ← Nat.two_pow_add_eq_or_of_lt (by omega), hlow, ← Nat.two_pow_add_eq_or_of_lt (by omega)]

/-- A number is put together again from the bytes that it is written as. -/
theorem joinBytes_split (x : UInt32) :
    joinBytes (x >>> 24).toUInt8 (x >>> 16).toUInt8 (x >>> 8).toUInt8 x.toUInt8 = x := by
  apply UInt32.toNat_inj.1
  have hx := x.toNat_lt
  simp only [toNat_joinBytes, UInt32.toNat_toUInt8, UInt32.toNat_shiftRight,
    Nat.shiftRight_eq_div_pow]
  change 2 ^ 24 * (x.toNat / 2 ^ 24 % 2 ^ 8) + 2 ^ 16 * (x.toNat / 2 ^ 16 % 2 ^ 8) +
    2 ^ 8 * (x.toNat / 2 ^ 8 % 2 ^ 8) + x.toNat % 2 ^ 8 = _
  omega

end RegisterBus

/-- A number below another has a successor. -/
theorem toNat_add_one_of_lt {i n : UInt32} (h : i < n) : (i + 1).toNat = i.toNat + 1 := by
  have hbound := n.toNat_lt
  rw [UInt32.lt_iff_toNat_lt] at h
  rw [UInt32.toNat_add]
  exact Nat.mod_eq_of_lt (by simp only [UInt32.reduceToNat]; omega)

namespace Bits

/-- What is set beside the bits of a mask is seen through the mask only where it is in it. -/
theorem or_and (a b mask : UInt8) : (a ||| b) &&& mask = (a &&& mask) ||| (b &&& mask) :=
  UInt8.toBitVec_inj.1 BitVec.and_or_distrib_right

/-- Bits that were set are seen. -/
theorem or_and_ne_zero (a : UInt8) {mask : UInt8} (h : mask ≠ 0) : (a ||| mask) &&& mask ≠ 0 := by
  rw [or_and, UInt8.and_self]
  intro hzero
  exact h (UInt8.or_eq_zero_iff.1 hzero).2

/-- Of two disjoint masks, each set or not, the one that is looked at is seen if it was set. -/
theorem chosen_and {p q : Prop} [Decidable p] [Decidable q] {mask other : UInt8} (hmask : mask ≠ 0)
    (hdisjoint : other &&& mask = 0) :
    ((if p then 0 else mask) ||| (if q then 0 else other)) &&& mask ≠ 0 ↔ ¬p := by
  have hother : (if q then 0 else other) &&& mask = 0 := by
    split
    · exact UInt8.zero_and
    · exact hdisjoint
  rw [or_and, hother, UInt8.or_zero]
  by_cases hp : p
  · simp [hp]
  · simp [hp, hmask]

/-- Bits that were cleared are not seen. -/
theorem clear_and_self (a mask : UInt8) : (a &&& ~~~mask) &&& mask = 0 := by
  rw [UInt8.and_assoc, UInt8.not_and_self, UInt8.and_zero]

/-- The bits of a mask and all others make up the byte. -/
theorem clear_or_seen (a mask : UInt8) : (a &&& ~~~mask) ||| (a &&& mask) = a := by
  apply UInt8.toBitVec_inj.1
  apply BitVec.eq_of_getLsbD_eq
  intro i hi
  simp only [UInt8.toBitVec_and, UInt8.toBitVec_or, UInt8.toBitVec_not, BitVec.getLsbD_and,
    BitVec.getLsbD_or, BitVec.getLsbD_not, hi]
  cases a.toBitVec.getLsbD i <;> cases mask.toBitVec.getLsbD i <;> rfl

/-- Clearing bits outside a mask is not seen through the mask. -/
theorem clear_and_of_disjoint (a : UInt8) {cleared mask : UInt8} (h : ~~~cleared &&& mask = mask) :
    (a &&& ~~~cleared) &&& mask = a &&& mask := by
  rw [UInt8.and_assoc, h]

/-- A mask is seen in full where none of its bits are. -/
theorem not_and_of_disjoint {a mask : UInt8} (h : a &&& mask = 0) : ~~~a &&& mask = mask := by
  have hsplit : (a &&& mask) ||| (~~~a &&& mask) = mask := by
    rw [← or_and, UInt8.or_not_self]
    exact UInt8.neg_one_and
  rwa [h, UInt8.zero_or] at hsplit

/-- Once the bits that were seen through a mask are cleared, what is seen through it is what was set
since. -/
theorem clear_seen (a later mask : UInt8) :
    ((a &&& ~~~(a &&& mask)) ||| later) &&& mask = later &&& mask := by
  have hnone : (a &&& ~~~(a &&& mask)) &&& mask = 0 := by
    rw [UInt8.and_assoc, UInt8.and_comm (~~~_), ← UInt8.and_assoc, UInt8.and_not_self]
  rw [or_and, hnone, UInt8.zero_or]

/-- The bits that were not seen are not cleared. -/
theorem clear_unseen (a later mask : UInt8) :
    ((a &&& ~~~(a &&& mask)) ||| later) &&& ~~~mask = (a ||| later) &&& ~~~mask := by
  apply UInt8.toBitVec_inj.1
  apply BitVec.eq_of_getLsbD_eq
  intro i hi
  simp only [UInt8.toBitVec_and, UInt8.toBitVec_or, UInt8.toBitVec_not, BitVec.getLsbD_and,
    BitVec.getLsbD_or, BitVec.getLsbD_not, hi]
  cases a.toBitVec.getLsbD i <;> cases mask.toBitVec.getLsbD i <;> simp

end Bits

end BankedController
