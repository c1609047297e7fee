/-
  UdpSpeed.Lib.SerialNumber

  Numbers on a circle of size `2 ^ w`, measured from a base.  Near the base the
  signed difference of two numbers is the difference of their offsets.
-/

import Mathlib.Data.BitVec
import Mathlib.Tactic

namespace UdpSpeed
namespace SerialNumber

variable {w : Nat}

/-- How far `x` is from `base`, going up. -/
def offset (base x : BitVec w) : Nat := (x - base).toNat

theorem offset_lt (base x : BitVec w) : offset base x < 2 ^ w := BitVec.isLt _

theorem offset_add (base : BitVec w) {n : Nat} (hn : n < 2 ^ w) :
    offset base (base + BitVec.ofNat w n) = n := by
  rw [offset, add_sub_cancel_left, BitVec.toNat_ofNat, Nat.mod_eq_of_lt hn]

/-- A number is its base plus its offset. -/
theorem add_offset (base x : BitVec w) : base + BitVec.ofNat w (offset base x) = x := by
  rw [offset, BitVec.ofNat_toNat, BitVec.setWidth_eq, add_sub_cancel]

theorem offset_eq_iff (base x : BitVec w) {n : Nat} (hn : n < 2 ^ w) :
    offset base x = n ↔ x = base + BitVec.ofNat w n := by
  constructor
  · rintro rfl
    exact (add_offset base x).symm
  · rintro rfl
    exact offset_add base hn

theorem offset_inj {base x y : BitVec w} : offset base x = offset base y ↔ x = y := by
  rw [offset_eq_iff base x (offset_lt base y), add_offset]

theorem offset_eq_zero_iff {base x : BitVec w} : offset base x = 0 ↔ x = base := by
  rw [offset_eq_iff base x (Nat.two_pow_pos w), BitVec.add_zero]

/-- Moving the base up moves what is not passed down. -/
theorem offset_add_base {base x : BitVec w} {n : Nat} (h : n ≤ offset base x) :
    offset (base + BitVec.ofNat w n) x = offset base x - n := by
  have hlt := offset_lt base x
  have hx : x = base + BitVec.ofNat w n + BitVec.ofNat w (offset base x - n) := by
    rw [add_assoc, ← BitVec.ofNat_add, Nat.add_sub_cancel' h, add_offset]
  conv_lhs => rw [hx]
  rw [offset_add _ (by omega)]

/-- Moving the base one up moves everything but the base one down. -/
theorem offset_succ {base x : BitVec w} (h : 0 < offset base x) :
    offset (base + 1) x = offset base x - 1 := offset_add_base h

/-- Numbers counted from `0`. -/
theorem offset_ofNat {n k : Nat} (hle : n ≤ k) (hlt : k - n < 2 ^ w) :
    offset (BitVec.ofNat w n) (BitVec.ofNat w k) = k - n := by
  have hk : BitVec.ofNat w k = BitVec.ofNat w n + BitVec.ofNat w (k - n) := by
    rw [← BitVec.ofNat_add, Nat.add_sub_cancel' hle]
  rw [hk, offset_add _ hlt]

/-- A number behind the base is almost once around ahead of it. -/
theorem offset_ofNat_behind {n k : Nat} (hlt : k < n) (hle : n - k ≤ 2 ^ w) :
    offset (BitVec.ofNat w n) (BitVec.ofNat w k) = 2 ^ w - (n - k) := by
  have hk : BitVec.ofNat w k = BitVec.ofNat w n + BitVec.ofNat w (2 ^ w - (n - k)) := by
    rw [← BitVec.ofNat_add, show n + (2 ^ w - (n - k)) = k + 2 ^ w by omega]
    apply BitVec.eq_of_toNat_eq
    rw [BitVec.toNat_ofNat, BitVec.toNat_ofNat, Nat.add_mod_right]
  rw [hk, offset_add _ (by omega)]

/-- In the lower half the signed difference to the base is the offset. -/
theorem toInt_sub_base {base x : BitVec w} (h : 2 * offset base x < 2 ^ w) :
    (x - base).toInt = offset base x := BitVec.toInt_eq_toNat_of_lt h

/-- The upper half counts as behind the base. -/
theorem toInt_sub_base_neg {base x : BitVec w} (h : ¬ 2 * offset base x < 2 ^ w) :
    (x - base).toInt < 0 := by
  have hlt := offset_lt base x
  unfold offset at h hlt
  rw [BitVec.toInt_eq_toNat_cond, if_neg h]
  have hcast : ((2 ^ w : Nat) : Int) = 2 ^ w := by push_cast; rfl
  omega

/-- Near the base, signed differences are differences of offsets. -/
theorem toInt_sub_eq {base x y : BitVec w} (hx : 2 * offset base x < 2 ^ w)
    (hy : 2 * offset base y < 2 ^ w) :
    (x - y).toInt = (offset base x : Int) - (offset base y : Int) := by
  have hsub : x - y = (x - base) - (y - base) := by rw [sub_sub_sub_cancel_right]
  rw [hsub, BitVec.toInt_sub, toInt_sub_base hx, toInt_sub_base hy]
  -- both offsets are in the lower half, so the difference does not wrap
  refine Int.bmod_eq_of_le_mul_two ?_ ?_ <;> push_cast <;> zify at hx hy <;> omega

end SerialNumber
end UdpSpeed
