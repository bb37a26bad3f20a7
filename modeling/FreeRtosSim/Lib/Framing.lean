import Mathlib.Data.Nat.ModEq

/-!
# Numbers as bytes

A number of `k` bytes in memory, the lowest byte first, and the number that
`k` bytes are.
-/

namespace FreeRtosSim

def littleEndian : Nat → Nat → List UInt8
  | 0, _ => []
  | k + 1, n => UInt8.ofNat n :: littleEndian k (n / 256)

def ofLittleEndian : List UInt8 → Nat
  | [] => 0
  | b :: bs => b.toNat + 256 * ofLittleEndian bs

@[simp] theorem length_littleEndian (k n : Nat) :
    (littleEndian k n).length = k := by
  induction k generalizing n with
  | zero => rfl
  | succ k ih => rw [littleEndian, List.length_cons, ih]

/-- A number that fits is read back as it was written. -/
theorem ofLittleEndian_littleEndian {k n : Nat} (h : n < 256 ^ k) :
    ofLittleEndian (littleEndian k n) = n := by
  induction k generalizing n with
  | zero =>
      have hzero : n = 0 := Nat.lt_one_iff.mp h
      rw [hzero]
      rfl
  | succ k ih =>
      have hdiv : n / 256 < 256 ^ k := by
        rw [Nat.pow_succ] at h
        exact Nat.div_lt_of_lt_mul (Nat.mul_comm _ _ ▸ h)
      rw [littleEndian, ofLittleEndian, ih hdiv, UInt8.toNat_ofNat']
      exact Nat.mod_add_div n 256

end FreeRtosSim
