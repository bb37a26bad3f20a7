import Mathlib.Data.BitVec

/-!
# Masks

A word split by a mask: what two parts put together give back under it, and
what clearing bits does.
-/

namespace FreeRtosSim

variable {w : Nat} {a b c m : BitVec w}

theorem or_and_mask (ha : a &&& c = 0) (hb : b &&& c = b) : (a ||| b) &&& c = b := by
  ext i hi
  have h₁ := congrArg (fun v => v[i]) ha
  have h₂ := congrArg (fun v => v[i]) hb
  simp only [BitVec.getElem_and, BitVec.getElem_or, BitVec.getElem_zero,
    BitVec.ofNat_eq_ofNat] at *
  grind

theorem or_and_not_mask (ha : a &&& c = 0) (hb : b &&& c = b) :
    (a ||| b) &&& ~~~c = a := by
  ext i hi
  have h₁ := congrArg (fun v => v[i]) ha
  have h₂ := congrArg (fun v => v[i]) hb
  simp only [BitVec.getElem_and, BitVec.getElem_or, BitVec.getElem_not,
    BitVec.getElem_zero, BitVec.ofNat_eq_ofNat] at *
  grind

theorem or_and_zero (ha : a &&& c = 0) (hb : b &&& c = 0) : (a ||| b) &&& c = 0 := by
  ext i hi
  have h₁ := congrArg (fun v => v[i]) ha
  have h₂ := congrArg (fun v => v[i]) hb
  simp only [BitVec.getElem_and, BitVec.getElem_or, BitVec.getElem_zero,
    BitVec.ofNat_eq_ofNat] at *
  grind

theorem clear_and_zero (ha : a &&& c = 0) : (a &&& ~~~m) &&& c = 0 := by
  ext i hi
  have h₁ := congrArg (fun v => v[i]) ha
  simp only [BitVec.getElem_and, BitVec.getElem_not, BitVec.getElem_zero,
    BitVec.ofNat_eq_ofNat] at *
  grind

/-- All bits of `b` are in what is left of `a`, so they are in `a`. -/
theorem all_of_clear (h : (a &&& ~~~m) &&& b = b) : a &&& b = b := by
  ext i hi
  have h₁ := congrArg (fun v => v[i]) h
  simp only [BitVec.getElem_and, BitVec.getElem_not] at *
  grind

theorem any_of_clear (h : a &&& b = 0) : (a &&& ~~~m) &&& b = 0 := by
  ext i hi
  have h₁ := congrArg (fun v => v[i]) h
  simp only [BitVec.getElem_and, BitVec.getElem_not, BitVec.getElem_zero,
    BitVec.ofNat_eq_ofNat] at *
  grind

end FreeRtosSim
