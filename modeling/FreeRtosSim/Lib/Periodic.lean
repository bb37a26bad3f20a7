import Mathlib.Algebra.BigOperators.Intervals
import Mathlib.Data.Nat.Count
import Mathlib.Order.Interval.Finset.Nat

/-!
# A periodic source in a window

A source emits at the multiples `k * P` of its period, each emission due one
period later. In the window from `t₀` to `d` those that are both emitted and
due there have consecutive indices, the first being `windowStart P t₀`, and
there are at most `(d - t₀) / P` of them.
-/

namespace FreeRtosSim

/-- The index of the first multiple of `P` that is at least `t₀`. -/
def windowStart (P t₀ : Nat) : Nat := (t₀ + P - 1) / P

/-- How many emissions from `t₀` on happen by `t` and are due by `d`. -/
def windowCount (P t₀ t d : Nat) : Nat :=
  min (t / P + 1) (d / P) - windowStart P t₀

variable {P t₀ t d : Nat}

theorem windowStart_le_iff (hP : 0 < P) {k : Nat} :
    windowStart P t₀ ≤ k ↔ t₀ ≤ k * P := by
  rw [windowStart, Nat.div_le_iff_le_mul_add_pred hP, Nat.mul_comm P k]
  omega

theorem windowCount_mul_le (hP : 0 < P) :
    windowCount P t₀ t d * P ≤ d - t₀ := by
  have hstart : t₀ ≤ windowStart P t₀ * P :=
    (windowStart_le_iff hP).mp (Nat.le_refl _)
  have hend : min (t / P + 1) (d / P) * P ≤ d :=
    Nat.le_trans (Nat.mul_le_mul_right P (Nat.min_le_right _ _))
      (Nat.div_mul_le_self d P)
  rw [windowCount, Nat.sub_mul]
  omega

theorem windowCount_le_div (hP : 0 < P) :
    windowCount P t₀ t d ≤ (d - t₀) / P :=
  (Nat.le_div_iff_mul_le hP).mpr (windowCount_mul_le hP)

/-- An emission inside the window lies before time `t`. -/
theorem windowStart_add_le {k : Nat}
    (h : k < windowCount P t₀ t d) : (windowStart P t₀ + k) * P ≤ t := by
  have hk : windowStart P t₀ + k ≤ t / P := by
    have := Nat.min_le_left (t / P + 1) (d / P)
    unfold windowCount at h
    omega
  exact Nat.le_trans (Nat.mul_le_mul_right P hk) (Nat.div_mul_le_self t P)

/-- The emissions in the window that satisfy `Q`, counted by index. -/
theorem card_window_le (hP : 0 < P) {Q : Nat → Prop} [DecidablePred Q] :
    ((Finset.Icc t₀ t).filter
      (fun u => u % P = 0 ∧ Q (u / P) ∧ u + P ≤ d)).card ≤
      Nat.count (fun j => Q (windowStart P t₀ + j)) (windowCount P t₀ t d) := by
  rw [Nat.count_eq_card_filter_range]
  refine Finset.card_le_card_of_injOn (fun u => u / P - windowStart P t₀) ?_ ?_
  · intro u hu
    simp only [Finset.coe_filter, Finset.mem_Icc, Set.mem_ofPred_eq] at hu
    obtain ⟨⟨hlo, hhi⟩, hdvd, hQ, hdue⟩ := hu
    have hmul : u / P * P = u := Nat.div_mul_cancel (Nat.dvd_of_mod_eq_zero hdvd)
    have hstart : windowStart P t₀ ≤ u / P :=
      (windowStart_le_iff hP).mpr (by rw [hmul]; exact hlo)
    have hlast : u / P ≤ t / P := Nat.div_le_div_right hhi
    have hdiv : u / P + 1 ≤ d / P := by
      rw [Nat.le_div_iff_mul_le hP, Nat.succ_mul, hmul]
      exact hdue
    simp only [Finset.coe_filter, Finset.mem_range, Set.mem_ofPred_eq]
    refine ⟨?_, ?_⟩
    · unfold windowCount
      omega
    · rwa [show windowStart P t₀ + (u / P - windowStart P t₀) = u / P by omega]
  · intro u hu v hv heq
    simp only [Finset.coe_filter, Finset.mem_Icc, Set.mem_ofPred_eq] at hu hv
    have hmu : u / P * P = u :=
      Nat.div_mul_cancel (Nat.dvd_of_mod_eq_zero hu.2.1)
    have hmv : v / P * P = v :=
      Nat.div_mul_cancel (Nat.dvd_of_mod_eq_zero hv.2.1)
    have hsu : windowStart P t₀ ≤ u / P :=
      (windowStart_le_iff hP).mpr (by rw [hmu]; exact hu.1.1)
    have hsv : windowStart P t₀ ≤ v / P :=
      (windowStart_le_iff hP).mpr (by rw [hmv]; exact hv.1.1)
    have hdiv : u / P = v / P := by
      simp only at heq
      omega
    rw [← hmu, ← hmv, hdiv]

/-- A count over whole periods is the counts of the periods. -/
theorem count_mul_period (q : Nat → Prop) [DecidablePred q] (P N : Nat) :
    Nat.count q (N * P) =
      ∑ k ∈ Finset.range N, Nat.count (fun v => q (k * P + v)) P := by
  induction N with
  | zero => simp
  | succ N ih => rw [Nat.succ_mul, Nat.count_add, ih, Finset.sum_range_succ]

end FreeRtosSim
