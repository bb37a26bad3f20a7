import Mathlib.Algebra.BigOperators.Intervals
import Mathlib.Algebra.Order.BigOperators.Group.Finset
import Mathlib.Data.Nat.Count
import Mathlib.Order.Interval.Finset.Nat

/-!
# One server

A server that gives every slot to at most one client. `sum_count_le` bounds
what it can give away in `t` slots; the rest is about the work it leaves.
`backlog t` is the work waiting at time `t`, `arrive t` what joins it at
`t`, and one unit is served in every slot that starts with work waiting.
Then at any time the backlog is explained by the arrivals of the current
busy interval: there is a start `t₀` such that everything that has arrived
since is either still waiting or was served in one of the slots since.
-/

namespace FreeRtosSim

/-- The slots given to different clients are different slots. -/
theorem sum_count_le {ι : Type*} {served : ι → Nat → Prop}
    [∀ i, DecidablePred (served i)] (clients : Finset ι)
    (hone : ∀ u, ∀ i ∈ clients, ∀ j ∈ clients,
      served i u → served j u → i = j) (t : Nat) :
    ∑ i ∈ clients, Nat.count (served i) t ≤ t := by
  induction t with
  | zero => simp
  | succ t ih =>
      simp only [Nat.count_succ, Finset.sum_add_distrib]
      have hslot : ∑ i ∈ clients, (if served i t then 1 else 0) ≤ 1 := by
        rw [← Finset.card_filter, Finset.card_le_one]
        intro i hi j hj
        rw [Finset.mem_filter] at hi hj
        exact hone t i hi.1 j hj.1 hi.2 hj.2
      omega

/-- When no slot is left out either, the clients have them all. -/
theorem sum_count_eq {ι : Type*} {served : ι → Nat → Prop}
    [∀ i, DecidablePred (served i)] (clients : Finset ι) {t : Nat}
    (hone : ∀ u < t, ∃ i ∈ clients, ∀ j ∈ clients, served j u ↔ j = i) :
    ∑ i ∈ clients, Nat.count (served i) t = t := by
  induction t with
  | zero => simp
  | succ t ih =>
      obtain ⟨i, hi, hiff⟩ := hone t (Nat.lt_succ_self t)
      have hslot : ∑ j ∈ clients, (if served j t then 1 else 0) = 1 := by
        rw [← Finset.card_filter, Finset.card_eq_one]
        refine ⟨i, Finset.ext fun j => ?_⟩
        rw [Finset.mem_filter, Finset.mem_singleton]
        exact ⟨fun hj => (hiff j hj.1).mp hj.2, fun hj => by
          rw [hj]
          exact ⟨hi, (hiff i hi).mpr rfl⟩⟩
      simp only [Nat.count_succ, Finset.sum_add_distrib]
      rw [ih fun u hu => hone u (Nat.lt_succ_of_lt hu), hslot]

/-! ## The backlog of a work-conserving server -/

variable {backlog arrive : Nat → Nat}

theorem backlog_busy_interval {T : Nat} (h0 : backlog 0 ≤ arrive 0)
    (hstep : ∀ t < T, backlog (t + 1) ≤ backlog t - 1 + arrive (t + 1)) :
    ∀ t ≤ T, ∃ t₀ ≤ t,
      backlog t + (t - t₀) ≤ ∑ u ∈ Finset.Icc t₀ t, arrive u := by
  intro t
  induction t with
  | zero =>
      intro _
      exact ⟨0, Nat.le_refl 0, by simpa using h0⟩
  | succ t ih =>
      intro ht
      obtain ⟨t₀, hle, hbusy⟩ := ih (by omega)
      have hnext := hstep t (by omega)
      rcases Nat.eq_zero_or_pos (backlog t) with hz | hpos
      · -- nothing was waiting, so a new busy interval starts here
        refine ⟨t + 1, Nat.le_refl _, ?_⟩
        rw [hz] at hnext
        simpa using hnext
      · refine ⟨t₀, by omega, ?_⟩
        rw [Finset.sum_Icc_succ_top (by omega)]
        omega

end FreeRtosSim
