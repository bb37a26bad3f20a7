import Mathlib.Data.Nat.Cast.Order.Field
import FreeRtosSim.Proofs.Demand
import FreeRtosSim.Proofs.Verdict

/-!
# EDF meets every deadline up to full utilisation

Under EDF every job is mandatory, so the demand of a window is every job
released and due in it: at most `L / period` of each task in a window of `L`
ticks. With a utilisation of at most one they fit, no job is ever late, and
the kill pass has nothing to do.
-/

namespace FreeRtosSim

variable {sys : ClosedSystem} {t i : Nat}

/-- The share of the processor the tasks ask for. -/
def ClosedSystem.utilization (sys : ClosedSystem) : ℚ :=
  ∑ i ∈ Finset.range sys.taskCnt,
    ((sys.task i).duration : ℚ) / ((sys.task i).period : ℚ)

/-- Work that fits on average fits into every window. -/
theorem whole_jobs_fit (h : sys.utilization ≤ 1) (L : Nat) :
    ∑ i ∈ Finset.range sys.taskCnt,
      (sys.params i).duration * (L / (sys.params i).period) ≤ L := by
  have hterm : ∀ i ∈ Finset.range sys.taskCnt,
      (((sys.params i).duration * (L / (sys.params i).period) : Nat) : ℚ) ≤
        ((sys.task i).duration : ℚ) / ((sys.task i).period : ℚ) * (L : ℚ) := by
    intro i _
    have hdiv : ((L / (sys.params i).period : Nat) : ℚ) ≤
        (L : ℚ) / ((sys.task i).period : ℚ) := Nat.cast_div_le
    push_cast
    calc ((sys.params i).duration : ℚ) * ((L / (sys.params i).period : Nat) : ℚ)
        ≤ ((sys.task i).duration : ℚ) * ((L : ℚ) / ((sys.task i).period : ℚ)) :=
          mul_le_mul_of_nonneg_left hdiv (Nat.cast_nonneg _)
      _ = ((sys.task i).duration : ℚ) / ((sys.task i).period : ℚ) * (L : ℚ) := by
          ring
  have hsum := Finset.sum_le_sum hterm
  rw [← Finset.sum_mul, ← Nat.cast_sum] at hsum
  have hload : sys.utilization * (L : ℚ) ≤ (L : ℚ) :=
    mul_le_of_le_one_left (Nat.cast_nonneg L) h
  exact_mod_cast le_trans hsum hload

theorem edf_not_late (halg : sys.alg = .edf) (h : sys.utilization ≤ 1)
    (ht : t < sys.hiperperiod) (hi : i < sys.taskCnt) : ¬ sys.lateAt i t := by
  have hkeys : sys.KeysFit := fun hb => by
    rw [halg] at hb
    exact Algorithm.noConfusion hb
  refine not_late_of_demand hkeys ht
    (fun i L => (sys.params i).duration * (L / (sys.params i).period))
    (fun L _ _ => whole_jobs_fit h L) ?_ hi (Or.inl halg)
  intro i _ t₀ _ d _ _
  exact Nat.mul_le_mul_left _ (Nat.le_trans (Nat.count_le _)
    (windowCount_le_div (sys.params i).period_pos))

/-- When nobody is late in a tick, `killTasks` leaves everything as it is. -/
theorem TickStates.untouched {st st₁ st₂ st₃ : State}
    (h : TickStates sys t st st₁ st₂ st₃) (ht : t < sys.hiperperiod)
    (hlate : ∀ i < sys.taskCnt, ¬ sys.lateAt i t) : Untouched st₁ st₂ := by
  rw [h.killTasks]
  refine killTasks_untouched h.charged.shape ht fun x hx => ?_
  have hlt := h.charged.shape.lt_of_ready hx
  rw [Bool.eq_false_iff]
  intro hh
  rw [hopeless_iff h.charged.shape ht hlt, h.charged.job x hlt] at hh
  exact hlate x hlt ⟨(h.charged.mem_ready_iff hlt).mp hx, hh⟩

/-- EDF schedules every task set whose utilisation is at most one. -/
theorem edf_schedulable (sys : ClosedSystem) (halg : sys.alg = .edf)
    (h : sys.utilization ≤ 1) :
    (∀ t, t + 1 < sys.hiperperiod → ∃ st₁ st₂,
      sys.afterCharge t = .ok st₁ ∧ sys.afterKill t = .ok st₂ ∧
      Untouched st₁ st₂) ∧
    ∃ st, sys.run sys.hiperperiod = .error (.exit st) ∧
      st.sim.weaklyHard = 1 ∧
      ∀ i < sys.taskCnt, ∀ k < sys.hiperperiod / (sys.task i).period,
        (st.sim.taskSet i).report k = true := by
  constructor
  · intro t ht
    obtain ⟨st, st₁, st₂, st₃, hs⟩ := tick_states sys (show t < _ by omega)
    exact ⟨st₁, st₂, hs.afterCharge, hs.afterKill, hs.untouched (by omega)
      fun i hi => edf_not_late halg h (by omega) hi⟩
  · obtain ⟨st, hrun, hfin⟩ := run_exits sys
    refine ⟨st, hrun, ?_, fun i hi k hk => ?_⟩
    · rw [hfin.flagIff]
      intro u hu i hi hbreak
      exact edf_not_late halg h (by omega) hi hbreak.1
    · rw [hfin.report i hi]
      refine row_of_never_late hk ?_ fun v hv _ => edf_not_late halg h hv hi
      rw [released_row_iff hk, halg]
      exact fun hc => Algorithm.noConfusion hc.1

/-- The two tasks ask for all of the processor: `2 / 4 + 1 / 2`. -/
theorem edf_schedulable_twoTasks :
    (∀ t, t + 1 < 4 → ∃ st₁ st₂, (twoTasks .edf).afterCharge t = .ok st₁ ∧
      (twoTasks .edf).afterKill t = .ok st₂ ∧ Untouched st₁ st₂) ∧
    ∃ st, (twoTasks .edf).run 4 = .error (.exit st) ∧
      st.sim.weaklyHard = 1 ∧
      ∀ i < 2, ∀ k < 4 / ((twoTasks .edf).task i).period,
        (st.sim.taskSet i).report k = true :=
  edf_schedulable (twoTasks .edf) rfl (by decide +kernel)

end FreeRtosSim
