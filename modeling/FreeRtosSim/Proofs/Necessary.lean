import Mathlib.Algebra.BigOperators.Ring.Finset
import Mathlib.Tactic.Ring
import FreeRtosSim.Job.Work
import FreeRtosSim.Lib.Backlog
import FreeRtosSim.Proofs.Refine
import FreeRtosSim.Sim.Admission

/-!
# The necessary test is necessary

One processor: the ticks charged to different tasks are different ticks, so
the met periods of all tasks together cannot stand for more than the ticks
that have passed. A report in which every miss respects its constraint has
at least `N - N / s` met periods, which is what the test adds up.
-/

namespace FreeRtosSim

variable {sys : ClosedSystem} {t : Nat}

/-- Only one task is charged a tick. -/
theorem running_unique {i j : Nat} (hi : sys.running i t = true)
    (hj : sys.running j t = true) : i = j := by
  cases hrun : sys.run t with
  | ok st =>
      rw [running_iff hrun] at hi hj
      rw [hi] at hj
      injection hj
  | error e =>
      rw [ClosedSystem.running, hrun] at hi
      exact Bool.noConfusion hi

theorem sum_work_le (sys : ClosedSystem) (t : Nat) :
    ∑ i ∈ Finset.range sys.taskCnt,
      workAt sys.alg (sys.params i) (sys.running i) t ≤ t :=
  sum_count_le _ (fun _ _ _ _ _ hi hj => running_unique hi.1 hj.1) t

/-- The met periods reported up to tick `t + 1` are paid for by its ticks. -/
theorem sum_metCount_le (sys : ClosedSystem) (K : Nat → Nat) (t : Nat) :
    ∑ i ∈ Finset.range sys.taskCnt, (sys.params i).duration *
      metCount (sys.accountedAt i t).report (K i) ≤ t + 1 := by
  refine Nat.le_trans (Finset.sum_le_sum fun i _ => ?_) (sum_work_le sys (t + 1))
  exact work_accounted sys.alg (sys.params i) (sys.running i) (K i) t

/-- The missed period `k` breaks the constraint `s`: the task is hard, or
fewer than `s - 1` periods were met since the last miss. -/
def breaksRow (s : Nat) (row : Nat → Bool) (k : Nat) : Prop :=
  row k = false ∧ (s = 0 ∨ streak row k < s - 1)

/-- A row without broken periods has its share of met ones. -/
theorem mul_metCount_ge {s N : Nat} {row : Nat → Bool} (hs : s ≠ 0)
    (h : ∀ k < N, ¬ breaksRow s row k) : (s - 1) * N ≤ metCount row N * s := by
  have hmiss : ∀ k < N, row k = false → s ≤ streak row k + 1 := by
    intro k hk hrow
    by_contra hlt
    exact h k hk ⟨hrow, Or.inr (by omega)⟩
  have hle := missCount_mul_add_streak_le hmiss
  have hsum := metCount_add_missCount row N
  obtain ⟨r, rfl⟩ : ∃ r, s = r + 1 := ⟨s - 1, by omega⟩
  have hmul : (metCount row N + missCount row N) * (r + 1) = N * (r + 1) := by
    rw [hsum]
  rw [Nat.add_mul, Nat.mul_add N, Nat.mul_one] at hmul
  rw [Nat.add_sub_cancel, Nat.mul_comm r N]
  omega

theorem metCount_of_hard {N : Nat} {row : Nat → Bool}
    (h : ∀ k < N, ¬ breaksRow 0 row k) : metCount row N = N := by
  have hall : ∀ k < N, row k = true := by
    intro k hk
    by_contra hrow
    exact h k hk ⟨by simpa using hrow, Or.inl rfl⟩
  rw [metCount, Nat.count_iff_forall]
  exact hall

/-- The load the test adds up for a task, over a whole hyperperiod. -/
theorem nesseryTerm_mul_le {p : TaskParams} {H : Nat} {row : Nat → Bool}
    {e : PeriodicTask} (he : Entry p H e) (hlt : p.period < 2 ^ 31)
    (hdvd : p.period ∣ H)
    (h : ∀ k < H / p.period, ¬ breaksRow p.weaklyHardConstraint row k) :
    nesseryTerm e * (H : ℚ) ≤
      ((p.duration * metCount row (H / p.period) : Nat) : ℚ) := by
  obtain ⟨N, rfl⟩ := hdvd
  have hpos : 0 < p.period := Nat.lt_of_lt_of_le p.duration_pos p.duration_le
  have hP : (0 : ℚ) < (p.period : ℚ) := by exact_mod_cast hpos
  have hC : (0 : ℚ) ≤ (p.duration : ℚ) := by exact_mod_cast Nat.zero_le _
  rw [Nat.mul_div_cancel_left N hpos] at h ⊢
  have hper : e.getTaskPeriod = p.period := by
    rw [PeriodicTask.getTaskPeriod, he.period, intOfTick_of_lt hlt]
  have hdur : e.getTaskDuration = p.duration := by
    rw [PeriodicTask.getTaskDuration, he.duration,
      intOfTick_of_lt (Nat.lt_of_le_of_lt p.duration_le hlt)]
  unfold nesseryTerm
  rw [he.constraint, hdur, hper, Int.cast_natCast, Int.cast_natCast]
  by_cases hs : p.weaklyHardConstraint = 0
  · rw [hs] at h
    rw [if_neg (by simp [hs]), metCount_of_hard h]
    push_cast
    rw [div_mul_eq_mul_div, div_le_iff₀ hP]
    exact le_of_eq (by ring)
  · have hS : (0 : ℚ) < (p.weaklyHardConstraint : ℚ) := by
      exact_mod_cast Nat.pos_of_ne_zero hs
    have hge := mul_metCount_ge hs h
    have hgeQ : ((p.weaklyHardConstraint : ℚ) - 1) * (N : ℚ) ≤
        (metCount row N : ℚ) * (p.weaklyHardConstraint : ℚ) := by
      have hcast : ((p.weaklyHardConstraint - 1 : Nat) : ℚ) =
          (p.weaklyHardConstraint : ℚ) - 1 := by
        rw [Nat.cast_sub (Nat.pos_of_ne_zero hs), Nat.cast_one]
      rw [← hcast]
      exact_mod_cast hge
    rw [if_pos hs]
    push_cast
    rw [div_mul_eq_mul_div, div_le_iff₀ (mul_pos hP hS)]
    calc (p.duration : ℚ) * ((p.weaklyHardConstraint : ℚ) - 1) *
          ((p.period : ℚ) * (N : ℚ))
        = ((p.duration : ℚ) * (p.period : ℚ)) *
            (((p.weaklyHardConstraint : ℚ) - 1) * (N : ℚ)) := by ring
      _ ≤ ((p.duration : ℚ) * (p.period : ℚ)) *
            ((metCount row N : ℚ) * (p.weaklyHardConstraint : ℚ)) :=
          mul_le_mul_of_nonneg_left hgeQ (mul_nonneg hC (le_of_lt hP))
      _ = (p.duration : ℚ) * (metCount row N : ℚ) *
            ((p.period : ℚ) * (p.weaklyHardConstraint : ℚ)) := by ring

/-- A task set the necessary test rejects breaks a constraint by the end of
its run, whatever the algorithm. -/
theorem nessery_condition_necessary (sys : ClosedSystem)
    (h : checkNesseryCondition sys.simulator = 0) :
    ∃ st, sys.run sys.hiperperiod = .error (.exit st) ∧
      ∃ i < sys.taskCnt, ∃ k < (st.sim.taskSet i).numOfPeriods,
        breaksRow (sys.task i).weaklyHardConstraint (st.sim.taskSet i).report k := by
  obtain ⟨st, hrun, hfin⟩ := run_exits sys
  refine ⟨st, hrun, ?_⟩
  by_contra hcon
  push Not at hcon
  have hpos := sys.hiperperiod_pos
  have hwork := sum_metCount_le sys (fun i => sys.hiperperiod / (sys.task i).period)
    (sys.hiperperiod - 1)
  rw [show sys.hiperperiod - 1 + 1 = sys.hiperperiod by omega] at hwork
  have hload : (∑ i ∈ Finset.range sys.taskCnt,
      nesseryTerm (sys.simulator.taskSet i)) * (sys.hiperperiod : ℚ) ≤
      (sys.hiperperiod : ℚ) := by
    have hQ : ((∑ i ∈ Finset.range sys.taskCnt, (sys.params i).duration *
        metCount (sys.accountedAt i (sys.hiperperiod - 1)).report
          (sys.hiperperiod / (sys.task i).period) : Nat) : ℚ) ≤
        (sys.hiperperiod : ℚ) := by exact_mod_cast hwork
    refine le_trans ?_ hQ
    rw [Finset.sum_mul, Nat.cast_sum]
    refine Finset.sum_le_sum fun i hi => ?_
    have hi := Finset.mem_range.mp hi
    have hentry : Entry (sys.task i) sys.hiperperiod (sys.simulator.taskSet i) := by
      rw [simulator_entry hi]
      exact ⟨rfl, rfl, rfl, rfl⟩
    have hlt := Nat.lt_of_le_of_lt (sys.params_period_le hi) sys.hiperperiod_lt
    refine nesseryTerm_mul_le hentry hlt (sys.params_period_dvd hi) fun k hk => ?_
    have := hcon i hi k (by rw [(hfin.entry i hi).numOfPeriods]; exact hk)
    rwa [hfin.report i hi] at this
  rw [checkNesseryCondition_eq_zero_iff, simulator_taskCnt] at h
  have hH : (0 : ℚ) < (sys.hiperperiod : ℚ) := by exact_mod_cast hpos
  exact absurd h (not_lt.mpr (le_of_mul_le_mul_right (by rwa [one_mul]) hH))

theorem nessery_condition_necessary_twoFullTasks :
    ∃ st, (twoFullTasks .bwp).run 2 = .error (.exit st) ∧
      ∃ i < 2, ∃ k < (st.sim.taskSet i).numOfPeriods,
        breaksRow ((twoFullTasks .bwp).task i).weaklyHardConstraint
          (st.sim.taskSet i).report k :=
  nessery_condition_necessary (twoFullTasks .bwp) (by decide +kernel)

end FreeRtosSim
