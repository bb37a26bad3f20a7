import Mathlib.Data.Rat.Cast.Order
import Mathlib.Algebra.Order.Field.Basic
import Mathlib.Tactic.Linarith
import FreeRtosSim.Lib.Fold
import FreeRtosSim.Proofs.Broken
import FreeRtosSim.Proofs.Conserved
import FreeRtosSim.Sim.Generator
import FreeRtosSim.Sim.Summary

/-!
# The line of the report adds up

At the exit every job is over or cut off by it. The reports count the met
ones, `times_killed` the killed ones; the rest were left out by RTO or are on
the ready list when the process ends. So the missed deadlines the line
reports are these three kinds together, and the qualities of service are
shares of one: the broken periods are some of the missed ones.
-/

namespace FreeRtosSim

variable {sys : ClosedSystem} {st : State} {i : Nat}

/-- The state `exit_function` is called in. -/
theorem exit_stage (sys : ClosedSystem) : ∃ st,
    Stage sys sys.hiperperiod
      (fun i => sys.accountedAt i (sys.hiperperiod - 1)) st ∧
    sys.run sys.hiperperiod = exitFunction st := by
  have hpos := sys.hiperperiod_pos
  obtain ⟨st, hrun, h⟩ := run_follows sys
    (show sys.hiperperiod - 1 < sys.hiperperiod by omega)
  have hlast : sys.hiperperiod - 1 + 1 = sys.hiperperiod := by omega
  have hexit := run_exit_eq hrun h (by omega) hlast
  obtain ⟨hs, -⟩ := charged_stage hrun h (by omega)
  rw [hlast] at hexit hs
  exact ⟨_, hs, hexit⟩

theorem foldl_count (p : Nat → Prop) [DecidablePred p] (n : Nat) :
    (List.range n).foldl (fun cnt j => if p j then cnt + 1 else cnt) 0 =
      Nat.count p n := by
  induction n with
  | zero => rfl
  | succ n ih =>
      rw [List.range_succ, List.foldl_append, ih, Nat.count_succ]
      simp only [List.foldl_cons, List.foldl_nil]
      split <;> rfl

theorem countMissed_eq (e : PeriodicTask) :
    Simulator.countMissed e = missCount e.report e.numOfPeriods :=
  foldl_count (fun j => e.report j = false) e.numOfPeriods

theorem countBroken_le (e : PeriodicTask) :
    Simulator.countBroken e ≤ Simulator.countMissed e := by
  rw [Simulator.countBroken, foldl_countBrokenStep, countMissed_eq]
  exact Nat.count_mono_left fun k _ h => h.1

section Exit

variable (hs : Stage sys sys.hiperperiod
  (fun i => sys.accountedAt i (sys.hiperperiod - 1)) st)

include hs

/-- The periods of a task that are over at the exit: met, killed, left out or
cut off. -/
theorem Stage.account (hi : i < sys.taskCnt) :
    Simulator.countMissed (st.sim.taskSet i) =
      (st.sim.taskSet i).timesKilled +
        sys.skippedCount i (st.sim.taskSet i).numOfPeriods +
        if i ∈ st.items (.ready 1) then 1 else 0 := by
  have hpos := sys.hiperperiod_pos
  obtain ⟨hlast, hdiv, -⟩ := last_period hi
  have hN : (st.sim.taskSet i).numOfPeriods =
      sys.hiperperiod / (sys.params i).period :=
    (hs.shape.entry i hi).numOfPeriods
  have hreport : (st.sim.taskSet i).report =
      (sys.accountedAt i (sys.hiperperiod - 1)).report :=
    congrArg Job.report (hs.job i hi)
  have hkilled : (st.sim.taskSet i).timesKilled =
      (sys.accountedAt i (sys.hiperperiod - 1)).killed :=
    congrArg Job.killed (hs.job i hi)
  have htally : (sys.accountedAt i (sys.hiperperiod - 1)).Tally
      ((sys.hiperperiod - 1) / (sys.params i).period)
      (leftOutCount sys.alg (sys.params i) (sys.running i)
        ((sys.hiperperiod - 1) / (sys.params i).period + 1)) :=
    (tally_jobAt sys.alg (sys.params i) (sys.running i) _).account
      (sys.fitsAt i (sys.hiperperiod - 1))
  rw [Job.Tally, ← skippedCount_eq hi (by omega), hdiv] at htally
  have hsucc : sys.hiperperiod / (sys.params i).period - 1 + 1 =
      sys.hiperperiod / (sys.params i).period := by omega
  have hsum := metCount_add_missCount (st.sim.taskSet i).report
    (sys.hiperperiod / (sys.params i).period)
  rw [countMissed_eq, hN, hkilled]
  rw [hsucc] at htally
  rw [hreport] at hsum ⊢
  simp only [hs.mem_ready_iff hi]
  unfold Job.judged at htally
  split at htally
  · next hr =>
      rw [if_pos hr]
      omega
  · next hr =>
      rw [if_neg hr]
      omega

/-- One task is cut off for every entry of the ready list. -/
theorem Stage.length_ready : (st.items (.ready 1)).length =
    ∑ i ∈ Finset.range sys.taskCnt,
      if i ∈ st.items (.ready 1) then 1 else 0 := by
  have hnd : (st.items (.ready 1)).Nodup :=
    (List.nodup_append.mp hs.shape.nodup).1
  rw [← List.toFinset_card_of_nodup hnd, ← Finset.card_filter]
  congr 1
  ext i
  simp only [List.mem_toFinset, Finset.mem_filter, Finset.mem_range]
  exact ⟨fun hi => ⟨hs.shape.lt_of_ready hi, hi⟩, And.right⟩

theorem Stage.numOfPeriods_pos (hi : i < sys.taskCnt) :
    0 < (st.sim.taskSet i).numOfPeriods := by
  rw [(hs.shape.entry i hi).numOfPeriods]
  exact Nat.zero_lt_of_lt (last_period hi).1

theorem Stage.numOfPeriods_le (hH : (sys.hiperperiod : Int) < maxHiperperiod)
    (hi : i < sys.taskCnt) :
    (st.sim.taskSet i).numOfPeriods ≤ maxPeriodCnt := by
  rw [(hs.shape.entry i hi).numOfPeriods]
  have hle := Nat.div_le_self sys.hiperperiod (sys.task i).period
  have hmax : maxHiperperiod = 10000 := rfl
  have hcnt : maxPeriodCnt = 10000 := rfl
  omega

end Exit

/-! ## The sums -/

namespace Simulator

/-- The simulator's side when the line is written. -/
def counted (sim : Simulator) : Simulator :=
  sim.countMissedDeadlines.countWeaklyHardBroken

variable (sim : Simulator)

theorem counted_taskCnt : sim.counted.taskCnt = sim.taskCnt := by
  simp only [counted, countMissedDeadlines, countWeaklyHardBroken,
    forEachTask_eq]

theorem counted_entry (hi : i < sim.taskCnt) : sim.counted.taskSet i =
    { sim.taskSet i with
      missedDeadlines := countMissed (sim.taskSet i)
      weaklyHardBroken := countBroken (sim.taskSet i) } := by
  simp only [counted, countMissedDeadlines, countWeaklyHardBroken,
    forEachTask_eq, if_pos hi]
  rfl

theorem counted_missed : sim.counted.sumOfMissedDeadlines =
    ∑ i ∈ Finset.range sim.taskCnt, countMissed (sim.taskSet i) := by
  rw [sumOfMissedDeadlines, counted_taskCnt, foldl_add_eq_sum]
  refine Finset.sum_congr rfl fun i hi => ?_
  rw [counted_entry sim (Finset.mem_range.mp hi)]

theorem counted_broken : sim.counted.sumOfWeaklyHardBroken =
    ∑ i ∈ Finset.range sim.taskCnt, countBroken (sim.taskSet i) := by
  rw [sumOfWeaklyHardBroken, counted_taskCnt, foldl_add_eq_sum]
  refine Finset.sum_congr rfl fun i hi => ?_
  rw [counted_entry sim (Finset.mem_range.mp hi)]

theorem counted_killed : sim.counted.sumOfKilledTasks =
    ∑ i ∈ Finset.range sim.taskCnt, (sim.taskSet i).timesKilled := by
  rw [sumOfKilledTasks, counted_taskCnt, foldl_add_eq_sum]
  refine Finset.sum_congr rfl fun i hi => ?_
  rw [counted_entry sim (Finset.mem_range.mp hi)]

theorem counted_all : sim.counted.sumOfAllTaskNum =
    ∑ i ∈ Finset.range sim.taskCnt, (sim.taskSet i).numOfPeriods := by
  rw [sumOfAllTaskNum, counted_taskCnt, foldl_add_eq_sum]
  refine Finset.sum_congr rfl fun i hi => ?_
  rw [counted_entry sim (Finset.mem_range.mp hi)]

end Simulator

theorem countMissed_le (e : PeriodicTask) :
    Simulator.countMissed e ≤ e.numOfPeriods := by
  rw [countMissed_eq]
  exact Nat.count_le _

theorem sumOfBroken_le (sim : Simulator) :
    sim.counted.sumOfWeaklyHardBroken ≤ sim.counted.sumOfMissedDeadlines := by
  rw [Simulator.counted_broken, Simulator.counted_missed]
  exact Finset.sum_le_sum fun i _ => countBroken_le _

theorem sumOfMissed_le (sim : Simulator) :
    sim.counted.sumOfMissedDeadlines ≤ sim.counted.sumOfAllTaskNum := by
  rw [Simulator.counted_missed, Simulator.counted_all]
  exact Finset.sum_le_sum fun i _ => countMissed_le _

/-! ## The qualities of service -/

namespace Simulator

variable {sim : Simulator}

theorem calculateQoS_nonneg
    (hle : sim.sumOfMissedDeadlines ≤ sim.sumOfAllTaskNum) :
    0 ≤ sim.calculateQoS := by
  have hQ : (sim.sumOfMissedDeadlines : ℚ) ≤ (sim.sumOfAllTaskNum : ℚ) := by
    exact_mod_cast hle
  exact div_nonneg (sub_nonneg.mpr hQ) (Nat.cast_nonneg _)

/-- Missing more is the lower quality. -/
theorem calculateQoS_le
    (hle : sim.sumOfWeaklyHardBroken ≤ sim.sumOfMissedDeadlines) :
    sim.calculateQoS ≤ sim.calculateQoS2 := by
  have hQ : (sim.sumOfWeaklyHardBroken : ℚ) ≤ (sim.sumOfMissedDeadlines : ℚ) := by
    exact_mod_cast hle
  exact div_le_div_of_nonneg_right (sub_le_sub_left hQ _) (Nat.cast_nonneg _)

theorem calculateQoS2_add (hpos : 0 < sim.sumOfAllTaskNum) :
    sim.calculateQoS2 + sim.calculateQoS3 = 1 := by
  have hne : (sim.sumOfAllTaskNum : ℚ) ≠ 0 := by
    exact_mod_cast Nat.pos_iff_ne_zero.mp hpos
  simp only [calculateQoS2, calculateQoS3]
  rw [← add_div, sub_add_cancel, div_self hne]

theorem calculateQoS3_nonneg (sim : Simulator) : 0 ≤ sim.calculateQoS3 :=
  div_nonneg (Nat.cast_nonneg _) (Nat.cast_nonneg _)

theorem calculateQoS_eq_one_iff (hpos : 0 < sim.sumOfAllTaskNum) :
    sim.calculateQoS = 1 ↔ sim.sumOfMissedDeadlines = 0 := by
  have hne : (sim.sumOfAllTaskNum : ℚ) ≠ 0 := by
    exact_mod_cast Nat.pos_iff_ne_zero.mp hpos
  simp only [calculateQoS]
  rw [div_eq_one_iff_eq hne, sub_eq_self, Nat.cast_eq_zero]

end Simulator

/-! ## The line -/

section Line

variable (hs : Stage sys sys.hiperperiod
  (fun i => sys.accountedAt i (sys.hiperperiod - 1)) st)

include hs

/-- What was missed was killed, left out or cut off. -/
theorem Stage.sumOfMissed : st.sim.counted.sumOfMissedDeadlines =
    st.sim.counted.sumOfKilledTasks +
      ∑ i ∈ Finset.range sys.taskCnt,
        sys.skippedCount i (st.sim.taskSet i).numOfPeriods +
      (st.items (.ready 1)).length := by
  rw [Simulator.counted_missed, Simulator.counted_killed, hs.shape.simCnt,
    hs.length_ready, ← Finset.sum_add_distrib, ← Finset.sum_add_distrib]
  exact Finset.sum_congr rfl fun i hi => hs.account (Finset.mem_range.mp hi)

theorem Stage.sumOfAll_pos : 0 < st.sim.counted.sumOfAllTaskNum := by
  rw [Simulator.counted_all, hs.shape.simCnt]
  exact Finset.sum_pos
    (fun i hi => hs.numOfPeriods_pos (Finset.mem_range.mp hi))
    (Finset.nonempty_range_iff.mpr (Nat.pos_iff_ne_zero.mp sys.tasks_pos))

theorem Stage.sumOfAll_le (hH : (sys.hiperperiod : Int) < maxHiperperiod) :
    st.sim.counted.sumOfAllTaskNum ≤ maxTaskCnt * maxPeriodCnt := by
  rw [Simulator.counted_all, hs.shape.simCnt]
  refine Nat.le_trans (Finset.sum_le_card_nsmul _ _ maxPeriodCnt
    fun i hi => hs.numOfPeriods_le hH (Finset.mem_range.mp hi)) ?_
  rw [Finset.card_range, nsmul_eq_mul, Nat.cast_id]
  exact Nat.mul_le_mul_right _ sys.tasks_le

end Line

/-- The line a run ends with adds up: every missed deadline is a killed job,
one RTO left out, or one the exit cut off, and the qualities of service are
the shares they are said to be. The sums fit an `int`. -/
theorem report_line_adds_up (sys : ClosedSystem)
    (hH : (sys.hiperperiod : Int) < maxHiperperiod) (totalUtilization : ℚ) :
    ∃ st, sys.run sys.hiperperiod = .error (.exit st) ∧
      let line := writeReportInFile totalUtilization st.sim
      let skipped := fun i => sys.skippedCount i (st.sim.taskSet i).numOfPeriods
      line.sumOfMissedDeadlines = st.sim.sumOfKilledTasks +
        ∑ i ∈ Finset.range sys.taskCnt, skipped i +
        (st.items (.ready 1)).length ∧
      line.missedDeadlines = (List.range sys.taskCnt).map (fun i =>
        (st.sim.taskSet i).timesKilled + skipped i +
          if i ∈ st.items (.ready 1) then 1 else 0) ∧
      line.sumOfWeaklyHardBroken ≤ line.sumOfMissedDeadlines ∧
      line.sumOfMissedDeadlines ≤ st.sim.sumOfAllTaskNum ∧
      st.sim.sumOfAllTaskNum ≤ maxTaskCnt * maxPeriodCnt ∧
      0 ≤ line.qoS ∧ line.qoS ≤ line.qoS2 ∧ line.qoS2 ≤ 1 ∧
      line.qoS2 + line.qoS3 = 1 ∧
      (line.qoS = 1 ↔ st.sim.sumOfKilledTasks = 0 ∧
        (∀ i < sys.taskCnt, skipped i = 0) ∧ st.items (.ready 1) = []) := by
  obtain ⟨st, hs, hexit⟩ := exit_stage sys
  refine ⟨{ st with sim := st.sim.counted }, hexit, ?_⟩
  have hper : ∀ i < sys.taskCnt, (st.sim.counted.taskSet i).numOfPeriods =
      (st.sim.taskSet i).numOfPeriods := fun i hi => by
    rw [Simulator.counted_entry _ (hs.shape.simCnt.symm ▸ hi)]
  have hskipped : ∑ i ∈ Finset.range sys.taskCnt,
      sys.skippedCount i (st.sim.counted.taskSet i).numOfPeriods =
      ∑ i ∈ Finset.range sys.taskCnt,
        sys.skippedCount i (st.sim.taskSet i).numOfPeriods :=
    Finset.sum_congr rfl fun i hi => by rw [hper i (Finset.mem_range.mp hi)]
  have hpos := hs.sumOfAll_pos
  have hadd := Simulator.calculateQoS2_add hpos
  have hnonneg := Simulator.calculateQoS3_nonneg st.sim.counted
  have hsum := hs.sumOfMissed
  refine ⟨?_, ?_, sumOfBroken_le _, sumOfMissed_le _, hs.sumOfAll_le hH,
    Simulator.calculateQoS_nonneg (sumOfMissed_le _),
    Simulator.calculateQoS_le (sumOfBroken_le _), ?_, hadd, ?_⟩
  · show st.sim.counted.sumOfMissedDeadlines = st.sim.counted.sumOfKilledTasks +
      ∑ i ∈ Finset.range sys.taskCnt,
        sys.skippedCount i (st.sim.counted.taskSet i).numOfPeriods +
      (st.items (.ready 1)).length
    rw [hskipped]
    exact hsum
  · show (List.range st.sim.counted.taskCnt).map _ = _
    rw [Simulator.counted_taskCnt, hs.shape.simCnt]
    refine List.map_congr_left fun i hi => ?_
    have hi := List.mem_range.mp hi
    show (st.sim.counted.taskSet i).missedDeadlines =
      (st.sim.counted.taskSet i).timesKilled +
        sys.skippedCount i (st.sim.counted.taskSet i).numOfPeriods +
        if i ∈ st.items (.ready 1) then 1 else 0
    rw [Simulator.counted_entry _ (hs.shape.simCnt.symm ▸ hi)]
    exact hs.account hi
  · show st.sim.counted.calculateQoS2 ≤ 1
    linarith
  · show st.sim.counted.calculateQoS = 1 ↔ st.sim.counted.sumOfKilledTasks = 0 ∧
      (∀ i < sys.taskCnt,
        sys.skippedCount i (st.sim.counted.taskSet i).numOfPeriods = 0) ∧
      st.items (.ready 1) = []
    rw [Simulator.calculateQoS_eq_one_iff hpos, hsum, Nat.add_eq_zero_iff,
      Nat.add_eq_zero_iff, List.length_eq_zero_iff, Finset.sum_eq_zero_iff,
      and_assoc]
    refine and_congr_right fun _ => and_congr_left fun _ => ?_
    exact forall_congr' fun i => ⟨fun h hi => by
        rw [hper i hi]
        exact h (Finset.mem_range.mpr hi), fun h hi => by
        rw [← hper i (Finset.mem_range.mp hi)]
        exact h (Finset.mem_range.mp hi)⟩

/-- Under RTO the second task leaves out every other job. -/
theorem report_line_adds_up_twoTasks :
    ∃ st, (twoTasks .rto).run 4 = .error (.exit st) ∧
      let line := writeReportInFile 1 st.sim
      let skipped := fun i =>
        (twoTasks .rto).skippedCount i (st.sim.taskSet i).numOfPeriods
      line.sumOfMissedDeadlines = st.sim.sumOfKilledTasks +
        ∑ i ∈ Finset.range 2, skipped i + (st.items (.ready 1)).length ∧
      line.missedDeadlines = (List.range 2).map (fun i =>
        (st.sim.taskSet i).timesKilled + skipped i +
          if i ∈ st.items (.ready 1) then 1 else 0) ∧
      line.sumOfWeaklyHardBroken ≤ line.sumOfMissedDeadlines ∧
      line.sumOfMissedDeadlines ≤ st.sim.sumOfAllTaskNum ∧
      st.sim.sumOfAllTaskNum ≤ maxTaskCnt * maxPeriodCnt ∧
      0 ≤ line.qoS ∧ line.qoS ≤ line.qoS2 ∧ line.qoS2 ≤ 1 ∧
      line.qoS2 + line.qoS3 = 1 ∧
      (line.qoS = 1 ↔ st.sim.sumOfKilledTasks = 0 ∧
        (∀ i < 2, skipped i = 0) ∧ st.items (.ready 1) = []) :=
  report_line_adds_up (twoTasks .rto) (by decide) 1

end FreeRtosSim
