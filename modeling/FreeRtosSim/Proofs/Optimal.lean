import FreeRtosSim.Proofs.Charged
import FreeRtosSim.Proofs.Edf
import FreeRtosSim.Proofs.Necessary
import FreeRtosSim.Proofs.Sufficient
import FreeRtosSim.Proofs.Summed

/-!
# What the ticks of a run are spent on

Every tick belongs to one task, the idle task included, and the idle task has
it only when no job is ready. So at the exit the idle ticks are those the task
set leaves over, and the ones it should have used but did not: a job that
missed its deadline left some of its ticks to nobody. Where all deadlines are
met nothing of that kind is left, so the utilisation is at most one, and then
EDF meets them too.
-/

namespace FreeRtosSim

variable {sys : ClosedSystem} {t : Nat} {st : State} {i k : Nat}

namespace ClosedSystem

variable (sys : ClosedSystem)

/-- The idle task runs on entry to tick `t + 1`. -/
abbrev idleAt (t : Nat) : Bool := sys.running sys.taskCnt t

/-- The ticks of its period `k` in which task `i` runs. -/
def ticksOf (i k : Nat) : Nat :=
  Nat.count (fun v => sys.running i (k * (sys.task i).period + v) = true)
    (sys.task i).period

/-- The ticks that job `k` of task `i` asked for and did not get. -/
def unserved (i k : Nat) : Nat := (sys.task i).duration - sys.ticksOf i k

/-- The run ends with every deadline met. -/
def MeetsAll : Prop :=
  ∃ st, sys.run sys.hiperperiod = .error (.exit st) ∧
    ∀ i < sys.taskCnt, ∀ k < (st.sim.taskSet i).numOfPeriods,
      (st.sim.taskSet i).report k = true

end ClosedSystem

/-! ## Whose tick it is -/

theorem idleAt_iff (hrun : sys.run t = .ok st) (h : Follows sys t st) :
    sys.idleAt t = true ↔ st.items (.ready 1) = [] := by
  rw [running_iff hrun, h.current, Option.some_inj]
  rcases headOrIdle_cases h with ⟨hmem, hlt⟩ | ⟨hnil, hidle⟩
  · refine ⟨fun heq => absurd heq (Nat.ne_of_lt hlt), fun hnil => ?_⟩
    rw [hnil] at hmem
    exact absurd hmem List.not_mem_nil
  · exact iff_of_true hidle hnil

/-- One task has the tick. -/
theorem one_runs (ht : t < sys.hiperperiod) :
    ∃ i ∈ Finset.range (sys.taskCnt + 1), ∀ j ∈ Finset.range (sys.taskCnt + 1),
      sys.running j t = true ↔ j = i := by
  obtain ⟨st, hrun, h⟩ := run_follows sys ht
  have hle : headOrIdle sys st < sys.taskCnt + 1 := by
    rcases headOrIdle_cases h with ⟨-, hlt⟩ | ⟨-, hidle⟩
    · exact Nat.lt_succ_of_lt hlt
    · exact Nat.lt_succ_of_le (Nat.le_of_eq hidle)
  refine ⟨headOrIdle sys st, Finset.mem_range.mpr hle, fun j _ => ?_⟩
  rw [running_iff hrun, h.current, Option.some_inj, eq_comm]

theorem ticks_shared (ht : t ≤ sys.hiperperiod) :
    ∑ i ∈ Finset.range sys.taskCnt,
        Nat.count (fun u => sys.running i u = true) t +
      Nat.count (fun u => sys.idleAt u = true) t = t := by
  rw [← Finset.sum_range_succ
    (fun i => Nat.count (fun u => sys.running i u = true) t)]
  exact sum_count_eq _ fun u hu => one_runs (by omega)

/-! ## The ticks of a job -/

theorem period_mul (hi : i < sys.taskCnt) :
    sys.hiperperiod / (sys.task i).period * (sys.task i).period =
      sys.hiperperiod := Nat.div_mul_cancel (sys.params_period_dvd hi)

theorem ticksOf_add_unserved (hi : i < sys.taskCnt)
    (hk : k < sys.hiperperiod / (sys.params i).period) :
    sys.ticksOf i k + sys.unserved i k = (sys.task i).duration ∧
    (sys.row i k = true ↔ sys.unserved i k = 0) := by
  have hiff : sys.row i k = true ↔ sys.ticksOf i k = (sys.task i).duration :=
    (row_iff_charges hi hk).1
  have hle : sys.ticksOf i k ≤ (sys.task i).duration := (row_iff_charges hi hk).2
  rw [hiff, ClosedSystem.unserved]
  omega

/-- A task's ticks, and what its jobs did not get, make up its jobs. -/
theorem ticks_add_unserved (hi : i < sys.taskCnt) :
    Nat.count (fun u => sys.running i u = true) sys.hiperperiod +
      ∑ k ∈ Finset.range (sys.hiperperiod / (sys.task i).period),
        sys.unserved i k =
    (sys.task i).duration * (sys.hiperperiod / (sys.task i).period) := by
  have hcount := count_mul_period (fun u => sys.running i u = true)
    (sys.task i).period (sys.hiperperiod / (sys.task i).period)
  rw [period_mul hi] at hcount
  rw [hcount, ← Finset.sum_add_distrib]
  have hterm : ∀ k ∈ Finset.range (sys.hiperperiod / (sys.task i).period),
      Nat.count (fun v =>
          sys.running i (k * (sys.task i).period + v) = true)
        (sys.task i).period + sys.unserved i k = (sys.task i).duration :=
    fun k hk => (ticksOf_add_unserved hi (Finset.mem_range.mp hk)).1
  rw [Finset.sum_congr rfl hterm, Finset.sum_const, Finset.card_range,
    nsmul_eq_mul, Nat.cast_id, Nat.mul_comm]

/-- The ledger of a run. -/
theorem ledger (sys : ClosedSystem) :
    ∑ i ∈ Finset.range sys.taskCnt,
        (sys.task i).duration * (sys.hiperperiod / (sys.task i).period) +
      Nat.count (fun u => sys.idleAt u = true) sys.hiperperiod =
    sys.hiperperiod + ∑ i ∈ Finset.range sys.taskCnt,
      ∑ k ∈ Finset.range (sys.hiperperiod / (sys.task i).period),
        sys.unserved i k := by
  have hshared := ticks_shared (Nat.le_refl sys.hiperperiod)
  have hsum : ∑ i ∈ Finset.range sys.taskCnt,
      (sys.task i).duration * (sys.hiperperiod / (sys.task i).period) =
      ∑ i ∈ Finset.range sys.taskCnt,
        Nat.count (fun u => sys.running i u = true) sys.hiperperiod +
      ∑ i ∈ Finset.range sys.taskCnt,
        ∑ k ∈ Finset.range (sys.hiperperiod / (sys.task i).period),
          sys.unserved i k := by
    rw [← Finset.sum_add_distrib]
    exact Finset.sum_congr rfl fun i hi =>
      (ticks_add_unserved (Finset.mem_range.mp hi)).symm
  omega

/-- What the tasks ask for in a run. -/
theorem utilization_mul (sys : ClosedSystem) :
    sys.utilization * (sys.hiperperiod : ℚ) =
      ((∑ i ∈ Finset.range sys.taskCnt,
        (sys.task i).duration * (sys.hiperperiod / (sys.task i).period) : Nat) :
          ℚ) := by
  rw [ClosedSystem.utilization, Finset.sum_mul, Nat.cast_sum]
  refine Finset.sum_congr rfl fun i hi => ?_
  have hi := Finset.mem_range.mp hi
  have hP : ((sys.task i).period : ℚ) ≠ 0 := by
    exact_mod_cast Nat.pos_iff_ne_zero.mp (sys.params i).period_pos
  have hH : (sys.hiperperiod : ℚ) =
      ((sys.hiperperiod / (sys.task i).period : Nat) : ℚ) *
        ((sys.task i).period : ℚ) := by
    exact_mod_cast (period_mul hi).symm
  rw [hH, Nat.cast_mul]
  field_simp

/-- The idle ticks of a run are what the utilisation leaves over, and the
ticks that jobs asked for and did not get. -/
theorem idle_time_exact (sys : ClosedSystem) :
    (∀ t < sys.hiperperiod, ∃ st, sys.run t = .ok st ∧
      (st.pxCurrentTCB = some sys.taskCnt ↔ st.items (.ready 1) = [])) ∧
    ∃ st, sys.run sys.hiperperiod = .error (.exit st) ∧
      (Nat.count (fun u => sys.idleAt u = true) sys.hiperperiod : ℚ) =
        (1 - sys.utilization) * (sys.hiperperiod : ℚ) +
          ∑ i ∈ Finset.range sys.taskCnt,
            ∑ k ∈ Finset.range (st.sim.taskSet i).numOfPeriods,
              (sys.unserved i k : ℚ) ∧
      ∀ i < sys.taskCnt, ∀ k < (st.sim.taskSet i).numOfPeriods,
        sys.ticksOf i k + sys.unserved i k = (sys.task i).duration ∧
        ((st.sim.taskSet i).report k = true ↔ sys.unserved i k = 0) := by
  refine ⟨fun t ht => ?_, ?_⟩
  · obtain ⟨st, hrun, h⟩ := run_follows sys ht
    exact ⟨st, hrun, (running_iff hrun).symm.trans (idleAt_iff hrun h)⟩
  · obtain ⟨st, hrun, hfin⟩ := run_exits sys
    refine ⟨st, hrun, ?_, fun i hi k hk => ?_⟩
    · have hledger := congrArg (Nat.cast : Nat → ℚ) (ledger sys)
      rw [Nat.cast_add, ← utilization_mul, Nat.cast_add] at hledger
      have hsum : ((∑ i ∈ Finset.range sys.taskCnt,
          ∑ k ∈ Finset.range (sys.hiperperiod / (sys.task i).period),
            sys.unserved i k : Nat) : ℚ) =
          ∑ i ∈ Finset.range sys.taskCnt,
            ∑ k ∈ Finset.range (st.sim.taskSet i).numOfPeriods,
              (sys.unserved i k : ℚ) := by
        rw [Nat.cast_sum]
        refine Finset.sum_congr rfl fun i hi => ?_
        rw [Nat.cast_sum, (hfin.entry i (Finset.mem_range.mp hi)).numOfPeriods]
      rw [hsum] at hledger
      rw [sub_mul, one_mul]
      linarith
    · rw [(hfin.entry i hi).numOfPeriods] at hk
      rw [hfin.report i hi]
      exact ticksOf_add_unserved hi hk

/-! ## EDF is optimal -/

/-- A run that meets every deadline does not ask for more than there is. -/
theorem utilization_of_meetsAll (sys : ClosedSystem) (h : sys.MeetsAll) :
    sys.utilization ≤ 1 := by
  obtain ⟨st, hrun, hmet⟩ := h
  have hfin := final_of_exit hrun
  have hpos : (0 : ℚ) < (sys.hiperperiod : ℚ) := by
    exact_mod_cast sys.hiperperiod_pos
  have hnone : ∑ i ∈ Finset.range sys.taskCnt,
      ∑ k ∈ Finset.range (sys.hiperperiod / (sys.task i).period),
        sys.unserved i k = 0 := by
    refine Finset.sum_eq_zero fun i hi => Finset.sum_eq_zero fun k hk => ?_
    have hi := Finset.mem_range.mp hi
    have hk := Finset.mem_range.mp hk
    have hrow : (st.sim.taskSet i).report k = true := by
      refine hmet i hi k ?_
      rw [(hfin.entry i hi).numOfPeriods]
      exact hk
    rw [hfin.report i hi] at hrow
    exact (ticksOf_add_unserved hi hk).2.mp hrow
  have hledger := ledger sys
  rw [hnone, Nat.add_zero] at hledger
  have hle : sys.utilization * (sys.hiperperiod : ℚ) ≤ 1 * (sys.hiperperiod : ℚ) := by
    rw [utilization_mul, one_mul]
    exact_mod_cast Nat.le.intro hledger
  exact le_of_mul_le_mul_right hle hpos

theorem meetsAll_of_utilization (sys : ClosedSystem) (halg : sys.alg = .edf)
    (h : sys.utilization ≤ 1) : sys.MeetsAll := by
  obtain ⟨st, hrun, hfin⟩ := run_exits sys
  refine ⟨st, hrun, fun i hi k hk => ?_⟩
  rw [(hfin.entry i hi).numOfPeriods] at hk
  rw [hfin.report i hi]
  refine row_of_never_late hk ?_ fun v hv _ => edf_not_late halg h hv hi
  rw [released_row_iff hk, halg]
  exact fun hc => Algorithm.noConfusion hc.1

/-- EDF meets all deadlines exactly of the task sets that ask for no more than
the processor, and of every task set of which some algorithm meets them. -/
theorem edf_optimal (sys : ClosedSystem) :
    ((sys.under .edf).MeetsAll ↔ sys.utilization ≤ 1) ∧
    ∀ alg, (sys.under alg).MeetsAll → (sys.under .edf).MeetsAll := by
  have hiff : (sys.under .edf).MeetsAll ↔ sys.utilization ≤ 1 :=
    ⟨utilization_of_meetsAll (sys.under .edf),
      meetsAll_of_utilization (sys.under .edf) rfl⟩
  refine ⟨hiff, fun alg hmeets => hiff.mpr ?_⟩
  exact utilization_of_meetsAll (sys.under alg) hmeets

/-! ## RTO and BWP -/

section Rows

variable (halg : sys.alg ≠ .edf) (hfit : sys.ConstraintsFit)
  (hkeys : sys.KeysFit) (hdemand : sys.DemandFits)

include halg hfit hkeys hdemand

/-- A task with a constraint misses at most every `s`-th period. -/
theorem missCount_row_le (hi : i < sys.taskCnt) :
    missCount (sys.row i) (sys.hiperperiod / (sys.task i).period) ≤
      sys.hiperperiod / (sys.task i).period /
        (sys.task i).weaklyHardConstraint := by
  have hlong := fun k (hk : k < sys.hiperperiod / (sys.task i).period) =>
    long_streak_of_missed (k := k) halg hfit hkeys hdemand hi hk
  rcases Nat.eq_zero_or_pos (sys.task i).weaklyHardConstraint with hs | hs
  · rw [missCount, Nat.count_iff_forall_not.mpr
      fun k hk hmiss => (hlong k hk hmiss).1 hs]
    exact Nat.zero_le _
  · refine missCount_le_div hs fun k hk hmiss => ?_
    have hmod := Nat.mod_le (streak (sys.row i) k) (2 ^ 8)
    have hle := (hlong k hk hmiss).2
    omega

theorem rto_missCount_row (hrto : sys.alg = .rto) (hi : i < sys.taskCnt) :
    missCount (sys.row i) (sys.hiperperiod / (sys.task i).period) =
      sys.hiperperiod / (sys.task i).period /
        (sys.task i).weaklyHardConstraint := by
  rcases Nat.eq_zero_or_pos (sys.task i).weaklyHardConstraint with hs | hs
  · have hle := missCount_row_le halg hfit hkeys hdemand hi
    rw [hs, Nat.div_zero] at hle ⊢
    exact Nat.le_zero.mp hle
  · exact missCount_eq_div hs (Nat.lt_succ_of_le (hfit i hi)) fun k hk =>
      rto_missed_iff halg hfit hkeys hdemand hrto hi
        (Nat.pos_iff_ne_zero.mp hs) hk

theorem rto_nothing_left (hrto : sys.alg = .rto) : sys.NothingLeft := by
  obtain ⟨st, hrun, hfin⟩ := run_exits sys
  have hpos := sys.hiperperiod_pos
  refine ⟨st, hrun, List.eq_nil_iff_forall_not_mem.mpr fun i hi => ?_⟩
  obtain ⟨hlt, hlate⟩ := (late_at_exit_iff hfin).mp hi
  exact never_broken halg hfit hkeys hdemand (by omega) hlt
    (rto_late_breaks hrto hlate)

end Rows

/-- The missed deadlines and the quality of service a run ends with. -/
theorem exit_counts (sys : ClosedSystem) : ∃ st,
    sys.run sys.hiperperiod = .error (.exit st) ∧
    (∀ i < sys.taskCnt, (st.sim.taskSet i).missedDeadlines =
      missCount (sys.row i) (sys.hiperperiod / (sys.task i).period)) ∧
    st.sim.sumOfMissedDeadlines = ∑ i ∈ Finset.range sys.taskCnt,
      missCount (sys.row i) (sys.hiperperiod / (sys.task i).period) ∧
    st.sim.sumOfAllTaskNum = ∑ i ∈ Finset.range sys.taskCnt,
      sys.hiperperiod / (sys.task i).period := by
  obtain ⟨st, hrun, hfin⟩ := run_exits sys
  have hmissed : ∀ i < sys.taskCnt, (st.sim.taskSet i).missedDeadlines =
      missCount (sys.row i) (sys.hiperperiod / (sys.task i).period) := by
    intro i hi
    rw [hfin.missed i hi, countMissed_eq, hfin.report i hi,
      (hfin.entry i hi).numOfPeriods]
    rfl
  refine ⟨st, hrun, hmissed, ?_, ?_⟩
  · rw [Simulator.sumOfMissedDeadlines, hfin.taskCnt, foldl_add_eq_sum]
    exact Finset.sum_congr rfl fun i hi => hmissed i (Finset.mem_range.mp hi)
  · rw [Simulator.sumOfAllTaskNum, hfin.taskCnt, foldl_add_eq_sum]
    exact Finset.sum_congr rfl fun i hi =>
      (hfin.entry i (Finset.mem_range.mp hi)).numOfPeriods

/-- RTO is safe and finishes its work exactly when the mandatory work fits.
Then BWP is safe as well, misses no more deadlines of any task, and has the
better quality of service. -/
theorem bwp_dominates_rto (sys : ClosedSystem)
    (hfit : ∀ i < sys.taskCnt, (sys.task i).weaklyHardConstraint ≤ 255)
    (hlt : sys.hiperperiod < 2 ^ 30) :
    ((sys.under .rto).NeverBroken ∧ (sys.under .rto).NothingLeft ↔
      sys.DemandFits) ∧
    (sys.DemandFits → (sys.under .bwp).NeverBroken ∧ ∃ r b,
      (sys.under .rto).run sys.hiperperiod = .error (.exit r) ∧
      (sys.under .bwp).run sys.hiperperiod = .error (.exit b) ∧
      (∀ i < sys.taskCnt, (r.sim.taskSet i).missedDeadlines =
        sys.hiperperiod / (sys.task i).period /
          (sys.task i).weaklyHardConstraint) ∧
      (∀ i < sys.taskCnt, (b.sim.taskSet i).missedDeadlines ≤
        (r.sim.taskSet i).missedDeadlines) ∧
      r.sim.calculateQoS ≤ b.sim.calculateQoS) := by
  have hrtoKeys : (sys.under .rto).KeysFit := fun hb => Algorithm.noConfusion hb
  have hbwpKeys : (sys.under .bwp).KeysFit := fun _ => hlt
  have hrto : (sys.under .rto).alg = .rto := rfl
  refine ⟨⟨fun h => ?_, fun h => ⟨?_, ?_⟩⟩, fun h => ⟨?_, ?_⟩⟩
  · have hfits := rto_demand_fits hrto hfit h.1 h.2
    exact hfits
  · exact neverBroken_of_demand Algorithm.noConfusion hfit hrtoKeys h
  · exact rto_nothing_left Algorithm.noConfusion hfit hrtoKeys h rfl
  · exact neverBroken_of_demand Algorithm.noConfusion hfit hbwpKeys h
  · obtain ⟨r, hr, hrmiss, hrsum, hrall⟩ := exit_counts (sys.under .rto)
    obtain ⟨b, hb, hbmiss, hbsum, hball⟩ := exit_counts (sys.under .bwp)
    have hrtoAlg : (sys.under .rto).alg ≠ .edf := Algorithm.noConfusion
    have hbwpAlg : (sys.under .bwp).alg ≠ .edf := Algorithm.noConfusion
    have hrtoMiss := fun i =>
      rto_missCount_row (i := i) hrtoAlg hfit hrtoKeys h hrto
    have hbwpMiss := fun i =>
      missCount_row_le (i := i) hbwpAlg hfit hbwpKeys h
    have hle : ∀ i < sys.taskCnt, (b.sim.taskSet i).missedDeadlines ≤
        (r.sim.taskSet i).missedDeadlines := by
      intro i hi
      rw [hbmiss i hi, hrmiss i hi, hrtoMiss i hi]
      exact hbwpMiss i hi
    have hsum : (b.sim.sumOfMissedDeadlines : ℚ) ≤ r.sim.sumOfMissedDeadlines := by
      rw [hbsum, hrsum]
      exact_mod_cast Finset.sum_le_sum fun i hi => by
        have hi := Finset.mem_range.mp hi
        have := hle i hi
        rwa [hbmiss i hi, hrmiss i hi] at this
    refine ⟨r, b, hr, hb, fun i hi => (hrmiss i hi).trans (hrtoMiss i hi), hle, ?_⟩
    simp only [Simulator.calculateQoS]
    rw [hrall, hball]
    exact div_le_div_of_nonneg_right (sub_le_sub_left hsum _)
      (Nat.cast_nonneg _)

/-- The two tasks, of which the second may miss every other job, fit. -/
theorem bwp_dominates_rto_twoTasks :
    (((twoTasks .edf).under .rto).NeverBroken ∧
      ((twoTasks .edf).under .rto).NothingLeft) ∧
    ((twoTasks .edf).under .bwp).NeverBroken ∧ ∃ r b,
      ((twoTasks .edf).under .rto).run 4 = .error (.exit r) ∧
      ((twoTasks .edf).under .bwp).run 4 = .error (.exit b) ∧
      (∀ i < 2, (r.sim.taskSet i).missedDeadlines =
        4 / ((twoTasks .edf).task i).period /
          ((twoTasks .edf).task i).weaklyHardConstraint) ∧
      (∀ i < 2, (b.sim.taskSet i).missedDeadlines ≤
        (r.sim.taskSet i).missedDeadlines) ∧
      r.sim.calculateQoS ≤ b.sim.calculateQoS := by
  have hfits : (twoTasks .edf).DemandFits := by
    have hall : ∀ L < 5, 1 ≤ L →
        ∑ i ∈ Finset.range 2, ((twoTasks .edf).task i).demand L ≤ L := by decide
    exact fun L hL hle => hall L (Nat.lt_succ_of_le hle) hL
  obtain ⟨hiff, hdom⟩ :=
    bwp_dominates_rto (twoTasks .edf) (by decide) (by decide)
  exact ⟨hiff.mpr hfits, hdom hfits⟩

end FreeRtosSim
