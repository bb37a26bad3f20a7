import FreeRtosSim.Proofs.Necessary
import FreeRtosSim.Proofs.WeaklyHard

/-!
# The sufficient test is not sufficient

`check_sufficient_condition` returns 1 on both ways out of its loop, so it
accepts every task set. What it means to test is whether the mandatory work
fits into every window: that makes the runs under RTO and BWP safe, and
under RTO it is also needed. RTO releases mandatory jobs only, so when none
of them is late the reports up to `L` show all the mandatory work due by
then, and that has been done by the one processor there is. Only the window
as long as the run itself escapes the argument: jobs that end with the run
are not judged any more, since `exit_function` comes before the kill pass.
-/

namespace FreeRtosSim

variable {sys : ClosedSystem} {i T : Nat}

namespace ClosedSystem

variable (sys)

/-- The same task set under another algorithm. -/
def under (alg : Algorithm) : ClosedSystem := { sys with alg := alg }

/-- `weaklyHardBroken` is not called up to the exit. -/
def NeverBroken : Prop :=
  (∀ t < sys.hiperperiod, ∃ st, sys.run t = .ok st ∧ st.sim.weaklyHard = 1) ∧
  ∃ st, sys.run sys.hiperperiod = .error (.exit st) ∧ st.sim.weaklyHard = 1

/-- The run ends with no job unfinished. -/
def NothingLeft : Prop :=
  ∃ st, sys.run sys.hiperperiod = .error (.exit st) ∧
    st.items (.ready 1) = []

end ClosedSystem

theorem neverBroken_iff : sys.NeverBroken ↔
    ∀ u < sys.hiperperiod - 1, ∀ i < sys.taskCnt, ¬ sys.breaksAt i u := by
  constructor
  · rintro ⟨-, st, hrun, hflag⟩
    exact (final_of_exit hrun).flagIff.mp hflag
  · intro hnone
    obtain ⟨st, hrun, hfin⟩ := run_exits sys
    refine ⟨fun t ht => ?_, st, hrun, hfin.flagIff.mpr hnone⟩
    obtain ⟨st', hrun', h⟩ := run_follows sys ht
    exact ⟨st', hrun', h.flagIff.mpr fun u hu => hnone u (by omega)⟩

/-! ## The demand is needed -/

/-- Under RTO a late job is always one that had to be met. -/
theorem rto_late_breaks (hrto : sys.alg = .rto) {t : Nat}
    (hlate : sys.lateAt i t) : sys.breaksAt i t := by
  refine ⟨hlate, ?_⟩
  have hred := rto_ready_red hrto (Job.account_ready hlate.1)
  rw [Job.red, Job.owes] at hred ⊢
  rwa [show (sys.accountedAt i t).met = (sys.jobAt i t).met from
    (Job.account_same hlate.1).2]

/-- The periods RTO misses when no job has been late. -/
theorem rto_missed_of_none_late (hrto : sys.alg = .rto)
    (hfit : sys.ConstraintsFit) (hi : i < sys.taskCnt)
    (hnone : ∀ v ≤ T, ¬ sys.lateAt i v) {k : Nat}
    (hk : k < (T + 1) / (sys.params i).period) :
    (sys.accountedAt i T).report k = false ↔
      (sys.task i).weaklyHardConstraint ≠ 0 ∧
      (sys.task i).weaklyHardConstraint ≤
        streak (sys.accountedAt i T).report k % 2 ^ 8 + 1 := by
  have hend : (k + 1) * (sys.params i).period ≤ T + 1 :=
    (Nat.le_div_iff_mul_le (sys.params i).period_pos).mp hk
  have hlast := lastTick_succ (sys.params i) k
  have hP := (sys.params i).period_pos
  rw [Nat.succ_mul] at hend hlast
  have hverdict := rowAt_eq_false_iff sys.alg (sys.params i)
    (sys.running i) (show lastTick (sys.params i) k ≤ T by omega)
  have hreleased := released_iff sys.alg (sys.params i) (sys.running i)
    (show k * (sys.params i).period ≤ T by omega)
  rw [hfit.skip_eq hi] at hreleased
  rw [hverdict, ← Bool.not_eq_true, hreleased, not_not]
  constructor
  · rintro (⟨-, hs⟩ | ⟨v, hv, -, hl⟩)
    · exact hs
    · exact absurd hl (hnone v hv)
  · exact fun hs => Or.inl ⟨hrto, hs⟩

/-- When RTO has let no job be late, the mandatory work so far fits. -/
theorem rto_demand_le (T : Nat) (hrto : sys.alg = .rto) (hfit : sys.ConstraintsFit)
    (hnone : ∀ v ≤ T, ∀ i < sys.taskCnt, ¬ sys.lateAt i v) :
    ∑ i ∈ Finset.range sys.taskCnt, (sys.task i).demand (T + 1) ≤ T + 1 := by
  refine Nat.le_trans (Finset.sum_le_sum fun i hi => ?_)
    (sum_metCount_le sys (fun i => (T + 1) / (sys.params i).period) T)
  have hi := Finset.mem_range.mp hi
  have hmissed := fun k hk => rto_missed_of_none_late (k := k) hrto hfit hi
    (fun v hv => hnone v hv i hi) hk
  have hsum := metCount_add_missCount (sys.accountedAt i T).report
    ((T + 1) / (sys.params i).period)
  rw [TaskParams.demand, Nat.mul_comm (sys.params i).duration]
  split
  · next hs =>
      have hzero : missCount (sys.accountedAt i T).report
          ((T + 1) / (sys.params i).period) = 0 := by
        rw [missCount, Nat.count_iff_forall_not]
        exact fun k hk hmiss => ((hmissed k hk).mp hmiss).1 hs
      rw [hzero, Nat.add_zero] at hsum
      rw [hsum]
      exact Nat.le_refl _
  · next hs =>
      have hdiv := missCount_eq_div (Nat.pos_of_ne_zero hs)
        (Nat.lt_succ_of_le (hfit i hi)) fun k hk =>
          (hmissed k hk).trans (and_iff_right hs)
      rw [Nat.div_div_eq_div_mul] at hdiv
      refine Nat.mul_le_mul_right _ ?_
      show (T + 1) / (sys.params i).period -
        (T + 1) / ((sys.params i).period * _) ≤ _
      omega

/-- Up to any tick before the exit, a safe RTO run has done what was due. -/
theorem rto_demand_below (hrto : sys.alg = .rto) (hfit : sys.ConstraintsFit)
    (hnever : sys.NeverBroken) (L : Nat) (hL : 1 ≤ L)
    (hLH : L < sys.hiperperiod) :
    ∑ i ∈ Finset.range sys.taskCnt, (sys.task i).demand L ≤ L := by
  have hle := rto_demand_le (L - 1) hrto hfit fun v hv i hi hlate =>
    neverBroken_iff.mp hnever v (by omega) i hi (rto_late_breaks hrto hlate)
  rwa [Nat.sub_add_cancel hL] at hle

/-- If nothing is left unfinished either, the demand of the whole run fits. -/
theorem rto_demand_fits (hrto : sys.alg = .rto) (hfit : sys.ConstraintsFit)
    (hnever : sys.NeverBroken) (hleft : sys.NothingLeft) : sys.DemandFits := by
  intro L hL hLH
  rcases Nat.lt_or_eq_of_le hLH with hlt | rfl
  · exact rto_demand_below hrto hfit hnever L hL hlt
  · obtain ⟨st, hrun, hempty⟩ := hleft
    have hfin := final_of_exit hrun
    have hle := rto_demand_le (sys.hiperperiod - 1) hrto hfit
      fun v hv i hi hlate => by
        rcases Nat.lt_or_eq_of_le hv with hlt | rfl
        · exact neverBroken_iff.mp hnever v hlt i hi (rto_late_breaks hrto hlate)
        · have hmem := (hfin.left i).mpr ⟨hi, hlate.1⟩
          rw [hempty] at hmem
          exact absurd hmem List.not_mem_nil
    rwa [Nat.sub_add_cancel hL] at hle

theorem neverBroken_of_demand (halg : sys.alg ≠ .edf)
    (hfit : sys.ConstraintsFit) (hkeys : sys.KeysFit)
    (hdemand : sys.DemandFits) : sys.NeverBroken := by
  rw [neverBroken_iff]
  intro u hu i hi
  exact never_broken halg hfit hkeys hdemand (by omega) hi

/-! ## The test -/

/-- The test accepts a task set whatever its demand is. The run under RTO and
the one under BWP are safe when the demand fits; RTO is safe only if it fits
into all windows shorter than the run, and into that of the whole run unless
the run ends with jobs unfinished. -/
theorem sufficient_condition_exact (sys : ClosedSystem)
    (hfit : ∀ i < sys.taskCnt, (sys.task i).weaklyHardConstraint ≤ 255)
    (hlt : sys.hiperperiod < maxL) :
    checkSufficientCondition sys.simulator = 1 ∧
    (sys.DemandFits →
      (sys.under .rto).NeverBroken ∧ (sys.under .bwp).NeverBroken) ∧
    ((sys.under .rto).NeverBroken →
      (∀ L, 1 ≤ L → L < sys.hiperperiod →
        ∑ i ∈ Finset.range sys.taskCnt, (sys.task i).demand L ≤ L) ∧
      ((sys.under .rto).NothingLeft → sys.DemandFits)) := by
  have hrtoKeys : (sys.under .rto).KeysFit := fun hb => Algorithm.noConfusion hb
  have hbwpKeys : (sys.under .bwp).KeysFit := fun _ =>
    Nat.lt_trans hlt (by decide)
  have hrto : (sys.under .rto).alg = .rto := rfl
  refine ⟨checkSufficientCondition_eq _, fun hdemand => ⟨?_, ?_⟩,
    fun hnever => ⟨?_, ?_⟩⟩
  · exact neverBroken_of_demand Algorithm.noConfusion hfit hrtoKeys hdemand
  · exact neverBroken_of_demand Algorithm.noConfusion hfit hbwpKeys hdemand
  · have hbelow := rto_demand_below hrto hfit hnever
    exact hbelow
  · have hfits := rto_demand_fits hrto hfit hnever
    exact hfits

theorem sufficient_condition_exact_twoTasks :
    checkSufficientCondition (twoTasks .rto).simulator = 1 ∧
    ((twoTasks .rto).DemandFits →
      ((twoTasks .rto).under .rto).NeverBroken ∧
      ((twoTasks .rto).under .bwp).NeverBroken) ∧
    (((twoTasks .rto).under .rto).NeverBroken →
      (∀ L, 1 ≤ L → L < 4 →
        ∑ i ∈ Finset.range 2, ((twoTasks .rto).task i).demand L ≤ L) ∧
      (((twoTasks .rto).under .rto).NothingLeft →
        (twoTasks .rto).DemandFits)) :=
  sufficient_condition_exact (twoTasks .rto) (by decide) (by decide)

/-- Two tasks that want the whole processor each pass the test, and one of
them misses its first deadline. -/
theorem sufficient_condition_not_sufficient :
    (∀ i < 2, ((twoFullTasks .rto).task i).weaklyHardConstraint ≤ 255) ∧
    (twoFullTasks .rto).hiperperiod < maxL ∧
    checkSufficientCondition (twoFullTasks .rto).simulator = 1 ∧
    ¬ (twoFullTasks .rto).NeverBroken := by
  refine ⟨by decide, by decide, checkSufficientCondition_eq _, fun hnever => ?_⟩
  have hbreak : (twoFullTasks .rto).breaksAt 1 0 := by
    unfold ClosedSystem.breaksAt ClosedSystem.lateAt
    decide +kernel
  exact neverBroken_iff.mp hnever 0 (by decide) 1 (by decide) hbreak

end FreeRtosSim
