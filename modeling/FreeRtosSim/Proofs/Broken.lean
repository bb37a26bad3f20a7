import FreeRtosSim.Proofs.Sufficient

/-!
# The two judgements on a run

The kernel judges online, one job at a time, and keeps the flag
`weakly_hard`; `countWeaklyHardBroken` judges the reports at the end. Each
miss is one of three things: a job RTO left out, a job killed before the
hyperperiod, or a job still unfinished when `exit_function` is called, which
the kernel never judges. The rest is what the two say of each kind.
-/

namespace FreeRtosSim

variable {sys : ClosedSystem} {st : State} {t i k : Nat}

/-- Period `k` may not be missed: the task is hard, or fewer than `s - 1`
periods were met since the last miss. -/
def owed (s : Nat) (row : Nat → Bool) (k : Nat) : Prop :=
  s = 0 ∨ streak row k < s - 1

/-- The scan at the end minds a miss of period `k`. It starts with a full
credit, so the first miss of a task is always free, and a hard task is never
minded. -/
def minded (s : Nat) (row : Nat → Bool) (k : Nat) : Prop :=
  s ≠ 0 ∧ streak row k < k ∧ streak row k < s - 1

instance (s : Nat) (row : Nat → Bool) (k : Nat) : Decidable (minded s row k) :=
  inferInstanceAs (Decidable (_ ∧ _ ∧ _))

/-! ## What the scan counts -/

/-- The scan's state after `n` rounds. -/
theorem foldl_countBrokenStep (e : PeriodicTask) (n : Nat) :
    (List.range n).foldl (Simulator.countBrokenStep e)
      (e.weaklyHardConstraint, 0) =
    (streak e.report n +
        (if streak e.report n < n then 0 else e.weaklyHardConstraint),
      Nat.count (fun k => e.report k = false ∧
        minded e.weaklyHardConstraint e.report k) n) := by
  induction n with
  | zero => simp
  | succ n ih =>
      rw [List.range_succ, List.foldl_append, ih, List.foldl_cons,
        List.foldl_nil, Simulator.countBrokenStep, Nat.count_succ]
      have hle := streak_le e.report n
      cases hn : e.report n with
      | true =>
          rw [streak_succ_of_met hn]
          simp only [if_true, reduceCtorEq, false_and, if_false, Nat.add_zero,
            Nat.succ_lt_succ_iff, Prod.mk.injEq, and_true]
          omega
      | false =>
          have hiff : ((streak e.report n + (if streak e.report n < n then 0
              else e.weaklyHardConstraint) : Nat) : Int) <
                (e.weaklyHardConstraint : Int) - 1 ↔
              minded e.weaklyHardConstraint e.report n := by
            unfold minded
            split <;> omega
          rw [streak_succ_of_missed hn]
          simp only [reduceCtorEq, if_false, hiff, true_and, Nat.zero_lt_succ,
            if_true, Nat.add_zero, Prod.mk.injEq]
          split <;> rfl

/-- `prevoius_solved` and `cnt` are of type `int`. The scan keeps them in range
when the constraint and the number of periods are together. -/
theorem countBrokenStep_no_overflow (e : PeriodicTask) {n : Nat}
    (hn : n ≤ e.numOfPeriods)
    (hint : e.weaklyHardConstraint + e.numOfPeriods < 2 ^ 31) :
    ((List.range n).foldl (Simulator.countBrokenStep e)
        (e.weaklyHardConstraint, 0)).1 < 2 ^ 31 ∧
      ((List.range n).foldl (Simulator.countBrokenStep e)
        (e.weaklyHardConstraint, 0)).2 < 2 ^ 31 := by
  have hstreak := streak_le e.report n
  have hcount := Nat.count_le (p := fun k => e.report k = false ∧
    minded e.weaklyHardConstraint e.report k) (n := n)
  rw [foldl_countBrokenStep]
  refine ⟨?_, by omega⟩
  dsimp only
  split <;> omega

theorem countBroken_pos_iff (e : PeriodicTask) :
    0 < Simulator.countBroken e ↔ ∃ k < e.numOfPeriods,
      e.report k = false ∧ minded e.weaklyHardConstraint e.report k := by
  rw [Simulator.countBroken, foldl_countBrokenStep, Nat.pos_iff_ne_zero, ne_eq,
    Nat.count_iff_forall_not]
  push Not
  exact Iff.rfl

theorem sumOfWeaklyHardBroken_pos_iff (hfin : Final sys st) :
    0 < st.sim.sumOfWeaklyHardBroken ↔ ∃ i < sys.taskCnt,
      ∃ k < sys.hiperperiod / (sys.task i).period, sys.row i k = false ∧
        minded (sys.task i).weaklyHardConstraint (sys.row i) k := by
  rw [Simulator.sumOfWeaklyHardBroken, foldl_add_eq_sum, hfin.taskCnt,
    Finset.sum_pos_iff]
  refine exists_congr fun i => ?_
  rw [Finset.mem_range]
  refine and_congr_right fun hi => ?_
  have he := hfin.entry i hi
  rw [hfin.broken i hi, countBroken_pos_iff, he.numOfPeriods, he.constraint,
    hfin.report i hi]
  rfl

/-! ## Jobs left over -/

/-- The last period is the one the exit falls into. -/
theorem last_period (hi : i < sys.taskCnt) :
    (sys.hiperperiod - 1) / (sys.params i).period <
      sys.hiperperiod / (sys.params i).period ∧
    (sys.hiperperiod - 1) / (sys.params i).period =
      sys.hiperperiod / (sys.params i).period - 1 ∧
    lastTick (sys.params i) (sys.hiperperiod / (sys.params i).period - 1) =
      sys.hiperperiod - 1 := by
  have hpos := sys.hiperperiod_pos
  have hdvd := sys.params_period_dvd hi
  have hP := (sys.params i).period_pos
  have hN := Nat.div_pos (sys.params_period_le hi) hP
  have hlast : lastTick (sys.params i)
      (sys.hiperperiod / (sys.params i).period - 1) = sys.hiperperiod - 1 := by
    rw [lastTick, Nat.sub_add_cancel hN, Nat.div_mul_cancel hdvd]
  have hdiv := lastTick_div (sys.params i)
    (sys.hiperperiod / (sys.params i).period - 1)
  rw [hlast] at hdiv
  exact ⟨by omega, hdiv, hlast⟩

/-- A job still ready at the exit is late there. -/
theorem late_at_exit_iff (hfin : Final sys st) :
    i ∈ st.items (.ready 1) ↔
      i < sys.taskCnt ∧ sys.lateAt i (sys.hiperperiod - 1) := by
  rw [hfin.left]
  refine and_congr_right fun hi => ⟨fun hr => ?_, fun hl => hl.1⟩
  have hlate := late_at_lastTick sys.alg (sys.params i) (sys.running i)
    (k := sys.hiperperiod / (sys.params i).period - 1)
  rw [(last_period hi).2.2] at hlate
  exact hlate hr

/-- The three kinds of misses. -/
theorem missed_cases (hk : k < sys.hiperperiod / (sys.params i).period)
    (hmiss : sys.row i k = false) :
    ((sys.params i).skip ≠ 0 ∧
      (sys.params i).skip ≤ streak (sys.row i) k % 2 ^ 8 + 1) ∨
    (∃ t < sys.hiperperiod - 1, t / (sys.params i).period = k ∧
      sys.lateAt i t) ∨
    (k = sys.hiperperiod / (sys.params i).period - 1 ∧
      sys.lateAt i (sys.hiperperiod - 1)) := by
  rcases (row_false_iff hk).mp hmiss with hw | ⟨t, ht, hdiv, hlate⟩
  · have hleft := mt (released_row_iff hk).mpr (by simp [hw])
    exact Or.inl (not_not.mp hleft).2
  · rcases Nat.lt_or_ge t (sys.hiperperiod - 1) with hlt | hge
    · exact Or.inr (Or.inl ⟨t, hlt, hdiv, hlate⟩)
    · have hlast : t = sys.hiperperiod - 1 := by omega
      subst hlast
      refine Or.inr (Or.inr ⟨?_, hlate⟩)
      have hP := (sys.params i).period_pos
      have hmul := lastTick_succ (sys.params i) k
      have hle := lastTick_le hk
      have hup := (period_bounds (sys.params i) (sys.hiperperiod - 1)).2
      have hpos := sys.hiperperiod_pos
      rw [hdiv, ← hmul] at hup
      have hH : sys.hiperperiod = (k + 1) * (sys.params i).period := by omega
      rw [hH, Nat.mul_div_cancel _ hP]
      rfl

/-! ## The flag against the reports -/

/-- A run that ends with the flag up has broken a constraint exactly if a job
that had to be met is left unfinished: the flag is right about everything it
has judged, but `exit_function` comes before the last kill pass. -/
theorem weakly_hard_verdict_exact (sys : ClosedSystem)
    (hfit : ∀ i < sys.taskCnt, (sys.task i).weaklyHardConstraint ≤ 255) :
    ∃ st, sys.run sys.hiperperiod = .error (.exit st) ∧
      (st.sim.weaklyHard = 1 →
        ((∀ i < sys.taskCnt, ∀ k < (st.sim.taskSet i).numOfPeriods,
          ¬ breaksRow (sys.task i).weaklyHardConstraint
            (st.sim.taskSet i).report k) ↔
        ∀ i ∈ st.items (.ready 1), ¬ owed (sys.task i).weaklyHardConstraint
          (st.sim.taskSet i).report ((st.sim.taskSet i).numOfPeriods - 1))) := by
  obtain ⟨st, hrun, hfin⟩ := run_exits sys
  refine ⟨st, hrun, fun hflag => ?_⟩
  have hnone := hfin.flagIff.mp hflag
  constructor
  · intro hgood i hi howed
    obtain ⟨hlt, hlate⟩ := (late_at_exit_iff hfin).mp hi
    obtain ⟨hlast, heq, -⟩ := last_period hlt
    have hmiss := row_of_late hlast hlate
    have hk := hgood i hlt
    rw [(hfin.entry i hlt).numOfPeriods, hfin.report i hlt] at hk howed
    rw [heq] at hmiss hlast
    exact hk _ hlast ⟨hmiss, howed⟩
  · intro hleft i hi k hk hbroken
    obtain ⟨hmiss, howed⟩ := hbroken
    rw [(hfin.entry i hi).numOfPeriods] at hk
    rw [hfin.report i hi] at hmiss howed
    have hskip := ClosedSystem.ConstraintsFit.skip_eq hfit hi
    have hmod := Nat.mod_le (streak (sys.row i) k) (2 ^ 8)
    change _ ∨ streak (sys.row i) k < _ at howed
    rcases missed_cases hk hmiss with ⟨hs, hle⟩ | ⟨t, ht, rfl, hlate⟩ | ⟨rfl, hlate⟩
    · rw [hskip] at hs hle
      omega
    · have hred := hnone t ht i hi
      rw [ClosedSystem.breaksAt, late_red_iff (by omega) hlate, hskip] at hred
      have hpos := sys.hiperperiod_pos
      refine hred ⟨hlate, ?_⟩
      omega
    · have hmem := (late_at_exit_iff hfin).mpr ⟨hi, hlate⟩
      refine hleft i hmem ?_
      rw [(hfin.entry i hi).numOfPeriods, hfin.report i hi]
      exact howed

theorem weakly_hard_verdict_exact_twoTasks :
    ∃ st, (twoTasks .bwp).run 4 = .error (.exit st) ∧
      (st.sim.weaklyHard = 1 →
        ((∀ i < 2, ∀ k < (st.sim.taskSet i).numOfPeriods,
          ¬ breaksRow ((twoTasks .bwp).task i).weaklyHardConstraint
            (st.sim.taskSet i).report k) ↔
        ∀ i ∈ st.items (.ready 1),
          ¬ owed ((twoTasks .bwp).task i).weaklyHardConstraint
            (st.sim.taskSet i).report
            ((st.sim.taskSet i).numOfPeriods - 1))) :=
  weakly_hard_verdict_exact (twoTasks .bwp) (by decide)

/-- The third task never runs and its deadline is missed at the exit, with the
flag still up. -/
theorem weakly_hard_verdict_unsound :
    ∃ st, (threeTasks .edf).run 2 = .error (.exit st) ∧
      st.sim.weaklyHard = 1 ∧ 0 < (st.sim.taskSet 2).numOfPeriods ∧
      breaksRow ((threeTasks .edf).task 2).weaklyHardConstraint
        (st.sim.taskSet 2).report 0 := by
  obtain ⟨st, hrun, hfin⟩ := run_exits (threeTasks .edf)
  refine ⟨st, hrun, hfin.flagIff.mpr ?_, ?_, ?_, Or.inl rfl⟩
  · unfold ClosedSystem.breaksAt ClosedSystem.lateAt
    decide +kernel
  · rw [(hfin.entry 2 (by decide)).numOfPeriods]
    decide
  · rw [hfin.report 2 (by decide)]
    decide +kernel

/-! ## The flag against the scan -/

/-- In tick `t + 1` `killTasks` calls `weaklyHardBroken` for task `i`. -/
def ClosedSystem.AlarmAt (sys : ClosedSystem) (t i : Nat) : Prop :=
  ∃ st, sys.afterCharge t = .ok st ∧ i ∈ st.items (.ready 1) ∧
    hopeless st i = true ∧ st.isRed i

theorem alarmAt_iff (ht : t < sys.hiperperiod) :
    sys.AlarmAt t i ↔ i < sys.taskCnt ∧ sys.breaksAt i t := by
  obtain ⟨s, st₁, st₂, st₃, h⟩ := tick_states sys ht
  have hs := h.charged.shape
  have hiff : i ∈ st₁.items (.ready 1) ∧ hopeless st₁ i = true ∧ st₁.isRed i ↔
      i < sys.taskCnt ∧ sys.breaksAt i t := by
    by_cases hi : i < sys.taskCnt
    · rw [h.charged.mem_ready_iff hi, hopeless_iff hs ht hi, isRed_iff hs hi,
        h.charged.job i hi, ClosedSystem.breaksAt, ClosedSystem.lateAt, and_assoc]
      exact (and_iff_right hi).symm
    · refine iff_of_false (fun hc => hi (hs.lt_of_ready hc.1)) fun hc => hi hc.1
  rw [← hiff]
  constructor
  · rintro ⟨st, hrun, hrest⟩
    cases h.afterCharge.symm.trans hrun
    exact hrest
  · exact fun hrest => ⟨st₁, h.afterCharge, hrest⟩

theorem flag_down_iff (hfin : Final sys st) :
    st.sim.weaklyHard = 0 ↔
      ∃ t < sys.hiperperiod - 1, ∃ i, sys.AlarmAt t i := by
  have hup := hfin.flagIff
  have hle := hfin.flag
  constructor
  · intro hzero
    by_contra hcon
    have hone := hup.mpr fun t ht i hi hbreak =>
      hcon ⟨t, ht, i, (alarmAt_iff (by omega)).mpr ⟨hi, hbreak⟩⟩
    omega
  · rintro ⟨t, ht, i, halarm⟩
    obtain ⟨hi, hbreak⟩ := (alarmAt_iff (by omega)).mp halarm
    have hnot : st.sim.weaklyHard ≠ 1 := fun hone => hup.mp hone t ht i hi hbreak
    omega

/-- What the scan finds is an alarm it minds or a job left over. -/
theorem minded_miss_iff (hfit : sys.ConstraintsFit) (hfin : Final sys st) :
    (∃ i < sys.taskCnt, ∃ k < sys.hiperperiod / (sys.task i).period,
      sys.row i k = false ∧
        minded (sys.task i).weaklyHardConstraint (sys.row i) k) ↔
    (∃ t < sys.hiperperiod - 1, ∃ i, sys.AlarmAt t i ∧
      minded (sys.task i).weaklyHardConstraint (sys.row i)
        (t / (sys.task i).period)) ∨
    (∃ i ∈ st.items (.ready 1),
      minded (sys.task i).weaklyHardConstraint (sys.row i)
        (sys.hiperperiod / (sys.task i).period - 1)) := by
  have hpos := sys.hiperperiod_pos
  constructor
  · rintro ⟨i, hi, k, hk, hmiss, hs, hearlier, hshort⟩
    have hskip := ClosedSystem.ConstraintsFit.skip_eq hfit hi
    have hmod := Nat.mod_le (streak (sys.row i) k) (2 ^ 8)
    rcases missed_cases hk hmiss with ⟨-, hle⟩ | ⟨t, ht, rfl, hlate⟩ | ⟨rfl, hlate⟩
    · rw [hskip] at hle
      omega
    · refine Or.inl ⟨t, ht, i, (alarmAt_iff (by omega)).mpr ⟨hi, hlate, ?_⟩, hs,
        hearlier, hshort⟩
      rw [late_red_iff (by omega) hlate, hskip]
      omega
    · exact Or.inr ⟨i, (late_at_exit_iff hfin).mpr ⟨hi, hlate⟩, hs, hearlier,
        hshort⟩
  · rintro (⟨t, ht, i, halarm, hmind⟩ | ⟨i, hmem, hmind⟩)
    · obtain ⟨hi, hlate, -⟩ := (alarmAt_iff (by omega)).mp halarm
      have hlt : t / (sys.params i).period <
          sys.hiperperiod / (sys.params i).period :=
        Nat.lt_of_le_of_lt (Nat.div_le_div_right (by omega)) (last_period hi).1
      exact ⟨i, hi, _, hlt, row_of_late hlt hlate, hmind⟩
    · obtain ⟨hi, hlate⟩ := (late_at_exit_iff hfin).mp hmem
      obtain ⟨hlt, heq, -⟩ := last_period hi
      have hmiss := row_of_late hlt hlate
      rw [heq] at hlt hmiss
      exact ⟨i, hi, _, hlt, hmiss, hmind⟩

/-- In tick `t + 1` the scan minds every job that `killTasks` reports, with what
stands in the report before. -/
def ClosedSystem.MindsReported (sys : ClosedSystem) (t : Nat) : Prop :=
  ∀ st, sys.afterCharge t = .ok st → ∀ i ∈ st.items (.ready 1),
    hopeless st i = true → st.isRed i →
    minded (sys.task i).weaklyHardConstraint (st.sim.taskSet i).report
      (t / (sys.task i).period)

/-- What the report has by then does not change any more. -/
theorem minded_row_iff (ht : t < sys.hiperperiod) {s : Nat} :
    minded s (sys.accountedAt i t).report (t / (sys.params i).period) ↔
      minded s (sys.row i) (t / (sys.params i).period) := by
  have hstreak : streak (sys.accountedAt i t).report (t / (sys.params i).period) =
      streak (sys.row i) (t / (sys.params i).period) :=
    streak_congr fun k hk => (rowAt_past hk (Nat.le_refl t)).trans
      (rowAt_past hk (by omega)).symm
  rw [minded, minded, hstreak]

theorem mindsReported_iff (ht : t < sys.hiperperiod) :
    sys.MindsReported t ↔ ∀ i < sys.taskCnt, sys.breaksAt i t →
      minded (sys.task i).weaklyHardConstraint (sys.row i)
        (t / (sys.params i).period) := by
  obtain ⟨s, st₁, st₂, st₃, h⟩ := tick_states sys ht
  have hreport : ∀ i < sys.taskCnt, (st₁.sim.taskSet i).report =
      (sys.accountedAt i t).report := fun i hi => congrArg Job.report (h.charged.job i hi)
  constructor
  · intro hminds i hi hbreak
    obtain ⟨st, hst, hmem, hlate, hred⟩ := (alarmAt_iff ht).mpr ⟨hi, hbreak⟩
    have hmind := hminds st hst i hmem hlate hred
    cases h.afterCharge.symm.trans hst
    rw [hreport i hi] at hmind
    exact (minded_row_iff ht).mp hmind
  · intro hminds st hst i hmem hlate hred
    obtain ⟨hi, hbreak⟩ := (alarmAt_iff ht).mp ⟨st, hst, hmem, hlate, hred⟩
    cases h.afterCharge.symm.trans hst
    rw [hreport i hi]
    exact (minded_row_iff ht).mpr (hminds i hi hbreak)

/-- If the scan minds every job the kernel reports and no job that is left over
at the exit, the flag is down in the runs in which the scan finds something. -/
theorem broken_counts_agree (sys : ClosedSystem)
    (hfit : ∀ i < sys.taskCnt, (sys.task i).weaklyHardConstraint ≤ 255)
    (hreported : ∀ t < sys.hiperperiod - 1, sys.MindsReported t) :
    ∃ st, sys.run sys.hiperperiod = .error (.exit st) ∧
      ((∀ i ∈ st.items (.ready 1),
        ¬ minded (sys.task i).weaklyHardConstraint (st.sim.taskSet i).report
          ((st.sim.taskSet i).numOfPeriods - 1)) →
      (st.sim.weaklyHard = 0 ↔ 0 < st.sim.sumOfWeaklyHardBroken)) := by
  obtain ⟨st, hrun, hfin⟩ := run_exits sys
  refine ⟨st, hrun, fun hleft => ?_⟩
  rw [flag_down_iff hfin, sumOfWeaklyHardBroken_pos_iff hfin, minded_miss_iff hfit hfin]
  constructor
  · rintro ⟨t, ht, i, halarm⟩
    obtain ⟨hi, hbreak⟩ := (alarmAt_iff (by omega)).mp halarm
    exact Or.inl ⟨t, ht, i, halarm,
      (mindsReported_iff (by omega)).mp (hreported t ht) i hi hbreak⟩
  · rintro (⟨t, ht, i, halarm, -⟩ | ⟨i, hmem, hmind⟩)
    · exact ⟨t, ht, i, halarm⟩
    · -- nothing is left over that the scan minds
      obtain ⟨hi, -⟩ := (late_at_exit_iff hfin).mp hmem
      have hnot := hleft i hmem
      rw [hfin.report i hi, (hfin.entry i hi).numOfPeriods] at hnot
      exact absurd hmind hnot

/-- The first task misses twice in a row, and both notice. -/
theorem broken_counts_agree_busyTasks :
    ∃ st, busyTasks.run 12 = .error (.exit st) ∧ st.sim.weaklyHard = 0 ∧
      0 < st.sim.sumOfWeaklyHardBroken := by
  have hreported : ∀ t < 12 - 1, busyTasks.MindsReported t := fun t ht =>
    (mindsReported_iff (Nat.lt_of_lt_of_le ht (by decide))).mpr fun i hi => by
      revert i t
      unfold ClosedSystem.breaksAt ClosedSystem.lateAt
      decide +kernel
  obtain ⟨st, hrun, hagree⟩ := broken_counts_agree busyTasks (by decide) hreported
  obtain ⟨st', hrun', hfin⟩ := run_exits busyTasks
  cases hrun.symm.trans hrun'
  have hnone : ∀ i < 2, ¬ busyTasks.lateAt i (12 - 1) := by
    unfold ClosedSystem.lateAt
    decide +kernel
  have hdown : st.sim.weaklyHard = 0 := by
    refine (flag_down_iff hfin).mpr ⟨10, by decide, 0, (alarmAt_iff (by decide)).mpr ?_⟩
    unfold ClosedSystem.breaksAt ClosedSystem.lateAt
    decide +kernel
  refine ⟨st, hrun, hdown, (hagree fun i hi => ?_).mp hdown⟩
  obtain ⟨hlt, hlate⟩ := (late_at_exit_iff hfin).mp hi
  exact absurd hlate (hnone i hlt)

/-- A hard task is killed, the flag goes down, and the scan finds nothing. -/
theorem broken_counts_disagree :
    ∃ st, (twoFullTasks .edf).run 2 = .error (.exit st) ∧
      st.sim.weaklyHard = 0 ∧ st.sim.sumOfWeaklyHardBroken = 0 := by
  obtain ⟨st, hrun, hfin⟩ := run_exits (twoFullTasks .edf)
  have hbreak : (twoFullTasks .edf).breaksAt 1 0 := by
    unfold ClosedSystem.breaksAt ClosedSystem.lateAt
    decide +kernel
  refine ⟨st, hrun, ?_, ?_⟩
  · exact (flag_down_iff hfin).mpr ⟨0, by decide, 1,
      (alarmAt_iff (by decide)).mpr ⟨by decide, hbreak⟩⟩
  · by_contra hpos
    obtain ⟨i, hi, k, hk, -, hs, -⟩ := (sumOfWeaklyHardBroken_pos_iff hfin).mp
      (Nat.pos_of_ne_zero hpos)
    have hhard : ∀ i < 2,
        ((twoFullTasks .edf).task i).weaklyHardConstraint = 0 := by decide
    exact hs (hhard i hi)

end FreeRtosSim
