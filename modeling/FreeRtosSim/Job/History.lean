import FreeRtosSim.Job.Work

/-!
# The verdict on a period

`rowAt T` is the report of a task after the accounting of tick `T + 1`. A
period that is over keeps its entry, so every period up to `T` has one
verdict: it is reported as met unless its job was left out at the release or
was found late by some tick of the period. The counter a ready job carries is
the streak of that one row, modulo 256, which is what turns the kernel's
decisions into statements about the report.
-/

namespace FreeRtosSim

namespace Job

variable {p : JobParams} {j : Job} {b : Bool}

theorem account_report_ne {k : Nat} (h : k ≠ j.start / p.period) :
    (j.account p b).report k = j.report k := by
  by_cases hc : b = true ∧ j.ready = true
  · obtain ⟨rfl, hr⟩ := hc
    rw [account_charged hr]
    by_cases hdone : j.remaining - 1 = 0
    · rw [charge_done hdone]
      exact Function.update_of_ne h _ _
    · rw [charge_more hdone]
  · rw [account_idle hc]

theorem account_report_mono {k : Nat} (h : j.report k = true) :
    (j.account p b).report k = true := by
  by_cases hc : b = true ∧ j.ready = true
  · obtain ⟨rfl, hr⟩ := hc
    rw [account_charged hr]
    by_cases hdone : j.remaining - 1 = 0
    · rw [charge_done hdone]
      show Function.update j.report (j.start / p.period) true k = true
      by_cases hk : k = j.start / p.period
      · rw [hk, Function.update_self]
      · rw [Function.update_of_ne hk, h]
    · rw [charge_more hdone]
      exact h
  · rw [account_idle hc]
    exact h

/-- The accounting ends a job only by reporting it. -/
theorem account_ready_or_met (h : j.ready = true) :
    (j.account p b).ready = true ∨
      (j.account p b).report (j.start / p.period) = true := by
  cases b with
  | false =>
      rw [account_idle (by simp)]
      exact Or.inl h
  | true =>
      rw [account_charged h]
      by_cases hdone : j.remaining - 1 = 0
      · rw [charge_done hdone]
        exact Or.inr (Function.update_self _ _ _)
      · rw [charge_more hdone]
        exact Or.inl h

end Job

variable {alg : Algorithm} {p : JobParams} {charged : Nat → Bool}
  {t u T k : Nat}

/-- The task's report after the accounting of tick `T + 1`. -/
abbrev rowAt (alg : Algorithm) (p : JobParams) (charged : Nat → Bool)
    (T : Nat) : Nat → Bool := (accounted alg p charged T).report

/-- In tick `t + 1` the accounting leaves a late job. -/
def lateIn (alg : Algorithm) (p : JobParams) (charged : Nat → Bool)
    (t : Nat) : Prop :=
  (accounted alg p charged t).ready = true ∧
    (accounted alg p charged t).late p (t + 1)

/-! ## Entries of periods that are over -/

/-- The last tick that belongs to period `k`. -/
def lastTick (p : JobParams) (k : Nat) : Nat := (k + 1) * p.period - 1

theorem lastTick_succ (p : JobParams) (k : Nat) :
    lastTick p k + 1 = (k + 1) * p.period :=
  Nat.succ_pred_eq_of_pos (Nat.mul_pos (Nat.succ_pos k) p.period_pos)

theorem lastTick_div (p : JobParams) (k : Nat) : lastTick p k / p.period = k := by
  have hlast := lastTick_succ p k
  have hP := p.period_pos
  rw [Nat.succ_mul] at hlast
  rw [Nat.div_eq_iff hP]
  omega

theorem lastTick_succ_mod (p : JobParams) (k : Nat) :
    (lastTick p k + 1) % p.period = 0 := by
  rw [lastTick_succ]
  exact Nat.mul_mod_left _ _

/-- At the end of a period its job is over. -/
theorem culled_lastTick (alg : Algorithm) (p : JobParams)
    (charged : Nat → Bool) (k : Nat) :
    (culled alg p charged (lastTick p k)).ready = false := by
  have hfit := fits_culled alg p charged (lastTick p k)
  rw [lastTick_div] at hfit
  exact hfit.waiting_at_end (Nat.le_of_eq (lastTick_succ p k).symm)

theorem jobAt_succ_report : (jobAt alg p charged (t + 1)).report =
    rowAt alg p charged t := by
  rw [jobAt_succ, Job.wake_report, culled, Job.cull_report]

theorem rowAt_ne (h : k ≠ t / p.period) :
    rowAt alg p charged t k = (jobAt alg p charged t).report k := by
  refine Job.account_report_ne ?_
  rwa [(fits_jobAt alg p charged t).start_div]

/-- The entry of a period that is over at `t` does not change any more. -/
theorem rowAt_past (hk : k < t / p.period) (hT : t ≤ T) :
    rowAt alg p charged T k = (jobAt alg p charged t).report k := by
  induction T, hT using Nat.le_induction with
  | base => exact rowAt_ne (Nat.ne_of_lt hk)
  | succ T hT ih =>
      have hlt : k < (T + 1) / p.period :=
        Nat.lt_of_lt_of_le hk (Nat.div_le_div_right (by omega))
      rw [rowAt_ne (Nat.ne_of_lt hlt), jobAt_succ_report, ih]

/-- The entry of period `k` is final after the last accounting in it. -/
theorem rowAt_lastTick (hT : lastTick p k ≤ T) :
    rowAt alg p charged T k = rowAt alg p charged (lastTick p k) k := by
  rcases Nat.eq_or_lt_of_le hT with heq | hlt
  · rw [heq]
  · have hk : k < (lastTick p k + 1) / p.period := by
      rw [lastTick_succ, Nat.mul_div_cancel _ p.period_pos]
      exact Nat.lt_succ_self k
    rw [rowAt_past hk hlt, jobAt_succ_report]

theorem report_fresh : (jobAt alg p charged (k * p.period)).report k = false := by
  cases k with
  | zero =>
      rw [Nat.zero_mul]
      show (Job.initial alg p).report 0 = false
      rw [Job.initial, Job.release_report]
      rfl
  | succ k =>
      have hlater := (fits_jobAt alg p charged (lastTick p k)).report_later
      rw [lastTick_div] at hlater
      rw [← lastTick_succ, jobAt_succ_report,
        rowAt_ne (by rw [lastTick_div]; omega)]
      exact hlater _ (Nat.lt_succ_self k)

/-! ## The counter of a ready job -/

theorem met_of_ready (hs : p.skip ≠ 0)
    (hr : (jobAt alg p charged t).ready = true) (hT : t ≤ T) :
    (jobAt alg p charged t).met =
      streak (rowAt alg p charged T) (t / p.period) % 2 ^ 8 := by
  rw [(credit_jobAt alg p charged t).met_eq hs, Job.judged_of_ready hr]
  congr 1
  exact streak_congr fun m hm => (rowAt_past hm hT).symm

/-- After the cull the counter of a waiting task has judged its period. -/
theorem met_of_culled (hs : p.skip ≠ 0)
    (hw : (culled alg p charged t).ready = false) :
    (culled alg p charged t).met =
      streak (rowAt alg p charged t) (t / p.period + 1) % 2 ^ 8 := by
  have hcredit := (credit_accounted alg p charged t).cull
    ((fits_jobAt alg p charged t).account (charged t)).2.2.2.2 (t + 1)
  rw [culled] at hw ⊢
  rw [hcredit.met_eq hs, Job.judged_of_waiting hw, Job.cull_report]

/-- RTO leaves out exactly the jobs whose predecessors fill the counter. -/
theorem released_iff (alg : Algorithm) (p : JobParams) (charged : Nat → Bool)
    (hT : k * p.period ≤ T) :
    (jobAt alg p charged (k * p.period)).ready = true ↔
      ¬ (alg = .rto ∧ p.skip ≠ 0 ∧
        p.skip ≤ streak (rowAt alg p charged T) k % 2 ^ 8 + 1) := by
  have hP := p.period_pos
  have howes : ∀ j : Job, (p.skip ≠ 0 →
      j.met = streak (rowAt alg p charged T) k % 2 ^ 8) →
      (¬ skips alg p j ↔ ¬ (alg = .rto ∧ p.skip ≠ 0 ∧
        p.skip ≤ streak (rowAt alg p charged T) k % 2 ^ 8 + 1)) := by
    intro j hmet
    rw [skips, Job.red, Job.owes, not_or, not_lt]
    refine not_congr (and_congr_right fun _ => and_congr_right fun hs => ?_)
    rw [hmet hs]
  cases k with
  | zero =>
      rw [Nat.zero_mul]
      show (Job.initial alg p).ready = true ↔ _
      rw [Job.initial, Job.release_ready rfl]
      exact howes _ fun _ => rfl
  | succ k =>
      have hwait := culled_lastTick alg p charged k
      rw [← lastTick_succ] at hT ⊢
      rw [jobAt_succ, Job.wake_released hwait (lastTick_succ_mod p k),
        Job.release_ready hwait]
      refine howes _ fun hs => ?_
      rw [met_of_culled hs hwait, lastTick_div]
      congr 1
      refine streak_congr fun m hm => ?_
      have hlt : m < (lastTick p k + 1) / p.period := by
        rwa [lastTick_succ, Nat.mul_div_cancel _ hP]
      rw [rowAt_past hlt hT, jobAt_succ_report]

/-! ## The verdict -/

/-- Between two ticks of one period no other period starts. -/
theorem succ_mod_ne (hut : u ≤ t) (hdiv : (t + 1) / p.period = u / p.period) :
    (t + 1) % p.period ≠ 0 ∧ t / p.period = u / p.period := by
  have hlo : u / p.period ≤ t / p.period := Nat.div_le_div_right hut
  have hhi : t / p.period ≤ (t + 1) / p.period :=
    Nat.div_le_div_right (Nat.le_succ t)
  refine ⟨fun hc => ?_, by omega⟩
  have := Nat.succ_div_of_dvd (Nat.dvd_of_mod_eq_zero hc)
  omega

/-- A task that is waiting after the cull waits to the end of its period, and
its entry stays as it is. -/
theorem waiting_stays (hw : (culled alg p charged u).ready = false)
    (hut : u ≤ t) (hdiv : t / p.period = u / p.period) :
    (culled alg p charged t).ready = false ∧
      rowAt alg p charged t = rowAt alg p charged u := by
  induction t, hut using Nat.le_induction with
  | base => exact ⟨hw, rfl⟩
  | succ t hut ih =>
      obtain ⟨hnew, hsame⟩ := succ_mod_ne hut hdiv
      obtain ⟨hwt, hrow⟩ := ih hsame
      have hjob : jobAt alg p charged (t + 1) = culled alg p charged t := by
        rw [jobAt_succ, Job.wake_kept hnew]
      have hidle : accounted alg p charged (t + 1) = culled alg p charged t := by
        rw [accounted, hjob]
        exact Job.account_idle (by simp [hwt])
      have hcull : culled alg p charged (t + 1) = culled alg p charged t := by
        rw [culled, hidle]
        exact Job.cull_kept (by simp [hwt])
      rw [hcull, rowAt, hidle, culled, Job.cull_report]
      exact ⟨hwt, hrow⟩

/-- A job found late is reported as missed. -/
theorem rowAt_of_late (hlate : lateIn alg p charged u)
    (hT : lastTick p (u / p.period) ≤ T) :
    rowAt alg p charged T (u / p.period) = false := by
  have hle : u ≤ lastTick p (u / p.period) := by
    have := (period_bounds p u).2
    rw [← lastTick_succ] at this
    omega
  have hdrop : (culled alg p charged u).ready = false := by
    rw [culled, Job.cull_dropped hlate]
    rfl
  have hrow := (waiting_stays hdrop hle (lastTick_div p _)).2
  rw [rowAt_lastTick hT, hrow]
  exact ((fits_jobAt alg p charged u).account (charged u)).2.2.2.2 hlate.1

/-- A job that was left out is reported as missed. -/
theorem rowAt_of_skipped
    (hw : (jobAt alg p charged (k * p.period)).ready = false)
    (hT : lastTick p k ≤ T) : rowAt alg p charged T k = false := by
  have hP := p.period_pos
  have hdiv : k * p.period / p.period = k := Nat.mul_div_cancel _ hP
  have hle : k * p.period ≤ lastTick p k := by
    have hlast := lastTick_succ p k
    rw [Nat.succ_mul] at hlast
    omega
  have hidle : accounted alg p charged (k * p.period) =
      jobAt alg p charged (k * p.period) :=
    Job.account_idle (by simp [hw])
  have hcull : (culled alg p charged (k * p.period)).ready = false := by
    rw [culled, hidle, Job.cull_kept (by simp [hw])]
    exact hw
  have hrow := (waiting_stays hcull hle (by rw [lastTick_div, hdiv])).2
  rw [rowAt_lastTick hT, hrow, rowAt, hidle]
  exact report_fresh

/-- As long as it is not found late, a released job is ready or met. -/
theorem ready_or_met (hr : (jobAt alg p charged (k * p.period)).ready = true)
    (hkt : k * p.period ≤ t) (hdiv : t / p.period = k)
    (hlate : ∀ v, k * p.period ≤ v → v < t → ¬ lateIn alg p charged v) :
    (accounted alg p charged t).ready = true ∨
      rowAt alg p charged t k = true := by
  have hP := p.period_pos
  have hk : k * p.period / p.period = k := Nat.mul_div_cancel _ hP
  induction t, hkt using Nat.le_induction with
  | base =>
      have hnow := Job.account_ready_or_met (p := p)
        (b := charged (k * p.period)) hr
      rwa [(fits_jobAt alg p charged _).start_div, hk] at hnow
  | succ t hkt ih =>
      obtain ⟨hnew, hsame⟩ := succ_mod_ne hkt (hdiv.trans hk.symm)
      rcases ih (hsame.trans hk) fun v hv hvt => hlate v hv (by omega) with
        hready | hmet
      · have hkeep : jobAt alg p charged (t + 1) = accounted alg p charged t := by
          rw [jobAt_succ, Job.wake_kept hnew, culled, Job.cull_kept]
          exact hlate t hkt (Nat.lt_succ_self t)
        have hr' : (jobAt alg p charged (t + 1)).ready = true := by
          rw [hkeep]
          exact hready
        have hnow := Job.account_ready_or_met (p := p)
          (b := charged (t + 1)) hr'
        rwa [(fits_jobAt alg p charged _).start_div, hdiv] at hnow
      · rw [← jobAt_succ_report] at hmet
        exact Or.inr (Job.account_report_mono hmet)

/-- A job still ready after the last accounting of its period is late. -/
theorem late_at_lastTick (alg : Algorithm) (p : JobParams)
    (charged : Nat → Bool)
    (hr : (accounted alg p charged (lastTick p k)).ready = true) :
    lateIn alg p charged (lastTick p k) := by
  obtain ⟨hstart, hpos, -⟩ := (fits_jobAt alg p charged (lastTick p k)).account
    (charged (lastTick p k))
  have hlast := lastTick_succ p k
  have hrem : 1 ≤ (accounted alg p charged (lastTick p k)).remaining := hpos hr
  have hbegin : (accounted alg p charged (lastTick p k)).start =
      k * p.period := by
    rw [lastTick_div] at hstart
    exact hstart
  rw [Nat.succ_mul] at hlast
  refine ⟨hr, ?_⟩
  rw [Job.late]
  omega

/-- The verdict on a period that is over. -/
theorem rowAt_eq_false_iff (alg : Algorithm) (p : JobParams)
    (charged : Nat → Bool) (hT : lastTick p k ≤ T) :
    rowAt alg p charged T k = false ↔
      (jobAt alg p charged (k * p.period)).ready = false ∨
        ∃ v ≤ T, v / p.period = k ∧ lateIn alg p charged v := by
  constructor
  · intro hrow
    by_contra hcon
    rw [not_or, Bool.not_eq_false] at hcon
    obtain ⟨hr, hnone⟩ := hcon
    have hlast := lastTick_succ p k
    rw [Nat.succ_mul] at hlast
    have hP := p.period_pos
    have hcases := ready_or_met hr (t := lastTick p k) (by omega)
      (lastTick_div p k) fun v hlo hhi hl =>
        hnone ⟨v, by omega, by rw [Nat.div_eq_iff hP]; omega, hl⟩
    rcases hcases with hready | hmet
    · exact hnone ⟨_, hT, lastTick_div p k, late_at_lastTick alg p charged hready⟩
    · rw [rowAt_lastTick hT, hmet] at hrow
      exact Bool.noConfusion hrow
  · rintro (hw | ⟨v, -, rfl, hlate⟩)
    · exact rowAt_of_skipped hw hT
    · exact rowAt_of_late hlate hT

end FreeRtosSim
