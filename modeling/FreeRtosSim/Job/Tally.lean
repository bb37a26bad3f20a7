import FreeRtosSim.Job.History

/-!
# The account of a task's jobs

Every job that is over was completed, dropped or left out, and each of the
three is written down in a place of its own: the report, the count of killed
jobs, the wait list. `Tally` says that the three add up to the number of jobs
that are over. The accounting and the cull end the job they write down and
the release starts the next one, so each of them keeps the balance.

The report and the count are also read back as events: an entry of the report
is the tick that completed the job, the count is the number of ticks that
dropped one, and no period has two such ticks.
-/

namespace FreeRtosSim

namespace Job

/-- In period `n`, with `skipped` jobs left out so far, the account of the
jobs that are over is balanced. -/
def Tally (n skipped : Nat) (j : Job) : Prop :=
  metCount j.report (n + 1) + j.killed + skipped = j.judged n

variable {alg : Algorithm} {p : JobParams} {j : Job} {n skipped t : Nat}
  {b : Bool}

theorem metCount_update {row : Nat → Bool} (h : row n = false) :
    metCount (Function.update row n true) (n + 1) =
      metCount row (n + 1) + 1 := by
  have hold : metCount (Function.update row n true) n = metCount row n := by
    refine count_congr fun k hk => ?_
    rw [Function.update_of_ne (Nat.ne_of_lt hk)]
  unfold metCount at hold ⊢
  rw [Nat.count_succ, Nat.count_succ, hold, Function.update_self, h]
  simp

theorem Tally.account (h : Tally n skipped j) (hf : Fits p n t j) :
    Tally n skipped (j.account p b) := by
  by_cases hc : b = true ∧ j.ready = true
  · obtain ⟨rfl, hr⟩ := hc
    rw [account_charged hr]
    by_cases hdone : j.remaining - 1 = 0
    · rw [charge_done hdone, hf.start_div]
      rw [Tally, judged_of_ready hr] at h
      rw [Tally, judged_of_waiting rfl, metCount_update (hf.report_now hr)]
      show metCount j.report (n + 1) + 1 + j.killed + skipped = n + 1
      omega
    · rw [charge_more hdone]
      exact h
  · rw [account_idle hc]
    exact h

theorem Tally.cull (h : Tally n skipped j) : Tally n skipped (j.cull p t) := by
  by_cases hlate : j.ready = true ∧ j.late p t
  · rw [cull_dropped hlate]
    rw [Tally, judged_of_ready hlate.1] at h
    rw [Tally, judged_of_waiting rfl]
    show metCount j.report (n + 1) + (j.killed + 1) + skipped = n + 1
    omega
  · rw [cull_kept hlate]
    exact h

theorem release_killed : (j.release alg p t).killed = j.killed := by
  unfold release
  split <;> rfl

/-- The next job is either started or one more that was left out. -/
theorem Tally.release (h : Tally n skipped j) (hw : j.ready = false)
    (hlater : j.report (n + 1) = false) :
    Tally (n + 1)
      (skipped + if (j.release alg p t).ready = false then 1 else 0)
      (j.release alg p t) := by
  rw [Tally, judged_of_waiting hw] at h
  have hnew : metCount j.report (n + 1 + 1) = metCount j.report (n + 1) := by
    unfold metCount
    rw [Nat.count_succ, hlater]
    simp
  rw [Tally, release_report, release_killed, hnew, judged]
  cases (j.release alg p t).ready <;> simp <;> omega

end Job

/-! ## Along a run -/

variable {alg : Algorithm} {p : JobParams} {charged : Nat → Bool}
  {t u v k : Nat}

/-- The jobs among the first `n` that were left out at their release. -/
def leftOutCount (alg : Algorithm) (p : JobParams) (charged : Nat → Bool)
    (n : Nat) : Nat :=
  Nat.count (fun k => (jobAt alg p charged (k * p.period)).ready = false) n

theorem tally_initial (alg : Algorithm) (p : JobParams)
    (charged : Nat → Bool) :
    (Job.initial alg p).Tally 0 (leftOutCount alg p charged 1) := by
  have hcnt : metCount (Job.initial alg p).report 1 = 0 := by
    rw [Job.initial, Job.release_report]
    rfl
  have hkilled : (Job.initial alg p).killed = 0 := Job.release_killed
  have hout : leftOutCount alg p charged 1 =
      if (Job.initial alg p).ready = false then 1 else 0 := by
    rw [leftOutCount, Nat.count_succ, Nat.count_zero, Nat.zero_add, Nat.zero_mul]
    rfl
  rw [Job.Tally, hcnt, hkilled, hout, Job.judged]
  cases (Job.initial alg p).ready <;> rfl

/-- After every tick the account is balanced. -/
theorem tally_jobAt (alg : Algorithm) (p : JobParams) (charged : Nat → Bool)
    (t : Nat) : (jobAt alg p charged t).Tally (t / p.period)
      (leftOutCount alg p charged (t / p.period + 1)) := by
  induction t with
  | zero =>
      rw [Nat.zero_div]
      exact tally_initial alg p charged
  | succ t ih =>
      have hfit := fits_culled alg p charged t
      have hcull : (culled alg p charged t).Tally (t / p.period)
          (leftOutCount alg p charged (t / p.period + 1)) :=
        (ih.account (fits_jobAt alg p charged t)).cull
      rw [jobAt_succ]
      by_cases hp : (t + 1) % p.period = 0
      · have hdvd := Nat.dvd_of_mod_eq_zero hp
        have hdiv : (t + 1) / p.period = t / p.period + 1 :=
          Nat.succ_div_of_dvd hdvd
        have hend : (t / p.period + 1) * p.period = t + 1 := by
          rw [← hdiv]
          exact Nat.div_mul_cancel hdvd
        have hw := hfit.waiting_at_end (Nat.le_of_eq hend)
        have hlater := hfit.report_later _ (Nat.lt_succ_self (t / p.period))
        have hout : leftOutCount alg p charged (t / p.period + 1 + 1) =
            leftOutCount alg p charged (t / p.period + 1) +
              if ((culled alg p charged t).release alg p (t + 1)).ready = false
                then 1 else 0 := by
          rw [leftOutCount, Nat.count_succ, hend, jobAt_succ,
            Job.wake_released hw hp]
          rfl
        rw [hdiv, hout, Job.wake_released hw hp]
        exact hcull.release hw hlater
      · have hdiv : (t + 1) / p.period = t / p.period :=
          Nat.succ_div_of_not_dvd fun hc => hp (Nat.mod_eq_zero_of_dvd hc)
        rw [hdiv, Job.wake_kept hp]
        exact hcull

/-! ## The events behind the account -/

/-- The accounting of tick `t + 1` completes the job. -/
def doneIn (alg : Algorithm) (p : JobParams) (charged : Nat → Bool)
    (t : Nat) : Prop :=
  (jobAt alg p charged t).ready = true ∧
    (accounted alg p charged t).ready = false

instance (alg : Algorithm) (p : JobParams) (charged : Nat → Bool) :
    DecidablePred (lateIn alg p charged) :=
  fun _ => inferInstanceAs (Decidable (_ ∧ _))

/-- The cull ends a ready job exactly if it is late. -/
theorem lateIn_iff : lateIn alg p charged t ↔
    (accounted alg p charged t).ready = true ∧
      (culled alg p charged t).ready = false := by
  rw [lateIn, culled]
  refine and_congr_right fun hr => ?_
  rw [← Bool.not_eq_true, Job.cull_ready]
  simp [hr]

namespace Job

variable {j : Job} {b : Bool}

/-- The accounting reports exactly the job it ends. -/
theorem account_report_iff (k : Nat) : (j.account p b).report k = true ↔
    j.report k = true ∨ (k = j.start / p.period ∧ j.ready = true ∧
      (j.account p b).ready = false) := by
  by_cases hc : b = true ∧ j.ready = true
  · obtain ⟨rfl, hr⟩ := hc
    rw [account_charged hr]
    by_cases hdone : j.remaining - 1 = 0
    · rw [charge_done hdone]
      by_cases hk : k = j.start / p.period
      · simp [hk, hr]
      · simp [hk]
    · rw [charge_more hdone]
      simp [hr]
  · rw [account_idle hc]
    simp

theorem account_killed : (j.account p b).killed = j.killed := by
  unfold account charge
  split
  · split <;> rfl
  · rfl

theorem cull_killed : (j.cull p t).killed =
    j.killed + if j.ready = true ∧ j.late p t then 1 else 0 := by
  unfold cull
  split <;> rfl

theorem wake_killed : (j.wake alg p t).killed = j.killed := by
  unfold wake
  split
  · exact release_killed
  · rfl

end Job

/-- An entry of the report is a tick that completed the job. -/
theorem jobAt_report_iff : (jobAt alg p charged t).report k = true ↔
    ∃ u < t, u / p.period = k ∧ doneIn alg p charged u := by
  induction t with
  | zero =>
      have hblank : (jobAt alg p charged 0).report k = false := by
        show (Job.initial alg p).report k = false
        rw [Job.initial, Job.release_report]
        rfl
      simp [hblank]
  | succ t ih =>
      have hstep := Job.account_report_iff (p := p) (b := charged t)
        (j := jobAt alg p charged t) k
      rw [(fits_jobAt alg p charged t).start_div, ih] at hstep
      rw [jobAt_succ_report, rowAt, accounted, hstep]
      constructor
      · rintro (⟨u, hu, hk, hdone⟩ | ⟨hk, hr, hend⟩)
        · exact ⟨u, Nat.lt_succ_of_lt hu, hk, hdone⟩
        · exact ⟨t, Nat.lt_succ_self t, hk.symm, hr, hend⟩
      · rintro ⟨u, hu, hk, hdone⟩
        rcases Nat.lt_succ_iff_lt_or_eq.mp hu with hlt | rfl
        · exact Or.inl ⟨u, hlt, hk, hdone⟩
        · exact Or.inr ⟨hk.symm, hdone.1, hdone.2⟩

/-- The count of killed jobs is the number of ticks that dropped one. -/
theorem jobAt_killed (alg : Algorithm) (p : JobParams)
    (charged : Nat → Bool) (t : Nat) :
    (jobAt alg p charged t).killed = Nat.count (lateIn alg p charged) t := by
  induction t with
  | zero => exact Job.release_killed
  | succ t ih =>
      rw [Nat.count_succ, ← ih, jobAt_succ, Job.wake_killed, culled,
        Job.cull_killed, accounted, Job.account_killed]
      rfl

/-- The tick ends the job, in one way or the other. -/
theorem culled_of_end (h : doneIn alg p charged t ∨ lateIn alg p charged t) :
    (culled alg p charged t).ready = false := by
  rcases h with ⟨-, hdone⟩ | hlate
  · rw [culled, Job.cull_kept fun hc => Bool.noConfusion (hc.1.symm.trans hdone)]
    exact hdone
  · exact (lateIn_iff.mp hlate).2

theorem ready_of_end (h : doneIn alg p charged t ∨ lateIn alg p charged t) :
    (jobAt alg p charged t).ready = true := by
  rcases h with hdone | hlate
  · exact hdone.1
  · exact Job.account_ready hlate.1

/-- Once its job is over the task waits for the next period. -/
theorem waiting_after (hw : (culled alg p charged u).ready = false)
    (huv : u < v) (hdiv : v / p.period = u / p.period) :
    (jobAt alg p charged v).ready = false := by
  obtain ⟨v, rfl⟩ : ∃ w, v = w + 1 := ⟨v - 1, by omega⟩
  obtain ⟨hnew, hsame⟩ := succ_mod_ne (Nat.le_of_lt_succ huv) hdiv
  rw [jobAt_succ, Job.wake_kept hnew]
  exact (waiting_stays hw (Nat.le_of_lt_succ huv) hsame).1

/-- A job is ended by one tick. -/
theorem end_unique (hu : doneIn alg p charged u ∨ lateIn alg p charged u)
    (hv : doneIn alg p charged v ∨ lateIn alg p charged v)
    (hdiv : u / p.period = v / p.period) : u = v := by
  rcases Nat.lt_trichotomy u v with hlt | heq | hgt
  · have hw := waiting_after (culled_of_end hu) hlt hdiv.symm
    exact Bool.noConfusion (hw.symm.trans (ready_of_end hv))
  · exact heq
  · have hw := waiting_after (culled_of_end hv) hgt hdiv
    exact Bool.noConfusion (hw.symm.trans (ready_of_end hu))

/-- No job is both completed and dropped. -/
theorem not_done_and_late (hu : doneIn alg p charged u)
    (hdiv : u / p.period = v / p.period) : ¬ lateIn alg p charged v := by
  intro hv
  obtain rfl := end_unique (Or.inl hu) (Or.inr hv) hdiv
  exact Bool.noConfusion (hu.2.symm.trans hv.1)

end FreeRtosSim
