import FreeRtosSim.Job.Machine
import FreeRtosSim.Lib.Streak

/-!
# What always holds of a task machine

`Fits p k t j` is the state of a task inside period `k` at time `t`: a ready
job has work left and can still finish in its period, and nothing is
reported about periods that are not over. Between the passes of a tick the
period and the time are one apart, which is why they are separate
parameters: the accounting and the cull move the time, only the release
moves the period. A release never finds the task ready, since a job that
fits at the end of its period has no work left.

`Credit` relates the eight-bit counter to the reported history: it is the
streak of met periods modulo 256.
-/

namespace FreeRtosSim

namespace Job

/-- The task in period `k` at time `t`. -/
structure Fits (p : JobParams) (k t : Nat) (j : Job) : Prop where
  start_eq : j.start = k * p.period
  remaining_pos : j.ready = true → 1 ≤ j.remaining
  in_time : j.ready = true → t + j.remaining ≤ (k + 1) * p.period
  remaining_le : j.remaining ≤ p.duration
  report_later : ∀ m, k < m → j.report m = false
  report_now : j.ready = true → j.report k = false

/-- The periods already judged in period `k`: a waiting task's current job
is over. -/
def judged (k : Nat) (j : Job) : Nat := if j.ready = true then k else k + 1

/-- The counter is the streak of met periods, modulo its width. -/
structure Credit (p : JobParams) (k : Nat) (j : Job) : Prop where
  met_eq : p.skip ≠ 0 → j.met = streak j.report (j.judged k) % 2 ^ 8
  met_hard : p.skip = 0 → j.met = 0

theorem judged_of_ready {k : Nat} {j : Job} (h : j.ready = true) :
    j.judged k = k := if_pos h

theorem judged_of_waiting {k : Nat} {j : Job} (h : j.ready = false) :
    j.judged k = k + 1 := if_neg (by simp [h])

theorem release_report {p : JobParams} {alg : Algorithm} {t : Nat} {j : Job} :
    (j.release alg p t).report = j.report := by
  unfold release
  split <;> rfl

/-! ## Creation and release -/

theorem fits_release {alg : Algorithm} {p : JobParams} {k t : Nat} {j : Job}
    (hready : j.ready = false) (hreport : ∀ m, k ≤ m → j.report m = false)
    (ht : t = k * p.period) : Fits p k t (j.release alg p t) := by
  have hd := p.duration_pos
  have hdp := p.duration_le
  have hmul : (k + 1) * p.period = k * p.period + p.period :=
    Nat.succ_mul k p.period
  unfold release
  split
  · exact
      { start_eq := ht
        remaining_pos := fun h => absurd h (by simp [hready])
        in_time := fun h => absurd h (by simp [hready])
        remaining_le := Nat.le_refl _
        report_later := fun m hm => hreport m (Nat.le_of_lt hm)
        report_now := fun _ => hreport k (Nat.le_refl k) }
  · exact
      { start_eq := ht
        remaining_pos := fun _ => hd
        in_time := fun _ => by
          show t + p.duration ≤ (k + 1) * p.period
          omega
        remaining_le := Nat.le_refl _
        report_later := fun m hm => hreport m (Nat.le_of_lt hm)
        report_now := fun _ => hreport k (Nat.le_refl k) }

theorem fits_initial (alg : Algorithm) (p : JobParams) :
    Fits p 0 0 (initial alg p) :=
  fits_release rfl (fun _ _ => rfl) (by simp)

/-- A release judges nothing but, under RTO, the job it leaves out, and
leaving a job out resets the counter. -/
theorem credit_release {alg : Algorithm} {p : JobParams} {k t : Nat} {j : Job}
    (hready : j.ready = false) (hnow : j.report k = false)
    (hmet : p.skip ≠ 0 → j.met = streak j.report k % 2 ^ 8)
    (hhard : p.skip = 0 → j.met = 0) :
    Credit p k (j.release alg p t) := by
  unfold release
  split
  · next hskip =>
      refine ⟨fun _ => ?_, fun _ => rfl⟩
      rw [judged_of_waiting (by exact hready)]
      show 0 = streak j.report (k + 1) % 2 ^ 8
      rw [streak_succ_of_missed hnow]
      rfl
  · refine ⟨fun hs => ?_, hhard⟩
    rw [judged_of_ready rfl]
    exact hmet hs

theorem credit_initial (alg : Algorithm) (p : JobParams) :
    Credit p 0 (initial alg p) :=
  credit_release rfl rfl (fun _ => rfl) fun _ => rfl

/-! ## The accounting and the cull -/

section Step

variable {p : JobParams} {k t : Nat} {j : Job}

theorem account_idle {charged : Bool} (h : ¬ (charged = true ∧ j.ready = true)) :
    j.account p charged = j := if_neg h

theorem account_charged (hready : j.ready = true) :
    j.account p true = j.charge p := if_pos ⟨rfl, hready⟩

theorem charge_done (h : j.remaining - 1 = 0) :
    j.charge p = { j with
      ready := false
      remaining := 0
      report := Function.update j.report (j.start / p.period) true
      met := if p.skip ≠ 0 then (j.met + 1) % 2 ^ 8 else j.met } := if_pos h

theorem charge_more (h : ¬ j.remaining - 1 = 0) :
    j.charge p = { j with remaining := j.remaining - 1 } := if_neg h

theorem Fits.start_div (h : Fits p k t j) : j.start / p.period = k := by
  rw [h.start_eq, Nat.mul_div_cancel _ p.period_pos]

/-- A ready job can still finish within its period, counted from its
release. -/
theorem Fits.finish_le (h : Fits p k t j) (hready : j.ready = true) :
    t + j.remaining ≤ j.start + p.period := by
  rw [h.start_eq, ← Nat.succ_mul]
  exact h.in_time hready

/-- A charged job is never late: it used the tick it was given. -/
theorem Fits.charge_not_late (h : Fits p k t j) (hready : j.ready = true) :
    (j.charge p).ready = true → ¬ (j.charge p).late p (t + 1) := by
  have hfin := h.finish_le hready
  by_cases hdone : j.remaining - 1 = 0
  · rw [charge_done hdone]
    intro hr
    exact absurd hr (by simp)
  · rw [charge_more hdone]
    intro _ hlate
    simp only [late] at hlate
    omega

/-- The accounting keeps everything but the laxity of a job that was not
charged. -/
theorem Fits.account (h : Fits p k t j) (charged : Bool) :
    (j.account p charged).start = k * p.period ∧
    ((j.account p charged).ready = true → 1 ≤ (j.account p charged).remaining) ∧
    (j.account p charged).remaining ≤ p.duration ∧
    (∀ m, k < m → (j.account p charged).report m = false) ∧
    ((j.account p charged).ready = true →
      (j.account p charged).report k = false) := by
  by_cases hc : charged = true ∧ j.ready = true
  · obtain ⟨rfl, hready⟩ := hc
    rw [account_charged hready]
    have hle := h.remaining_le
    by_cases hdone : j.remaining - 1 = 0
    · rw [charge_done hdone]
      refine ⟨h.start_eq, fun hr => absurd hr (by simp), Nat.zero_le _, ?_,
        fun hr => absurd hr (by simp)⟩
      intro m hm
      show Function.update j.report (j.start / p.period) true m = false
      rw [h.start_div, Function.update_of_ne (by omega)]
      exact h.report_later m hm
    · rw [charge_more hdone]
      refine ⟨h.start_eq, fun _ => ?_, ?_, h.report_later, fun _ =>
        h.report_now hready⟩
      · show 1 ≤ j.remaining - 1
        omega
      · show j.remaining - 1 ≤ p.duration
        omega
  · rw [account_idle hc]
    exact ⟨h.start_eq, h.remaining_pos, h.remaining_le, h.report_later,
      h.report_now⟩

theorem cull_kept (h : ¬ (j.ready = true ∧ j.late p t)) : j.cull p t = j :=
  if_neg h

theorem cull_dropped (h : j.ready = true ∧ j.late p t) : j.cull p t = j.drop :=
  if_pos h

/-- After the cull the task fits one tick later in the same period. -/
theorem Fits.cull_account (h : Fits p k t j) (charged : Bool) :
    Fits p k (t + 1) ((j.account p charged).cull p (t + 1)) := by
  obtain ⟨hstart, hpos, hle, hlater, hnow⟩ := h.account charged
  have hmul : (k + 1) * p.period = k * p.period + p.period :=
    Nat.succ_mul k p.period
  generalize j.account p charged = j' at *
  by_cases hlate : j'.ready = true ∧ j'.late p (t + 1)
  · rw [cull_dropped hlate]
    exact
      { start_eq := hstart
        remaining_pos := fun hr => absurd hr (by simp [drop])
        in_time := fun hr => absurd hr (by simp [drop])
        remaining_le := hle
        report_later := hlater
        report_now := fun hr => absurd hr (by simp [drop]) }
  · rw [cull_kept hlate]
    refine ⟨hstart, hpos, fun hr => ?_, hle, hlater, hnow⟩
    have hnot : ¬ j'.late p (t + 1) := fun hl => hlate ⟨hr, hl⟩
    simp only [late] at hnot
    omega

/-- At the end of its period a task that fits is waiting. -/
theorem Fits.waiting_at_end (h : Fits p k t j) (ht : (k + 1) * p.period ≤ t) :
    j.ready = false := by
  by_contra hr
  have hr : j.ready = true := by simpa using hr
  have := h.in_time hr
  have := h.remaining_pos hr
  omega

theorem wake_released {alg : Algorithm} (hr : j.ready = false)
    (ht : t % p.period = 0) : j.wake alg p t = j.release alg p t :=
  if_pos ⟨hr, ht⟩

theorem wake_kept {alg : Algorithm} (ht : t % p.period ≠ 0) :
    j.wake alg p t = j := if_neg fun h => ht h.2

end Step

/-! ## The counter -/

section Counter

variable {p : JobParams} {k t : Nat} {j : Job}

theorem Credit.account (hf : Fits p k t j) (h : Credit p k j)
    (charged : Bool) : Credit p k (j.account p charged) := by
  by_cases hc : charged = true ∧ j.ready = true
  · obtain ⟨rfl, hready⟩ := hc
    have hmet := h.met_eq
    rw [judged_of_ready hready] at hmet
    rw [account_charged hready]
    by_cases hdone : j.remaining - 1 = 0
    · rw [charge_done hdone, hf.start_div]
      refine ⟨fun hs => ?_, fun hs => ?_⟩
      · rw [judged_of_waiting rfl]
        show (if p.skip ≠ 0 then (j.met + 1) % 2 ^ 8 else j.met) =
          streak (Function.update j.report k true) (k + 1) % 2 ^ 8
        have hold : streak (Function.update j.report k true) k =
            streak j.report k :=
          streak_congr fun m hm => Function.update_of_ne (by omega) _ _
        rw [if_pos hs, streak_succ_of_met (Function.update_self _ _ _), hold,
          hmet hs]
        omega
      · show (if p.skip ≠ 0 then (j.met + 1) % 2 ^ 8 else j.met) = 0
        rw [if_neg (by simp [hs])]
        exact h.met_hard hs
    · rw [charge_more hdone]
      refine ⟨fun hs => ?_, h.met_hard⟩
      rw [judged_of_ready (by exact hready)]
      exact hmet hs
  · rw [account_idle hc]
    exact h

theorem Credit.cull (h : Credit p k j) (hnow : j.ready = true →
    j.report k = false) (t : Nat) : Credit p k (j.cull p t) := by
  by_cases hlate : j.ready = true ∧ j.late p t
  · rw [cull_dropped hlate]
    refine ⟨fun _ => ?_, fun _ => rfl⟩
    rw [judged_of_waiting rfl]
    show 0 = streak j.report (k + 1) % 2 ^ 8
    rw [streak_succ_of_missed (hnow hlate.1)]
    rfl
  · rw [cull_kept hlate]
    exact h

end Counter

end Job

/-! ## Along a run -/

section Run

variable (alg : Algorithm) (p : JobParams) (charged : Nat → Bool)

/-- The task in tick `t + 1` after the accounting. -/
def accounted (t : Nat) : Job := (jobAt alg p charged t).account p (charged t)

/-- The task in tick `t + 1` after the accounting and the cull. -/
def culled (t : Nat) : Job := (accounted alg p charged t).cull p (t + 1)

theorem jobAt_succ (t : Nat) :
    jobAt alg p charged (t + 1) =
      (culled alg p charged t).wake alg p (t + 1) := rfl

theorem period_bounds (t : Nat) :
    t / p.period * p.period ≤ t ∧ t < (t / p.period + 1) * p.period :=
  ⟨Nat.div_mul_le_self t p.period, by
    have := Nat.lt_mul_div_succ t p.period_pos
    rwa [Nat.mul_comm] at this⟩

/-- The step of both invariants: the release moves on to the next period
exactly when the tick starts one. -/
theorem fits_credit_wake {t : Nat} {j : Job}
    (hf : Job.Fits p (t / p.period) (t + 1) j)
    (hc : Job.Credit p (t / p.period) j) :
    Job.Fits p ((t + 1) / p.period) (t + 1) (j.wake alg p (t + 1)) ∧
    Job.Credit p ((t + 1) / p.period) (j.wake alg p (t + 1)) := by
  obtain ⟨hlo, hhi⟩ := period_bounds p t
  have hdiv : (t + 1) / p.period =
      t / p.period + if p.period ∣ t + 1 then 1 else 0 := Nat.succ_div
  by_cases hdvd : (t + 1) % p.period = 0
  · rw [if_pos (Nat.dvd_of_mod_eq_zero hdvd)] at hdiv
    have hend : t + 1 = (t / p.period + 1) * p.period := by
      have := Nat.div_mul_cancel (Nat.dvd_of_mod_eq_zero hdvd)
      rw [hdiv] at this
      exact this.symm
    have hwait := hf.waiting_at_end (Nat.le_of_eq hend.symm)
    rw [hdiv, Job.wake_released hwait hdvd]
    have hmet := hc.met_eq
    rw [Job.judged_of_waiting hwait] at hmet
    exact ⟨Job.fits_release hwait (fun m hm => hf.report_later m (by omega)) hend,
      Job.credit_release hwait (hf.report_later _ (Nat.lt_succ_self _)) hmet
        hc.met_hard⟩
  · rw [if_neg fun h => hdvd (Nat.mod_eq_zero_of_dvd h), Nat.add_zero] at hdiv
    rw [hdiv, Job.wake_kept hdvd]
    exact ⟨hf, hc⟩

theorem fits_credit_jobAt (t : Nat) :
    Job.Fits p (t / p.period) t (jobAt alg p charged t) ∧
    Job.Credit p (t / p.period) (jobAt alg p charged t) := by
  induction t with
  | zero =>
      rw [Nat.zero_div]
      exact ⟨Job.fits_initial alg p, Job.credit_initial alg p⟩
  | succ t ih =>
      obtain ⟨hf, hc⟩ := ih
      rw [jobAt_succ]
      refine fits_credit_wake alg p (hf.cull_account (charged t)) ?_
      exact (hc.account hf (charged t)).cull (hf.account (charged t)).2.2.2.2 _

theorem fits_jobAt (t : Nat) :
    Job.Fits p (t / p.period) t (jobAt alg p charged t) :=
  (fits_credit_jobAt alg p charged t).1

theorem credit_jobAt (t : Nat) :
    Job.Credit p (t / p.period) (jobAt alg p charged t) :=
  (fits_credit_jobAt alg p charged t).2

theorem fits_culled (t : Nat) :
    Job.Fits p (t / p.period) (t + 1) (culled alg p charged t) :=
  (fits_jobAt alg p charged t).cull_account (charged t)

theorem credit_accounted (t : Nat) :
    Job.Credit p (t / p.period) (accounted alg p charged t) :=
  (credit_jobAt alg p charged t).account (fits_jobAt alg p charged t) _

/-! ## The life of one job -/

theorem Job.account_ready {p : JobParams} {b : Bool} {j : Job}
    (h : (j.account p b).ready = true) : j.ready = true := by
  by_cases hc : b = true ∧ j.ready = true
  · exact hc.2
  · rwa [Job.account_idle hc] at h

theorem Job.cull_ready {p : JobParams} {t : Nat} {j : Job} :
    (j.cull p t).ready = true ↔ j.ready = true ∧ ¬ j.late p t := by
  by_cases hc : j.ready = true ∧ j.late p t
  · rw [Job.cull_dropped hc]
    simp [Job.drop, hc.2]
  · rw [Job.cull_kept hc]
    exact ⟨fun h => ⟨h, fun hl => hc ⟨h, hl⟩⟩, fun h => h.1⟩

theorem Job.account_remaining_le {p : JobParams} {b : Bool} (j : Job) :
    (j.account p b).remaining ≤ j.remaining := by
  by_cases hc : b = true ∧ j.ready = true
  · obtain ⟨rfl, hr⟩ := hc
    rw [Job.account_charged hr]
    by_cases hdone : j.remaining - 1 = 0
    · rw [Job.charge_done hdone]
      exact Nat.zero_le _
    · rw [Job.charge_more hdone]
      exact Nat.sub_le _ _
  · rw [Job.account_idle hc]

theorem Job.cull_remaining_le {p : JobParams} {t : Nat} (j : Job) :
    (j.cull p t).remaining ≤ j.remaining := by
  by_cases hc : j.ready = true ∧ j.late p t
  · rw [Job.cull_dropped hc]
    exact Nat.le_refl _
  · rw [Job.cull_kept hc]

theorem Job.release_remaining (p : JobParams) (t : Nat) (j : Job) :
    (j.release alg p t).remaining = p.duration ∧
    (j.release alg p t).start = t := by
  unfold Job.release
  split <;> exact ⟨rfl, rfl⟩

theorem Job.release_ready {alg : Algorithm} {p : JobParams} {t : Nat} {j : Job}
    (hw : j.ready = false) :
    (j.release alg p t).ready = true ↔ ¬ skips alg p j := by
  unfold Job.release
  split
  · next hs => simp [hw, skips, hs.1, hs.2]
  · next hs => simpa [skips] using hs

/-- A task still ready after the accounting has the start and the counter it
had. -/
theorem Job.account_same {p : JobParams} {b : Bool} {j : Job}
    (h : (j.account p b).ready = true) :
    (j.account p b).start = j.start ∧ (j.account p b).met = j.met := by
  by_cases hc : b = true ∧ j.ready = true
  · obtain ⟨rfl, hr⟩ := hc
    rw [Job.account_charged hr] at h ⊢
    by_cases hdone : j.remaining - 1 = 0
    · rw [Job.charge_done hdone] at h
      exact absurd h (by simp)
    · rw [Job.charge_more hdone]
      exact ⟨rfl, rfl⟩
  · rw [Job.account_idle hc]
    exact ⟨rfl, rfl⟩

theorem Job.cull_same {p : JobParams} {u : Nat} {j : Job}
    (h : (j.cull p u).ready = true) : j.cull p u = j :=
  Job.cull_kept fun hc => (Job.cull_ready.mp h).2 hc.2

/-- Without a period starting, a task that is ready was ready before. -/
theorem ready_of_succ {t : Nat} (ht : (t + 1) % p.period ≠ 0)
    (h : (jobAt alg p charged (t + 1)).ready = true) :
    (jobAt alg p charged t).ready = true := by
  rw [jobAt_succ, Job.wake_kept ht, culled, Job.cull_ready] at h
  exact Job.account_ready h.1

theorem div_succ_of_not_dvd {t : Nat} (ht : (t + 1) % p.period ≠ 0) :
    (t + 1) / p.period = t / p.period := by
  rw [Nat.succ_div, if_neg fun hd => ht (Nat.mod_eq_zero_of_dvd hd),
    Nat.add_zero]

/-- A job that is ready has been ready since its release. -/
theorem ready_since {t : Nat} (h : (jobAt alg p charged t).ready = true) :
    ∀ u, t / p.period * p.period ≤ u → u ≤ t →
      (jobAt alg p charged u).ready = true := by
  induction t with
  | zero =>
      intro u _ hu
      rwa [Nat.le_zero.mp hu]
  | succ t ih =>
      intro u hlo hu
      rcases Nat.le_succ_iff.mp hu with hle | rfl
      · by_cases ht : (t + 1) % p.period = 0
        · rw [Nat.div_mul_cancel (Nat.dvd_of_mod_eq_zero ht)] at hlo
          omega
        · rw [div_succ_of_not_dvd p ht] at hlo
          exact ih (ready_of_succ alg p charged ht h) u hlo hle
      · exact h

end Run

end FreeRtosSim
