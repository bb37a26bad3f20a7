import FreeRtosSim.Job.Invariant

/-!
# The work behind a report

Every met period stands for `duration` ticks the task was charged, and the
part of the current job that is already done for as many ticks again. So the
ticks charged to a task bound what its report can say.
-/

namespace FreeRtosSim

variable (alg : Algorithm) (p : JobParams) (charged : Nat → Bool)

/-- Among the first `t` ticks, those that went into a job of the task. -/
def workAt (t : Nat) : Nat :=
  Nat.count (fun u => charged u = true ∧
    (jobAt alg p charged u).ready = true) t

/-- What is done of the current job. -/
def Job.progress (p : JobParams) (j : Job) : Nat :=
  if j.ready = true then p.duration - j.remaining else 0

/-- One more report makes at most one more met period. -/
theorem metCount_update_le (row : Nat → Bool) (k N : Nat) :
    metCount (Function.update row k true) N ≤ metCount row N + 1 := by
  have hlt : metCount (Function.update row k true) N ≤
      metCount row N + if k < N then 1 else 0 := by
    induction N with
    | zero => simp [metCount]
    | succ N ih =>
        unfold metCount at ih ⊢
        rw [Nat.count_succ, Nat.count_succ]
        by_cases hk : N = k
        · subst hk
          rw [Function.update_self]
          rw [if_neg (Nat.lt_irrefl N)] at ih
          rw [if_pos rfl, if_pos (Nat.lt_succ_self N)]
          omega
        · rw [Function.update_of_ne hk]
          have : (k < N + 1) ↔ (k < N) := by omega
          simp only [this]
          omega
  split at hlt <;> omega

theorem Job.progress_release {t : Nat} {j : Job} (hw : j.ready = false) :
    (j.release alg p t).progress p = 0 := by
  unfold Job.release Job.progress
  split
  · simp [hw]
  · simp

theorem Job.progress_cull_le {t : Nat} (j : Job) :
    (j.cull p t).progress p ≤ j.progress p := by
  by_cases hc : j.ready = true ∧ j.late p t
  · rw [Job.cull_dropped hc]
    exact Nat.zero_le _
  · rw [Job.cull_kept hc]

theorem Job.cull_report {p : JobParams} {t : Nat} (j : Job) :
    (j.cull p t).report = j.report := by
  by_cases hc : j.ready = true ∧ j.late p t
  · rw [Job.cull_dropped hc]
    rfl
  · rw [Job.cull_kept hc]

theorem Job.wake_report {alg : Algorithm} {p : JobParams} {t : Nat} (j : Job) :
    (j.wake alg p t).report = j.report := by
  unfold Job.wake
  split
  · exact Job.release_report
  · rfl

/-- The accounting turns the tick it charges into progress or a report. -/
theorem Job.Fits.account_work {p : JobParams} {k t : Nat} {j : Job}
    (h : Fits p k t j) (b : Bool) (K : Nat) :
    p.duration * metCount (j.account p b).report K +
        (j.account p b).progress p ≤
      p.duration * metCount j.report K + j.progress p +
        if b = true ∧ j.ready = true then 1 else 0 := by
  by_cases hc : b = true ∧ j.ready = true
  · obtain ⟨rfl, hr⟩ := hc
    have hpos := h.remaining_pos hr
    have hle := h.remaining_le
    rw [if_pos ⟨rfl, hr⟩, account_charged hr]
    have hprog : j.progress p = p.duration - j.remaining := if_pos hr
    by_cases hdone : j.remaining - 1 = 0
    · rw [charge_done hdone, hprog]
      have hmet := metCount_update_le j.report (j.start / p.period) K
      have hmul := Nat.mul_le_mul_left p.duration hmet
      have hd := p.duration_pos
      rw [Nat.mul_add, Nat.mul_one] at hmul
      simp only [progress, Bool.false_eq_true, if_false]
      omega
    · rw [charge_more hdone, hprog]
      simp only [progress, hr, if_true]
      omega
  · rw [if_neg hc, account_idle hc]
    exact Nat.le_refl _

theorem work_jobAt (K t : Nat) :
    p.duration * metCount (jobAt alg p charged t).report K +
      (jobAt alg p charged t).progress p ≤ workAt alg p charged t := by
  induction t with
  | zero =>
      have hrep : (jobAt alg p charged 0).report = fun _ => false :=
        Job.release_report
      have hprog : (jobAt alg p charged 0).progress p = 0 :=
        Job.progress_release alg p rfl
      have hmet : metCount (fun _ => false) K = 0 := by
        simp [metCount, Nat.count_eq_card_filter_range]
      rw [hrep, hprog, hmet]
      exact Nat.zero_le _
  | succ t ih =>
      have hacc := (fits_jobAt alg p charged t).account_work (charged t) K
      have hcull : (culled alg p charged t).report =
          (accounted alg p charged t).report := Job.cull_report _
      have hwork : workAt alg p charged (t + 1) = workAt alg p charged t +
          if charged t = true ∧ (jobAt alg p charged t).ready = true then 1
          else 0 := Nat.count_succ _ _
      have hprog : (jobAt alg p charged (t + 1)).progress p ≤
          (accounted alg p charged t).progress p := by
        refine Nat.le_trans ?_ (Job.progress_cull_le p (t := t + 1) _)
        rw [jobAt_succ]
        show _ ≤ (culled alg p charged t).progress p
        unfold Job.wake
        split
        · next hw =>
            rw [Job.progress_release alg p hw.1]
            exact Nat.zero_le _
        · exact Nat.le_refl _
      rw [jobAt_succ, Job.wake_report, hcull, ← jobAt_succ]
      unfold accounted at hprog ⊢
      omega

/-- The bound when the accounting of tick `t + 1` is done. -/
theorem work_accounted (K t : Nat) :
    p.duration * metCount (accounted alg p charged t).report K ≤
      workAt alg p charged (t + 1) := by
  have hacc := (fits_jobAt alg p charged t).account_work (charged t) K
  have hold := work_jobAt alg p charged K t
  have hwork : workAt alg p charged (t + 1) = workAt alg p charged t +
      if charged t = true ∧ (jobAt alg p charged t).ready = true then 1
      else 0 := Nat.count_succ _ _
  unfold accounted
  omega

end FreeRtosSim
